import LayerStack.Json.Reader
import LayerStack.Text.Case
import LayerStack.Web.HeaderValue

/-! The language that a message prefers among those that it is offered.  Its header lists tags with
qualities from zero to one; a language is accepted by the items that name it or else by the
wildcard, and the accepted language of the highest quality wins.  If none is accepted, the items are
tried again by the first part of their tags. -/

namespace LayerStack.Web

structure Preference where
  tag : List Char
  quality : Rat

namespace Preference

/-- The number that a quality is written as: digits, and places after a point if there is one. -/
def quality? (cs : List Char) : Option Rat :=
  let negative := cs.head? == some '-'
  let cs := if negative then cs.drop 1 else cs
  let whole := cs.takeWhile Char.isDigit
  let number (ds : List Char) := Json.natOfDigits (ds.map Char.toNat)
  let value? := match cs.dropWhile Char.isDigit with
    | [] => some (Binary64.ofDecimal negative (number whole) 0)
    | '.' :: places =>
      if places.isEmpty || !places.all Char.isDigit then none
      else some (Binary64.ofDecimal negative (number (whole ++ places)) (-places.length))
    | _ => none
  if whole.isEmpty then none else value?.bind Binary64.toRat?

/-- The quality that an item gives; one that is malformed or out of range is none. -/
def givenQuality? (parameters : Entries (List Char) (List Char)) : Option Rat :=
  match parameters.get? ['q'] with
  | none => some 1
  | some value =>
    (quality? (HeaderValue.trim value)).filter fun quality => decide (0 ≤ quality ∧ quality ≤ 1)

/-- A parameter behind a tag. -/
def parameterText (parameter : HeaderValue.Parameter) : List Char :=
  "; ".toList ++ parameter.1 ++ '=' :: parameter.2

/-- The preference of an item, which has none without a quality.  Its other parameters stay in the
tag, so that it names no language. -/
def ofItem? (item : List Char) : Option Preference :=
  let parameters := HeaderValue.parameters item
  let others := parameters.filter fun parameter => decide (parameter.1 ≠ ['q'])
  (givenQuality? parameters).map fun quality =>
    ⟨HeaderValue.bare item ++ others.flatMap parameterText, quality⟩

def ofHeader (header : String) : List Preference :=
  (HeaderValue.items header.toList).filterMap ofItem?

def isWildcard (preference : Preference) : Bool := preference.tag == ['*']

/-- Whether a preference is for a language, in whatever case it is written. -/
def names (preference : Preference) (language : String) : Bool :=
  decide (Text.lower preference.tag = Text.lower language.toList)

/-- The preference with its tag cut to the first part. -/
def primary (preference : Preference) : Preference :=
  { preference with tag := preference.tag.takeWhile fun c => c ≠ '-' && c ≠ '_' }

end Preference

/-- How well a language is accepted: the quality, and whether it is accepted by name. -/
structure Acceptance where
  quality : Rat
  byName : Bool

namespace Acceptance

def highest? : List Rat → Option Rat
  | [] => none
  | q :: rest =>
    match highest? rest with
    | some r => some (if r < q then q else r)
    | none => some q

/-- How well a language is accepted, if its quality is not zero. -/
def of? (preferences : List Preference) (language : String) : Option Acceptance :=
  let qualities (accepts : Preference → Bool) :=
    (preferences.filter accepts).map Preference.quality
  let acceptance? : Option Acceptance := match highest? (qualities fun p => p.names language) with
    | some quality => some ⟨quality, true⟩
    | none => (highest? (qualities Preference.isWildcard)).map fun quality => ⟨quality, false⟩
  acceptance?.filter fun acceptance => decide (0 < acceptance.quality)

/-- Whether `a` is better than `b`: by quality, and at the same quality by name. -/
def better (a b : Acceptance) : Bool :=
  decide (b.quality < a.quality) ||
    (decide (a.quality = b.quality) && a.byName && !b.byName)

/-- The best one of the offered languages that are accepted, with how well it is accepted.  Of two
that are accepted alike it is the one that is offered first. -/
def bestOf (preferences : List Preference) : List String → Option (String × Acceptance)
  | [] => none
  | language :: rest =>
    match of? preferences language, bestOf preferences rest with
    | none, best => best
    | some a, none => some (language, a)
    | some a, some (other, b) => if b.better a then some (other, b) else some (language, a)

theorem mem_of_bestOf {preferences : List Preference} {offered : List String}
    {best : String × Acceptance} (h : bestOf preferences offered = some best) :
    best.1 ∈ offered := by
  induction offered generalizing best with
  | nil => simp [bestOf] at h
  | cons language rest ih =>
    rw [bestOf] at h
    split at h
    · exact List.mem_cons_of_mem _ (ih h)
    · obtain rfl := Option.some.inj h
      exact List.mem_cons_self
    next hrest =>
      split at h <;> obtain rfl := Option.some.inj h
      · exact List.mem_cons_of_mem _ (ih hrest)
      · exact List.mem_cons_self

end Acceptance

/-- The one of the offered languages that a header prefers, if it accepts any. -/
def bestMatch (header : Option String) (offered : List String) : Option String :=
  let best (preferences : List Preference) := (Acceptance.bestOf preferences offered).map (·.1)
  header.bind fun header =>
    let preferences := Preference.ofHeader header
    (best preferences).or (best (preferences.map Preference.primary))

theorem mem_of_bestMatch {header : Option String} {offered : List String} {language : String}
    (h : bestMatch header offered = some language) : language ∈ offered := by
  obtain ⟨header, -, h⟩ := Option.bind_eq_some_iff.mp h
  rcases Option.or_eq_some_iff.mp h with h | ⟨-, h⟩ <;>
    obtain ⟨best, hbest, rfl⟩ := Option.map_eq_some_iff.mp h <;>
    exact Acceptance.mem_of_bestOf hbest

end LayerStack.Web
