import LayerStack.Group.Named
import LayerStack.Proofs.Grouping
import LayerStack.Proofs.Literals
import LayerStack.Proofs.Results

/-! The named groups of a sequence of layers: every group gets a name and a rank, and no two groups
get the same name. -/

namespace LayerStack

namespace Kind

theorem find?_shortName (kind : Kind) :
    all.find? (fun other => decide (other.shortName = kind.shortName)) = some kind := by
  cases kind <;> decide

theorem shortName_inj {a b : Kind} (h : a.shortName = b.shortName) : a = b := by
  have ha := find?_shortName a
  rw [h, find?_shortName b] at ha
  exact (Option.some.inj ha).symm

theorem isAlpha_of_mem_shortName (kind : Kind) : ∀ c ∈ kind.shortName.toList, c.isAlpha = true := by
  rw [← List.all_eq_true]
  cases kind <;> rfl

theorem isDigit_of_mem_shortName (kind : Kind) :
    ∀ c ∈ kind.shortName.toList, (!c.isDigit) = true := by
  rw [← List.all_eq_true]
  cases kind <;> rfl

end Kind

namespace NamedGroup

/-- The digits of a name. -/
def suffix (earlier : Nat) : List Char := if earlier = 0 then [] else Nat.toDigits 10 (earlier + 1)

theorem toList_nameFor (kind : Kind) (earlier : Nat) :
    (nameFor kind earlier).toList = kind.shortName.toList ++ suffix earlier := by
  rw [nameFor, suffix]
  split <;> simp [Decimal.natText]

theorem isDigit_of_mem_suffix {earlier : Nat} : ∀ c ∈ suffix earlier, c.isDigit = true := by
  intro c hc
  rw [suffix] at hc
  split at hc
  · simp at hc
  · exact Decimal.isDigit_of_mem_toDigits c hc

theorem suffix_inj {m n : Nat} (h : suffix m = suffix n) : m = n := by
  have hdigits := congrArg (Nat.ofDigitChars 10 · 0) h
  by_cases hm : m = 0 <;> by_cases hn : n = 0 <;> simp [suffix, hm, hn] at hdigits ⊢
  omega

/-- A name tells the kind and the number of earlier groups of that kind. -/
theorem nameFor_inj {a b : Kind} {m n : Nat} (h : nameFor a m = nameFor b n) : a = b ∧ m = n := by
  -- Short names have no digits, so that a name can be cut where its digits start.
  have hsplit : ∀ (kind : Kind) (earlier : Nat),
      (nameFor kind earlier).toList.takeWhile (fun c => !c.isDigit) = kind.shortName.toList ∧
      (nameFor kind earlier).toList.dropWhile (fun c => !c.isDigit) = suffix earlier := by
    intro kind earlier
    have hword := kind.isDigit_of_mem_shortName
    have hstop : (suffix earlier).takeWhile (fun c => !c.isDigit) = [] := by
      cases hsuffix : suffix earlier with
      | nil => rfl
      | cons c rest =>
        have hc := isDigit_of_mem_suffix c (hsuffix ▸ List.mem_cons_self)
        simp [hc]
    have hkeep := List.takeWhile_append_dropWhile (p := fun c => !c.isDigit) (l := suffix earlier)
    rw [hstop, List.nil_append] at hkeep
    rw [toList_nameFor, List.takeWhile_append_of_pos hword, List.dropWhile_append_of_pos hword,
      hstop, hkeep, List.append_nil]
    exact ⟨rfl, rfl⟩
  obtain ⟨hworda, hsuffixa⟩ := hsplit a m
  obtain ⟨hwordb, hsuffixb⟩ := hsplit b n
  rw [h] at hworda hsuffixa
  exact ⟨Kind.shortName_inj (String.toList_inj.mp (hworda.symm.trans hwordb)),
    suffix_inj (hsuffixa.symm.trans hsuffixb)⟩

theorem isAlphanum_of_mem_nameFor (kind : Kind) (earlier : Nat) :
    ∀ c ∈ (nameFor kind earlier).toList, c.isAlphanum = true := by
  rw [toList_nameFor, List.forall_mem_append]
  constructor
  · intro c hc
    simp [Char.isAlphanum, kind.isAlpha_of_mem_shortName c hc]
  · intro c hc
    simp [Char.isAlphanum, isDigit_of_mem_suffix c hc]

/-! ### Naming all groups -/

/-- The names of groups of the given kinds that come after groups of the kinds `seen`. -/
def namesAfter (seen : List Kind) : List Kind → List String
  | [] => []
  | kind :: rest => nameFor kind (seen.count kind) :: namesAfter (kind :: seen) rest

theorem mem_namesAfter {seen kinds : List Kind} {name : String} (h : name ∈ namesAfter seen kinds) :
    ∃ kind earlier, name = nameFor kind earlier ∧ seen.count kind ≤ earlier := by
  induction kinds generalizing seen with
  | nil => simp [namesAfter] at h
  | cons kind rest ih =>
    rcases List.mem_cons.mp h with rfl | h
    · exact ⟨kind, _, rfl, le_rfl⟩
    · obtain ⟨other, earlier, rfl, hle⟩ := ih h
      exact ⟨other, earlier, rfl, List.count_le_count_cons.trans hle⟩

theorem nodup_namesAfter (seen kinds : List Kind) : (namesAfter seen kinds).Nodup := by
  induction kinds generalizing seen with
  | nil => exact List.nodup_nil
  | cons kind rest ih =>
    refine List.nodup_cons.mpr ⟨fun hmem => ?_, ih _⟩
    obtain ⟨other, earlier, hname, hle⟩ := mem_namesAfter hmem
    obtain ⟨rfl, rfl⟩ := nameFor_inj hname
    rw [List.count_cons_self] at hle
    omega

theorem exists_rankFor {ranks : List Rank} {group : Group} (h : group.start < ranks.length) :
    ∃ rank, rankFor ranks group = .ok rank := by
  rw [rankFor, List.getElem?_eq_getElem h]
  split
  · exact ⟨_, rfl⟩
  · exact ⟨_, rfl⟩

theorem nameAll_ok {ranks : List Rank} {groups : List Group}
    (h : ∀ group ∈ groups, group.start < ranks.length) (seen : List Kind) :
    ∃ units, nameAll ranks seen groups = .ok units ∧ units.map group = groups ∧
      units.map name = namesAfter seen (groups.map Group.kind) ∧
      ∀ unit ∈ units, rankFor ranks unit.group = .ok unit.rank := by
  induction groups generalizing seen with
  | nil => exact ⟨[], rfl, rfl, rfl, by simp⟩
  | cons first rest ih =>
    rw [List.forall_mem_cons] at h
    obtain ⟨units, hunits, hgroups, hnames, hranks⟩ := ih h.2 (first.kind :: seen)
    obtain ⟨rank, hrank⟩ := exists_rankFor h.1
    refine ⟨⟨first, nameFor first.kind (seen.count first.kind), rank⟩ :: units, ?_, ?_, ?_, ?_⟩
    · simp [nameAll, hrank, hunits]
    · simp [hgroups]
    · simp [namesAfter, hnames]
    · simpa [List.forall_mem_cons] using ⟨hrank, hranks⟩

/-! ### Naming the groups of layers -/

theorem length_beforeEach (rank : Rank) (layers : List Layer) :
    (Rank.beforeEach rank layers).length = layers.length := by
  induction layers generalizing rank with
  | nil => rfl
  | cons layer rest ih => simp [Rank.beforeEach, ih]

/-- What the naming gives to the groups of any layers. -/
theorem ofLayers_ok (layers : List Layer) :
    ∃ units, ofLayers layers = .ok units ∧ units.map group = Group.ofLayers layers ∧
      units.map name = namesAfter [] ((Group.ofLayers layers).map Group.kind) ∧
      ∀ unit ∈ units, rankFor (Rank.ofLayers layers) unit.group = .ok unit.rank := by
  refine nameAll_ok (fun group hgroup => ?_) []
  rw [Rank.ofLayers, length_beforeEach]
  exact Group.start_lt_of_mem_ofLayers hgroup

end NamedGroup

end LayerStack
