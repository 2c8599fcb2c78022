import LayerStack.Proofs.Entries
import LayerStack.Proofs.Responses
import LayerStack.Web.Message

/-! Messages as requests.  A value that is read from a text is one of a JSON text, so that a body
posts every value that is read from it; and a message asks for the route at its path, if the route
answers its method. -/

namespace LayerStack

namespace Json

theorem natOfDigits_lt {ns : List Nat} (h : ∀ n ∈ ns, isDigit n = true) :
    natOfDigits ns < 10 ^ ns.length := by
  have hfoldl : ∀ start, (ns.map fun n => n - '0'.toNat).foldl (fun n d => 10 * n + d) start <
      (start + 1) * 10 ^ ns.length := by
    induction ns with
    | nil => simp
    | cons n rest ih =>
      obtain ⟨hn, hrest⟩ := List.forall_mem_cons.mp h
      intro start
      have hdigit : n - '0'.toNat < 10 := by
        have hle := (of_decide_eq_true hn).2
        simp only [Char.reduceToNat] at hle ⊢
        omega
      calc (rest.map fun n => n - '0'.toNat).foldl (fun n d => 10 * n + d)
            (10 * start + (n - '0'.toNat))
          < (10 * start + (n - '0'.toNat) + 1) * 10 ^ rest.length := ih hrest _
        _ ≤ (10 * (start + 1)) * 10 ^ rest.length := Nat.mul_le_mul_right _ (by omega)
        _ = (start + 1) * 10 ^ (n :: rest).length := by rw [List.length_cons, pow_succ]; ring
  simpa [natOfDigits, Decimal.natOfDigits] using hfoldl 0

theorem isDigit_of_mem_scanWhole {ns : List Nat} : ∀ n ∈ (scanWhole ns).1, isDigit n = true := by
  unfold scanWhole
  split
  · simp [isDigit, zeroDigit]
  · exact fun n hn => List.mem_takeWhile_imp hn

/-- A number that is read has a numeral, as it is written in one. -/
theorem hasNumeral_of_scanNumber? {ns rest : List Nat} {x : Number}
    (h : scanNumber? ns = some (x, rest)) : (Value.num x).hasNumeral = true := by
  simp only [scanNumber?] at h
  generalize (ns.head? == some minus) = negative at h
  generalize (if negative = true then ns.drop 1 else ns) = unsigned at h
  split at h
  · simp at h
  split at h
  · obtain ⟨rfl, -⟩ := Prod.mk.inj (Option.some.inj h)
    rfl
  split at h
  · obtain ⟨rfl, -⟩ := Prod.mk.inj (Option.some.inj h)
    rfl
  next hplaces =>
    have hnone : (scanPlaces (scanWhole unsigned).2).1 = [] := by simpa using hplaces
    split at h
    · simp at h
    next hlength =>
      obtain ⟨rfl, -⟩ := Prod.mk.inj (Option.some.inj h)
      have hlt : natOfDigits (scanWhole unsigned).1 < Decimal.numeralBound := by
        unfold Decimal.numeralBound
        -- The power is too large to be computed, so that the limit must not be seen.
        generalize Decimal.maxNumeralDigits = most at hlength ⊢
        exact (natOfDigits_lt isDigit_of_mem_scanWhole).trans_le
          (Nat.pow_le_pow_right (by decide) (Nat.not_lt.mp hlength))
      rw [hnone, List.append_nil, Value.hasNumeral, decide_eq_true_iff]
      cases negative <;> simpa using hlt

theorem isJson_of_readScalar {ns rest : List Nat} {value : Value}
    (h : readScalar ns = .ok (value, rest)) : value.isJson = true := by
  simp only [readScalar] at h
  split at h
  next read hread =>
    obtain rfl := Except.ok.inj h
    rw [Option.orElse_eq_orElse, Option.orElse_eq_or, Option.or_eq_some_iff] at hread
    rcases hread with hword | ⟨-, hnumber⟩
    · obtain ⟨word, hmem, hword⟩ := List.exists_of_findSome?_eq_some hword
      obtain ⟨_, -, heq⟩ := Option.map_eq_some_iff.mp hword
      obtain rfl : word.2 = value := congrArg Prod.fst heq
      simp only [List.mem_cons, List.not_mem_nil, or_false] at hmem
      rcases hmem with rfl | rfl | rfl | rfl | rfl | rfl <;> rfl
    · obtain ⟨⟨x, _⟩, hscan, heq⟩ := Option.map_eq_some_iff.mp hnumber
      obtain ⟨rfl, -⟩ := Prod.mk.inj heq
      simp [Value.isJson, Value.all, hasNumeral_of_scanNumber? hscan, Value.hasDistinctKeys]
  · simp at h

/-- What is read with some fuel is a value of a JSON text, and so are the items of a list and the
members of an object. -/
structure ReadsJson (fuel : Nat) : Prop where
  value : ∀ {depth : Nat} {ns rest : List Nat} {value : Value},
    readValue fuel depth ns = .ok (value, rest) → value.isJson = true
  items : ∀ {depth : Nat} {ns rest : List Nat} {items : List Value},
    readItems fuel depth ns = .ok (items, rest) → ∀ item ∈ items, item.isJson = true
  members : ∀ {depth : Nat} {ns rest : List Nat} {pairs : List (Text × Value)},
    readMembers fuel depth ns = .ok (pairs, rest) → ∀ pair ∈ pairs, pair.2.isJson = true

namespace ReadsJson

variable {fuel depth : Nat} {ns rest : List Nat}

theorem value_succ (ih : ReadsJson fuel) {value : Value}
    (h : readValue (fuel + 1) depth ns = .ok (value, rest)) : value.isJson = true := by
  unfold readValue at h
  split at h
  -- a text
  · obtain ⟨⟨s, _⟩, -, h⟩ := bind_eq_ok.mp h
    obtain ⟨rfl, -⟩ := Prod.mk.inj (Except.ok.inj h)
    rfl
  -- a list
  · split at h
    · simp at h
    split at h
    · obtain ⟨rfl, -⟩ := Prod.mk.inj (Except.ok.inj h)
      rfl
    · obtain ⟨⟨items, _⟩, hitems, h⟩ := bind_eq_ok.mp h
      obtain ⟨rfl, -⟩ := Prod.mk.inj (Except.ok.inj h)
      exact Value.isJson_list.mpr (ih.items hitems)
  -- an object, whose members are set one after the other
  · split at h
    · simp at h
    split at h
    · obtain ⟨rfl, -⟩ := Prod.mk.inj (Except.ok.inj h)
      rfl
    · obtain ⟨⟨pairs, _⟩, hpairs, h⟩ := bind_eq_ok.mp h
      obtain ⟨rfl, -⟩ := Prod.mk.inj (Except.ok.inj h)
      refine Value.isJson_obj.mpr ⟨Entries.nodup_keys_ofPairs pairs, fun member hmember => ?_⟩
      have hpair := (Entries.mem_foldl_set hmember).resolve_left List.not_mem_nil
      exact ih.members hpairs member hpair
  · exact isJson_of_readScalar h

theorem items_succ (ih : ReadsJson fuel) {items : List Value}
    (h : readItems (fuel + 1) depth ns = .ok (items, rest)) :
    ∀ item ∈ items, item.isJson = true := by
  unfold readItems at h
  obtain ⟨⟨item, _⟩, hitem, h⟩ := bind_eq_ok.mp h
  have hfirst := ih.value hitem
  dsimp only at h
  split at h
  · obtain ⟨⟨others, _⟩, hothers, h⟩ := bind_eq_ok.mp h
    obtain ⟨rfl, -⟩ := Prod.mk.inj (Except.ok.inj h)
    exact List.forall_mem_cons.mpr ⟨hfirst, ih.items hothers⟩
  · obtain ⟨rfl, -⟩ := Prod.mk.inj (Except.ok.inj h)
    exact List.forall_mem_singleton.mpr hfirst
  · cases h

theorem members_succ (ih : ReadsJson fuel) {pairs : List (Text × Value)}
    (h : readMembers (fuel + 1) depth ns = .ok (pairs, rest)) :
    ∀ pair ∈ pairs, pair.2.isJson = true := by
  unfold readMembers at h
  split at h
  · obtain ⟨⟨key, _⟩, -, h⟩ := bind_eq_ok.mp h
    dsimp only at h
    split at h
    · obtain ⟨⟨value, _⟩, hvalue, h⟩ := bind_eq_ok.mp h
      have hfirst : ((key, value) : Text × Value).2.isJson = true := ih.value hvalue
      dsimp only at h
      split at h
      · obtain ⟨⟨others, _⟩, hothers, h⟩ := bind_eq_ok.mp h
        obtain ⟨rfl, -⟩ := Prod.mk.inj (Except.ok.inj h)
        exact List.forall_mem_cons.mpr ⟨hfirst, ih.members hothers⟩
      · obtain ⟨rfl, -⟩ := Prod.mk.inj (Except.ok.inj h)
        exact List.forall_mem_singleton.mpr hfirst
      · cases h
    · cases h
  · cases h

end ReadsJson

/-- Every step into a value spends some of the fuel. -/
theorem readsJson (fuel : Nat) : ReadsJson fuel := by
  induction fuel with
  | zero => constructor <;> simp [readValue, readItems, readMembers]
  | succ fuel ih => exact ⟨ih.value_succ, ih.items_succ, ih.members_succ⟩

/-- What is read from a text is a value of a JSON text: whole numbers have numerals, and the members
of an object different names. -/
theorem isJson_of_read [Machine] {text : Text} {value : Value} (h : read text = .ok value) :
    value.isJson = true := by
  obtain ⟨⟨read, rest⟩, hread, h⟩ := bind_eq_ok.mp h
  dsimp only at h
  split at h
  · obtain rfl := Except.ok.inj h
    exact (readsJson _).value hread
  · cases h

end Json

namespace Web

open Service (Route Request Response Defaults Visit Destination)

/-- A body of the right media type posts the value that is read from its text. -/
theorem Body.posted_of_read [Machine] {body : Body} {text : Text} {value : Value}
    (htype : body.isJson = true) (hsent : Text.ofSent? body.text = some text)
    (hread : Json.read text = .ok value) :
    body.posted = .json value (Json.isJson_of_read hread) := by
  rw [posted, if_pos htype, hsent]
  simp only [Option.map_some, hread, Service.Posted.ofValue, Json.isJson_of_read hread, dif_pos]

/-! ### Where messages are led -/

theorem Resource.ofPath?_eq_view {path : List Char} {route : Route} :
    ofPath? path = some (.view route) ↔ path = route.path.toList := by
  constructor
  · intro h
    unfold ofPath? at h
    split at h
    next found hfound =>
      obtain rfl : found = route := by simpa using h
      have hpath := List.find?_some hfound
      exact (of_decide_eq_true hpath).symm
    · split at h <;> simp at h
  · rintro rfl
    cases route <;> rfl

/-- A method that a route answers with its view: one of its own, or the one for the head of what can
be read. -/
def Viewed (route : Route) (method : String) : Prop :=
  method ∈ route.methods ∨ method = "HEAD" ∧ "GET" ∈ route.methods

theorem ne_options_of_viewed {route : Route} {method : String} (h : Viewed route method) :
    method ≠ "OPTIONS" := by
  rintro rfl
  rcases h with h | ⟨h, -⟩
  · cases route <;> simp [Route.methods] at h
  · simp at h

theorem destination_eq_view {method : String} {path : List Char} {route : Route} :
    destination method path = .view route ↔ path = route.path.toList ∧ Viewed route method := by
  constructor
  · intro h
    unfold destination at h
    split at h
    next resource hresource =>
      split at h
      next hanswers =>
        unfold Resource.destination at h
        split at h
        · simp at h
        next hmethod =>
          cases resource with
          | file => simp at h
          | view found =>
            obtain rfl : found = route := by simpa using h
            have hviewed : Viewed found method := (of_decide_eq_true hanswers).imp_right
              fun h => h.resolve_left hmethod
            exact ⟨Resource.ofPath?_eq_view.mp hresource, hviewed⟩
      · simp at h
    · split at h
      · simp at h
      · split at h <;> simp at h
  · rintro ⟨rfl, hviewed⟩
    have hanswers : (Resource.view route).answers method = true :=
      decide_eq_true (hviewed.imp_right .inr)
    rw [destination, Resource.ofPath?_eq_view.mpr rfl]
    simp only [hanswers, if_true, Resource.destination, ne_options_of_viewed hviewed, if_false]

/-- A message asks for the route at its path, if that answers its method. -/
theorem Message.asks_iff [Machine] {message : Message} {method : String} {route : Route} :
    message.request.Asks method route ↔ message.verb = method ∧
      message.target.lookupPath = route.path.toList ∧ Viewed route method := by
  rw [Request.Asks, request, destination_eq_view]
  exact and_congr_right (by rintro rfl; rfl)

/-- A message with the path of a route and one of its methods is answered by that route. -/
theorem serve_of_path [Machine] {message : Message} {route : Route}
    (hpath : message.target.lookupPath = route.path.toList) (hverb : message.verb ∈ route.methods)
    (defaults : Defaults) (visit : Visit) :
    serve defaults message visit =
      (Response.ofResult (Service.handle route defaults message.request visit).1,
        (Service.handle route defaults message.request visit).2) := by
  have hasks : message.request.Asks message.verb route :=
    Message.asks_iff.mpr ⟨rfl, hpath, .inl hverb⟩
  have hhead : message.verb ≠ "HEAD" := by
    intro h
    rw [h] at hverb
    cases route <;> simp [Route.methods] at hverb
  rw [serve, Service.respond_of_asks hasks]
  simp only [hhead, if_false]

end Web

end LayerStack
