import LayerStack.Proofs.Frames

/-! Where a move puts a layer.  Between two places of a model, a move takes the layer at the one and
puts it at the other, the others stay in their order, and the opposite move undoes it.  Positions
that count to one place name the same layer; but a target that counts from the end is counted among
the other layers, as the layer that moves is out when it is put in again. -/

namespace LayerStack

/-! ### One more item at a place -/

namespace AddedAt

variable {α : Type} {place : Int} {x : α} {items more : List α}

theorem exists_more (x : α) {place : Nat} (h : place ≤ items.length) :
    ∃ more, AddedAt place x items more :=
  ⟨_, items.take place, items.drop place, by simp [h], by simp, rfl⟩

theorem length (h : AddedAt place x items more) : more.length = items.length + 1 := by
  obtain ⟨before, after, -, rfl, rfl⟩ := h
  simp only [List.length_append, List.length_cons]
  omega

theorem place_le (h : AddedAt place x items more) : 0 ≤ place ∧ place ≤ items.length := by
  obtain ⟨before, after, hplace, rfl, rfl⟩ := h
  simp only [List.length_append]
  omega

/-- What is added, and where, settles what there is after it. -/
theorem more_eq {others : List α} (h : AddedAt place x items more)
    (hothers : AddedAt place x items others) : more = others := by
  obtain ⟨before, after, hplace, rfl, rfl⟩ := h
  obtain ⟨before', after', hplace', hitems, rfl⟩ := hothers
  have hlength : before.length = before'.length := by omega
  obtain ⟨rfl, rfl⟩ := List.append_inj hitems hlength
  rfl

theorem getElem?_eq {place : Nat} (h : AddedAt place x items more) : more[place]? = some x := by
  obtain ⟨before, after, hplace, rfl, rfl⟩ := h
  obtain rfl : before.length = place := by omega
  simp

theorem eraseIdx_eq {place : Nat} (h : AddedAt place x items more) :
    more.eraseIdx place = items := by
  obtain ⟨before, after, hplace, rfl, rfl⟩ := h
  obtain rfl : before.length = place := by omega
  simp [List.eraseIdx_append_of_length_le]

end AddedAt

/-! ### Positions -/

theorem placeOf_eq_emod {n : Nat} {position : Int} (hleast : -(n : Int) ≤ position)
    (hmost : position < n) : placeOf n position = position % n := by
  unfold placeOf
  split
  next hneg =>
    have hplace : (n + position) % n = n + position := Int.emod_eq_of_lt (by omega) (by omega)
    rw [← hplace, Int.add_emod_left]
  next hpos => exact (Int.emod_eq_of_lt (by omega) hmost).symm

theorem placeOf_emod {n : Nat} {position : Int} (hleast : -(n : Int) ≤ position)
    (hmost : position < n) : placeOf n (position % n) = placeOf n position := by
  have hpos : 0 ≤ position % n := Int.emod_nonneg _ (by omega)
  have hlt : position % n < n := Int.emod_lt_of_pos _ (by omega)
  rw [placeOf_eq_emod (by omega) hlt, Int.emod_emod, placeOf_eq_emod hleast hmost]

theorem isPosition_of_lt {n : Nat} {position : Int} (hlength : (n : Int) ≤ maxPosition)
    (hleast : -(n : Int) ≤ position) (hmost : position < n) : isPosition position = true := by
  simp only [isPosition, decide_eq_true_eq]
  omega

namespace Model

variable {model moved : Model} {layer : Layer} {others : List Layer}

/-- The place of a layer in a model is less than the number of layers. -/
theorem place?_of_addedAt {position : Int}
    (h : AddedAt (placeOf model.layers.length position) layer others model.layers) :
    ∃ place : Nat, place? model.layers.length position = some place ∧
      AddedAt place layer others model.layers := by
  have hlength := h.length
  obtain ⟨hleast, hmost⟩ := h.place_le
  obtain ⟨place, hplace⟩ := Int.eq_ofNat_of_zero_le hleast
  refine ⟨place, place?_eq_some_iff.mpr ⟨hplace.symm, by omega⟩, ?_⟩
  rwa [← hplace]

theorem layerAt_of_addedAt {position : Int} (hposition : isPosition position = true)
    (h : AddedAt (placeOf model.layers.length position) layer others model.layers) :
    model.layerAt position = .ok layer := by
  obtain ⟨place, hplace, hadded⟩ := place?_of_addedAt h
  simp [layerAt, hposition, hplace, hadded.getElem?_eq]

theorem takeOut_of_addedAt {position : Int} (hposition : isPosition position = true)
    (h : AddedAt (placeOf model.layers.length position) layer others model.layers) :
    model.takeOut position = .ok (layer, ⟨others⟩) := by
  obtain ⟨place, hplace, hadded⟩ := place?_of_addedAt h
  have hout : takeOut? model.layers position = some (layer, others) :=
    takeOut?_eq_some_iff.mpr ⟨place, hplace, hadded.getElem?_eq, hadded.eraseIdx_eq⟩
  simp [takeOut, hposition, hout]

theorem insert_of_addedAt {position : Int} (hposition : isPosition position = true)
    (h : AddedAt (placeFor others.length (some position)) layer others moved.layers) :
    insert ⟨others⟩ layer (some position) = .ok moved := by
  have hmoved := h.more_eq (addedAt_insertAt others position layer)
  simp [insert, hposition, ← hmoved]

/-- A layer that is at the place of the source is moved to the place for the target. -/
theorem move_of_addedAt {source target : Int} (hne : source ≠ target)
    (hsource : isPosition source = true) (htarget : isPosition target = true)
    (hmodel : AddedAt (placeOf model.layers.length source) layer others model.layers)
    (hmoved : AddedAt (placeFor others.length (some target)) layer others moved.layers) :
    model.move source target = (.ok (), moved) := by
  simp [move, hne, takeOut_of_addedAt hsource hmodel, insert_of_addedAt htarget hmoved]

/-- A move between two places of a model.  A target that counts from the end is the first place or
none: any other would be counted among the other layers. -/
theorem move_places {source target : Int} (hlength : (model.layers.length : Int) ≤ maxPosition)
    (hsource : -(model.layers.length : Int) ≤ source ∧ source < model.layers.length)
    (htarget : 0 ≤ target ∧ target < model.layers.length ∨ target = -(model.layers.length : Int))
    (hmodel : AddedAt (source % model.layers.length) layer others model.layers)
    (hmoved : AddedAt (target % model.layers.length) layer others moved.layers) :
    model.move source target = (.ok (), moved) := by
  have hothers := hmodel.length
  have hrange : -(model.layers.length : Int) ≤ target ∧ target < model.layers.length := by omega
  by_cases hne : source = target
  · subst hne
    obtain rfl : model = moved := congrArg mk (hmodel.more_eq hmoved)
    exact move_self model source
  · have hplace : target % model.layers.length = placeFor others.length (some target) := by
      rw [← placeOf_eq_emod hrange.1 hrange.2]
      show placeOf _ target = max 0 (min (others.length : Int) (placeOf others.length target))
      unfold placeOf
      split <;> omega
    refine move_of_addedAt hne (isPosition_of_lt hlength hsource.1 hsource.2)
      (isPosition_of_lt hlength hrange.1 hrange.2) ?_ (hplace ▸ hmoved)
    rwa [placeOf_eq_emod hsource.1 hsource.2]

/-- A move between two places that are counted from the start. -/
theorem move_between {source target : Nat} (hlength : (model.layers.length : Int) ≤ maxPosition)
    (hmodel : AddedAt source layer others model.layers)
    (hmoved : AddedAt target layer others moved.layers) :
    model.move source target = (.ok (), moved) := by
  have hothers := hmodel.length
  have hsource := hmodel.place_le
  have htarget := hmoved.place_le
  have hsourcePlace : (source : Int) % model.layers.length = source :=
    Int.emod_eq_of_lt (by omega) (by omega)
  have htargetPlace : (target : Int) % model.layers.length = target :=
    Int.emod_eq_of_lt (by omega) (by omega)
  rw [← hsourcePlace] at hmodel
  rw [← htargetPlace] at hmoved
  exact move_places hlength (by omega) (by omega) hmodel hmoved

/-- Every place of a model has a layer, beside the others. -/
theorem exists_addedAt {position : Int} (hleast : -(model.layers.length : Int) ≤ position)
    (hmost : position < model.layers.length) :
    ∃ layer others, AddedAt (position % model.layers.length) layer others model.layers := by
  have hbound : position % model.layers.length < model.layers.length :=
    Int.emod_lt_of_pos _ (by omega)
  obtain ⟨place, hplace⟩ := Int.eq_ofNat_of_zero_le
    (Int.emod_nonneg position (show (model.layers.length : Int) ≠ 0 by omega))
  rw [hplace] at hbound ⊢
  have hlt : place < model.layers.length := by omega
  exact ⟨_, _, addedAt_eraseIdx (List.getElem?_eq_getElem hlt)⟩

theorem takeOut_of_outside {position : Int}
    (h : position < -(model.layers.length : Int) ∨ (model.layers.length : Int) ≤ position) :
    model.takeOut position = .error (if isPosition position then
      if model.layers.isEmpty then .takeFromEmpty else .takeOutOfRange else .positionTooLarge) := by
  have hnone : takeOut? model.layers position = none := by
    simp [takeOut?, place?_eq_none_iff.mpr h]
  cases hposition : isPosition position <;> simp [takeOut, hposition, hnone]

/-! ### Moves and positions -/

/-- A move between two places of a model puts the layer of the one at the other and leaves the
others in their order, and the opposite move gives the model back.  No list has more items than
there are positions. -/
theorem move_undone {source target : Nat} (hlength : (model.layers.length : Int) ≤ maxPosition)
    (hsource : source < model.layers.length) (htarget : target < model.layers.length) :
    ∃ moved, model.move source target = (.ok (), moved) ∧
      moved.layers[target]? = some model.layers[source] ∧
      moved.layers.eraseIdx target = model.layers.eraseIdx source ∧
      moved.move target source = (.ok (), model) := by
  have hmodel : AddedAt source model.layers[source] (model.layers.eraseIdx source) model.layers :=
    addedAt_eraseIdx (List.getElem?_eq_getElem hsource)
  have hothers := hmodel.length
  obtain ⟨layers, hmoved⟩ := AddedAt.exists_more model.layers[source]
    (show target ≤ (model.layers.eraseIdx source).length by omega)
  have hsame : layers.length = model.layers.length := hmoved.length.trans hothers.symm
  refine ⟨⟨layers⟩, move_between hlength hmodel hmoved, hmoved.getElem?_eq, hmoved.eraseIdx_eq, ?_⟩
  exact move_between (by rwa [hsame]) hmoved hmodel

/-- A model with three layers. -/
def threeLayers : Model :=
  ⟨[Layer.ofKind "a" .relu, Layer.ofKind "b" .linear, Layer.ofKind "c" .gru]⟩

theorem move_undone_threeLayers :
    (threeLayers.layers.length : Int) ≤ maxPosition ∧ 0 < threeLayers.layers.length ∧
      2 < threeLayers.layers.length ∧
      ∃ moved, threeLayers.move (0 : Nat) (2 : Nat) = (.ok (), moved) ∧
        moved.layers[2]? = some (Layer.ofKind "a" .relu) ∧
        moved.layers.eraseIdx 2 = threeLayers.layers.eraseIdx 0 ∧
        moved.move (2 : Nat) (0 : Nat) = (.ok (), threeLayers) :=
  have hlength : (threeLayers.layers.length : Int) ≤ maxPosition := by decide
  ⟨hlength, by decide, by decide, move_undone hlength (by decide) (by decide)⟩

/-- Positions that count to one place are alike as the source of a move. -/
theorem move_source_emod {source target : Int}
    (hlength : (model.layers.length : Int) ≤ maxPosition)
    (hsource : -(model.layers.length : Int) ≤ source ∧ source < model.layers.length)
    (htarget : -(model.layers.length : Int) ≤ target ∧ target < model.layers.length)
    (hne : source ≠ target) :
    model.move source target = model.move (source % model.layers.length) target := by
  obtain ⟨layer, others, hmodel⟩ := exists_addedAt hsource.1 hsource.2
  have hothers := hmodel.length
  have hplace := hmodel.place_le
  by_cases hsame : source % model.layers.length = target
  · -- The layer is put where it was.
    have hback : AddedAt (target % model.layers.length) layer others model.layers := by
      rwa [← hsame, Int.emod_emod]
    rw [hsame, move_self]
    exact move_places hlength hsource (by omega) hmodel hback
  · have hmoved := addedAt_insertAt others target layer
    have htargetPosition := isPosition_of_lt hlength htarget.1 htarget.2
    rw [← placeOf_eq_emod hsource.1 hsource.2] at hmodel
    rw [move_of_addedAt hne (isPosition_of_lt hlength hsource.1 hsource.2) htargetPosition hmodel
      hmoved]
    rw [← placeOf_emod hsource.1 hsource.2] at hmodel
    rw [move_of_addedAt hsame (isPosition_of_lt hlength (by omega) (by omega)) htargetPosition
      hmodel hmoved]

/-- A target that is not counted among the other layers says where the layer is after the move. -/
theorem move_target_emod {source target : Int}
    (hlength : (model.layers.length : Int) ≤ maxPosition)
    (hsource : -(model.layers.length : Int) ≤ source ∧ source < model.layers.length)
    (htarget : 0 ≤ target ∧ target < model.layers.length ∨ target = -(model.layers.length : Int) ∨
      target = source) :
    model.move source target =
        model.move (source % model.layers.length) (target % model.layers.length) ∧
      ∃ moved layer, model.move source target = (.ok (), moved) ∧
        model.layerAt source = .ok layer ∧ moved.layerAt target = .ok layer := by
  obtain ⟨layer, others, hmodel⟩ := exists_addedAt hsource.1 hsource.2
  have hothers := hmodel.length
  have hplace := hmodel.place_le
  have hat : model.layerAt source = .ok layer :=
    layerAt_of_addedAt (isPosition_of_lt hlength hsource.1 hsource.2)
      (by rwa [placeOf_eq_emod hsource.1 hsource.2])
  by_cases hsame : target = source
  · subst hsame
    exact ⟨by rw [move_self, move_self], model, layer, move_self model target, hat, hat⟩
  · have htarget : 0 ≤ target ∧ target < model.layers.length ∨
        target = -(model.layers.length : Int) := by omega
    have hrange : -(model.layers.length : Int) ≤ target ∧ target < model.layers.length := by omega
    have htargetPlace : 0 ≤ target % model.layers.length := Int.emod_nonneg _ (by omega)
    have htargetLt : target % model.layers.length < model.layers.length :=
      Int.emod_lt_of_pos _ (by omega)
    obtain ⟨place, hnat⟩ := Int.eq_ofNat_of_zero_le htargetPlace
    obtain ⟨layers, hmoved⟩ := AddedAt.exists_more layer (show place ≤ others.length by omega)
    rw [← hnat] at hmoved
    have hlengths : layers.length = model.layers.length := hmoved.length.trans hothers.symm
    have hmove : model.move source target = (.ok (), ⟨layers⟩) :=
      move_places hlength hsource htarget hmodel hmoved
    have hmoveEmod : model.move (source % model.layers.length) (target % model.layers.length) =
        (.ok (), ⟨layers⟩) :=
      move_places hlength (by omega) (by omega) (by rwa [Int.emod_emod]) (by rwa [Int.emod_emod])
    refine ⟨hmove.trans hmoveEmod.symm, ⟨layers⟩, layer, hmove, hat, ?_⟩
    rw [← placeOf_eq_emod hrange.1 hrange.2, ← hlengths] at hmoved
    exact layerAt_of_addedAt (isPosition_of_lt hlength hrange.1 hrange.2) hmoved

/-- Positions that count to one place are alike as the source of a move, and as its target too as
far as they are not counted among the other layers; then the layer is where the target says.  Where
the source and the target are the same nothing is looked at, so that nothing is wrong with them;
else a source outside the model is the fault. -/
theorem move_emod (hlength : (model.layers.length : Int) ≤ maxPosition) :
    (∀ source target, -(model.layers.length : Int) ≤ source → source < model.layers.length →
      -(model.layers.length : Int) ≤ target → target < model.layers.length →
        (source ≠ target →
          model.move source target = model.move (source % model.layers.length) target) ∧
        (0 ≤ target ∨ target = -(model.layers.length : Int) ∨ target = source →
          model.move source target =
              model.move (source % model.layers.length) (target % model.layers.length) ∧
            ∃ moved layer, model.move source target = (.ok (), moved) ∧
              model.layerAt source = .ok layer ∧ moved.layerAt target = .ok layer)) ∧
    ∀ source target,
      source < -(model.layers.length : Int) ∨ (model.layers.length : Int) ≤ source →
        model.move source target = (if source = target then .ok () else
          .error (if isPosition source then
            if model.layers.isEmpty then .takeFromEmpty else .takeOutOfRange
          else .positionTooLarge), model) := by
  refine ⟨fun source target hleast hmost htleast htmost => ?_, fun source target houtside => ?_⟩
  · have hsource := And.intro hleast hmost
    exact ⟨move_source_emod hlength hsource ⟨htleast, htmost⟩,
      fun htarget => move_target_emod hlength hsource (by omega)⟩
  · rw [move]
    split
    · rfl
    · simp only [takeOut_of_outside houtside]

theorem move_emod_threeLayers :
    (threeLayers.layers.length : Int) ≤ maxPosition ∧
      threeLayers.move (-1) (-2) = threeLayers.move 2 (-2) ∧
      threeLayers.move (-1) (-3) = threeLayers.move 2 0 ∧
      threeLayers.move 3 (-1) = (.error .takeOutOfRange, threeLayers) :=
  have hlength : (threeLayers.layers.length : Int) ≤ maxPosition := by decide
  have hplaces := (move_emod hlength).1
  ⟨hlength, (hplaces (-1) (-2) (by decide) (by decide) (by decide) (by decide)).1 (by decide),
    ((hplaces (-1) (-3) (by decide) (by decide) (by decide) (by decide)).2 (by decide)).1,
    (move_emod hlength).2 3 (-1) (by decide)⟩

/-- Not all positions that count to one place are alike as the target of a move, and not every move
of a layer that is not there ends in a fault. -/
theorem not_move_emod :
    (¬ ∀ (model : Model) (source target : Int),
      -(model.layers.length : Int) ≤ source → source < model.layers.length →
      -(model.layers.length : Int) ≤ target → target < model.layers.length →
        model.move source target =
          model.move (source % model.layers.length) (target % model.layers.length)) ∧
    ¬ ∀ (model : Model) (source target : Int),
      source < -(model.layers.length : Int) ∨ (model.layers.length : Int) ≤ source →
        ∃ fault, (model.move source target).1 = .error fault := by
  constructor
  · intro h
    have hsame := h ⟨threeLayers.layers.take 2⟩ 0 (-1) (by decide) (by decide) (by decide)
      (by decide)
    exact absurd (congrArg Prod.snd hsame) (by decide +kernel)
  · intro h
    obtain ⟨fault, hfault⟩ := h .empty 0 0 (by decide)
    rw [move_self] at hfault
    simp at hfault

end Model

end LayerStack
