import LayerStack.Export.Framework
import LayerStack.Proofs.Outline
import LayerStack.Proofs.Literals
import LayerStack.Proofs.Results
import LayerStack.Proofs.Scans

/-! The calls that stand for a layer in generated source.  A layer that holds the fields of its kind
has one in every framework, and it is written on one line. -/

namespace LayerStack

open Export (OneLine oneLine_append oneLine_of_forall)

theorem Bare.oneLine {s : String} (h : Bare s) : OneLine s := oneLine_of_forall rfl h

theorem oneLine_of_isAlphanum {s : String} (h : ∀ c ∈ s.toList, c.isAlphanum = true) : OneLine s :=
  oneLine_of_forall rfl h

theorem Export.oneLine_intercalate {separator : String} (hseparator : OneLine separator)
    {parts : List String} (h : ∀ part ∈ parts, OneLine part) :
    OneLine (String.intercalate separator parts) := not_mem_intercalate hseparator h

theorem FieldRange.Holds.oneLine {range : FieldRange} {v : Value} (h : range.Holds v) :
    OneLine v.text.shown := by
  obtain ⟨x, hx⟩ := h.number?_isSome
  exact (Value.bare_of_number? hx).oneLine

theorem oneLine_int (n : Int) : OneLine (Value.int n).text.shown :=
  (Value.bare_of_number? (Value.number?_int n)).oneLine

theorem oneLine_bool (b : Bool) : OneLine (Value.bool b).text.shown := by cases b <;> decide

theorem Export.written_ok {v : Value} (h : v.isWritable = true) : written (.ok v) = .ok v :=
  if_pos h

theorem FieldRange.Holds.written_eq {range : FieldRange} {v : Value} (h : range.Holds v) :
    Export.written (.ok v) = .ok v := Export.written_ok h.isWritable

/-- The fields of a layer that holds them can be read and written out, and what they hold is as
their ranges allow it. -/
theorem Layer.Configured.exists_read_of {layer : Layer} (h : layer.Configured) {P : Value → Prop}
    (hP : ∀ {range : FieldRange} {v : Value}, range.Holds v → P v) :
    ∃ value : String → Value,
      (∀ field ∈ layer.kind.fields, layer.config.read field.key = .ok (value field.key) ∧
        Export.written (.ok (value field.key)) = .ok (value field.key)) ∧
      ∀ field ∈ layer.kind.fields, P (value field.key) := by
  refine ⟨fun key => (layer.config.get? key).getD .null, fun field hfield => ?_,
    fun field hfield => ?_⟩
  · obtain ⟨value, hget, hvalue⟩ := h.holds field hfield
    simp [Config.read, hget, hvalue.written_eq]
  · obtain ⟨value, hget, hvalue⟩ := h.holds field hfield
    simpa [hget] using hP hvalue

/-- The fields of a layer that holds them can be read, and what they hold is written on one line. -/
theorem Layer.Configured.exists_read {layer : Layer} (h : layer.Configured) :
    ∃ value : String → Value,
      (∀ field ∈ layer.kind.fields, layer.config.read field.key = .ok (value field.key) ∧
        Export.written (.ok (value field.key)) = .ok (value field.key)) ∧
      ∀ field ∈ layer.kind.fields, OneLine (value field.key).text.shown :=
  h.exists_read_of FieldRange.Holds.oneLine

namespace Export

@[simp] theorem oneLine_ite {c : Prop} [Decidable c] {s t : String} :
    OneLine (if c then s else t) ↔ if c then OneLine s else OneLine t := by
  split <;> rfl

@[simp] theorem isLine_ite {c : Prop} [Decidable c] {s t : String} :
    IsLine (if c then s else t) ↔ if c then IsLine s else IsLine t := by
  split <;> rfl

theorem Call.isLine_text {call : Call} (hcallee : IsLine call.callee)
    (hargs : ∀ arg ∈ call.args, OneLine arg.text) : IsLine call.text := by
  have hparts : OneLine (String.intercalate ", " (call.args.map Arg.text)) :=
    oneLine_intercalate (by decide) (by simpa using hargs)
  exact ((hcallee.append (by decide)).append hparts).append (by decide)

theorem Torch.constructor_ok {layer : Layer} (h : layer.Configured) (rank : Option Rank) :
    ∃ call, Torch.constructor layer.kind rank layer.config = .ok call ∧ IsLine call.text := by
  -- What a kind writes in its call is among the fields of that kind, so the kinds are gone through.
  obtain ⟨value, hread, hline⟩ := h.exists_read
  obtain ⟨id, kind, config⟩ := layer
  cases kind <;>
    simp [Kind.fields, Kind.attentionFields, Kind.recurrentFields, Field.whole, Field.flag,
      Field.rate] at hread hline <;>
    simp [constructor, readFlag, Config.readFlag, readSetting, hread, Except.map] <;>
    refine Call.isLine_text (by simp +decide) ?_ <;>
    simp +decide [Arg.text, Atom.text, Arg.positional, Arg.keyed, Arg.keyedFixed, hline,
      oneLine_bool]

theorem Keras.Application.isLine_line {application : Application}
    (hcall : IsLine application.call.text)
    (hoperands : ∀ operands ∈ application.operands, OneLine operands) :
    IsLine application.line := by
  have htarget : IsLine "x = " := by decide
  refine (htarget.append hcall.1).append ?_
  split
  next operands h =>
    simp only [oneLine_append]
    exact ⟨⟨by decide, hoperands operands h⟩, by decide⟩
  · decide

/-- The heads of an attention layer are not none, so that they share its width, and the share of
each is not wider than the whole. -/
theorem Keras.headWidth_ok {layer : Layer} (h : layer.Configured)
    (hkind : layer.kind = .attention) :
    ∃ width, headWidth layer.config = .ok (.int width) ∧
      written (.ok (.int width)) = .ok (.int width) := by
  have hfields : ∀ field ∈ Kind.attentionFields, ∃ n : Int, 1 ≤ n ∧
      (Value.int n).isWritable = true ∧ layer.config.read field.key = .ok (.int n) := by
    intro field hfield
    obtain ⟨value, hget, hvalue⟩ := h.holds field (by rwa [hkind])
    have hwhole : ∃ choices, field.range = .whole choices := by
      simp only [Kind.attentionFields, List.mem_cons, List.not_mem_nil, or_false] at hfield
      rcases hfield with rfl | rfl <;> exact ⟨_, rfl⟩
    obtain ⟨choices, hrange⟩ := hwhole
    rw [hrange] at hvalue
    cases hvalue with
    | @whole _ n positive finite =>
      exact ⟨n, positive, Number.isWritable_of_isFinite finite,
        by simp [Config.read, hget, Value.int]⟩
  simp only [Kind.attentionFields, List.forall_mem_cons] at hfields
  obtain ⟨⟨model, hmodelpos, hwritable, hmodel⟩, ⟨heads, hheadspos, -, hheads⟩, -⟩ := hfields
  have hne : heads ≠ 0 := by omega
  have hread : layer.config.read "d_model" = .ok (.int model) ∧
      layer.config.read "num_heads" = .ok (.int heads) := ⟨hmodel, hheads⟩
  refine ⟨model.fdiv heads, ?_, written_ok ?_⟩
  · rw [headWidth, hread.1, hread.2, Amount.floorQuotient_ok, Value.floorQuotient_int _ hne]
  · rw [Value.isWritable_int] at hwritable ⊢
    rw [Int.fdiv_eq_ediv_of_nonneg _ (by omega)]
    exact (Int.natAbs_ediv_le_natAbs model heads).trans_lt hwritable

theorem Keras.layer_ok {layer : Layer} (h : layer.Configured) {name : String}
    (hname : OneLine name) :
    ∃ application, Keras.layer layer.kind layer.config name = .ok application ∧
      IsLine application.line := by
  obtain ⟨value, hread, hline⟩ := h.exists_read
  have hwidth := Keras.headWidth_ok h
  obtain ⟨id, kind, config⟩ := layer
  -- Attention alone writes a number that is not in a field but computed from two of them.
  by_cases hkind : kind = .attention
  · subst hkind
    obtain ⟨width, hwidth⟩ := hwidth rfl
    simp [Kind.fields, Kind.attentionFields, Field.whole] at hread hline
    simp [Keras.layer, readSetting, hread, hwidth]
    refine Application.isLine_line (Call.isLine_text (by simp +decide) ?_) (by simp +decide)
    simp +decide [Arg.text, Atom.text, Arg.keyed, Arg.keyedFixed, hline, oneLine_int, hname]
  cases kind <;>
    simp [Kind.fields, Kind.attentionFields, Kind.recurrentFields, Field.whole, Field.flag,
      Field.rate] at hread hline hkind <;>
    simp [Keras.layer, readFlag, Config.readFlag, readSetting, hread, Except.map] <;>
    refine Application.isLine_line (Call.isLine_text (by simp +decide) ?_) (by simp +decide) <;>
    simp +decide [Arg.text, Atom.text, Arg.positional, Arg.keyed, Arg.keyedFixed, Arg.fixed, hline,
      oneLine_bool, hname]

/-- The shape of the input can be read from the first group, and is written on one line. -/
theorem Keras.inputSpec_ok {unit : Option NamedGroup}
    (h : ∀ first ∈ unit, Layer.Configured ⟨default, first.group.kind, first.group.config⟩) :
    ∃ input, inputSpec unit = .ok input ∧ OneLine input := by
  cases unit with
  | none => exact ⟨_, rfl, oneLine_ofList rfl⟩
  | some first =>
    obtain ⟨value, hread, hline⟩ := (h first rfl).exists_read
    obtain ⟨⟨kind, config, ids, start⟩, name, rank⟩ := first
    cases kind <;>
      simp [Kind.fields, Kind.attentionFields, Kind.recurrentFields, Field.whole, Field.flag,
        Field.rate] at hread hline <;>
      simp +decide [inputSpec, readSetting, hread, hline]

theorem Flax.Application.isLine_line {application : Application}
    (hcall : IsLine application.call.text)
    (hoperands : ∀ operands ∈ application.operands, OneLine operands)
    (hcomment : ∀ comment ∈ application.comment, OneLine comment) :
    IsLine application.line := by
  have htarget : IsLine "x = " := by decide
  refine ((htarget.append hcall.1).append ?_).append ?_
  · split
    next operands h =>
      simp only [oneLine_append]
      exact ⟨⟨by decide, hoperands operands h⟩, by decide⟩
    · decide
  · split
    next comment h => exact oneLine_append.mpr ⟨by decide, hcomment comment h⟩
    · decide

theorem Flax.layer_ok {layer : Layer} (h : layer.Configured) {name label : String}
    (hname : OneLine name) (hlabel : OneLine label) :
    ∃ application, Flax.layer layer.kind layer.config name label = .ok application ∧
      IsLine application.line := by
  obtain ⟨value, hread, hline⟩ := h.exists_read
  obtain ⟨id, kind, config⟩ := layer
  cases kind <;>
    simp [Kind.fields, Kind.attentionFields, Kind.recurrentFields, Field.whole, Field.flag,
      Field.rate] at hread hline <;>
    simp [Flax.layer, readFlag, Config.readFlag, readSetting, hread, Except.map, onValue] <;>
    refine Application.isLine_line (Call.isLine_text (by simp +decide) ?_) (by simp +decide)
      (by simp [hlabel]) <;>
    simp +decide [Arg.text, Atom.text, Arg.positional, Arg.keyed, Arg.keyedFixed, Arg.fixed, hline,
      oneLine_bool, hname, squareText]

end Export

end LayerStack
