import LayerStack.Proofs.Parameters

/-! Totals add up.  The totals of a summary are the sums of its rows, and a row depends on its layer
and on the total of parameters alone.  So the order of the layers changes the order of the rows and
nothing else, the totals of two sequences of layers are added when the sequences are joined, and the
totals can be counted group by group as well, as layers that are alike count the same. -/

namespace LayerStack

/-- What a named group adds to the totals: the counts of one layer with the kind and the
configuration of the group, as often as the group has layers. -/
def NamedGroup.counted [Machine] (shape : Shape) (unit : NamedGroup) :
    Except Fault (Int × Int) := do
  let parameters ← unit.group.kind.parameters unit.group.config
  let operations ← unit.group.kind.operations unit.group.config shape
  return (unit.group.count * parameters, unit.group.count * operations)

/-! ### Equal configurations -/

namespace Config.Complete

variable {kind : Kind} {a b : Config}

theorem whole_eq (ha : a.Complete kind) (hb : b.Complete kind) (h : a.same b = true) :
    ∀ field ∈ kind.fields, field.range.isWhole = true →
      a.whole field.key = b.whole field.key := by
  intro field hfield hwhole
  have hsame := ha.same_valueIn hb h field hfield
  cases hrange : field.range <;> simp [hrange, FieldRange.isWhole] at hwhole
  simpa [hrange, FieldRange.valueIn, Value.same_int] using hsame

theorem flag_eq (ha : a.Complete kind) (hb : b.Complete kind) (h : a.same b = true) :
    ∀ field ∈ kind.fields, field.range = .flag → a.flag field.key = b.flag field.key := by
  intro field hfield hrange
  have hsame := ha.same_valueIn hb h field hfield
  simpa [hrange, FieldRange.valueIn, Value.same_bool] using hsame

/-- Counts read sizes and flags only, which are the same in equal configurations. -/
theorem counts_eq (ha : a.Complete kind) (hb : b.Complete kind) (h : a.same b = true) :
    kind.parametersOf a = kind.parametersOf b ∧
      ∀ shape, kind.operationsOf a shape = kind.operationsOf b shape := by
  have hwhole := ha.whole_eq hb h
  have hflag := ha.flag_eq hb h
  cases kind <;>
    simp [Kind.fields, Kind.attentionFields, Kind.recurrentFields, Field.whole, Field.flag,
      Field.rate, FieldRange.isWhole] at hwhole hflag <;>
    simp [Kind.parametersOf, Kind.operationsOf, hwhole, hflag]

end Config.Complete

/-! ### Groups -/

namespace Group

variable (amount : Kind → Config → Int)

/-- An amount that is the same for equal configurations is added up group by group. -/
theorem sum_close (halike : ∀ {kind : Kind} {a b : Config}, a.Complete kind → b.Complete kind →
      a.same b = true → amount kind a = amount kind b)
    {group : Group} {layers : List Layer} (hgroup : group.config.Complete group.kind)
    (hlayers : ∀ layer ∈ layers, layer.config.Complete layer.kind) :
    ((group.close layers).map fun g => (g.count : Int) * amount g.kind g.config).sum =
      group.count * amount group.kind group.config +
        (layers.map fun layer => amount layer.kind layer.config).sum := by
  induction layers generalizing group with
  | nil => simp [close]
  | cons layer rest ih =>
    rw [List.forall_mem_cons] at hlayers
    obtain ⟨hlayer, hrest⟩ := hlayers
    rw [close]
    split
    next htakes =>
      obtain ⟨hkind, hconfig⟩ := takes_iff.mp htakes
      have hsame : amount layer.kind layer.config = amount group.kind group.config := by
        rw [hkind] at hlayer ⊢
        exact halike hlayer hgroup hconfig
      rw [@ih (group.extend layer) hgroup hrest, List.map_cons, List.sum_cons, hsame,
        count_extend]
      simp only [extend]
      push_cast
      ring
    next =>
      have hopen := @ih (ofLayer layer (group.start + group.count)) hlayer hrest
      rw [List.map_cons, List.sum_cons, hopen, List.map_cons, List.sum_cons, count_ofLayer]
      simp [ofLayer]

theorem sum_ofLayers (halike : ∀ {kind : Kind} {a b : Config}, a.Complete kind → b.Complete kind →
      a.same b = true → amount kind a = amount kind b)
    {layers : List Layer} (hlayers : ∀ layer ∈ layers, layer.config.Complete layer.kind) :
    ((ofLayers layers).map fun g => (g.count : Int) * amount g.kind g.config).sum =
      (layers.map fun layer => amount layer.kind layer.config).sum := by
  cases layers with
  | nil => rfl
  | cons layer rest =>
    rw [List.forall_mem_cons] at hlayers
    rw [ofLayers, sum_close amount halike hlayers.1 hlayers.2, count_ofLayer]
    simp [ofLayer]

end Group

/-- Named groups of complete layers can be counted. -/
theorem NamedGroup.mapM_counted [Machine] {layers : List Layer}
    (h : ∀ layer ∈ layers, layer.config.Complete layer.kind) {units : List NamedGroup}
    (hgroups : units.map group = Group.ofLayers layers) (shape : Shape) :
    units.mapM (counted shape) = .ok (units.map fun unit =>
      ((unit.group.count : Int) * unit.group.kind.parametersOf unit.group.config,
        (unit.group.count : Int) * unit.group.kind.operationsOf unit.group.config shape)) := by
  refine mapM_eq_map fun unit hunit => ?_
  have hgroup : unit.group ∈ Group.ofLayers layers := hgroups ▸ List.mem_map_of_mem hunit
  obtain ⟨layer, hlayer, hkind, hconfig⟩ := Group.ofLayers_sources hgroup
  have hcomplete : unit.group.config.Complete unit.group.kind := by
    rw [hkind, hconfig]
    exact h layer hlayer
  simp [counted, hcomplete.parameters_eq, hcomplete.operations_eq]

/-- Results that belong to the items of a list are permuted with the items. -/
theorem exists_perm_zip {α β : Type} {R : α → β → Prop} {xs ys : List α} {bs : List β}
    (h : xs.Perm ys) (hxs : List.Forall₂ R xs bs) :
    ∃ cs, List.Forall₂ R ys cs ∧ (xs.zip bs).Perm (ys.zip cs) := by
  induction h generalizing bs with
  | nil => exact ⟨[], .nil, .nil⟩
  | cons x _ ih =>
    cases hxs with
    | cons hx hrest =>
      obtain ⟨cs, hcs, hperm⟩ := ih hrest
      exact ⟨_ :: cs, .cons hx hcs, hperm.cons _⟩
  | swap x y rest =>
    cases hxs with
    | cons hy hxs =>
      cases hxs with
      | cons hx hrest => exact ⟨_, .cons hx (.cons hy hrest), .swap ..⟩
  | trans _ _ ihfirst ihsecond =>
    obtain ⟨cs, hcs, hfirst⟩ := ihfirst hxs
    obtain ⟨ds, hds, hsecond⟩ := ihsecond hcs
    exact ⟨ds, hds, hfirst.trans hsecond⟩

namespace Summary

/-! ### Rows -/

/-- The row of a layer in a model with `whole` parameters. -/
def rowFor [Machine] (shape : Shape) (whole : Int) (layer : Layer) : Except Fault SummaryRow :=
  count shape layer >>= row whole

/-- A row has the number of its layer, and what the layer counts. -/
theorem rowFor_eq_ok [Machine] {shape : Shape} {whole : Int} {layer : Layer} {r : SummaryRow}
    (h : rowFor shape whole layer = .ok r) :
    layer.id = r.id ∧ layer.kind.parameters layer.config = .ok r.parameters ∧
      layer.kind.operations layer.config shape = .ok r.operations := by
  simp only [rowFor, count, row, bind_eq_ok, pure_eq_ok] at h
  obtain ⟨_, ⟨parameters, hparameters, operations, hoperations, rfl⟩, _, -, rfl⟩ := h
  exact ⟨rfl, hparameters, hoperations⟩

theorem amounts_of_rows {whole : Int} {counted : List CountedLayer} {rows : List SummaryRow}
    (h : counted.mapM (row whole) = .ok rows) :
    counted.map CountedLayer.parameters = rows.map SummaryRow.parameters ∧
      counted.map CountedLayer.operations = rows.map SummaryRow.operations := by
  rw [mapM_eq_ok] at h
  induction h with
  | nil => exact ⟨rfl, rfl⟩
  | cons hrow _ ih =>
    simp only [row, bind_eq_ok, pure_eq_ok] at hrow
    obtain ⟨_, -, rfl⟩ := hrow
    simp [ih]

variable {shape : Shape} {layers xs ys : List Layer}

/-- A summary has one row for each layer, and its totals are the sums of its rows. -/
theorem ofLayers_eq_ok [Machine] {s : Summary} :
    ofLayers layers shape = .ok s ↔
      List.Forall₂ (fun layer r => rowFor shape s.totalParameters layer = .ok r) layers s.rows ∧
      s.totalParameters = (s.rows.map SummaryRow.parameters).sum ∧
      s.totalOperations = (s.rows.map SummaryRow.operations).sum := by
  rw [← mapM_eq_ok]
  have hboth : layers.mapM (rowFor shape s.totalParameters) = .ok s.rows ↔ ∃ counted,
      layers.mapM (count shape) = .ok counted ∧
      counted.mapM (row s.totalParameters) = .ok s.rows := mapM_bind_eq_ok
  rw [hboth]
  simp only [ofLayers, total_eq, bind_eq_ok, pure_eq_ok]
  constructor
  · rintro ⟨counted, hcounted, rows, hrows, rfl⟩
    obtain ⟨hparameters, hoperations⟩ := amounts_of_rows hrows
    exact ⟨⟨counted, hcounted, hrows⟩, by rw [hparameters], by rw [hoperations]⟩
  · rintro ⟨⟨counted, hcounted, hrows⟩, hparameters, hoperations⟩
    obtain ⟨hsame, hsameOperations⟩ := amounts_of_rows hrows
    refine ⟨counted, hcounted, s.rows, ?_, ?_⟩
    · rw [hsame, ← hparameters]
      exact hrows
    · rw [hsame, hsameOperations, ← hparameters, ← hoperations]

/-- The rows follow the layers. -/
theorem map_id_rows [Machine] {s : Summary} (h : ofLayers layers shape = .ok s) :
    s.rows.map SummaryRow.id = layers.map Layer.id := by
  have hrows := (ofLayers_eq_ok.mp h).1
  rw [eq_comm, ← List.forall₂_eq_eq_eq, List.forall₂_map_left_iff, List.forall₂_map_right_iff]
  exact hrows.imp fun layer r hrow => (rowFor_eq_ok hrow).1

/-- The totals are the sums of what the layers count. -/
theorem exists_amounts [Machine] {s : Summary} (h : ofLayers layers shape = .ok s) :
    ∃ parameters operations,
      layers.mapM (fun layer => layer.kind.parameters layer.config) = .ok parameters ∧
      layers.mapM (fun layer => layer.kind.operations layer.config shape) = .ok operations ∧
      s.totalParameters = parameters.sum ∧ s.totalOperations = operations.sum := by
  obtain ⟨hrows, hparameters, hoperations⟩ := ofLayers_eq_ok.mp h
  refine ⟨_, _, ?_, ?_, hparameters, hoperations⟩
  · rw [mapM_eq_ok, List.forall₂_map_right_iff]
    exact hrows.imp fun layer r hrow => (rowFor_eq_ok hrow).2.1
  · rw [mapM_eq_ok, List.forall₂_map_right_iff]
    exact hrows.imp fun layer r hrow => (rowFor_eq_ok hrow).2.2

/-! ### The totals of a permutation, of a joined sequence and of groups -/

theorem ofLayers_perm [Machine] {s : Summary} (hperm : xs.Perm ys) (h : ofLayers xs shape = .ok s) :
    ∃ t, ofLayers ys shape = .ok t ∧ t.totalParameters = s.totalParameters ∧
      t.totalOperations = s.totalOperations ∧ s.rows.Perm t.rows ∧
      (xs.zip s.rows).Perm (ys.zip t.rows) := by
  obtain ⟨hrows, hparameters, hoperations⟩ := ofLayers_eq_ok.mp h
  obtain ⟨rows, hrows', hzip⟩ := exists_perm_zip hperm hrows
  have hmoved : s.rows.Perm rows := by
    have hsecond := hzip.map Prod.snd
    rwa [List.map_snd_zip hrows.length_eq.ge, List.map_snd_zip hrows'.length_eq.ge] at hsecond
  refine ⟨⟨s.totalParameters, s.totalOperations, rows⟩, ?_, rfl, rfl, hmoved, hzip⟩
  refine ofLayers_eq_ok.mpr ⟨hrows', ?_, ?_⟩
  · rw [hparameters, (hmoved.map SummaryRow.parameters).sum_eq]
  · rw [hoperations, (hmoved.map SummaryRow.operations).sum_eq]

theorem totals_append [Machine] {s t u : Summary} (hs : ofLayers xs shape = .ok s)
    (ht : ofLayers ys shape = .ok t) (hu : ofLayers (xs ++ ys) shape = .ok u) :
    u.totalParameters = s.totalParameters + t.totalParameters ∧
      u.totalOperations = s.totalOperations + t.totalOperations := by
  obtain ⟨ps, os, hps, hos, hsps, hsos⟩ := exists_amounts hs
  obtain ⟨pt, ot, hpt, hot, htpt, htot⟩ := exists_amounts ht
  obtain ⟨pu, ou, hpu, hou, hupu, huou⟩ := exists_amounts hu
  rw [List.mapM_append, hps, hpt] at hpu
  rw [List.mapM_append, hos, hot] at hou
  obtain rfl : ps ++ pt = pu := Except.ok.inj hpu
  obtain rfl : os ++ ot = ou := Except.ok.inj hou
  rw [hupu, huou, hsps, hsos, htpt, htot, List.sum_append, List.sum_append]
  exact ⟨rfl, rfl⟩

theorem ofLayers_counted [Machine] (h : ∀ layer ∈ layers, layer.Configured) (shape : Shape) :
    ∃ units counts summary, NamedGroup.ofLayers layers = .ok units ∧
      units.mapM (NamedGroup.counted shape) = .ok counts ∧
      ofLayers layers shape = .ok summary ∧
      summary.totalParameters = (counts.map Prod.fst).sum ∧
      summary.totalOperations = (counts.map Prod.snd).sum := by
  have hcomplete : ∀ layer ∈ layers, layer.config.Complete layer.kind := fun layer hlayer =>
    (h layer hlayer).complete
  obtain ⟨units, hunits, hgroups, -⟩ := NamedGroup.ofLayers_ok layers
  have hparameters := Group.sum_ofLayers Kind.parametersOf
    (fun ha hb hsame => (ha.counts_eq hb hsame).1) hcomplete
  have hoperations := Group.sum_ofLayers
    (fun kind config => kind.operationsOf config shape)
    (fun ha hb hsame => (ha.counts_eq hb hsame).2 shape) hcomplete
  refine ⟨units, _, _, hunits, NamedGroup.mapM_counted hcomplete hgroups shape,
    ofLayers_eq hcomplete shape, ?_, ?_⟩
  · rw [← hgroups, List.map_map] at hparameters
    rw [List.map_map]
    exact hparameters.symm
  · rw [← hgroups, List.map_map] at hoperations
    rw [List.map_map]
    exact hoperations.symm

/-- The totals of the summary of a model are counted group by group as well.  They do not depend on
the order of the layers, with which the rows are permuted, and those of a joined sequence are the
sums of those of its parts. -/
theorem totals_add_up [Machine] :
    (∀ model : Model, model.Reachable → ∀ shape, ∃ units counts summary,
      NamedGroup.ofLayers model.layers = .ok units ∧
      units.mapM (NamedGroup.counted shape) = .ok counts ∧
      ofLayers model.layers shape = .ok summary ∧
      summary.totalParameters = (counts.map Prod.fst).sum ∧
      summary.totalOperations = (counts.map Prod.snd).sum) ∧
    (∀ (layers : List Layer) (shape : Shape), (∀ layer ∈ layers, layer.Configured) →
      ∃ s, ofLayers layers shape = .ok s) ∧
    (∀ (xs ys : List Layer) (shape : Shape) (s : Summary), xs.Perm ys →
      ofLayers xs shape = .ok s → s.rows.map SummaryRow.id = xs.map Layer.id ∧
      ∃ t, ofLayers ys shape = .ok t ∧ t.totalParameters = s.totalParameters ∧
        t.totalOperations = s.totalOperations ∧ s.rows.Perm t.rows ∧
        (xs.zip s.rows).Perm (ys.zip t.rows)) ∧
    (∀ (xs ys : List Layer) (shape : Shape) (s t u : Summary), ofLayers xs shape = .ok s →
      ofLayers ys shape = .ok t → ofLayers (xs ++ ys) shape = .ok u →
      u.totalParameters = s.totalParameters + t.totalParameters ∧
        u.totalOperations = s.totalOperations + t.totalOperations) := by
  refine ⟨?groups, ?success, ?order, ?joined⟩
  case groups =>
    intro model hmodel shape
    exact ofLayers_counted hmodel.configured shape
  case success =>
    intro layers shape hlayers
    exact ⟨_, ofLayers_eq (fun layer hlayer => (hlayers layer hlayer).complete) shape⟩
  case order =>
    intro xs ys shape s hperm hs
    exact ⟨map_id_rows hs, ofLayers_perm hperm hs⟩
  case joined =>
    intro xs ys shape s t u hs ht hu
    exact totals_append hs ht hu

attribute [local instance] Machine.small

theorem totals_add_up_countedModel :
    countedModel.Reachable ∧
    (∃ units counts summary,
      NamedGroup.ofLayers countedModel.layers = .ok units ∧
      units.mapM (NamedGroup.counted .empty) = .ok counts ∧
      ofLayers countedModel.layers .empty = .ok summary ∧
      summary.totalParameters = (counts.map Prod.fst).sum ∧
      summary.totalOperations = (counts.map Prod.snd).sum) ∧
    ∃ s t u, ofLayers countedModel.layers .empty = .ok s ∧
      ofLayers countedModel.layers.reverse .empty = .ok t ∧
      ofLayers (countedModel.layers ++ countedModel.layers.reverse) .empty = .ok u ∧
      t.totalParameters = s.totalParameters ∧ t.totalOperations = s.totalOperations ∧
      s.rows.Perm t.rows ∧ u.totalParameters = s.totalParameters + t.totalParameters ∧
      u.totalOperations = s.totalOperations + t.totalOperations := by
  have h : countedModel.Reachable := ⟨.counting, countedSession, rfl⟩
  obtain ⟨hgroups, hsuccess, horder, hjoined⟩ := totals_add_up
  obtain ⟨s, hs⟩ := hsuccess countedModel.layers .empty h.configured
  obtain ⟨-, t, ht, hparameters, hoperations, hrows, -⟩ :=
    horder _ _ .empty s countedModel.layers.reverse_perm.symm hs
  obtain ⟨u, hu⟩ := hsuccess (countedModel.layers ++ countedModel.layers.reverse) .empty
    fun layer hlayer => h.configured layer (by simpa using hlayer)
  exact ⟨h, hgroups countedModel h .empty, s, t, u, hs, ht, hu, hparameters, hoperations, hrows,
    hjoined _ _ .empty s t u hs ht hu⟩

end Summary

end LayerStack
