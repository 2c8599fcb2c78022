import LayerStack.Proofs.ForwardPass.Loops
import LayerStack.Proofs.ForwardPass.Torch
import LayerStack.Proofs.Names
import LayerStack.Proofs.Session

/-! Generated programs preserve the model.  For every framework the program is generated, and
reading its forward pass gives one application for every layer, in order, which is that of the
layer's kind with an equal configuration.  The length of the program goes by the kinds of the groups
and by which of them are repeated. -/

namespace LayerStack

open Export

/-- A layer is a member of a named group: the group has its kind, a configuration that equals its
own, and its id. -/
structure NamedGroup.Holds (unit : NamedGroup) (layer : Layer) : Prop where
  kind : unit.group.kind = layer.kind
  config : unit.group.config.same layer.config = true
  member : layer.id ∈ unit.group.memberIds

/-- The line that applies one layer of a named group: a call that is made from the kind and the
configuration of the group. -/
def Framework.rendering (framework : Framework) (unit : NamedGroup) : Except Fault String :=
  let kind := unit.group.kind
  let config := unit.group.config
  let name := if unit.repeated then indexedName unit.name "i" else quotedName unit.name
  match framework with
  | .pytorch => do
    return Torch.Member.callLine kind (← Torch.constructor kind unit.rank config).text
  | .tensorflow => return (← Keras.layer kind config name).line
  | .jax => return (← Flax.layer kind config name unit.name).line

/-- The kind of a named group and whether it is repeated. -/
def NamedGroup.shape (unit : NamedGroup) : Kind × Bool := (unit.group.kind, unit.repeated)

/-- The lines of a program whose groups have the given kinds and are repeated or not. -/
def Framework.lineTotal (framework : Framework) (shapes : List (Kind × Bool)) : Nat :=
  match framework with
  | .pytorch =>
    21 + (shapes.map Torch.declarationLines).sum + (shapes.map Torch.applicationLines).sum
  | .tensorflow => 17 + helperLines 11 9 shapes + (shapes.map fun shape => passesLines shape.2).sum
  | .jax => 22 + helperLines 17 19 shapes + (shapes.map fun shape => passesLines shape.2).sum

/-! ### Named groups of layers in a model -/

namespace NamedGroup

/-- A named group of layers that hold their fields. -/
structure Sound (unit : NamedGroup) : Prop where
  configured : ∀ id, Layer.Configured ⟨id, unit.group.kind, unit.group.config⟩
  count : 1 ≤ unit.group.count
  name : ∀ c ∈ unit.name.toList, c.isAlphanum = true

theorem ofLayers_sound {layers : List Layer} (h : ∀ layer ∈ layers, layer.Configured) :
    ∃ units, ofLayers layers = .ok units ∧ units.map group = Group.ofLayers layers ∧
      (units.map name).Nodup ∧ ∀ unit ∈ units, unit.Sound := by
  obtain ⟨units, hunits, hgroups, hnames, -⟩ := ofLayers_ok layers
  refine ⟨units, hunits, hgroups, hnames ▸ nodup_namesAfter [] _, fun unit hunit => ?_⟩
  have hgroup : unit.group ∈ Group.ofLayers layers := hgroups ▸ List.mem_map_of_mem hunit
  have hname : unit.name ∈ namesAfter [] ((Group.ofLayers layers).map Group.kind) :=
    hnames ▸ List.mem_map_of_mem hunit
  obtain ⟨kind, earlier, hname, -⟩ := mem_namesAfter hname
  obtain ⟨layer, hlayer, hkind, hconfig⟩ := Group.ofLayers_sources hgroup
  have hcanonical := Group.canonical_ofLayers fun layer hlayer => (h layer hlayer).comparable
  exact {
    configured := fun id => by
      rw [hkind, hconfig]
      exact ⟨(h layer hlayer).keys, (h layer hlayer).holds⟩
    count := (hcanonical.counts unit.group hgroup).2
    name := hname ▸ isAlphanum_of_mem_nameFor kind earlier }

theorem Sound.oneLine_name {unit : NamedGroup} (h : unit.Sound) : OneLine unit.name :=
  oneLine_of_isAlphanum h.name

end NamedGroup

/-! ### One framework -/

/-- What a program for named groups is read back as. -/
structure Framework.Reads (framework : Framework) (units : List NamedGroup) (source : String)
    (lines : List String) : Prop where
  rendered : List.Forall₂ (fun unit line => framework.rendering unit = .ok line) units lines
  pass : framework.forwardPass? source =
    some ((units.zip lines).flatMap fun entry => List.replicate entry.1.group.count entry.2)
  length : lineCount source = framework.lineTotal (units.map NamedGroup.shape)

theorem exists_forall₂ {α β : Type} {R : α → β → Prop} {P : β → Prop} {as : List α}
    (h : ∀ a ∈ as, ∃ b, R a b ∧ P b) : ∃ bs, List.Forall₂ R as bs ∧ ∀ b ∈ bs, P b := by
  induction as with
  | nil => exact ⟨[], .nil, by simp⟩
  | cons a rest ih =>
    rw [List.forall_mem_cons] at h
    obtain ⟨b, hb, hpb⟩ := h.1
    obtain ⟨bs, hbs, hpbs⟩ := ih h.2
    exact ⟨b :: bs, .cons hb hbs, List.forall_mem_cons.mpr ⟨hpb, hpbs⟩⟩

theorem map_eq_map_of_forall₂ {α β γ : Type} {R : α → β → Prop} {as : List α} {bs : List β}
    (h : List.Forall₂ R as bs) {f : α → γ} {g : β → γ} (heq : ∀ a b, R a b → f a = g b) :
    as.map f = bs.map g := by
  rw [← List.forall₂_eq_eq_eq, List.forall₂_map_left_iff, List.forall₂_map_right_iff]
  exact h.imp heq

theorem Framework.reads_of_parts {α : Type} (framework : Framework) {units : List NamedGroup}
    (parts : List α) {source : String} (kind : α → Kind) (count : α → Nat) (line : α → String)
    (hparts : List.Forall₂ (fun unit part => kind part = unit.group.kind ∧
      count part = unit.group.count ∧ framework.rendering unit = .ok (line part)) units parts)
    (hpass : framework.forwardPass? source =
      some ((parts.flatMap fun part => List.replicate (count part) (line part).toList).map
        String.ofList))
    (hlength : lineCount source =
      framework.lineTotal (parts.map fun part => (kind part, decide (1 < count part)))) :
    framework.Reads units source (parts.map line) where
  rendered := by
    rw [List.forall₂_map_right_iff]
    exact hparts.imp fun _ _ h => h.2.2
  pass := by
    rw [hpass, Option.some.injEq]
    clear hpass hlength
    induction hparts with
    | nil => rfl
    | cons h _ ih => simp_all
  length := by
    have hshapes : units.map NamedGroup.shape =
        parts.map fun part => (kind part, decide (1 < count part)) :=
      map_eq_map_of_forall₂ hparts fun unit part h => by
        rw [NamedGroup.shape, NamedGroup.repeated, h.1, h.2.1]
    rw [hlength, hshapes]

namespace Export

theorem Torch.members_ok {units : List NamedGroup} (h : ∀ unit ∈ units, unit.Sound) :
    ∃ members, List.Forall₂ (fun unit member => Member.ofUnit unit = .ok member) units members ∧
      (∀ member ∈ members, member.Readable) ∧
      source units = .ok (Statement.programText (program members)) := by
  have hmember : ∀ unit ∈ units, ∃ member, Member.ofUnit unit = .ok member ∧ member.Readable := by
    intro unit hunit
    obtain ⟨call, hcall, hline⟩ := constructor_ok ((h unit hunit).configured default) unit.rank
    refine ⟨⟨unit.name, unit.group.kind, unit.group.count, call⟩, ?_,
      (h unit hunit).name, hline, (h unit hunit).count⟩
    simp [Member.ofUnit, hcall]
  obtain ⟨members, hmembers, hreadable⟩ := exists_forall₂ hmember
  exact ⟨members, hmembers, hreadable, by simp [source, mapM_eq_ok.mpr hmembers]⟩

theorem Torch.source_reads {units : List NamedGroup} (h : ∀ unit ∈ units, unit.Sound)
    (hnodup : (units.map NamedGroup.name).Nodup) :
    ∃ source lines, Torch.source units = .ok source ∧
      Framework.pytorch.Reads units source lines := by
  obtain ⟨members, hmembers, hreadable, hsource⟩ := members_ok h
  have hnames : (members.map Member.name).Nodup := by
    have heq := map_eq_map_of_forall₂ hmembers fun unit member hunit =>
      (Member.ofUnit_eq_ok hunit).1.symm
    exact heq ▸ hnodup
  refine ⟨_, _, hsource,
    Framework.reads_of_parts _ members Member.kind Member.count Member.line ?_ ?_ ?_⟩
  · refine hmembers.imp fun unit member hunit => ?_
    obtain ⟨-, hkind, hcount, hcall⟩ := Member.ofUnit_eq_ok hunit
    exact ⟨hkind, hcount, by simp [Framework.rendering, hcall, Member.line, hkind]⟩
  · simp [Framework.forwardPass?, torchPass?_program hreadable hnames]
  · rw [Statement.lineCount_programText (by simp [program, Statement.heading])
      (isLine_program hreadable), height_program]
    rfl

theorem oneLine_layerName {unit : NamedGroup} (h : unit.Sound) :
    OneLine (if unit.repeated then indexedName unit.name "i" else quotedName unit.name) := by
  have hname := h.oneLine_name
  split
  · simp +decide [indexedName, hname]
  · simp +decide [quotedName, hname]

theorem Keras.exists_steps {units : List NamedGroup} (h : ∀ unit ∈ units, unit.Sound) :
    ∃ steps, List.Forall₂ (fun unit step => Step.ofUnit unit = .ok step) units steps ∧
      ∀ step ∈ steps, step.Readable := by
  refine exists_forall₂ fun unit hunit => ?_
  have hsound := h unit hunit
  obtain ⟨application, happlication, hline⟩ :=
    layer_ok (hsound.configured default) (oneLine_layerName hsound)
  exact ⟨⟨unit.group.kind, unit.group.count, application⟩,
    by simp [Step.ofUnit, happlication], hline, hsound.count⟩

theorem Keras.source_eq_ok {units : List NamedGroup} {input : String} {steps : List Step}
    (hinput : inputSpec units.head? = .ok input)
    (hsteps : List.Forall₂ (fun unit step => Step.ofUnit unit = .ok step) units steps) :
    source units = .ok (Statement.programText (program input steps)) := by
  simp [source, hinput, mapM_eq_ok.mpr hsteps]

theorem Keras.exists_input {units : List NamedGroup} (h : ∀ unit ∈ units, unit.Sound) :
    ∃ input, inputSpec units.head? = .ok input ∧ OneLine input :=
  inputSpec_ok fun first (hfirst : first ∈ units.head?) =>
    (h first (List.mem_of_head? hfirst)).configured default

theorem Keras.steps_ok {units : List NamedGroup} (h : ∀ unit ∈ units, unit.Sound) :
    ∃ input steps, OneLine input ∧
      List.Forall₂ (fun unit step => Step.ofUnit unit = .ok step) units steps ∧
      (∀ step ∈ steps, step.Readable) ∧
      source units = .ok (Statement.programText (program input steps)) := by
  obtain ⟨input, hinput, hline⟩ := exists_input h
  obtain ⟨steps, hsteps, hreadable⟩ := exists_steps h
  exact ⟨input, steps, hline, hsteps, hreadable, source_eq_ok hinput hsteps⟩

theorem Keras.source_reads {units : List NamedGroup} (h : ∀ unit ∈ units, unit.Sound) :
    ∃ source lines, Keras.source units = .ok source ∧
      Framework.tensorflow.Reads units source lines := by
  obtain ⟨input, steps, hline, hsteps, hreadable, hsource⟩ := steps_ok h
  refine ⟨_, _, hsource, Framework.reads_of_parts _ steps Step.kind Step.count
    (fun step => step.application.line) ?_ ?_ ?_⟩
  · refine hsteps.imp fun unit step hunit => ?_
    obtain ⟨hkind, hcount, happlication⟩ := Step.ofUnit_eq_ok hunit
    exact ⟨hkind, hcount, by simp [Framework.rendering, happlication]⟩
  · simp [Framework.forwardPass?, kerasPass?_program hline hreadable]
  · rw [Statement.lineCount_programText (by simp [program, Statement.heading])
      (isLine_program hline hreadable), height_program]
    simp [Framework.lineTotal, Step.repeated, Function.comp_def]

theorem Flax.steps_ok {units : List NamedGroup} (h : ∀ unit ∈ units, unit.Sound) :
    ∃ steps, List.Forall₂ (fun unit step => Step.ofUnit unit = .ok step) units steps ∧
      (∀ step ∈ steps, step.Readable) ∧
      source units = .ok (Statement.programText (program steps)) := by
  have hstep : ∀ unit ∈ units, ∃ step, Step.ofUnit unit = .ok step ∧ step.Readable := by
    intro unit hunit
    have hsound := h unit hunit
    obtain ⟨application, happlication, hline⟩ :=
      layer_ok (hsound.configured default) (oneLine_layerName hsound) hsound.oneLine_name
    exact ⟨⟨unit.group.kind, unit.group.count, application⟩,
      by simp [Step.ofUnit, happlication], hline, hsound.count⟩
  obtain ⟨steps, hsteps, hreadable⟩ := exists_forall₂ hstep
  exact ⟨steps, hsteps, hreadable, by simp [source, mapM_eq_ok.mpr hsteps]⟩

theorem Flax.source_reads {units : List NamedGroup} (h : ∀ unit ∈ units, unit.Sound) :
    ∃ source lines, Flax.source units = .ok source ∧ Framework.jax.Reads units source lines := by
  obtain ⟨steps, hsteps, hreadable, hsource⟩ := steps_ok h
  refine ⟨_, _, hsource, Framework.reads_of_parts _ steps Step.kind Step.count
    (fun step => step.application.line) ?_ ?_ ?_⟩
  · refine hsteps.imp fun unit step hunit => ?_
    obtain ⟨hkind, hcount, happlication⟩ := Step.ofUnit_eq_ok hunit
    exact ⟨hkind, hcount, by simp [Framework.rendering, happlication]⟩
  · simp [Framework.forwardPass?, flaxPass?_program hreadable]
  · rw [Statement.lineCount_programText (by simp [program, Statement.heading])
      (isLine_program hreadable), height_program]
    simp [Framework.lineTotal, Step.repeated, Function.comp_def]

end Export

theorem Framework.source_reads (framework : Framework) {units : List NamedGroup}
    (h : ∀ unit ∈ units, unit.Sound) (hnodup : (units.map NamedGroup.name).Nodup) :
    ∃ source lines, framework.source units = .ok source ∧
      framework.Reads units source lines := by
  cases framework with
  | pytorch => exact Torch.source_reads h hnodup
  | tensorflow => exact Keras.source_reads h
  | jax => exact Flax.source_reads h

/-! ### The layers of a model -/

theorem forall₂_replicate {α β : Type} {R : α → β → Prop} {as : List α} {b : β}
    (h : ∀ a ∈ as, R a b) : List.Forall₂ R as (List.replicate as.length b) := by
  induction as with
  | nil => exact .nil
  | cons a rest ih =>
    rw [List.forall_mem_cons] at h
    exact .cons h.1 (ih h.2)

/-- The lines of the groups, each as often as it counts, are those of the expanded groups. -/
theorem Framework.rendered_expand {framework : Framework} {units all : List NamedGroup}
    {lines : List String} (hmem : ∀ unit ∈ units, unit ∈ all)
    (h : List.Forall₂ (fun unit line => framework.rendering unit = .ok line) units lines) :
    List.Forall₂ (fun layer line => ∃ unit ∈ all, layer ∈ unit.group.layers ∧
        framework.rendering unit = .ok line)
      (Group.expand (units.map NamedGroup.group))
      ((units.zip lines).flatMap fun entry => List.replicate entry.1.group.count entry.2) := by
  induction h with
  | nil => exact .nil
  | @cons unit line units lines hline _ ih =>
    rw [List.forall_mem_cons] at hmem
    have hunit : List.Forall₂ (fun layer line => ∃ unit ∈ all, layer ∈ unit.group.layers ∧
        framework.rendering unit = .ok line)
        unit.group.layers (List.replicate unit.group.layers.length line) :=
      forall₂_replicate fun layer hlayer => ⟨unit, hmem.1, hlayer, hline⟩
    have hlength : unit.group.layers.length = unit.group.count := by
      simp [Group.layers, Group.count]
    rw [hlength] at hunit
    exact List.rel_append hunit (ih hmem.2)

theorem NamedGroup.holds_of_equals {unit : NamedGroup} {expanded layer : Layer}
    (hexpanded : expanded ∈ unit.group.layers) (h : expanded.Equals layer) : unit.Holds layer := by
  obtain ⟨id, hid, rfl⟩ := List.mem_map.mp hexpanded
  obtain ⟨rfl, hkind, hconfig⟩ := h
  exact ⟨hkind, hconfig, hid⟩

/-- The lines that are read are one for every layer, in order, each from a group that holds it. -/
theorem Framework.rendered_layers {framework : Framework} {units : List NamedGroup}
    {lines : List String} {expanded layers : List Layer}
    (hlines : List.Forall₂ (fun layer line => ∃ unit ∈ units, layer ∈ unit.group.layers ∧
      framework.rendering unit = .ok line) expanded lines)
    (hlayers : List.Forall₂ Layer.Equals expanded layers) :
    List.Forall₂ (fun layer line => ∃ unit ∈ units, unit.Holds layer ∧
      framework.rendering unit = .ok line) layers lines := by
  induction hlayers generalizing lines with
  | nil =>
    cases hlines
    exact .nil
  | cons hequal _ ih =>
    cases hlines with
    | cons hline hrest =>
      obtain ⟨unit, hunit, hmem, hrender⟩ := hline
      exact .cons ⟨unit, hunit, NamedGroup.holds_of_equals hmem hequal, hrender⟩ (ih hrest)

theorem Framework.ofValue_name (framework : Framework) :
    Framework.ofValue (.str framework.name) = .ok framework := by
  simp [ofValue, ofName?_name]

/-- Every framework gets a program for a model of a session, in whose forward pass every layer is
applied once, in order, by a call that is made from its kind and an equal configuration. -/
theorem Model.Reachable.forwardPass_preserved {model : Model} (h : model.Reachable) :
    ∃ units, NamedGroup.ofLayers model.layers = .ok units ∧ ∀ framework : Framework,
      ∃ source lines,
        Program.ofLayers (.str framework.name) model.layers = .ok ⟨framework, source⟩ ∧
        framework.forwardPass? source = some lines ∧
        List.Forall₂ (fun layer line => ∃ unit ∈ units, unit.Holds layer ∧
          framework.rendering unit = .ok line) model.layers lines ∧
        lineCount source = framework.lineTotal (units.map NamedGroup.shape) := by
  have hconfigured := h.configured
  obtain ⟨units, hunits, hgroups, hnodup, hsound⟩ := NamedGroup.ofLayers_sound hconfigured
  refine ⟨units, hunits, fun framework => ?_⟩
  obtain ⟨source, lines, hsource, hreads⟩ := framework.source_reads hsound hnodup
  have hprogram : Program.ofLayers (.str framework.name) model.layers =
      .ok ⟨framework, source⟩ := by
    simp [Program.ofLayers, hunits, framework.ofValue_name, hsource]
  have hexpand := Group.expand_ofLayers fun layer hlayer => (hconfigured layer hlayer).comparable
  have hlines := Framework.rendered_expand (fun _ hunit => hunit) hreads.rendered
  rw [hgroups] at hlines
  exact ⟨source, _, hprogram, hreads.pass, Framework.rendered_layers hlines hexpand, hreads.length⟩

/-- A session that ends with a run of two layers, one of two layers that answer with tuples, and two
single layers. -/
def stackedSession : List Edit := [
  .add (.str "linear") none none,
  .add (.str "linear") none none,
  .add (.str "attention") none none,
  .add (.str "attention") none none,
  .add (.str "batchnorm") (some 2) none,
  .add (.str "dropout") none (some "d"),
  .update (some "d") "rate" (.int 1)]

def stackedModel : Model := ((Workspace.start .counting).run stackedSession).model

theorem forwardPass_preserved_stackedModel :
    stackedModel.Reachable ∧
      ∃ units, NamedGroup.ofLayers stackedModel.layers = .ok units ∧ ∀ framework : Framework,
        ∃ source lines,
          Program.ofLayers (.str framework.name) stackedModel.layers = .ok ⟨framework, source⟩ ∧
          framework.forwardPass? source = some lines ∧
          List.Forall₂ (fun layer line => ∃ unit ∈ units, unit.Holds layer ∧
            framework.rendering unit = .ok line) stackedModel.layers lines ∧
          lineCount source = framework.lineTotal (units.map NamedGroup.shape) :=
  have h : stackedModel.Reachable := ⟨.counting, stackedSession, rfl⟩
  ⟨h, h.forwardPass_preserved⟩

end LayerStack
