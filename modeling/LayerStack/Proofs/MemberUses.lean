import LayerStack.Proofs.ForwardPass

/-! The members of a generated module class and their uses.  Reading the class gives one declaration
for every named group, in order, and the forward pass uses each of them once, in the same order and
in the way in which it was declared. -/

namespace LayerStack

namespace Export.Outline

/-- A use of a member: whether a loop goes through its elements or it is called itself, and whether
the answer is taken apart. -/
structure Use where
  name : List Char
  iterated : Bool
  unpacked : Bool
  deriving DecidableEq

/-- The callee of an application to the value that is passed on, and whether the answer is taken
apart. -/
def callee? (text : List Char) : Option (List Char × Bool) := do
  let application ← application? text
  if application.operands ∈ ["(x)".toList, "(x, x, x)".toList] then
    return (application.callee, decide (application.targets = "x, _ = ".toList))
  else none

/-- The one use of a member on a line with what is in it: the member is called, or each of its
elements is, in a loop over them. -/
def use? : Outline → Option Use
  | node _ text [] => do
    let (callee, unpacked) ← callee? text
    let name ← callee.dropPrefix? "self.".toList
    return ⟨name, false, unpacked⟩
  | node _ text [node _ body []] => do
    let rest ← text.dropPrefix? "for layer in self.".toList
    let (callee, unpacked) ← callee? body
    if callee = "layer".toList ∧ rest.dropWhile (· != ':') = [':'] then
      return ⟨rest.takeWhile (· != ':'), true, unpacked⟩
    else none
  | _ => none

/-- The members that a module class declares. -/
def declarations? (outlines : List Outline) : Option (List Declared) := do
  let init ← under? ["class LayerCalModel(nn.Module):", "def __init__(self):"] outlines
  match init with
  | node _ text [] :: declarations =>
    if text = "super().__init__()".toList then declared? declarations else none
  | _ => none

/-- The uses of members in the forward pass of a module class. -/
def uses? (outlines : List Outline) : Option (List Use) := do
  let forward ← under? ["class LayerCalModel(nn.Module):", "def forward(self, x):"] outlines
  match forward.reverse with
  | node _ text [] :: before =>
    if text = "return x".toList then before.reverse.mapM use? else none
  | _ => none

end Export.Outline

open Export Export.Outline

/-- The kinds of layers that answer with a pair. -/
def Kind.pairing : List Kind := [.lstm, .gru, .attention]

/-- The declaration of a named group and the use of it go together. -/
structure NamedGroup.Agrees (unit : NamedGroup) (declared : Declared) (use : Use) : Prop where
  element : ∃ call, Torch.constructor unit.group.kind unit.rank unit.group.config = .ok call ∧
    declared.element = call.text.toList
  count : declared.count = unit.group.count
  iterated : use.iterated = true ↔ declared.holder = .list
  unpacked : use.unpacked = true ↔ unit.group.kind ∈ Kind.pairing
  sequence : declared.holder = .sequence → unit.group.kind ∉ Kind.pairing

namespace Export.Torch

theorem answersTuple_iff (kind : Kind) : answersTuple kind = true ↔ kind ∈ Kind.pairing := by
  cases kind <;> decide

theorem callee?_callLine (kind : Kind) (callee : String) (h : '(' ∉ callee.toList) :
    callee? (Member.callLine kind callee).toList = some (callee.toList, answersTuple kind) := by
  have hoperands : (operands kind).toList ∈ ["(x)".toList, "(x, x, x)".toList] := by
    cases kind <;> decide
  have htargets : decide ((targets kind).toList = "x, _ = ".toList) = answersTuple kind := by
    cases kind <;> decide
  rw [callee?, Member.application?_callLine kind callee h]
  simp only [Option.bind_eq_bind, Option.bind_some, if_pos hoperands, htargets]
  rfl

namespace Member

/-- What is read from the use of a member. -/
def use (member : Member) : Use :=
  ⟨member.name.toList, member.repeated && answersTuple member.kind, answersTuple member.kind⟩

theorem use?_outline {member : Member} (h : member.Readable) (depth : Nat) :
    ∃ outline, member.application.outline depth = [outline] ∧ use? outline = some member.use := by
  rw [application]
  split
  next hlist =>
    obtain ⟨hstop, hcolon⟩ := takeWhile_cut (not_mem_of_forall h.name (c := ':') rfl) []
    have hbody := callee?_callLine member.kind "layer" (by decide)
    have hhead : ("for layer in self." ++ member.name ++ ":").toList =
        "for layer in self.".toList ++ (member.name.toList ++ [':']) := by simp
    refine ⟨_, rfl, ?_⟩
    simp only [Statement.outlineAll, Statement.outline, List.append_nil, use?, hhead,
      dropPrefix?_append, hbody, Option.bind_eq_bind, Option.bind_some, hstop, hcolon, and_self,
      if_true]
    rw [use, hlist]
    rfl
  next hlist =>
    have hcallee : '(' ∉ ("self." ++ member.name).toList := by
      simp only [String.toList_append, List.mem_append, not_or]
      exact ⟨by decide, not_mem_of_forall h.name rfl⟩
    have htext := callee?_callLine member.kind ("self." ++ member.name) hcallee
    refine ⟨_, rfl, ?_⟩
    rw [use?, htext]
    simp only [Option.bind_eq_bind, Option.bind_some, String.toList_append, dropPrefix?_append]
    rw [use, Bool.eq_false_iff.mpr hlist]
    rfl

end Member

theorem mapM_use?_applications {members : List Member} (h : ∀ member ∈ members, member.Readable)
    (depth : Nat) :
    (Statement.outlineAll depth (members.map Member.application)).mapM use? =
      some (members.map Member.use) := by
  induction members with
  | nil => rfl
  | cons member rest ih =>
    rw [List.forall_mem_cons] at h
    obtain ⟨outline, houtline, hread⟩ := Member.use?_outline h.1 depth
    rw [List.map_cons, Statement.outlineAll, houtline, List.singleton_append, List.mapM_cons, hread,
      ih h.2]
    rfl

/-- Reading a module class gives the declarations and the uses of its members. -/
theorem class_read {members : List Member} (h : ∀ member ∈ members, member.Readable) :
    declarations? (ofText (Statement.programText (program members))) =
        some (members.map Member.declared) ∧
      uses? (ofText (Statement.programText (program members))) =
        some (members.map Member.use) := by
  have hne : program members ≠ [] := by simp [program, Statement.heading]
  rw [Statement.ofText_programText hne (isLine_program h)]
  constructor
  · rw [declarations?, under?_init]
    simp only [Option.bind_eq_bind, Option.bind_some, if_true, declared?_declarations h]
  · have hlast : Statement.outlineAll 2 [.line "return x"] = [.node 8 "return x".toList []] := rfl
    rw [uses?, under?_forward, Statement.outlineAll_append, hlast]
    simp only [Option.bind_eq_bind, Option.bind_some, List.reverse_append, List.reverse_cons,
      List.reverse_nil, List.nil_append, List.singleton_append, if_true, List.reverse_reverse,
      mapM_use?_applications h]

theorem Member.agrees {unit : NamedGroup} {member : Member} (h : ofUnit unit = .ok member) :
    unit.Agrees member.declared member.use := by
  obtain ⟨-, hkind, hcount, hcall⟩ := ofUnit_eq_ok h
  have hpairing : answersTuple member.kind = true ↔ unit.group.kind ∈ Kind.pairing := by
    rw [← hkind]
    exact answersTuple_iff member.kind
  refine ⟨⟨member.call, hcall, rfl⟩, hcount, ?_, hpairing, fun hsequence => ?_⟩
  · show (member.repeated && answersTuple member.kind) = true ↔ member.holder = .list
    cases hrepeated : member.repeated <;> cases htuple : answersTuple member.kind <;>
      simp [holder, hrepeated, htuple]
  · -- A sequence holds layers whose answers are not pairs.
    rw [← hpairing]
    intro htuple
    have hheld : member.holder = .sequence := hsequence
    cases hrepeated : member.repeated <;> simp [holder, hrepeated, htuple] at hheld

end Export.Torch

/-- The class that is generated for a model of a session declares one member for every named group,
in order.  Its forward pass uses each of them once, in the same order: a list is gone through in a
loop, and anything else is called itself.  The answers that are pairs are taken apart, and no other
ones; layers that give such answers are never held as a sequence. -/
theorem Model.Reachable.members_used {model : Model} (h : model.Reachable) :
    ∃ units source declared uses,
      NamedGroup.ofLayers model.layers = .ok units ∧
      Program.ofLayers (.str Framework.pytorch.name) model.layers = .ok ⟨.pytorch, source⟩ ∧
      declarations? (ofText source) = some declared ∧ uses? (ofText source) = some uses ∧
      (units.map NamedGroup.name).Nodup ∧
      declared.map Declared.name = units.map (fun unit => unit.name.toList) ∧
      uses.map Use.name = units.map (fun unit => unit.name.toList) ∧
      List.Forall₂ (fun unit entry => unit.Agrees entry.1 entry.2) units (declared.zip uses) := by
  obtain ⟨units, hunits, -, hnodup, hsound⟩ := NamedGroup.ofLayers_sound h.configured
  obtain ⟨members, hmembers, hreadable, hsource⟩ := Torch.members_ok hsound
  obtain ⟨hdeclared, huses⟩ := Torch.class_read hreadable
  have hprogram : Program.ofLayers (.str Framework.pytorch.name) model.layers =
      .ok ⟨.pytorch, Statement.programText (Torch.program members)⟩ := by
    simp [Program.ofLayers, hunits, Framework.pytorch.ofValue_name, Framework.source, hsource]
  have hnames : members.map (fun member => member.name.toList) =
      units.map fun unit => unit.name.toList :=
    (map_eq_map_of_forall₂ hmembers fun unit member hunit => by
      rw [(Torch.Member.ofUnit_eq_ok hunit).1]).symm
  refine ⟨units, _, _, _, hunits, hprogram, hdeclared, huses, hnodup, ?_, ?_, ?_⟩
  · rw [List.map_map]
    exact hnames
  · rw [List.map_map]
    exact hnames
  · rw [List.zip_map', List.forall₂_map_right_iff]
    exact hmembers.imp fun unit member hunit => Torch.Member.agrees hunit

theorem members_used_stackedModel :
    stackedModel.Reachable ∧
      ∃ units source declared uses,
        NamedGroup.ofLayers stackedModel.layers = .ok units ∧
        Program.ofLayers (.str Framework.pytorch.name) stackedModel.layers =
          .ok ⟨.pytorch, source⟩ ∧
        declarations? (ofText source) = some declared ∧ uses? (ofText source) = some uses ∧
        (units.map NamedGroup.name).Nodup ∧
        declared.map Declared.name = units.map (fun unit => unit.name.toList) ∧
        uses.map Use.name = units.map (fun unit => unit.name.toList) ∧
        List.Forall₂ (fun unit entry => unit.Agrees entry.1 entry.2) units (declared.zip uses) :=
  have h : stackedModel.Reachable := ⟨.counting, stackedSession, rfl⟩
  ⟨h, h.members_used⟩

end LayerStack
