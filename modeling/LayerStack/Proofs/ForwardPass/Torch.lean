import LayerStack.Export.Torch
import LayerStack.Proofs.Calls
import LayerStack.Proofs.ForwardPass.Reader

/-! The forward pass of a module class: it applies the elements of every member, as many as the
member holds, in the order of the members. -/

namespace LayerStack.Export

namespace Torch

open Outline (Declared Holder)

/-- What the answer of a layer is assigned to. -/
def targets (kind : Kind) : String := if answersTuple kind then "x, _ = " else "x = "

theorem targets_eq (kind : Kind) : targets kind = "x = " ∨ targets kind = "x, _ = " := by
  rw [targets]
  split <;> simp

def operands (kind : Kind) : String := if kind = .attention then "(x, x, x)" else "(x)"

namespace Member

theorem callLine_eq (kind : Kind) (callee : String) :
    callLine kind callee = targets kind ++ callee ++ operands kind := by
  cases kind <;> simp [callLine, targets, operands, answersTuple]

/-- A member that can be read back. -/
structure Readable (member : Member) : Prop where
  name : ∀ c ∈ member.name.toList, c.isAlphanum = true
  call : IsLine member.call.text
  count : 1 ≤ member.count

/-- How a member holds its layers. -/
def holder (member : Member) : Holder :=
  if member.repeated then if answersTuple member.kind then .list else .sequence else .element

/-- What is read from the declaration of a member. -/
def declared (member : Member) : Declared :=
  ⟨member.name.toList, member.holder, member.count, member.call.text.toList⟩

/-- The line that applies one layer of a member. -/
def line (member : Member) : String := callLine member.kind member.call.text

theorem application?_callLine (kind : Kind) (callee : String) (h : '(' ∉ callee.toList) :
    Outline.application? (callLine kind callee).toList =
      some ⟨(targets kind).toList, callee.toList, (operands kind).toList⟩ := by
  have hoperands : (operands kind).toList.head? = some '(' := by cases kind <;> decide
  rw [callLine_eq, String.toList_append, String.toList_append, List.append_assoc]
  exact Outline.application?_append (targets_eq kind) h hoperands

theorem declared?_outline {member : Member} (h : member.Readable) (depth : Nat)
    (rest : List Outline) :
    Outline.declared? (member.declaration.outline depth ++ rest) =
      (Outline.declared? rest).map (member.declared :: ·) := by
  by_cases hrepeated : member.repeated = true
  · have hholder : Outline.holder? member.containerOpening.toList = some member.holder := by
      cases hkind : answersTuple member.kind <;>
        simp +decide [Outline.holder?, containerOpening, container, holder, hrepeated, hkind]
    have hcount := Outline.count?_natText "for _ in range(" ")" member.count rfl
    rw [declaration, if_pos hrepeated]
    exact Outline.declared?_bracket (Outline.assigned?_append h.name _) hholder hcount _ _ _ _ _
  · have hone : member.count = 1 := by
      have := h.count
      simp only [repeated, decide_eq_true_eq] at hrepeated
      omega
    have hread : member.declared =
        ⟨member.name.toList, .element, 1, member.call.text.toList⟩ := by
      simp [declared, holder, hrepeated, hone]
    rw [declaration, if_neg hrepeated, hread]
    exact Outline.declared?_line (Outline.assigned?_append h.name _) _ _

/-- What a member is used for in the forward pass: each of its layers is applied. -/
theorem applied?_outline {members : List Declared} {member : Member} (h : member.Readable)
    (hname : Outline.lookup? members member.name.toList = some member.declared) (depth : Nat) :
    ∃ outline, member.application.outline depth = [outline] ∧
      Outline.applied? members outline =
        some (List.replicate member.count member.line.toList) := by
  have hline : ∀ callee, Outline.Application.calling
      ⟨(targets member.kind).toList, callee, (operands member.kind).toList⟩
      member.declared.element = member.line.toList := by
    intro callee
    simp [Outline.Application.calling, declared, line, callLine_eq]
  by_cases hlist : (member.repeated && answersTuple member.kind) = true
  · have hholder : member.declared.holder = .list := by
      simp only [Bool.and_eq_true] at hlist
      simp [declared, holder, hlist.1, hlist.2]
    have hbody := application?_callLine member.kind "layer" (by decide)
    have hcolon : ':' ∉ member.name.toList := not_mem_of_forall h.name rfl
    have hread := Outline.applied?_loop hbody rfl hcolon hname hholder (4 * depth) (4 * (depth + 1))
    have hhead : ("for layer in self." ++ member.name ++ ":").toList =
        "for layer in self.".toList ++ (member.name.toList ++ [':']) := by simp
    rw [hline, ← hhead] at hread
    rw [application, if_pos hlist]
    exact ⟨_, rfl, hread⟩
  · have hholder : member.declared.holder ≠ .list := by
      simp only [declared, holder]
      split <;> simp_all
    have hcallee : '(' ∉ ("self." ++ member.name).toList := by
      simp only [String.toList_append, List.mem_append, not_or]
      exact ⟨by decide, not_mem_of_forall h.name rfl⟩
    have htext := application?_callLine member.kind ("self." ++ member.name) hcallee
    have hread := Outline.applied?_line htext String.toList_append hname hholder (4 * depth)
    rw [hline] at hread
    rw [application, if_neg hlist]
    exact ⟨_, rfl, hread⟩

end Member

/-! ### The program -/

theorem declared?_declarations {members : List Member} (h : ∀ member ∈ members, member.Readable)
    (depth : Nat) :
    Outline.declared? (Statement.outlineAll depth (members.map Member.declaration)) =
      some (members.map Member.declared) := by
  induction members with
  | nil => rfl
  | cons member rest ih =>
    rw [List.forall_mem_cons] at h
    rw [List.map_cons, Statement.outlineAll, Member.declared?_outline h.1, ih h.2]
    rfl

theorem applied?_applications {declared : List Outline.Declared} {members : List Member}
    (h : ∀ member ∈ members, member.Readable ∧
      Outline.lookup? declared member.name.toList = some member.declared) (depth : Nat) :
    (Statement.outlineAll depth (members.map Member.application)).mapM
        (Outline.applied? declared) =
      some (members.map fun member => List.replicate member.count member.line.toList) := by
  induction members with
  | nil => rfl
  | cons member rest ih =>
    rw [List.forall_mem_cons] at h
    obtain ⟨outline, houtline, hread⟩ := Member.applied?_outline h.1.1 h.1.2 depth
    rw [List.map_cons, Statement.outlineAll, houtline, List.singleton_append, List.mapM_cons, hread,
      ih h.2]
    rfl

theorem under?_init (members : List Member) :
    Outline.under? ["class LayerCalModel(nn.Module):", "def __init__(self):"]
        (Statement.outlineAll 0 (program members)) =
      some (.node 8 "super().__init__()".toList [] ::
        Statement.outlineAll 2 (members.map Member.declaration)) := by
  rfl

theorem under?_forward (members : List Member) :
    Outline.under? ["class LayerCalModel(nn.Module):", "def forward(self, x):"]
        (Statement.outlineAll 0 (program members)) =
      some (Statement.outlineAll 2 (members.map Member.application ++ [.line "return x"])) := by
  rfl

theorem isLine_declaration {member : Member} (h : member.Readable) :
    ∀ text ∈ member.declaration.texts, IsLine text := by
  have hname := oneLine_of_isAlphanum h.name
  have hself : IsLine "self." := isLine_ofList rfl rfl
  have hassign : OneLine " = " := oneLine_ofList rfl
  rw [Member.declaration]
  split
  · have hopening : OneLine member.containerOpening := by
      simp +decide [Member.containerOpening, Member.container]
    have hloop : IsLine "for _ in range(" := isLine_ofList rfl rfl
    have hcount := (Decimal.bare_natText member.count).oneLine
    simp only [Statement.texts, List.cons_append, List.nil_append, List.forall_mem_cons]
    exact ⟨((hself.append hname).append hassign).append hopening, h.call,
      (hloop.append hcount).append (oneLine_ofList rfl), isLine_ofList rfl rfl, by simp⟩
  · simp only [Statement.texts, List.forall_mem_cons]
    exact ⟨((hself.append hname).append hassign).append h.call.1, by simp⟩

theorem isLine_callLine (kind : Kind) {callee : String} (h : OneLine callee) :
    IsLine (Member.callLine kind callee) := by
  have htargets : IsLine (targets kind) := by cases kind <;> exact isLine_ofList rfl rfl
  have hoperands : OneLine (operands kind) := by cases kind <;> exact oneLine_ofList rfl
  rw [Member.callLine_eq]
  exact (htargets.append h).append hoperands

theorem isLine_application {member : Member} (h : member.Readable) :
    ∀ text ∈ member.application.texts, IsLine text := by
  have hname := oneLine_of_isAlphanum h.name
  have hloop : IsLine "for layer in self." := isLine_ofList rfl rfl
  rw [Member.application]
  split
  · simp only [Statement.texts, Statement.textsAll, List.append_nil, List.forall_mem_cons]
    exact ⟨(hloop.append hname).append (oneLine_ofList rfl), isLine_callLine _ (oneLine_ofList rfl),
      by simp⟩
  · simp only [Statement.texts, List.forall_mem_cons]
    exact ⟨isLine_callLine _ (oneLine_append.mpr ⟨oneLine_ofList rfl, hname⟩), by simp⟩

theorem isLine_program {members : List Member} (h : ∀ member ∈ members, member.Readable) :
    ∀ text ∈ Statement.textsAll (program members), IsLine text := by
  have hdeclarations := Statement.isLine_of_mem_textsAll_map fun member hmember =>
    isLine_declaration (h member hmember)
  have happlications := Statement.isLine_of_mem_textsAll_map fun member hmember =>
    isLine_application (h member hmember)
  simp only [program, Statement.textsAll_append, List.forall_mem_append]
  refine ⟨Statement.isLine_heading (isLine_ofList rfl rfl), ?_⟩
  simp only [Statement.textsAll, Statement.texts, Statement.textsAll_append, List.nil_append,
    List.cons_append, List.append_nil, List.forall_mem_append, List.forall_mem_cons,
    List.not_mem_nil, false_imp_iff, implies_true, and_true, and_assoc]
  exact ⟨isLine_ofList rfl rfl, isLine_ofList rfl rfl, isLine_ofList rfl rfl,
    isLine_ofList rfl rfl, isLine_ofList rfl rfl, hdeclarations, isLine_ofList rfl rfl,
    happlications, isLine_ofList rfl rfl, isLine_ofList rfl rfl, isLine_ofList rfl rfl,
    isLine_ofList rfl rfl, isLine_ofList rfl rfl⟩

def declarationLines (shape : Kind × Bool) : Nat := if shape.2 then 4 else 1

def applicationLines (shape : Kind × Bool) : Nat :=
  if shape.2 && answersTuple shape.1 then 2 else 1

theorem height_program (members : List Member) :
    Statement.heightAll (program members) =
      21 + ((members.map fun member => (member.kind, member.repeated)).map declarationLines).sum +
        ((members.map fun member => (member.kind, member.repeated)).map applicationLines).sum := by
  have hdeclaration : ∀ member : Member,
      member.declaration.height = declarationLines (member.kind, member.repeated) := by
    intro member
    rw [Member.declaration, declarationLines]
    split <;> rfl
  have happlication : ∀ member : Member,
      member.application.height = applicationLines (member.kind, member.repeated) := by
    intro member
    rw [Member.application, applicationLines]
    split <;> rfl
  simp only [program, Statement.heading, Statement.heightAll, Statement.height, List.cons_append,
    List.nil_append, Statement.heightAll_append]
  simp only [Statement.heightAll_eq, List.map_map, Function.comp_def, hdeclaration, happlication]
  omega

theorem isReturn_application {members : List Member} (depth : Nat) :
    ∀ outline ∈ Statement.outlineAll depth (members.map Member.application),
      outline.isReturn = false := by
  intro outline houtline
  rw [Statement.outlineAll_eq, List.flatMap_map] at houtline
  obtain ⟨member, -, hmem⟩ := List.mem_flatMap.mp houtline
  rw [Member.application] at hmem
  split at hmem
  · obtain rfl := List.mem_singleton.mp hmem
    exact Outline.isReturn_eq_false 'f' (by simp [Outline.text]) (by decide)
  · obtain rfl := List.mem_singleton.mp hmem
    refine Outline.isReturn_eq_false 'x' ?_ (by decide)
    rw [Member.callLine_eq]
    cases hkind : answersTuple member.kind <;> simp [Outline.text, targets, hkind]

/-- Reading the forward pass gives one application for every layer of every member, in order. -/
theorem torchPass?_program {members : List Member} (h : ∀ member ∈ members, member.Readable)
    (hnodup : (members.map Member.name).Nodup) :
    Outline.torchPass? (Outline.ofText (Statement.programText (program members))) =
      some (members.flatMap fun member => List.replicate member.count member.line.toList) := by
  -- A name that was declared twice would stand for the later member in both of its uses.
  have hnames : ((members.map Member.declared).map Declared.name).Nodup := by
    have hinjective : Function.Injective String.toList := fun _ _ => String.toList_injective
    simpa [Function.comp_def, Member.declared] using hnodup.map hinjective
  have hlookup : ∀ member ∈ members, member.Readable ∧
      Outline.lookup? (members.map Member.declared) member.name.toList = some member.declared :=
    fun member hmember => ⟨h member hmember,
      Outline.lookup?_of_mem hnames (List.mem_map_of_mem hmember)⟩
  have hforward : Outline.beforeReturn?
      (Statement.outlineAll 2 (members.map Member.application ++ [.line "return x"])) =
        some (Statement.outlineAll 2 (members.map Member.application)) := by
    rw [Statement.outlineAll_append]
    exact Outline.beforeReturn?_append (isReturn_application 2) (by decide)
  have hne : program members ≠ [] := by simp [program, Statement.heading]
  rw [Statement.ofText_programText hne (isLine_program h), Outline.torchPass?, under?_init,
    under?_forward]
  simp only [Option.bind_eq_bind, Option.bind_some, if_true, declared?_declarations h, hforward,
    applied?_applications hlookup, List.flatMap]
  rfl

theorem Member.ofUnit_eq_ok {unit : NamedGroup} {member : Member} (h : ofUnit unit = .ok member) :
    member.name = unit.name ∧ member.kind = unit.group.kind ∧ member.count = unit.group.count ∧
      constructor unit.group.kind unit.rank unit.group.config = .ok member.call := by
  simp only [ofUnit, bind_eq_ok, pure_eq_ok] at h
  obtain ⟨call, hcall, rfl⟩ := h
  exact ⟨rfl, rfl, rfl, hcall⟩

end Torch

end LayerStack.Export
