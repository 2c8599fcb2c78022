import LayerStack.Proofs.ForwardPass
import LayerStack.Proofs.Layout.Blocks
import LayerStack.Proofs.Layout.Pieces

/-! The layout of the programs for named groups.  Every line of a program closes what it opens,
except for the lists of repeated members and for one call in a helper, and every block starts with
code. -/

namespace LayerStack.Export

open Layout

open Layout.State (start)

namespace Layout

/-! ### Lines -/

theorem scan?_docMark (last : Option Char) :
    State.scan? ⟨[], [], last, false⟩ docMark = none := rfl

/-- A line in code, with what is left open after it. -/
theorem readLine?_of_scan {opened after text : List Char} {last lastCode : Option Char}
    {comment : Bool} (hcode : opened.any isMark = false) (hafter : after.any isMark = false)
    (h : State.scan? ⟨opened, [], last, false⟩ text = some ⟨after, [], lastCode, comment⟩) :
    readLine? opened last text = some (after, lastCode) := by
  have hopened : opened ≠ docMark := by
    rintro rfl
    simp [docMark, isMark] at hcode
  have htext : ¬(opened = [] ∧ text = docMark) := by
    rintro ⟨rfl, rfl⟩
    simp [scan?_docMark] at h
  have hword : isWord [] = true := rfl
  rw [readLine?, if_neg hopened, if_neg htext, h, Option.bind_some, State.atEnd?]
  simp [hafter, hword]

theorem joined?_cons {opened after text : List Char} {last lastCode : Option Char}
    (h : readLine? opened last text = some (after, lastCode)) (hopen : after.isEmpty = false)
    (rest : List (List Char)) :
    joined? opened last (text :: rest) = joined? after lastCode rest := by
  simp [joined?, h, hopen]

theorem joined?_last {opened text : List Char} {last lastCode : Option Char}
    (h : readLine? opened last text = some ([], lastCode)) :
    joined? opened last [text] = some lastCode := by
  simp [joined?, h]

theorem joinedTexts?_of_scan {text : String} {last : Option Char} {comment : Bool}
    (h : start.scan? text.toList = some ⟨[], [], last, comment⟩) :
    joinedTexts? [text] = some last := by
  have hread : readLine? [] none text.toList = some ([], last) := readLine?_of_scan rfl rfl h
  exact joined?_last hread

theorem Closes.joinedTexts? {text : String} (h : Closes text.toList) :
    joinedTexts? [text] = some (some ')') := by
  obtain ⟨comment, hscan⟩ := h
  exact joinedTexts?_of_scan hscan

/-- The characters of a literal are those that it is made of. -/
theorem joinedTexts?_ofList (cs : List Char) :
    joinedTexts? [String.ofList cs] = joined? [] none [cs] := by
  rw [joinedTexts?, List.map_singleton, String.toList_ofList]

theorem joinedTexts?_ofList_append (cs ds : List Char) :
    joinedTexts? [String.ofList cs ++ String.ofList ds] = joined? [] none [cs ++ ds] := by
  rw [← String.ofList_append, joinedTexts?_ofList]

/-- The head of a loop that counts. -/
theorem scan?_rangeHead (n : Nat) :
    start.scan? ("for i in range(" ++ Decimal.natText n ++ "):").toList =
      some ⟨[], [], some ':', false⟩ := by
  have hbefore : start.scan? "for i in range(".toList = some ⟨['('], [], some '(', false⟩ := rfl
  rw [String.toList_append, String.toList_append]
  exact scan?_inside rfl hbefore (piece_natText n) rfl fun _ => rfl

/-- What a list of equal elements is made by. -/
theorem closing_rangeTail (n : Nat) :
    Closing ("for _ in range(" ++ Decimal.natText n ++ ")").toList :=
  closing_between rfl rfl (fun _ => rfl) (piece_natText n)

end Layout

/-! ### Statements -/

namespace Statement

/-- A statement that starts with code, and that leaves nothing open. -/
structure IsClosed (statement : Statement) : Prop where
  laidOut : statement.laidOut = true
  starts : startsCode [statement] = true
  brackets : statement.brackets = []

theorem isClosed_line {text : String} (h : Closes text.toList) : IsClosed (.line text) where
  laidOut := by rw [laidOut, ends, h.joinedTexts?]; rfl
  starts := by rw [startsCode, h.joinedTexts?]; rfl
  brackets := rfl

/-- A loop over a line. -/
theorem isClosed_loop {head text : String}
    (hhead : start.scan? head.toList = some ⟨[], [], some ':', false⟩) (h : Closes text.toList) :
    IsClosed (.block head [.line text]) where
  laidOut := by
    have hline := isClosed_line h
    rw [laidOut, laidOutAll, laidOutAll, joinedTexts?_of_scan hhead, hline.starts, hline.laidOut]
    rfl
  starts := rfl
  brackets := rfl

theorem isClosed_passes {line : String} (h : Closes line.toList) (count : Nat) :
    IsClosed (passes count line) := by
  rw [passes]
  split
  · exact isClosed_loop (scan?_rangeHead count) h
  · exact isClosed_line h

section

variable {α : Type} {items : List α} {statement : α → Statement}

theorem laidOutAll_map (h : ∀ item ∈ items, (statement item).laidOut = true) :
    laidOutAll (items.map statement) = true := by
  simpa [laidOutAll_eq] using h

variable (h : ∀ item ∈ items, IsClosed (statement item))

include h

theorem startsCode_map {last : List Statement} (hlast : startsCode last = true) :
    startsCode (items.map statement ++ last) = true := by
  cases items with
  | nil => exact hlast
  | cons item rest =>
    exact startsCode_append (h item List.mem_cons_self).starts (rest.map statement ++ last)

theorem bracketsAll_map : bracketsAll (items.map statement) = [] := by
  simpa [bracketsAll_eq] using fun item hitem => (h item hitem).brackets

end

end Statement

/-! ### Members -/

namespace Torch

open Statement (IsClosed isClosed_line isClosed_loop laidOut laidOutAll brackets bracketsAll
  startsCode)

namespace Member

/-- The lines of the declaration of a member that holds several layers. -/
def bracketTexts (member : Member) : List String := [
  "self." ++ member.name ++ " = " ++ member.containerOpening,
  member.call.text,
  "for _ in range(" ++ Decimal.natText member.count ++ ")",
  "])"]

/-- A member whose lines close what they open. -/
structure Closed (member : Member) : Prop where
  name : ∀ c ∈ member.name.toList, c.isAlphanum = true
  call : Closing member.call.text.toList

variable {member : Member}

theorem Closed.piece_self (h : member.Closed) : Piece ("self." ++ member.name).toList := by
  refine piece_of_name ?_
  have hname : member.name.toList.all (fun c => c.isAlphanum || c == '_' || c == '.') = true := by
    rw [List.all_eq_true]
    intro c hc
    simp [h.name c hc]
  simp [isName, hname]

theorem separates_assign (value : String) : Separates (" = " ++ value).toList := by
  rw [String.toList_append]
  exact Separates.append (by decide) _

/-- A list stays open after its first line, and its last line closes it. -/
theorem Closed.joinedTexts? (h : member.Closed) :
    joinedTexts? member.bracketTexts = some (some ')') := by
  have hbracket : start.scan? (" = " ++ member.containerOpening).toList =
      some ⟨['[', '('], [], member.containerOpening.toList.getLast?, false⟩ := by
    cases hkind : answersTuple member.kind <;>
      simp only [containerOpening, container, hkind] <;> rfl
  obtain ⟨last, hopening⟩ := scan?_after_piece h.piece_self (separates_assign _) hbracket
  rw [← String.toList_append, ← String.append_assoc] at hopening
  have hinside : ['[', '('].any isMark = false := rfl
  have hclosed : ∀ {text : String}, Closing text.toList → ∀ last,
      readLine? ['[', '('] last text.toList = some (['[', '('], some ')') :=
    fun hclosing last => readLine?_of_scan rfl rfl (scan?_open hinside hclosing last)
  have hlast : ∀ last, readLine? ['[', '('] last "])".toList = some ([], some ')') := fun _ => rfl
  have hfirst := readLine?_of_scan rfl rfl hopening
  exact (joined?_cons hfirst rfl _).trans ((joined?_cons (hclosed h.call _) rfl _).trans
    ((joined?_cons (hclosed (closing_rangeTail member.count) _) rfl _).trans
      (joined?_last (hlast _))))

theorem Closed.laidOut_declaration (h : member.Closed) : member.declaration.laidOut = true := by
  rw [declaration]
  split
  · have hjoined := h.joinedTexts?
    rw [bracketTexts] at hjoined
    rw [Statement.laidOut, Statement.ends]
    simp [hjoined]
  · have hassign : Clean " = ".toList := by decide
    have hvalue : Closing (" = " ++ member.call.text).toList := by
      rw [String.toList_append]
      exact hassign.append_closing h.call
    have hcall : Closing ("self." ++ member.name ++ " = " ++ member.call.text).toList := by
      rw [String.append_assoc, String.toList_append]
      exact h.piece_self.append_closing (separates_assign _) hvalue
    exact (isClosed_line hcall.closes).laidOut

/-- What a declaration leaves open at the end of a line is the list of a repeated member. -/
theorem eq_of_mem_brackets_declaration {texts : List String}
    (h : texts ∈ member.declaration.brackets) :
    member.repeated = true ∧ texts = member.bracketTexts := by
  rw [declaration] at h
  split at h
  next hrepeated => exact ⟨hrepeated, List.mem_singleton.mp h⟩
  · simp [brackets] at h

/-- A call is applied to the value. -/
theorem closing_callLine (kind : Kind) {callee : String} (h : Piece callee.toList) :
    Closing (callLine kind callee).toList := by
  have htargets : Clean (targets kind).toList := by cases kind <;> decide
  have hoperands : Closing (operands kind).toList ∧ Separates (operands kind).toList := by
    cases kind <;> decide
  rw [callLine_eq, String.toList_append, String.toList_append, List.append_assoc]
  exact htargets.append_closing (h.append_closing hoperands.2 hoperands.1)

theorem Closed.isClosed_application (h : member.Closed) : IsClosed member.application := by
  rw [application]
  split
  · have hloop : start.scan? ("for layer in self." ++ member.name ++ ":").toList =
        some ⟨[], [], some ':', false⟩ := by
      have hbefore : start.scan? "for layer in ".toList = some ⟨[], [], some 'n', false⟩ := rfl
      have htext : ("for layer in self." ++ member.name ++ ":").toList =
          "for layer in ".toList ++ ("self." ++ member.name).toList ++ ":".toList := by simp
      rw [htext]
      exact scan?_inside rfl hbefore h.piece_self rfl fun _ => rfl
    exact isClosed_loop hloop (closing_callLine member.kind (by decide)).closes
  · exact isClosed_line (closing_callLine member.kind h.piece_self).closes

end Member

/-- The statements after the heading of a program are laid out, and the only lines that stay open
are those of lists. -/
theorem laidOut_program {members : List Member} (h : ∀ member ∈ members, member.Closed) :
    ∃ body, program members = Statement.heading Framework.pytorch.displayName ++ body ∧
      laidOutAll body = true ∧ ∀ texts ∈ bracketsAll body,
        ∃ member ∈ members, member.repeated = true ∧ texts = member.bracketTexts := by
  have hdeclarations : laidOutAll (members.map Member.declaration) = true :=
    Statement.laidOutAll_map fun member hmember => (h member hmember).laidOut_declaration
  have hclosed : ∀ member ∈ members, IsClosed member.application :=
    fun member hmember => (h member hmember).isClosed_application
  have happlications : laidOutAll (members.map Member.application) = true :=
    Statement.laidOutAll_map fun member hmember => (hclosed member hmember).laidOut
  have hinit : startsCode (.line "super().__init__()" :: members.map Member.declaration) = true :=
    Statement.startsCode_append (by decide : startsCode [.line "super().__init__()"] = true) _
  have hforward : startsCode (members.map Member.application ++ [.line "return x"]) = true :=
    Statement.startsCode_map hclosed (by decide)
  have hclass : ∀ head body rest, startsCode (.block head body :: rest) = true := fun _ _ _ => rfl
  refine ⟨_, rfl, ?_, fun texts htexts => ?_⟩
  · simp only [laidOutAll, laidOut, Statement.laidOutAll_append, hdeclarations, happlications,
      hinit, hforward, hclass]
    simp only [Statement.ends]
    repeat rw [joinedTexts?_ofList]
    decide +kernel
  · simp only [bracketsAll, brackets, Statement.bracketsAll_append,
      Statement.bracketsAll_map hclosed, List.nil_append, List.append_nil] at htexts
    rw [Statement.bracketsAll_eq, List.flatMap_map] at htexts
    obtain ⟨member, hmember, hmem⟩ := List.mem_flatMap.mp htexts
    exact ⟨member, hmember, Member.eq_of_mem_brackets_declaration hmem⟩

end Torch

/-! ### Steps -/

/-- A helper that is written only where it is used. -/
theorem laidOut_helper {c : Prop} [Decidable c] {helper : Statement} (h : helper.laidOut = true) :
    Statement.laidOutAll (if c then [helper, .blank, .blank] else []) = true := by
  split
  · simp [Statement.laidOutAll, h, Statement.laidOut]
  · rfl

namespace Keras

open Statement (IsClosed isClosed_passes laidOut laidOutAll brackets bracketsAll startsCode)

/-- The lines of the call in the helper that writes an encoder block. -/
def attentionTexts : List String := [
  "attn = layers.MultiHeadAttention(",
  "num_heads=num_heads, key_dim=d_model // num_heads, dropout=dropout, " ++
    "name=f\"\x7bname\x7d_mha\"",
  ")(x, x)"]

theorem joinedTexts?_attentionTexts : joinedTexts? attentionTexts = some (some ')') := by
  decide +kernel

theorem laidOut_transformerBlock : transformerBlock.laidOut = true := by
  have hattention := joinedTexts?_attentionTexts
  rw [attentionTexts] at hattention
  simp only [transformerBlock, laidOut, laidOutAll, startsCode, Statement.ends, List.cons_append,
    List.nil_append, hattention]
  repeat rw [joinedTexts?_ofList]
  decide +kernel

theorem laidOut_recurrentStack : recurrentStack.laidOut = true := by
  simp only [recurrentStack, laidOut, laidOutAll, startsCode, Statement.ends]
  repeat rw [joinedTexts?_ofList]
  decide +kernel

theorem eq_of_mem_brackets_helpers {steps : List Step} {texts : List String}
    (h : texts ∈ bracketsAll (helpers steps)) : texts = attentionTexts := by
  rw [helpers, Statement.bracketsAll_append, List.mem_append] at h
  rcases h with h | h
  · split at h
    · exact List.mem_singleton.mp h
    · simp [bracketsAll] at h
  · split at h <;> simp [bracketsAll, brackets, recurrentStack] at h

/-- The statements after the heading of a program are laid out, and the only line that stays open is
the call in a helper. -/
theorem laidOut_program {input : String} (hinput : Piece input.toList) {steps : List Step}
    (h : ∀ step ∈ steps, Closes step.application.line.toList) :
    ∃ body, program input steps = Statement.heading Framework.tensorflow.displayName ++ body ∧
      laidOutAll body = true ∧ ∀ texts ∈ bracketsAll body, texts = attentionTexts := by
  have hclosed : ∀ step ∈ steps, IsClosed (passes step.count step.application.line) :=
    fun step hstep => isClosed_passes (h step hstep) step.count
  have hsteps : laidOutAll (steps.map Step.statement) = true := by
    rw [statement_eq]
    exact Statement.laidOutAll_map fun step hstep => (hclosed step hstep).laidOut
  have hnone : bracketsAll (steps.map Step.statement) = [] := by
    rw [statement_eq]
    exact Statement.bracketsAll_map hclosed
  have hhelpers : laidOutAll (helpers steps) = true := by
    rw [helpers, Statement.laidOutAll_append, laidOut_helper laidOut_transformerBlock,
      laidOut_helper laidOut_recurrentStack]
    rfl
  have hinputs : Closing ("inputs = tf.keras.Input(" ++ input ++ ")").toList :=
    closing_between rfl rfl (fun _ => rfl) hinput
  have hline := Statement.isClosed_line hinputs.closes
  have hends := hline.laidOut
  rw [laidOut] at hends
  have hbuild : ∀ rest,
      startsCode (.line ("inputs = tf.keras.Input(" ++ input ++ ")") :: rest) = true :=
    Statement.startsCode_append hline.starts
  refine ⟨_, by rw [program, List.append_assoc, List.append_assoc], ?_, fun texts htexts => ?_⟩
  · simp only [laidOutAll, laidOut, Statement.laidOutAll_append, hsteps, hhelpers, hbuild, hends,
      List.cons_append, List.nil_append]
    simp only [Statement.ends]
    repeat rw [joinedTexts?_ofList]
    decide +kernel
  · simp only [bracketsAll, brackets, Statement.bracketsAll_append, hnone, List.cons_append,
      List.nil_append, List.append_nil] at htexts
    exact eq_of_mem_brackets_helpers htexts

end Keras

namespace Flax

open Statement (IsClosed isClosed_passes laidOut laidOutAll brackets bracketsAll startsCode)

theorem laidOut_transformerBlock : transformerBlock.laidOut = true := by
  simp only [transformerBlock, laidOut, laidOutAll, startsCode, Statement.ends]
  repeat rw [joinedTexts?_ofList]
  rw [joinedTexts?_ofList_append]
  decide +kernel

theorem laidOut_recurrentStack : recurrentStack.laidOut = true := by
  simp only [recurrentStack, laidOut, laidOutAll, startsCode, Statement.ends]
  repeat rw [joinedTexts?_ofList]
  rw [joinedTexts?_ofList_append]
  decide +kernel

/-- The statements after the heading of a program are laid out, and no line stays open. -/
theorem laidOut_program {steps : List Step}
    (h : ∀ step ∈ steps, Closes step.application.line.toList) :
    ∃ body, program steps = Statement.heading Framework.jax.displayName ++ body ∧
      laidOutAll body = true ∧ bracketsAll body = [] := by
  have hclosed : ∀ step ∈ steps, IsClosed (passes step.count step.application.line) :=
    fun step hstep => isClosed_passes (h step hstep) step.count
  have hsteps : laidOutAll (steps.map Step.statement) = true := by
    rw [statement_eq]
    exact Statement.laidOutAll_map fun step hstep => (hclosed step hstep).laidOut
  have hnone : bracketsAll (steps.map Step.statement) = [] := by
    rw [statement_eq]
    exact Statement.bracketsAll_map hclosed
  have hcall : startsCode (steps.map Step.statement ++ [.line "return x"]) = true := by
    rw [statement_eq]
    exact Statement.startsCode_map hclosed (by decide)
  have hhelpers : laidOutAll (helpers steps) = true ∧ bracketsAll (helpers steps) = [] := by
    rw [helpers, Statement.laidOutAll_append, laidOut_helper laidOut_transformerBlock,
      laidOut_helper laidOut_recurrentStack]
    refine ⟨rfl, ?_⟩
    split <;> split <;> rfl
  have hclass : ∀ rest, startsCode (.line "@nn.compact" :: rest) = true :=
    Statement.startsCode_append (by decide : startsCode [.line "@nn.compact"] = true)
  refine ⟨_, by rw [program, List.append_assoc, List.append_assoc], ?_, ?_⟩
  · simp only [laidOutAll, laidOut, Statement.laidOutAll_append, hsteps, hhelpers, hcall, hclass,
      List.cons_append, List.nil_append]
    simp only [Statement.ends]
    repeat rw [joinedTexts?_ofList]
    decide +kernel
  · simp only [bracketsAll, brackets, Statement.bracketsAll_append, hnone, hhelpers,
      List.cons_append, List.nil_append, List.append_nil]

end Flax

/-! ### Named groups -/

theorem piece_layerName {unit : NamedGroup} (h : unit.Sound) (hne : unit.name.toList ≠ []) :
    Piece (if unit.repeated then indexedName unit.name "i" else quotedName unit.name).toList := by
  split
  · exact (clean_indexedName h.name).piece
  · exact (clean_quotedName h.name hne).piece

theorem Torch.Member.closed {unit : NamedGroup} (h : unit.Sound) {member : Member}
    (hmember : Member.ofUnit unit = .ok member) : member.Closed := by
  obtain ⟨hname, -, -, hcall⟩ := Member.ofUnit_eq_ok hmember
  exact ⟨hname ▸ h.name, closing_constructor (h.configured default) unit.rank hcall⟩

theorem Keras.Step.closes {unit : NamedGroup} (h : unit.Sound) (hne : unit.name.toList ≠ [])
    {step : Step} (hstep : Step.ofUnit unit = .ok step) : Closes step.application.line.toList := by
  obtain ⟨-, -, happlication⟩ := Step.ofUnit_eq_ok hstep
  exact (closing_layer (h.configured default) (piece_layerName h hne) happlication).closes

theorem Flax.Step.closes {unit : NamedGroup} (h : unit.Sound) (hne : unit.name.toList ≠ [])
    {step : Step} (hstep : Step.ofUnit unit = .ok step) : Closes step.application.line.toList := by
  obtain ⟨-, -, happlication⟩ := Step.ofUnit_eq_ok hstep
  exact closes_layer (h.configured default) (piece_layerName h hne) happlication

end LayerStack.Export
