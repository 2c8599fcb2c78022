import LayerStack.Proofs.Layout.Programs

/-! Generated programs are well formed.  For every model of a session and every framework the text
of the program can be read: everything that is opened is closed, and outside of quotes and comments
there are only names, finite decimal numerals and signs between the other characters.  Its lines are
nested in blocks, and none of them is joined of several lines, apart from the heading, the lists of
repeated members, and one call in a helper. -/

namespace LayerStack

open Export Export.Layout

/-- The texts that a line of a program for named groups is joined of, if there are several. -/
inductive Framework.Joins (units : List NamedGroup) : Framework → List String → Prop
  | heading (framework : Framework) :
      Joins units framework ["\"\"\"", framework.displayName ++ " model", "Generated by LayerCal",
        "\"\"\""]
  | members {unit : NamedGroup} {opening : String} {call : Call} (hunit : unit ∈ units)
      (hrepeated : unit.repeated = true)
      (hopening : opening ∈ ["nn.Sequential(*[", "nn.ModuleList(["])
      (hcall : Torch.constructor unit.group.kind unit.rank unit.group.config = .ok call) :
      Joins units .pytorch ["self." ++ unit.name ++ " = " ++ opening, call.text,
        "for _ in range(" ++ Decimal.natText unit.group.count ++ ")", "])"]
  | attention :
      Joins units .tensorflow ["attn = layers.MultiHeadAttention(",
        "num_heads=num_heads, key_dim=d_model // num_heads, dropout=dropout, " ++
          "name=f\"\x7bname\x7d_mha\"", ")(x, x)"]

namespace Export

/-! ### The text of a program -/

namespace Statement

/-- The lines of the note at the head of a program. -/
def headingTexts (displayName : String) : List String :=
  ["\"\"\"", displayName ++ " model", "Generated by LayerCal", "\"\"\""]

/-- Reading the text of a program gives the lines of its statements after that of the heading. -/
theorem ofSource?_programText {displayName : String} {body : List Statement}
    (hlines : ∀ text ∈ textsAll (heading displayName ++ body), IsLine text)
    (hheading : ends (headingTexts displayName) = true) (hbody : laidOutAll body = true) :
    ofSource? (programText (heading displayName ++ body)) =
      some (Line.ofTexts 0 (headingTexts displayName) :: joinedLinesAll 0 body) := by
  have hne : heading displayName ++ body ≠ [] := by simp [heading]
  have hone : ∀ line ∈ (linesAll 0 (heading displayName ++ body)).map String.toList ++ [[]],
      '\n' ∉ line := by
    rw [List.forall_mem_append]
    exact ⟨oneLine_programLines hlines, by simp⟩
  rw [textsAll_append, List.forall_mem_append] at hlines
  obtain ⟨htexts, hrest⟩ := hlines
  simp only [heading, textsAll, texts, List.cons_append, List.nil_append, List.append_nil,
    List.forall_mem_cons, List.not_mem_nil, false_imp_iff, implies_true, and_true] at htexts
  have hinside : ∀ text ∈ [(0, displayName ++ " model"), (0, "Generated by LayerCal"),
      (0, "\"\"\"")], IsLine text.2 := by
    simpa using htexts.2
  -- The heading is one line, and the blank line after it is passed over.
  have hread := lines?_texts 0 _ htexts.1 hinside (Option.isSome_of_any hheading)
    ([] :: ((linesAll 0 body).map String.toList ++ [[]]))
  have hblank : lines? none ([] :: ((linesAll 0 body).map String.toList ++ [[]])) =
      some (joinedLinesAll 0 body) := by
    have hbodyRead := lines?_linesAll 0 [[]] body hrest hbody
    simpa [lines?] using hbodyRead
  rw [hblank] at hread
  rw [ofSource?, toList_programText hne, List.splitOn_intercalate _ hone (by simp)]
  simpa [heading, headingTexts, linesAll, lines] using hread

/-- The lines that are read from a program are nested, and those of several lines are the heading
and the brackets of its statements. -/
theorem exists_lines {displayName : String} {program body : List Statement}
    (hprogram : program = heading displayName ++ body)
    (hlines : ∀ text ∈ textsAll program, IsLine text)
    (hheading : ends (headingTexts displayName) = true) (hbody : laidOutAll body = true) :
    ∃ lines, ofSource? (programText program) = some lines ∧ Nested [0] lines ∧
      ∀ line ∈ lines, 1 < line.parts.length →
        ∃ texts ∈ headingTexts displayName :: bracketsAll body,
          line.parts = texts.map String.toList := by
  subst hprogram
  have hend : ∀ e, 0 ≤ e → Nested (levels e) [] := fun _ _ => trivial
  have hnested := nested_joinedLinesAll hend body hbody 0 (Nat.le_refl 0)
  rw [List.append_nil] at hnested
  refine ⟨_, ofSource?_programText hlines hheading hbody,
    nested_texts (Nat.le_refl 0) hheading hnested, fun line hline hparts => ?_⟩
  rcases List.mem_cons.mp hline with rfl | hline
  · exact ⟨_, List.mem_cons_self, rfl⟩
  · obtain ⟨texts, htexts, heq⟩ := exists_bracketsAll 0 body line hline hparts
    exact ⟨texts, List.mem_cons_of_mem _ htexts, heq⟩

end Statement

end Export

/-! ### One framework -/

theorem exists_mem_of_forall₂ {α β : Type} {R : α → β → Prop} {as : List α} {bs : List β}
    (h : List.Forall₂ R as bs) {b : β} (hb : b ∈ bs) : ∃ a ∈ as, R a b := by
  induction h with
  | nil => simp at hb
  | @cons a first _ _ hfirst _ ih =>
    rcases List.mem_cons.mp hb with rfl | hb
    · exact ⟨a, List.mem_cons_self, hfirst⟩
    · obtain ⟨other, hother, hr⟩ := ih hb
      exact ⟨other, List.mem_cons_of_mem _ hother, hr⟩

/-- What is read from the layout of a program for named groups. -/
structure Framework.LaidOut (framework : Framework) (units : List NamedGroup) (source : String)
    (lines : List Line) : Prop where
  read : ofSource? source = some lines
  nested : Nested [0] lines
  joined : ∀ line ∈ lines, 1 < line.parts.length →
    ∃ texts, framework.Joins units texts ∧ line.parts = texts.map String.toList

theorem Framework.ends_heading (framework : Framework) :
    Statement.ends (Statement.headingTexts framework.displayName) = true := by
  cases framework <;> decide +kernel

/-- A program is laid out if its statements after the heading are, and if every bracket among them
is one of those of the framework. -/
theorem Framework.laidOut_of_body {framework : Framework} {units : List NamedGroup}
    {program body : List Statement}
    (hprogram : program = Statement.heading framework.displayName ++ body)
    (hlines : ∀ text ∈ Statement.textsAll program, IsLine text)
    (hbody : Statement.laidOutAll body = true)
    (hjoins : ∀ texts ∈ Statement.bracketsAll body, framework.Joins units texts) :
    ∃ lines, framework.LaidOut units (Statement.programText program) lines := by
  obtain ⟨lines, hread, hnested, hjoined⟩ :=
    Statement.exists_lines hprogram hlines framework.ends_heading hbody
  refine ⟨lines, hread, hnested, fun line hline hparts => ?_⟩
  obtain ⟨texts, htexts, heq⟩ := hjoined line hline hparts
  rcases List.mem_cons.mp htexts with rfl | htexts
  · exact ⟨_, .heading framework, heq⟩
  · exact ⟨texts, hjoins texts htexts, heq⟩

section

variable {units : List NamedGroup} (h : ∀ unit ∈ units, unit.Sound)

include h

theorem Export.Torch.source_laidOut : ∃ source lines,
    Torch.source units = .ok source ∧ Framework.pytorch.LaidOut units source lines := by
  obtain ⟨members, hmembers, hreadable, hsource⟩ := members_ok h
  have hunit : ∀ member ∈ members, ∃ unit ∈ units, Member.ofUnit unit = .ok member :=
    fun member hmember => exists_mem_of_forall₂ hmembers hmember
  have hclosed : ∀ member ∈ members, member.Closed := by
    intro member hmember
    obtain ⟨unit, hmem, hof⟩ := hunit member hmember
    exact Member.closed (h unit hmem) hof
  obtain ⟨body, hprogram, hbody, hbrackets⟩ := laidOut_program hclosed
  have hjoins : ∀ texts ∈ Statement.bracketsAll body, Framework.pytorch.Joins units texts := by
    intro texts htexts
    obtain ⟨member, hmember, hrepeated, rfl⟩ := hbrackets texts htexts
    obtain ⟨unit, hmem, hof⟩ := hunit member hmember
    obtain ⟨hname, -, hcount, hcall⟩ := Member.ofUnit_eq_ok hof
    have hopening : member.containerOpening ∈ ["nn.Sequential(*[", "nn.ModuleList(["] := by
      cases hkind : answersTuple member.kind <;>
        simp [Member.containerOpening, Member.container, hkind]
    rw [Member.repeated, hcount] at hrepeated
    rw [Member.bracketTexts, hname, hcount]
    exact .members hmem hrepeated hopening hcall
  obtain ⟨lines, hlaid⟩ :=
    Framework.laidOut_of_body hprogram (isLine_program hreadable) hbody hjoins
  exact ⟨_, lines, hsource, hlaid⟩

variable (hnamed : ∀ unit ∈ units, unit.name.toList ≠ [])

include hnamed

theorem Export.Keras.source_laidOut : ∃ source lines,
    Keras.source units = .ok source ∧ Framework.tensorflow.LaidOut units source lines := by
  obtain ⟨input, hinput, hline⟩ := exists_input h
  obtain ⟨steps, hsteps, hreadable⟩ := exists_steps h
  have hpiece : Piece input.toList := piece_inputSpec
    (fun first (hfirst : first ∈ units.head?) =>
      (h first (List.mem_of_head? hfirst)).configured default) hinput
  have hcloses : ∀ step ∈ steps, Closes step.application.line.toList := by
    intro step hstep
    obtain ⟨unit, hmem, hof⟩ := exists_mem_of_forall₂ hsteps hstep
    exact Step.closes (h unit hmem) (hnamed unit hmem) hof
  obtain ⟨body, hprogram, hbody, hbrackets⟩ := laidOut_program hpiece hcloses
  have hjoins : ∀ texts ∈ Statement.bracketsAll body, Framework.tensorflow.Joins units texts := by
    intro texts htexts
    obtain rfl := hbrackets texts htexts
    exact .attention
  obtain ⟨lines, hlaid⟩ :=
    Framework.laidOut_of_body hprogram (isLine_program hline hreadable) hbody hjoins
  exact ⟨_, lines, source_eq_ok hinput hsteps, hlaid⟩

theorem Export.Flax.source_laidOut : ∃ source lines,
    Flax.source units = .ok source ∧ Framework.jax.LaidOut units source lines := by
  obtain ⟨steps, hsteps, hreadable, hsource⟩ := steps_ok h
  have hcloses : ∀ step ∈ steps, Closes step.application.line.toList := by
    intro step hstep
    obtain ⟨unit, hmem, hof⟩ := exists_mem_of_forall₂ hsteps hstep
    exact Step.closes (h unit hmem) (hnamed unit hmem) hof
  obtain ⟨body, hprogram, hbody, hbrackets⟩ := laidOut_program hcloses
  have hjoins : ∀ texts ∈ Statement.bracketsAll body, Framework.jax.Joins units texts := by
    simp [hbrackets]
  obtain ⟨lines, hlaid⟩ :=
    Framework.laidOut_of_body hprogram (isLine_program hreadable) hbody hjoins
  exact ⟨_, lines, hsource, hlaid⟩

theorem Framework.source_laidOut (framework : Framework) : ∃ source lines,
    framework.source units = .ok source ∧ framework.LaidOut units source lines := by
  cases framework with
  | pytorch => exact Torch.source_laidOut h
  | tensorflow => exact Keras.source_laidOut h hnamed
  | jax => exact Flax.source_laidOut h hnamed

end

/-! ### The programs of a model -/

/-- The name of a group is not empty. -/
theorem NamedGroup.name_ne_nil {layers : List Layer} {units : List NamedGroup}
    (h : ofLayers layers = .ok units) : ∀ unit ∈ units, unit.name.toList ≠ [] := by
  obtain ⟨named, hnamed, -, hnames, -⟩ := ofLayers_ok layers
  obtain rfl : named = units := by simpa [h] using hnamed.symm
  intro unit hunit
  have hname : unit.name ∈ namesAfter [] ((Group.ofLayers layers).map Group.kind) :=
    hnames ▸ List.mem_map_of_mem hunit
  obtain ⟨kind, earlier, hname, -⟩ := mem_namesAfter hname
  have hshort : kind.shortName.toList ≠ [] := by cases kind <;> decide
  simp [hname, toList_nameFor, hshort]

/-- The program of a model of a session, which may be empty, is well formed for every framework.
Its text is read line by line: brackets and quotes are closed in the reverse order of their opening,
every word of the code is a name, a sign, or a decimal numeral of a finite number, and the lines are
nested in blocks of four columns each, none of which is empty.  Several lines make up one in the
heading, in the list of a repeated member, and in a call of a helper, and nowhere else.  What the
fields of the layers hold are numbers with finite decimal numerals, or flags. -/
theorem Model.Reachable.programs_wellFormed {model : Model} (h : model.Reachable) :
    ∃ units, NamedGroup.ofLayers model.layers = .ok units ∧
      (∀ framework : Framework, ∃ source lines,
        Program.ofLayers (.str framework.name) model.layers = .ok ⟨framework, source⟩ ∧
        ofSource? source = some lines ∧ Nested [0] lines ∧
        ∀ line ∈ lines, 1 < line.parts.length →
          ∃ texts, framework.Joins units texts ∧ line.parts = texts.map String.toList) ∧
      ∀ layer ∈ model.layers, ∀ entry ∈ layer.config.entries,
        (∃ b, entry.2 = .bool b) ∨
          ∃ x, entry.2 = .num x ∧ isNumeral x.text.toList = true := by
  obtain ⟨units, hunits, -, -, hsound⟩ := NamedGroup.ofLayers_sound h.configured
  refine ⟨units, hunits, fun framework => ?_, fun layer hlayer entry hentry => ?_⟩
  · obtain ⟨source, lines, hsource, hlaid⟩ :=
      framework.source_laidOut hsound (NamedGroup.name_ne_nil hunits)
    have hprogram : Program.ofLayers (.str framework.name) model.layers =
        .ok ⟨framework, source⟩ := by
      simp [Program.ofLayers, hunits, framework.ofValue_name, hsource]
    exact ⟨source, lines, hprogram, hlaid.read, hlaid.nested, hlaid.joined⟩
  · obtain ⟨key, value⟩ := entry
    obtain ⟨⟨_, range, _⟩, -, -, hholds⟩ := (h.configured layer hlayer).entry hentry
    cases hholds with
    | whole => exact .inr ⟨_, rfl, isNumeral_int _⟩
    | real finite => exact .inr ⟨_, rfl, isNumeral_text finite⟩
    | flag => exact .inl ⟨_, rfl⟩

theorem programs_wellFormed_stackedModel :
    stackedModel.Reachable ∧
      ∃ units, NamedGroup.ofLayers stackedModel.layers = .ok units ∧
        (∀ framework : Framework, ∃ source lines,
          Program.ofLayers (.str framework.name) stackedModel.layers = .ok ⟨framework, source⟩ ∧
          ofSource? source = some lines ∧ Nested [0] lines ∧
          ∀ line ∈ lines, 1 < line.parts.length →
            ∃ texts, framework.Joins units texts ∧ line.parts = texts.map String.toList) ∧
        ∀ layer ∈ stackedModel.layers, ∀ entry ∈ layer.config.entries,
          (∃ b, entry.2 = .bool b) ∨
            ∃ x, entry.2 = .num x ∧ isNumeral x.text.toList = true :=
  have h : stackedModel.Reachable := ⟨.counting, stackedSession, rfl⟩
  ⟨h, h.programs_wellFormed⟩

end LayerStack
