import SexprCalls.Compiler
import SexprCalls.Proofs.PrintedText
import SexprCalls.Proofs.StructuralLowering

/-!
# The text that a program compiles to

Behind the reader nothing can fail but the nesting check: the forms of a program
are lowered without a fault, what lowering builds is printed without one, and the
text is given by recursion over the forms.
-/

namespace SexprCalls

mutual

/-- The text of a form that stands in a call. -/
def Form.text : Form → Bytes
  | .number value => value
  | .string value => [Bytes.quoteMark] ++ value ++ [Bytes.quoteMark]
  | .call name params =>
      name ++ Bytes.ofString "(" ++
        (Bytes.ofString ", ").intercalate (Form.texts params) ++
        Bytes.ofString ")"

def Form.texts : List Form → List Bytes
  | [] => []
  | form :: rest => form.text :: Form.texts rest

end

/-- The text of a form that stands in no call: a call ends in a semicolon. -/
def Form.lineText : Form → Bytes
  | .call name params => (Form.call name params).text ++ Bytes.ofString ";"
  | form => form.text

namespace Program

/-- The text of a program, one form after the other. -/
def text (program : Program) : Bytes :=
  (Bytes.ofString "\n").intercalate (program.map Form.lineText)

/-- The statements of a program. -/
def target (program : Program) : List OutputNode :=
  (Form.toNodes program).flatMap SourceNode.asStatement

end Program

/-! ## Forms are lowered without a fault -/

mutual

theorem Form.occurrences_faultless
    {ancestors : List SourceNode}
    (outside : Lowering.nestedProgram? ancestors = none) :
    (form : Form) →
      (form.toNode.occurrences ancestors).findSome? Lowering.fault? = none
  | .number value => by
      rw [Form.toNode, SourceNode.occurrences, List.findSome?_singleton]
      exact Option.map_eq_none_iff.mpr outside
  | .string value => by
      rw [Form.toNode, SourceNode.occurrences, List.findSome?_singleton]
      exact Option.map_eq_none_iff.mpr outside
  | .call name params => by
      have inside :
          Lowering.nestedProgram?
            (.call name (Form.toNodes params) :: ancestors) = none :=
        rfl
      have below := Form.occurrencesOf_faultless inside params
      rw [Form.toNode, SourceNode.occurrences, findSome?_cons_eq_or]
      exact Option.or_eq_none_iff.mpr
        ⟨Option.map_eq_none_iff.mpr outside, below⟩

theorem Form.occurrencesOf_faultless
    {ancestors : List SourceNode}
    (outside : Lowering.nestedProgram? ancestors = none) :
    (forms : List Form) →
      (SourceNode.occurrencesOf ancestors (Form.toNodes forms)).findSome?
          Lowering.fault? = none
  | [] =>
      rfl
  | form :: rest => by
      have first := Form.occurrences_faultless outside form
      have others := Form.occurrencesOf_faultless outside rest
      rw [Form.toNodes, SourceNode.occurrencesOf, List.findSome?_append]
      exact Option.or_eq_none_iff.mpr ⟨first, others⟩

end

theorem Program.lower_toNodes (program : Program) :
    SourceNode.lower (some (Form.toNodes program)) = .ok program.target := by
  have inRoot :
      Lowering.nestedProgram? [.program (Form.toNodes program)] = none :=
    rfl
  have below := Form.occurrencesOf_faultless inRoot program
  apply SourceNode.lower_of_no_fault
  rw [SourceNode.occurrences, findSome?_cons_eq_or]
  exact below

/-! ## What lowering builds is printed without a fault -/

namespace SourceNode

mutual

theorem placesOf_asArgument_faultless :
    (node : SourceNode) →
      (OutputNode.placesOf node.asArgument).findSome? OutputNode.fault? = none
  | .number value => rfl
  | .string value => rfl
  | .call name params => by
      have inside := placesOf_asArguments_faultless params
      rw [asArgument, OutputNode.placesOf, OutputNode.placesOf,
        List.append_nil, OutputNode.places, findSome?_cons_eq_or]
      exact inside
  | .program _ => rfl
  | .absent => rfl
  | .vacant _ => rfl
  | .foreign _ _ => rfl

theorem placesOf_asArguments_faultless :
    (nodes : List SourceNode) →
      (OutputNode.placesOf (asArguments nodes)).findSome? OutputNode.fault? =
        none
  | [] => rfl
  | node :: rest => by
      have first := placesOf_asArgument_faultless node
      have others := placesOf_asArguments_faultless rest
      rw [asArguments, OutputNode.placesOf_append, List.findSome?_append]
      exact Option.or_eq_none_iff.mpr ⟨first, others⟩

end

theorem placesOf_asStatement_faultless (node : SourceNode) :
    (OutputNode.placesOf node.asStatement).findSome? OutputNode.fault? =
      none := by
  have bare := placesOf_asArgument_faultless node
  cases node <;> exact bare

/-- The output of lowering, whatever the nodes, is printed in full. -/
theorem render_asStatements (nodes : List SourceNode) :
    (OutputNode.program (nodes.flatMap asStatement)).render =
      .ok (OutputNode.program (nodes.flatMap asStatement)).text := by
  apply OutputNode.render_of_no_fault
  rw [OutputNode.places, findSome?_cons_eq_or]
  change (OutputNode.placesOf _).findSome? OutputNode.fault? = none
  induction nodes with
  | nil =>
      rfl
  | cons node rest inductionHypothesis =>
      rw [List.flatMap_cons, OutputNode.placesOf_append,
        List.findSome?_append]
      exact Option.or_eq_none_iff.mpr
        ⟨placesOf_asStatement_faultless node, inductionHypothesis⟩

end SourceNode

/-! ## The text by recursion over the forms -/

mutual

theorem Form.texts_asArgument :
    (form : Form) →
      OutputNode.texts form.toNode.asArgument = [form.text]
  | .number value => rfl
  | .string value => rfl
  | .call name params => by
      have inside := Form.texts_asArguments params
      rw [Form.toNode, SourceNode.asArgument, OutputNode.texts,
        OutputNode.texts, OutputNode.text, inside, Form.text]

theorem Form.texts_asArguments :
    (forms : List Form) →
      OutputNode.texts (SourceNode.asArguments (Form.toNodes forms)) =
        Form.texts forms
  | [] => rfl
  | form :: rest => by
      have first := Form.texts_asArgument form
      have others := Form.texts_asArguments rest
      rw [Form.toNodes, SourceNode.asArguments, OutputNode.texts_append,
        first, others, Form.texts, List.singleton_append]

end

theorem Form.texts_asStatement (form : Form) :
    OutputNode.texts form.toNode.asStatement = [form.lineText] := by
  have bare := form.texts_asArgument
  cases form with
  | number value =>
      exact bare
  | string value =>
      exact bare
  | call name params =>
      have callText :
          (OutputNode.call (some name)
            (SourceNode.asArguments (Form.toNodes params))).text =
          (Form.call name params).text :=
        List.singleton_inj.mp bare
      rw [Form.toNode, SourceNode.asStatement, OutputNode.texts,
        OutputNode.texts, OutputNode.text, callText, Form.lineText]

namespace Program

theorem texts_target (program : Program) :
    OutputNode.texts program.target = program.map Form.lineText := by
  induction program with
  | nil =>
      rfl
  | cons form rest inductionHypothesis =>
      rw [target] at inductionHypothesis
      rw [target, Form.toNodes, List.flatMap_cons, OutputNode.texts_append,
        form.texts_asStatement, inductionHypothesis, List.map_cons,
        List.singleton_append]

theorem render_target (program : Program) :
    (OutputNode.program program.target).render = .ok program.text := by
  have rendered :=
    SourceNode.render_asStatements (Form.toNodes program)
  have sameText :
      (OutputNode.program program.target).text = program.text := by
    rw [OutputNode.text, texts_target, text]
  rw [← sameText]
  exact rendered

end Program

/-! ## All stages -/

/-- A source that is scanned and read compiles to the text of its program,
unless its calls nest too deep. -/
theorem Compilation.run_of_program
    {maxDepth : Int} {file source : Bytes}
    {tokens : List Token} {program : Program}
    (scanned : Token.ofSource file source = .ok tokens)
    (read : Program.ofTokens tokens = .ok program)
    (shallow :
      (Check.runAll program.toNode (checks maxDepth)).2 = .ok ()) :
    run maxDepth file source =
      ([.tokenized tokens.length, .parsed program.length,
          .lowered program.target.length, .rendered program.text.length],
        .ok ⟨tokens, program, program.target, program.text⟩) := by
  simp only [run, scanned, read, shallow, program.lower_toNodes,
    program.render_target, List.cons_append, List.nil_append]

/-- Without a nesting limit, a source compiles exactly if it is scanned and
read. -/
theorem compile_eq_ok_iff (source output : Bytes) :
    compile source = .ok output ↔
      ∃ tokens program,
        Token.ofSource [] source = .ok tokens ∧
          Program.ofTokens tokens = .ok program ∧ output = program.text := by
  have byRun :
      compile source =
        (Compilation.run 0 [] source).2.map Compilation.output :=
    rfl
  rw [byRun]
  constructor
  · -- Scanning and reading are the only stages that can still fail.
    intro compiled
    cases scanned : Token.ofSource [] source with
    | error error =>
        simp only [Compilation.run, scanned] at compiled
        cases compiled
    | ok tokens =>
        cases read : Program.ofTokens tokens with
        | error error =>
            simp only [Compilation.run, scanned, read] at compiled
            cases compiled
        | ok program =>
            rw [Compilation.run_of_program scanned read rfl] at compiled
            have sameText := Except.ok.inj compiled
            exact ⟨tokens, program, rfl, read, sameText.symm⟩
  · rintro ⟨tokens, program, scanned, read, rfl⟩
    rw [Compilation.run_of_program scanned read rfl]
    rfl

end SexprCalls
