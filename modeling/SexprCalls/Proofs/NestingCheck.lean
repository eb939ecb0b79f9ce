import SexprCalls.Proofs.CompiledText

/-!
# The nesting check looks at one node at a time

The check counts the open calls on its way through a tree.  At every node this
count is the number of calls around the node, so that the check ends with the
fault of the first node that is a call too many or that no walk can pass.  In the
tree of a program there are no nodes of the second kind, and nothing but the
nesting of calls can stop a compilation behind the reader.
-/

namespace SexprCalls

namespace Check

/-! ## The fault of a node -/

/-- A node that opens one more level. -/
def isCall : SourceNode → Bool
  | .call _ _ => true
  | _ => false

/-- The number of calls around a place. -/
def openCalls (ancestors : List SourceNode) : Nat :=
  ancestors.countP isCall

theorem openCalls_cons_of_call
    {node : SourceNode} (call : isCall node = true)
    (ancestors : List SourceNode) :
    openCalls (node :: ancestors) = openCalls ancestors + 1 :=
  List.countP_cons_of_pos call

theorem openCalls_cons_of_no_call
    {node : SourceNode} (noCall : ¬ isCall node = true)
    (ancestors : List SourceNode) :
    openCalls (node :: ancestors) = openCalls ancestors :=
  List.countP_cons_of_neg noCall

/-- Why a node ends the check: it is a call on a level past the limit, or a node
whose children are not known.  A foreign node that gives itself out as a call has
no name to report. -/
def depthFault? (limit : Int) (occurrence : Occurrence) :
    Option (Fault Error) :=
  let level : Nat := openCalls occurrence.ancestors + 1
  match occurrence.node with
  | .call name _ =>
      if limit < level then some (.error (.depth ⟨limit, name⟩)) else none
  | .program _ | .number _ | .string _ => none
  | .foreign typeName kind =>
      if kind = .known .call ∧ limit < level then
        some .crash
      else
        some (.unsupportedSource (.foreign typeName kind))
  | node => some (.unsupportedSource node)

theorem enterCall_endsAs
    (limit : Int) (name : Bytes) (params ancestors : List SourceNode) :
    (enterCall limit (.call name params)).EndsAs (openCalls ancestors)
      (depthFault? limit ⟨.call name params, ancestors⟩)
      (openCalls (.call name params :: ancestors)) := by
  by_cases deep : limit < (openCalls ancestors + 1 : Nat)
  · simp only [depthFault?, if_pos deep, Step.EndsAs, enterCall]
  · have inside :
        openCalls (.call name params :: ancestors) =
          openCalls ancestors + 1 :=
      openCalls_cons_of_call rfl ancestors
    simp only [depthFault?, if_neg deep, Step.EndsAs, enterCall, inside]

/-- A foreign node never lets the check through; only one that looks like a call
is counted before. -/
theorem foreign_endsAs
    (limit : Int) (parent : Option SourceNode) (ancestors : List SourceNode)
    (typeName : Bytes) (kind : NodeKind) (final : Nat) :
    (SourceNode.visit (depthHooks limit) parent
        (.foreign typeName kind)).EndsAs (openCalls ancestors)
      (depthFault? limit ⟨.foreign typeName kind, ancestors⟩) final := by
  have stops (start : Nat) :=
    Step.endsAs_stop (.unsupportedSource (.foreign typeName kind)) start final
  by_cases call : kind = .known .call
  · subst call
    by_cases deep : limit < (openCalls ancestors + 1 : Nat)
    · have crashes :
          (enterCall limit (.foreign typeName (.known .call))).EndsAs
            (openCalls ancestors) (some .crash) 0 := by
        simp only [Step.EndsAs, enterCall, if_pos deep]
      have fault :
          depthFault? limit ⟨.foreign typeName (.known .call), ancestors⟩ =
            some .crash :=
        if_pos ⟨rfl, deep⟩
      rw [fault]
      exact crashes.andThen (fun _ => stops 0)
    · have counted :
          (enterCall limit (.foreign typeName (.known .call))).EndsAs
            (openCalls ancestors) none (openCalls ancestors + 1) := by
        simp only [Step.EndsAs, enterCall, if_neg deep]
      have fault :
          depthFault? limit ⟨.foreign typeName (.known .call), ancestors⟩ =
            some (.unsupportedSource (.foreign typeName (.known .call))) :=
        if_neg fun both => deep both.2
      rw [fault]
      exact counted.andThen (fun _ => stops _)
  · have idle : depthHooks limit kind = Hook.idle := by
      unfold depthHooks
      split
      · exact absurd rfl call
      · rfl
    have fault :
        depthFault? limit ⟨.foreign typeName kind, ancestors⟩ =
          some (.unsupportedSource (.foreign typeName kind)) :=
      if_neg fun both => call both.1
    rw [fault, SourceNode.visit, idle]
    exact (Step.endsAs_skip (openCalls ancestors)).andThen (fun _ => stops _)

/-! ## Whole trees

The count is back at its old value behind every node that is passed.  The hooks
do not look at the parent, so that it is left open here. -/

mutual

theorem visit_endsAs
    (limit : Int) (parent : Option SourceNode) (ancestors : List SourceNode) :
    (node : SourceNode) →
      (node.visit (depthHooks limit) parent).EndsAs (openCalls ancestors)
        ((node.occurrences ancestors).findSome? (depthFault? limit))
        (openCalls ancestors)
  | .program body => by
      have below :=
        visitAll_endsAs limit (.program body) (.program body :: ancestors) body
      have level :
          openCalls (.program body :: ancestors) = openCalls ancestors := by
        apply openCalls_cons_of_no_call
        simp [isCall]
      rw [level] at below
      rw [SourceNode.occurrences, findSome?_cons_eq_or, SourceNode.visit]
      exact Hook.around_endsAs (Step.endsAs_skip _) (fun _ => below)
        (fun _ => Step.endsAs_skip _)
  | .call name params => by
      have below :=
        visitAll_endsAs limit (.call name params)
          (.call name params :: ancestors) params
      have level :
          openCalls (.call name params :: ancestors) =
            openCalls ancestors + 1 :=
        openCalls_cons_of_call rfl ancestors
      rw [SourceNode.occurrences, findSome?_cons_eq_or, SourceNode.visit]
      refine Hook.around_endsAs
        (enterCall_endsAs limit name params ancestors) (fun _ => below) ?_
      -- The way out takes back the level that the way in has counted.
      intro _
      rw [level]
      exact Step.endsAs_change (fun depth => depth - 1) _
  | .number value => by
      rw [SourceNode.occurrences, findSome?_cons_eq_or, SourceNode.visit]
      exact Hook.around_endsAs (Step.endsAs_skip _)
        (fun _ => Step.endsAs_skip _) (fun _ => Step.endsAs_skip _)
  | .string value => by
      rw [SourceNode.occurrences, findSome?_cons_eq_or, SourceNode.visit]
      exact Hook.around_endsAs (Step.endsAs_skip _)
        (fun _ => Step.endsAs_skip _) (fun _ => Step.endsAs_skip _)
  | .absent =>
      Step.endsAs_stop _ _ _
  | .vacant shape =>
      Step.endsAs_stop _ _ _
  | .foreign typeName kind => by
      rw [SourceNode.occurrences, List.findSome?_singleton]
      exact foreign_endsAs limit parent ancestors typeName kind _

theorem visitAll_endsAs
    (limit : Int) (parent : SourceNode) (ancestors : List SourceNode) :
    (nodes : List SourceNode) →
      (SourceNode.visitAll (depthHooks limit) parent nodes).EndsAs
        (openCalls ancestors)
        ((SourceNode.occurrencesOf ancestors nodes).findSome?
          (depthFault? limit))
        (openCalls ancestors)
  | [] =>
      Step.endsAs_skip _
  | node :: rest => by
      have first := visit_endsAs limit (some parent) ancestors node
      have others := visitAll_endsAs limit parent ancestors rest
      rw [SourceNode.occurrencesOf, List.findSome?_append,
        SourceNode.visitAll]
      exact first.andThen (fun _ => others)

end

theorem walk_program_endsAs (limit : Int) (body : List SourceNode) :
    ((SourceNode.program body).walk (depthHooks limit)).EndsAs 0
      ((SourceNode.occurrencesOf [] body).findSome? (depthFault? limit)) 0 := by
  have below := visitAll_endsAs limit (.program body) [] body
  rw [SourceNode.walk, SourceNode.visit]
  change Step.EndsAs _ 0 (none.or _) 0
  exact Hook.around_endsAs (Step.endsAs_skip _) (fun _ => below)
    (fun _ => Step.endsAs_skip _)

theorem maxDepth_run_eq_walk
    {limit : Int} (positive : 0 < limit) (root : SourceNode) :
    (maxDepth limit).run root = (root.walk (depthHooks limit) 0).1 :=
  if_neg (Int.not_le.mpr positive)

theorem runAll_singleton (root : SourceNode) (check : Check) :
    (runAll root [check]).2 = check.run root := by
  rw [runAll]
  cases check.run root <;> rfl

end Check

/-! ## Programs -/

mutual

/-- All nodes in the tree of a form are forms. -/
theorem Form.exists_of_mem_occurrences
    {ancestors : List SourceNode} {occurrence : Occurrence} :
    (form : Form) → occurrence ∈ form.toNode.occurrences ancestors →
      ∃ other : Form, occurrence.node = other.toNode
  | .number value, member => by
      rw [List.mem_singleton.mp member]
      exact ⟨.number value, rfl⟩
  | .string value, member => by
      rw [List.mem_singleton.mp member]
      exact ⟨.string value, rfl⟩
  | .call name params, member => by
      rcases List.mem_cons.mp member with rfl | below
      · exact ⟨.call name params, rfl⟩
      · exact Form.exists_of_mem_occurrencesOf params below

theorem Form.exists_of_mem_occurrencesOf
    {ancestors : List SourceNode} {occurrence : Occurrence} :
    (forms : List Form) →
      occurrence ∈ SourceNode.occurrencesOf ancestors (Form.toNodes forms) →
        ∃ other : Form, occurrence.node = other.toNode
  | [], member => nomatch member
  | form :: rest, member => by
      rcases List.mem_append.mp member with inFirst | inRest
      · exact Form.exists_of_mem_occurrences form inFirst
      · exact Form.exists_of_mem_occurrencesOf rest inRest

end

theorem Form.toNodes_append (first second : List Form) :
    Form.toNodes (first ++ second) =
      Form.toNodes first ++ Form.toNodes second := by
  induction first with
  | nil =>
      rfl
  | cons form rest inductionHypothesis =>
      rw [List.cons_append, Form.toNodes, Form.toNodes, inductionHypothesis,
        List.cons_append]

theorem SourceNode.occurrencesOf_append
    (ancestors first second : List SourceNode) :
    occurrencesOf ancestors (first ++ second) =
      occurrencesOf ancestors first ++ occurrencesOf ancestors second := by
  simp [occurrencesOf_eq_flatMap]

namespace Program

/-- What a limit has against a program.  A limit that is not positive accepts
all programs. -/
def depthFault? (maxDepth : Int) (program : Program) : Option (Fault Error) :=
  if 0 < maxDepth then
    (SourceNode.occurrencesOf [] (Form.toNodes program)).findSome?
      (Check.depthFault? maxDepth)
  else
    none

theorem runAll_checks (maxDepth : Int) (program : Program) :
    (Check.runAll program.toNode (Compilation.checks maxDepth)).2 =
      match program.depthFault? maxDepth with
      | some fault => .error fault
      | none => .ok () := by
  by_cases positive : 0 < maxDepth
  · have walked := Check.walk_program_endsAs maxDepth (Form.toNodes program)
    rw [Compilation.checks, if_pos positive, Check.runAll_singleton,
      Check.maxDepth_run_eq_walk positive, depthFault?, if_pos positive]
    exact walked.result
  · rw [Compilation.checks, if_neg positive, depthFault?, if_neg positive]
    rfl

theorem depthFault?_append
    (maxDepth : Int) (first second : Program) :
    depthFault? maxDepth (first ++ second) =
      (depthFault? maxDepth first).or (depthFault? maxDepth second) := by
  by_cases positive : 0 < maxDepth
  · simp only [depthFault?, if_pos positive]
    rw [Form.toNodes_append, SourceNode.occurrencesOf_append,
      List.findSome?_append]
  · simp only [depthFault?, if_neg positive, Option.or_none]

/-- A limit stops a program with the error for it, and in no other way. -/
theorem exists_depthError
    {maxDepth : Int} {program : Program} {fault : Fault Error}
    (faulty : program.depthFault? maxDepth = some fault) :
    ∃ error, fault = .error (.depth error) := by
  unfold depthFault? at faulty
  split at faulty
  · obtain ⟨occurrence, member, found⟩ := List.exists_of_findSome?_eq_some faulty
    obtain ⟨form, sameNode⟩ := Form.exists_of_mem_occurrencesOf program member
    cases form with
    | number value =>
        simp only [Check.depthFault?, sameNode, Form.toNode] at found
        cases found
    | string value =>
        simp only [Check.depthFault?, sameNode, Form.toNode] at found
        cases found
    | call name params =>
        simp only [Check.depthFault?, sameNode, Form.toNode] at found
        split at found
        · exact ⟨_, (Option.some.inj found).symm⟩
        · cases found
  · cases faulty

end Program

/-! ## All stages -/

/-- What a compilation comes to: the error of the scanner or of the reader, what
the limit has against the program, or the text of the program; with the events of
the stages up to there. -/
theorem Compilation.run_eq (maxDepth : Int) (file source : Bytes) :
    run maxDepth file source =
      match Token.ofSource file source with
      | .error error => ([], .error (.error (.lex error)))
      | .ok tokens =>
          match Program.ofTokens tokens with
          | .error error =>
              ([.tokenized tokens.length], .error (.error (.parse error)))
          | .ok program =>
              match program.depthFault? maxDepth with
              | some fault =>
                  ([.tokenized tokens.length, .parsed program.length],
                    .error fault)
              | none =>
                  ([.tokenized tokens.length, .parsed program.length,
                      .lowered program.target.length,
                      .rendered program.text.length],
                    .ok ⟨tokens, program, program.target, program.text⟩) := by
  cases scanned : Token.ofSource file source with
  | error error =>
      simp only [run, scanned]
  | ok tokens =>
      cases read : Program.ofTokens tokens with
      | error error =>
          simp only [run, scanned, read]
      | ok program =>
          have checked := program.runAll_checks maxDepth
          cases fault : program.depthFault? maxDepth with
          | some depthFault =>
              rw [fault] at checked
              simp only [run, scanned, read, checked, fault, List.cons_append,
                List.nil_append]
          | none =>
              rw [fault] at checked
              simp only [run_of_program scanned read checked, read, fault]

theorem Compilation.run_result (maxDepth : Int) (file source : Bytes) :
    (run maxDepth file source).2 =
      match Token.ofSource file source with
      | .error error => .error (.error (.lex error))
      | .ok tokens =>
          match Program.ofTokens tokens with
          | .error error => .error (.error (.parse error))
          | .ok program =>
              match program.depthFault? maxDepth with
              | some fault => .error fault
              | none =>
                  .ok ⟨tokens, program, program.target, program.text⟩ := by
  rw [run_eq]
  cases Token.ofSource file source with
  | error error =>
      rfl
  | ok tokens =>
      dsimp only
      cases Program.ofTokens tokens with
      | error error =>
          rfl
      | ok program =>
          dsimp only
          cases program.depthFault? maxDepth <;> rfl

/-- The four ends of a compilation. -/
theorem Compilation.run_cases (maxDepth : Int) (file source : Bytes) :
    (∃ error,
      Token.ofSource file source = .error error ∧
        run maxDepth file source = ([], .error (.error (.lex error)))) ∨
    (∃ tokens error,
      Token.ofSource file source = .ok tokens ∧
        Program.ofTokens tokens = .error error ∧
        run maxDepth file source =
          ([.tokenized tokens.length], .error (.error (.parse error)))) ∨
    (∃ tokens program error,
      Token.ofSource file source = .ok tokens ∧
        Program.ofTokens tokens = .ok program ∧
        run maxDepth file source =
          ([.tokenized tokens.length, .parsed program.length],
            .error (.error (.depth error)))) ∨
    (∃ tokens program,
      Token.ofSource file source = .ok tokens ∧
        Program.ofTokens tokens = .ok program ∧
        run maxDepth file source =
          ([.tokenized tokens.length, .parsed program.length,
              .lowered program.target.length, .rendered program.text.length],
            .ok ⟨tokens, program, program.target, program.text⟩)) := by
  have outcome := run_eq maxDepth file source
  cases scanned : Token.ofSource file source with
  | error error =>
      simp only [scanned] at outcome
      exact Or.inl ⟨error, rfl, outcome⟩
  | ok tokens =>
      cases isRead : Program.ofTokens tokens with
      | error error =>
          simp only [scanned, isRead] at outcome
          exact Or.inr (Or.inl ⟨tokens, error, rfl, isRead, outcome⟩)
      | ok program =>
          cases fault : program.depthFault? maxDepth with
          | some depthFault =>
              obtain ⟨error, rfl⟩ := Program.exists_depthError fault
              simp only [scanned, isRead, fault] at outcome
              exact Or.inr (Or.inr (Or.inl
                ⟨tokens, program, error, rfl, isRead, outcome⟩))
          | none =>
              simp only [scanned, isRead, fault] at outcome
              exact Or.inr (Or.inr (Or.inr
                ⟨tokens, program, rfl, isRead, outcome⟩))

namespace Compiler

variable {compiler : Compiler} {file source : Bytes} {tokens : List Token}

theorem compile_result (compiler : Compiler) (file source : Bytes) :
    (compiler.compile file source).2 =
      (Compilation.run compiler.maxDepth file source).2.map
        Compilation.output :=
  rfl

theorem compile_of_lexError
    {error : LexError} (failed : Token.ofSource file source = .error error) :
    (compiler.compile file source).2 = .error (.error (.lex error)) := by
  rw [compile_result, Compilation.run_result, failed]
  rfl

theorem compile_of_parseError
    {error : ParseError}
    (scanned : Token.ofSource file source = .ok tokens)
    (failed : Program.ofTokens tokens = .error error) :
    (compiler.compile file source).2 = .error (.error (.parse error)) := by
  rw [compile_result, Compilation.run_result, scanned]
  simp only [failed]
  rfl

theorem compile_of_program
    {program : Program}
    (scanned : Token.ofSource file source = .ok tokens)
    (isRead : Program.ofTokens tokens = .ok program) :
    (compiler.compile file source).2 =
      match program.depthFault? compiler.maxDepth with
      | some fault => .error fault
      | none => .ok program.text := by
  rw [compile_result, Compilation.run_result, scanned]
  simp only [isRead]
  cases program.depthFault? compiler.maxDepth <;> rfl

/-- A source that compiles is scanned, read and not nested too deep. -/
theorem exists_program_of_compile
    {text : Bytes} (compiles : (compiler.compile file source).2 = .ok text) :
    ∃ tokens program,
      Token.ofSource file source = .ok tokens ∧
        Program.ofTokens tokens = .ok program ∧
        program.depthFault? compiler.maxDepth = none ∧
        text = program.text := by
  cases scanned : Token.ofSource file source with
  | error error =>
      rw [compile_of_lexError scanned] at compiles
      cases compiles
  | ok tokens =>
      cases isRead : Program.ofTokens tokens with
      | error error =>
          rw [compile_of_parseError scanned isRead] at compiles
          cases compiles
      | ok program =>
          rw [compile_of_program scanned isRead] at compiles
          cases fault : program.depthFault? compiler.maxDepth with
          | some depthFault =>
              rw [fault] at compiles
              cases compiles
          | none =>
              rw [fault] at compiles
              exact ⟨tokens, program, rfl, isRead, fault,
                (Except.ok.inj compiles).symm⟩

end Compiler
end SexprCalls
