import SexprCalls.Compiler.Log
import SexprCalls.Proofs.FormGrammar
import SexprCalls.Proofs.NestingCheck

/-!
# The events of a compilation

A compilation that logs its stages reports each one that has succeeded.  How many
reports there are tells how the compilation ended, and the sizes that they give
belong to one and the same program: its lexemes, its forms, its statements and its
text.  There are never three reports, since nothing fails between lowering and
printing.
-/

namespace SexprCalls

namespace Form

def isCall : Form → Bool
  | .call _ _ => true
  | _ => false

mutual

/-- A form and the forms in it. -/
def subforms : Form → List Form
  | .number value => [.number value]
  | .string value => [.string value]
  | .call name params => .call name params :: subformsOf params

def subformsOf : List Form → List Form
  | [] => []
  | form :: rest => form.subforms ++ subformsOf rest

end

end Form

namespace Program

/-- The number of calls in a program, on all levels. -/
def callCount (program : Program) : Nat :=
  (Form.subformsOf program).countP Form.isCall

/-- The number of numbers and strings in a program, on all levels. -/
def literalCount (program : Program) : Nat :=
  (Form.subformsOf program).countP fun form => !form.isCall

end Program

/-! ## Sizes -/

mutual

theorem Form.length_lexemes :
    (form : Form) →
      form.lexemes.length =
        (form.subforms.countP fun other => !other.isCall) +
          3 * form.subforms.countP Form.isCall
  | .number value => rfl
  | .string value => rfl
  | .call name params => by
      have inside := Form.length_lexemesOf params
      have call : (Form.call name params).isCall = true := rfl
      rw [Form.lexemes, Form.subforms, List.countP_cons_of_pos call,
        List.countP_cons_of_neg (by simp [call])]
      simp only [List.length_cons, List.length_append, List.length_nil, inside]
      omega

theorem Form.length_lexemesOf :
    (forms : List Form) →
      (Form.lexemesOf forms).length =
        ((Form.subformsOf forms).countP fun other => !other.isCall) +
          3 * (Form.subformsOf forms).countP Form.isCall
  | [] => rfl
  | form :: rest => by
      have first := Form.length_lexemes form
      have others := Form.length_lexemesOf rest
      rw [Form.lexemesOf, Form.subformsOf, List.length_append,
        List.countP_append, List.countP_append, first, others]
      omega

end

namespace Program

/-- A literal is one token, and a call takes two parentheses and a name besides
its parameters. -/
theorem length_tokens
    {tokens : List Token} {program : Program}
    (isRead : ofTokens tokens = .ok program) :
    tokens.length = program.literalCount + 3 * program.callCount := by
  have lexemes := congrArg List.length (lexemes_of_ofTokens isRead)
  rw [List.length_map] at lexemes
  rw [lexemes]
  exact Form.length_lexemesOf program

theorem length_target (program : Program) :
    program.target.length = program.length := by
  induction program with
  | nil =>
      rfl
  | cons form rest inductionHypothesis =>
      have one : form.toNode.asStatement.length = 1 := by
        cases form <;> rfl
      unfold target at inductionHypothesis ⊢
      rw [Form.toNodes, List.flatMap_cons, List.length_append, one,
        inductionHypothesis, List.length_cons]
      omega

end Program

/-! ## Events -/

/-- What the events of a compilation say about its source and its result. -/
structure StageEvent.Exact (file source : Bytes) (events : List StageEvent)
    (result : Except (Fault Error) Compilation) : Prop where
  in_order :
    events.map StageEvent.title <+:
      [Bytes.ofString "tokenized", Bytes.ofString "parsed",
        Bytes.ofString "rewritten", Bytes.ofString "rendered"]
  none_iff :
    events.length = 0 ↔ ∃ error, result = .error (.error (.lex error))
  one_iff :
    events.length = 1 ↔ ∃ error, result = .error (.error (.parse error))
  two_iff :
    events.length = 2 ↔ ∃ error, result = .error (.error (.depth error))
  never_three : events.length ≠ 3
  four_iff : events.length = 4 ↔ ∃ compilation, result = .ok compilation
  /-- The first event counts the tokens. -/
  tokens_counted :
    ∀ tokens, Token.ofSource file source = .ok tokens →
      events.head? = some (.tokenized tokens.length)
  /-- Once there is a program, the first two events count what is in it. -/
  program_counted :
    ∀ tokens program,
      Token.ofSource file source = .ok tokens →
      Program.ofTokens tokens = .ok program →
        events.take 2 =
          [.tokenized (program.literalCount + 3 * program.callCount),
            .parsed program.length]
  /-- A compilation that succeeds has made one statement of each form. -/
  output_counted :
    ∀ compilation, result = .ok compilation →
      events =
          [.tokenized compilation.tokens.length,
            .parsed compilation.source.length,
            .lowered compilation.target.length,
            .rendered compilation.output.length] ∧
        compilation.tokens.length =
          compilation.source.literalCount +
            3 * compilation.source.callCount ∧
        compilation.target.length = compilation.source.length

/-- Whatever a limit says, the first two events count what is in the program. -/
theorem Compilation.take_two_run
    (maxDepth : Int) {file source : Bytes}
    {tokens : List Token} {program : Program}
    (scanned : Token.ofSource file source = .ok tokens)
    (isRead : Program.ofTokens tokens = .ok program) :
    (run maxDepth file source).1.take 2 =
      [.tokenized (program.literalCount + 3 * program.callCount),
        .parsed program.length] := by
  have counted := Program.length_tokens isRead
  rw [run_eq, scanned]
  simp only [isRead]
  cases program.depthFault? maxDepth <;> simp [counted]

theorem Compilation.run_exact (maxDepth : Int) (file source : Bytes) :
    StageEvent.Exact file source (run maxDepth file source).1
      (run maxDepth file source).2 := by
  have programCounted
      (tokens : List Token) (program : Program)
      (scanned : Token.ofSource file source = .ok tokens)
      (isRead : Program.ofTokens tokens = .ok program) :=
    take_two_run maxDepth scanned isRead
  rcases run_cases maxDepth file source with
    ⟨error, scanned, outcome⟩ | ⟨tokens, error, scanned, isRead, outcome⟩ |
      ⟨tokens, program, error, scanned, isRead, outcome⟩ |
      ⟨tokens, program, scanned, isRead, outcome⟩
  · rw [outcome] at programCounted ⊢
    constructor
    case in_order =>
        exact List.nil_prefix
    case program_counted =>
        exact programCounted
    all_goals simp [scanned]
  · rw [outcome] at programCounted ⊢
    constructor
    case in_order =>
        exact ⟨_, rfl⟩
    case program_counted =>
        exact programCounted
    all_goals simp [scanned]
  · rw [outcome] at programCounted ⊢
    constructor
    case in_order =>
        exact ⟨_, rfl⟩
    case program_counted =>
        exact programCounted
    all_goals simp [scanned]
  · have counted := Program.length_tokens isRead
    have statements := program.length_target
    rw [outcome] at programCounted ⊢
    constructor
    case in_order =>
        exact ⟨[], rfl⟩
    case program_counted =>
        exact programCounted
    case output_counted =>
        rintro compilation ⟨⟩
        exact ⟨rfl, counted, statements⟩
    all_goals simp [scanned]

/-- At the two levels that show stages, the events that are logged are exact.  At
every other level nothing is logged, and the result is the same. -/
theorem Compiler.run_logs_exactly (maxDepth : Int) (file source : Bytes) :
    (∀ level, level = .trace ∨ level = .debug →
      StageEvent.Exact file source
        ((Compiler.mk level maxDepth).run file source).1
        ((Compiler.mk level maxDepth).run file source).2) ∧
    (∀ level, level ≠ .trace → level ≠ .debug →
      (Compiler.mk level maxDepth).run file source =
        ([], ((Compiler.mk .trace maxDepth).run file source).2)) := by
  have exactRun := Compilation.run_exact maxDepth file source
  refine ⟨?_, ?_⟩
  · rintro level (rfl | rfl)
    · exact exactRun
    · exact exactRun
  · intro level notTrace notDebug
    cases level with
    | trace => exact absurd rfl notTrace
    | debug => exact absurd rfl notDebug
    | info | warn | error | fatal | panic | unlevelled | off => rfl

end SexprCalls
