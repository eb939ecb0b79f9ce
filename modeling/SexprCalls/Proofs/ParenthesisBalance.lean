import SexprCalls.Proofs.FormGrammar
import SexprCalls.Proofs.NestingCheck

/-!
# The nesting limit and the balance of parentheses

The nesting check counts calls on a walk through the tree of a program.  The same
count can be read off the tokens that the program was read from: it is the number of
parentheses that are open there.  A call stands on a level past the limit exactly
where its opening parenthesis takes that balance past the limit, and the first such
call of the walk is the first of the tokens.
-/

namespace SexprCalls

/-- How many more parentheses a list of tokens opens than it closes. -/
def Token.balance (tokens : List Token) : Int :=
  tokens.countP Token.isOpen - tokens.countP Token.isClose

namespace Lexeme

def balance (lexemes : List Lexeme) : Int :=
  lexemes.count .opening - lexemes.count .closing

theorem balance_append (first second : List Lexeme) :
    balance (first ++ second) = balance first + balance second := by
  simp only [balance, List.count_append]
  omega

theorem balance_map_lexeme (tokens : List Token) :
    balance (tokens.map Token.lexeme) = Token.balance tokens := by
  have counted
      {test : Token → Bool} {lexeme : Lexeme}
      (tests : ∀ token : Token, test token = true ↔ token.lexeme = lexeme) :
      (tokens.map Token.lexeme).count lexeme = tokens.countP test := by
    rw [List.count, List.countP_map]
    apply List.countP_congr
    intro token _
    simp [tests]
  rw [balance, counted Token.isOpen_iff, counted Token.isClose_iff,
    Token.balance]

/-- From a level on, no part of the lexemes from the start opens more levels than
the limit has. -/
def Keeps (limit level : Int) (lexemes : List Lexeme) : Prop :=
  ∀ count, level + balance (lexemes.take count) ≤ limit

/-- The first of the lexemes that passes the limit opens the call of the given
name. -/
def Crosses (limit level : Int) (lexemes : List Lexeme) (name : Bytes) : Prop :=
  ∃ before after,
    lexemes = before ++ .opening :: ⟨.name, name⟩ :: after ∧
      Keeps limit level before ∧ level + balance before = limit

variable {limit level : Int} {first second : List Lexeme}

theorem Keeps.nil (within : level ≤ limit) : Keeps limit level [] := by
  intro count
  rw [List.take_nil]
  simpa [balance] using within

theorem Keeps.append
    (firstKeeps : Keeps limit level first)
    (secondKeeps : Keeps limit (level + balance first) second) :
    Keeps limit level (first ++ second) := by
  intro count
  by_cases inside : count ≤ first.length
  · rw [List.take_append_of_le_length inside]
    exact firstKeeps count
  · have whole : first.take count = first :=
      List.take_of_length_le (by omega)
    have bound := secondKeeps (count - first.length)
    rw [List.take_append, whole, balance_append]
    omega

theorem Keeps.singleton
    {lexeme : Lexeme}
    (before : level ≤ limit) (behind : level + balance [lexeme] ≤ limit) :
    Keeps limit level [lexeme] := by
  intro count
  cases count with
  | zero =>
      simpa [balance] using before
  | succ count =>
      rw [List.take_succ_cons, List.take_nil]
      exact behind

theorem Crosses.append_left
    {name : Bytes} (crosses : Crosses limit level first name)
    (second : List Lexeme) :
    Crosses limit level (first ++ second) name := by
  obtain ⟨before, after, rfl, keeps, reached⟩ := crosses
  refine ⟨before, after ++ second, ?_, keeps, reached⟩
  simp only [List.append_assoc, List.cons_append]

theorem Crosses.append_right
    {name : Bytes} (keeps : Keeps limit level first)
    (crosses : Crosses limit (level + balance first) second name) :
    Crosses limit level (first ++ second) name := by
  obtain ⟨before, after, rfl, beforeKeeps, reached⟩ := crosses
  refine ⟨first ++ before, after, ?_, keeps.append beforeKeeps, ?_⟩
  · rw [List.append_assoc]
  · rw [balance_append]
    omega

end Lexeme

/-! ## Forms leave the balance as it was -/

mutual

theorem Form.balance_lexemes : (form : Form) → Lexeme.balance form.lexemes = 0
  | .number value => rfl
  | .string value => rfl
  | .call name params => by
      have inside := Form.balance_lexemesOf params
      have split :
          (Form.call name params).lexemes =
            [.opening, ⟨.name, name⟩] ++
              (Form.lexemesOf params ++ [.closing]) :=
        rfl
      have opened : Lexeme.balance [.opening, ⟨.name, name⟩] = 1 := rfl
      have closed : Lexeme.balance [.closing] = -1 := rfl
      rw [split, Lexeme.balance_append, Lexeme.balance_append, inside, opened,
        closed]
      omega

theorem Form.balance_lexemesOf :
    (forms : List Form) → Lexeme.balance (Form.lexemesOf forms) = 0
  | [] => rfl
  | form :: rest => by
      have first := Form.balance_lexemes form
      have others := Form.balance_lexemesOf rest
      rw [Form.lexemesOf, Lexeme.balance_append, first, others]
      omega

end

/-! ## The check and the balance -/

/-- What the nesting check finds is what the balance shows. -/
def Lexeme.Tells (limit level : Int) (lexemes : List Lexeme) :
    Option (Fault Error) → Prop
  | none => Keeps limit level lexemes
  | some fault =>
      ∃ name, fault = .error (.depth ⟨limit, name⟩) ∧
        Crosses limit level lexemes name

theorem Lexeme.Tells.append
    {limit level : Int} {first second : List Lexeme}
    {firstFault? secondFault? : Option (Fault Error)}
    (even : balance first = 0)
    (firstTells : Tells limit level first firstFault?)
    (secondTells : Tells limit level second secondFault?) :
    Tells limit level (first ++ second) (firstFault?.or secondFault?) := by
  have sameLevel : level + balance first = level := by omega
  cases firstFault? with
  | some fault =>
      obtain ⟨name, same, crosses⟩ := firstTells
      exact ⟨name, same, crosses.append_left second⟩
  | none =>
      rw [← sameLevel] at secondTells
      cases secondFault? with
      | some fault =>
          obtain ⟨name, same, crosses⟩ := secondTells
          exact ⟨name, same, .append_right firstTells crosses⟩
      | none =>
          exact Keeps.append firstTells secondTells

/-- Inside a call one more parenthesis is open. -/
theorem Lexeme.Tells.inCall
    {limit level : Int} {inner : List Lexeme} {fault? : Option (Fault Error)}
    (tells : Tells limit (level + 1) inner fault?)
    (within : level + 1 ≤ limit) (even : balance inner = 0) (name : Bytes) :
    Tells limit level (.opening :: ⟨.name, name⟩ :: (inner ++ [.closing]))
      fault? := by
  have opened : balance [.opening, ⟨.name, name⟩] = 1 := rfl
  have opening : Keeps limit level [.opening, ⟨.name, name⟩] := by
    have parenOpens : balance [.opening] = 1 := rfl
    have nameOpensNot : balance [⟨.name, name⟩] = 0 := rfl
    have paren : Keeps limit level [.opening] :=
      .singleton (by omega) (by omega)
    exact paren.append (.singleton (by omega) (by omega))
  cases fault? with
  | some fault =>
      obtain ⟨callName, same, crosses⟩ := tells
      have inCall := crosses.append_left [.closing]
      rw [← opened] at inCall
      exact ⟨callName, same, .append_right opening inCall⟩
  | none =>
      have closing : Keeps limit (level + 1 + balance inner) [.closing] := by
        have closed : balance [.closing] = -1 := rfl
        exact .singleton (by omega) (by omega)
      have inCall := Keeps.append tells closing
      rw [← opened] at inCall
      exact opening.append inCall

mutual

theorem Form.tells_lexemes
    {limit : Int} {ancestors : List SourceNode}
    (within : (Check.openCalls ancestors : Int) ≤ limit) :
    (form : Form) →
      Lexeme.Tells limit (Check.openCalls ancestors) form.lexemes
        ((form.toNode.occurrences ancestors).findSome?
          (Check.depthFault? limit))
  | .number value =>
      Lexeme.Keeps.singleton within within
  | .string value =>
      Lexeme.Keeps.singleton within within
  | .call name params => by
      have level :
          (Check.openCalls (.call name (Form.toNodes params) :: ancestors) :
            Int) = Check.openCalls ancestors + 1 :=
        congrArg Int.ofNat (Check.openCalls_cons_of_call rfl ancestors)
      rw [Form.toNode, SourceNode.occurrences, findSome?_cons_eq_or,
        Form.lexemes]
      by_cases deep : limit < (Check.openCalls ancestors + 1 : Nat)
      · have fault :
            Check.depthFault? limit
                ⟨.call name (Form.toNodes params), ancestors⟩ =
              some (.error (.depth ⟨limit, name⟩)) :=
          if_pos deep
        have reached : (Check.openCalls ancestors : Int) + 0 = limit := by
          omega
        rw [fault]
        exact ⟨name, rfl, [], _, rfl, .nil within, reached⟩
      · have fault :
            Check.depthFault? limit
                ⟨.call name (Form.toNodes params), ancestors⟩ = none :=
          if_neg deep
        have inside :
            (Check.openCalls
              (.call name (Form.toNodes params) :: ancestors) : Int) ≤ limit := by
          omega
        have paramsTell := Form.tells_lexemesOf inside params
        rw [level] at inside paramsTell
        rw [fault, Option.none_or]
        exact paramsTell.inCall inside (Form.balance_lexemesOf params) name

theorem Form.tells_lexemesOf
    {limit : Int} {ancestors : List SourceNode}
    (within : (Check.openCalls ancestors : Int) ≤ limit) :
    (forms : List Form) →
      Lexeme.Tells limit (Check.openCalls ancestors) (Form.lexemesOf forms)
        ((SourceNode.occurrencesOf ancestors (Form.toNodes forms)).findSome?
          (Check.depthFault? limit))
  | [] => Lexeme.Keeps.nil within
  | form :: rest => by
      have first := Form.tells_lexemes within form
      have others := Form.tells_lexemesOf within rest
      rw [Form.lexemesOf, Form.toNodes, SourceNode.occurrencesOf,
        List.findSome?_append]
      exact first.append form.balance_lexemes others

end

theorem Program.depthFault?_of_not_positive
    {maxDepth : Int} (off : maxDepth ≤ 0) (program : Program) :
    program.depthFault? maxDepth = none :=
  if_neg (Int.not_lt.mpr off)

theorem Program.tells_depthFault?
    {maxDepth : Int} (positive : 0 < maxDepth) (program : Program) :
    Lexeme.Tells maxDepth 0 program.lexemes
      (program.depthFault? maxDepth) := by
  have within : (Check.openCalls [] : Int) ≤ maxDepth :=
    Int.le_of_lt positive
  rw [depthFault?, if_pos positive]
  exact Form.tells_lexemesOf within program

/-! ## Tokens -/

/-- At the given index stands the first opening parenthesis that takes the balance
past the limit. -/
structure Token.CrossesAt
    (limit : Int) (tokens : List Token) (index : Nat) : Prop where
  opens : ∃ token, tokens[index]? = some token ∧ token.isOpen = true
  reaches : balance (tokens.take (index + 1)) = limit + 1
  first : ∀ count, count ≤ index → balance (tokens.take count) ≤ limit

theorem Token.balance_take_le
    {limit : Int} {tokens : List Token}
    (keeps : Lexeme.Keeps limit 0 (tokens.map lexeme)) (count : Nat) :
    balance (tokens.take count) ≤ limit := by
  have bound := keeps count
  rw [← List.map_take, Lexeme.balance_map_lexeme] at bound
  omega

theorem Token.exists_crossesAt
    {limit : Int} {tokens : List Token} {name : Bytes}
    (crosses : Lexeme.Crosses limit 0 (tokens.map lexeme) name) :
    ∃ index token,
      CrossesAt limit tokens index ∧ tokens[index + 1]? = some token ∧
        token.text = name := by
  obtain ⟨before, after, split, keeps, reached⟩ := crosses
  obtain ⟨earlier, later, rfl, rfl, laterSplit⟩ :=
    List.map_eq_append_iff.mp split
  obtain ⟨opening, others, rfl, opens, othersSplit⟩ :=
    List.map_eq_cons_iff.mp laterSplit
  obtain ⟨named, rest, rfl, names, _⟩ := List.map_eq_cons_iff.mp othersSplit
  have atOpening : (earlier ++ opening :: named :: rest)[earlier.length]? =
      some opening := by
    rw [List.getElem?_append_right (Nat.le_refl _), Nat.sub_self]
    rfl
  have atName : (earlier ++ opening :: named :: rest)[earlier.length + 1]? =
      some named := by
    rw [List.getElem?_append_right (Nat.le_add_right _ _),
      Nat.add_sub_cancel_left]
    rfl
  refine ⟨earlier.length, named, ⟨⟨opening, atOpening, ?_⟩, ?_, ?_⟩, atName,
    congrArg Lexeme.text names⟩
  · exact opening.isOpen_iff.mpr opens
  · have upTo :
        (earlier ++ opening :: named :: rest).take (earlier.length + 1) =
          earlier ++ [opening] := by
      rw [List.append_cons]
      exact List.take_left' (by simp)
    have paren : Lexeme.balance [.opening] = 1 := rfl
    rw [upTo, ← Lexeme.balance_map_lexeme, List.map_append,
      Lexeme.balance_append, List.map_singleton, opens]
    omega
  · intro count inside
    rw [List.take_append_of_le_length inside]
    exact balance_take_le keeps count

/-- Either the balance of the tokens stays within the limit, or the check reports
the call at which it first passes the limit. -/
theorem Program.depthFault?_cases
    {maxDepth : Int} {tokens : List Token} {program : Program}
    (positive : 0 < maxDepth)
    (lexemes : tokens.map Token.lexeme = program.lexemes) :
    (program.depthFault? maxDepth = none ∧
      ∀ count, Token.balance (tokens.take count) ≤ maxDepth) ∨
    ∃ index token,
      Token.CrossesAt maxDepth tokens index ∧
        tokens[index + 1]? = some token ∧
        program.depthFault? maxDepth =
          some (.error (.depth ⟨maxDepth, token.text⟩)) := by
  have told := program.tells_depthFault? positive
  rw [← lexemes] at told
  cases fault : program.depthFault? maxDepth with
  | none =>
      rw [fault] at told
      exact Or.inl ⟨rfl, Token.balance_take_le told⟩
  | some depthFault =>
      rw [fault] at told
      obtain ⟨name, rfl, crosses⟩ := told
      obtain ⟨index, token, crossesAt, found, rfl⟩ :=
        Token.exists_crossesAt crosses
      exact Or.inr ⟨index, token, crossesAt, found, rfl⟩

/-! ## All stages -/

/-- A limit is looked at only where the compilation without one succeeds. -/
theorem Compilation.run_limited (maxDepth : Int) (file source : Bytes) :
    (run maxDepth file source).2 =
      match (run 0 file source).2 with
      | .error fault => .error fault
      | .ok compilation =>
          match compilation.source.depthFault? maxDepth with
          | some fault => .error fault
          | none => .ok compilation := by
  rw [run_result, run_result]
  cases Token.ofSource file source with
  | error error =>
      rfl
  | ok tokens =>
      dsimp only
      cases Program.ofTokens tokens with
      | error error =>
          rfl
      | ok program =>
          have unlimited :=
            program.depthFault?_of_not_positive (Int.le_refl 0)
          cases fault : program.depthFault? maxDepth <;>
            simp only [unlimited, fault]

theorem Compilation.map_lexeme_tokens
    {maxDepth : Int} {file source : Bytes} {compilation : Compilation}
    (succeeds : (run maxDepth file source).2 = .ok compilation) :
    compilation.tokens.map Token.lexeme = compilation.source.lexemes := by
  rcases run_cases maxDepth file source with
    ⟨error, _, outcome⟩ | ⟨_, error, _, _, outcome⟩ |
      ⟨_, _, error, _, _, outcome⟩ | ⟨tokens, program, _, isRead, outcome⟩
  · cases succeeds.symm.trans (congrArg Prod.snd outcome)
  · cases succeeds.symm.trans (congrArg Prod.snd outcome)
  · cases succeeds.symm.trans (congrArg Prod.snd outcome)
  · cases succeeds.symm.trans (congrArg Prod.snd outcome)
    exact Program.lexemes_of_ofTokens isRead

/-- A limit changes nothing for a source that fails without one, nor for tokens
whose balance stays within it.  Otherwise the compilation fails at the call whose
parenthesis is the first to take the balance past the limit. -/
theorem Compiler.run_limit_iff_balance
    (compiler : Compiler) (file source : Bytes) :
    (∀ fault,
      (({ compiler with maxDepth := 0 } : Compiler).run file source).2 =
          .error fault →
        (compiler.run file source).2 = .error fault) ∧
    (∀ compilation,
      (({ compiler with maxDepth := 0 } : Compiler).run file source).2 =
          .ok compilation →
        ((compiler.maxDepth ≤ 0 ∨
            ∀ count,
              Token.balance (compilation.tokens.take count) ≤
                compiler.maxDepth) →
          (compiler.run file source).2 = .ok compilation) ∧
        (¬ (compiler.maxDepth ≤ 0 ∨
            ∀ count,
              Token.balance (compilation.tokens.take count) ≤
                compiler.maxDepth) →
          ∃ index token,
            Token.CrossesAt compiler.maxDepth compilation.tokens index ∧
              compilation.tokens[index + 1]? = some token ∧
              (compiler.run file source).2 =
                .error (.error (.depth ⟨compiler.maxDepth, token.text⟩)))) := by
  have limited := Compilation.run_limited compiler.maxDepth file source
  change (compiler.run file source).2 = _ at limited
  refine ⟨?_, ?_⟩
  · intro fault fails
    change (Compilation.run 0 file source).2 = .error fault at fails
    rw [limited, fails]
  · intro compilation succeeds
    change (Compilation.run 0 file source).2 = .ok compilation at succeeds
    have lexemes := Compilation.map_lexeme_tokens succeeds
    simp only [succeeds] at limited
    by_cases off : compiler.maxDepth ≤ 0
    · rw [compilation.source.depthFault?_of_not_positive off] at limited
      exact ⟨fun _ => limited, fun exceeded => absurd (Or.inl off) exceeded⟩
    · rcases Program.depthFault?_cases (Int.not_le.mp off) lexemes with
        ⟨fault, within⟩ | ⟨index, token, crossesAt, found, fault⟩
      · rw [fault] at limited
        exact ⟨fun _ => limited,
          fun exceeded => absurd (Or.inr within) exceeded⟩
      · rw [fault] at limited
        refine ⟨?_, fun _ => ⟨index, token, crossesAt, found, limited⟩⟩
        rintro (notPositive | within)
        · exact absurd notPositive off
        · have bound := within (index + 1)
          rw [crossesAt.reaches] at bound
          omega

end SexprCalls
