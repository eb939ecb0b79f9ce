import SexprCalls.Form.Read
import SexprCalls.Proofs.LexemeSpelling

/-!
# Reading forms undoes writing them

A program is written as a sequence of lexemes: a literal is one lexeme, and a
call stands in parentheses, its name first.  Reading accepts exactly these
sequences.  In one direction a reading always knows which lexemes it has taken,
in the other the lexemes of a form take a reading to the same reading with that
form added, whatever is still open around it.
-/

namespace SexprCalls

namespace Lexeme

def opening : Lexeme := ⟨.paren, [Bytes.openParen]⟩

def closing : Lexeme := ⟨.paren, [Bytes.closeParen]⟩

end Lexeme

mutual

/-- The lexemes that write a form. -/
def Form.lexemes : Form → List Lexeme
  | .number value => [⟨.number, value⟩]
  | .string value => [⟨.string, value⟩]
  | .call name params =>
      .opening :: ⟨.name, name⟩ :: (Form.lexemesOf params ++ [.closing])

def Form.lexemesOf : List Form → List Lexeme
  | [] => []
  | form :: rest => form.lexemes ++ Form.lexemesOf rest

end

/-- The lexemes that write a program: those of its forms, in order. -/
def Program.lexemes (program : Program) : List Lexeme :=
  Form.lexemesOf program

theorem Form.lexemesOf_append (first second : List Form) :
    Form.lexemesOf (first ++ second) =
      Form.lexemesOf first ++ Form.lexemesOf second := by
  induction first with
  | nil =>
      rfl
  | cons form rest inductionHypothesis =>
      rw [List.cons_append, Form.lexemesOf, Form.lexemesOf,
        inductionHypothesis, List.append_assoc]

theorem Form.lexemesOf_singleton (form : Form) :
    Form.lexemesOf [form] = form.lexemes := by
  rw [Form.lexemesOf, Form.lexemesOf, List.append_nil]

theorem Token.isOpen_iff (token : Token) :
    token.isOpen = true ↔ token.lexeme = .opening := by
  simp [isOpen, lexeme, Lexeme.opening]

theorem Token.isClose_iff (token : Token) :
    token.isClose = true ↔ token.lexeme = .closing := by
  simp [isClose, lexeme, Lexeme.closing]

namespace Reading

/-! ## The lexemes that a reading has taken -/

def openLexemes : List OpenCall → List Lexeme
  | [] => []
  | innermost :: enclosing =>
      openLexemes enclosing ++ Form.lexemesOf innermost.before.reverse ++
        [.opening, ⟨.name, innermost.name⟩]

/-- What a reading has taken: the open calls from the outermost on with the
forms before them, then the forms of the innermost list. -/
def lexemes (reading : Reading) : List Lexeme :=
  openLexemes reading.enclosing ++ Form.lexemesOf reading.latest.reverse ++
    if reading.awaitsName then [.opening] else []

/-- All that a token can do to a reading. -/
theorem step?_cases
    {reading next : Reading} {token : Token}
    (stepped : reading.step? token = some next) :
    (reading.awaitsName = true ∧ token.kind = .name ∧
        next = reading.enter token.text) ∨
      (reading.awaitsName = false ∧
        ((token.kind = .number ∧ next = reading.add (.number token.text)) ∨
          (token.kind = .string ∧ next = reading.add (.string token.text)) ∨
          (token.lexeme = .opening ∧
            next = { reading with awaitsName := true }) ∨
          (token.lexeme = .closing ∧ reading.leave? = some next))) := by
  unfold step? at stepped
  split at stepped
  · next awaits =>
      split at stepped
      · next named =>
          exact Or.inl ⟨awaits, named, (Option.some.inj stepped).symm⟩
      · contradiction
  next ready =>
  refine Or.inr ⟨eq_false_of_ne_true ready, ?_⟩
  split at stepped
  · next number =>
      exact Or.inl ⟨number, (Option.some.inj stepped).symm⟩
  split at stepped
  · next string =>
      exact Or.inr (Or.inl ⟨string, (Option.some.inj stepped).symm⟩)
  split at stepped
  · next opens =>
      have opening := token.isOpen_iff.mp opens
      exact Or.inr (Or.inr (Or.inl
        ⟨opening, (Option.some.inj stepped).symm⟩))
  split at stepped
  · next closes =>
      have closing := token.isClose_iff.mp closes
      exact Or.inr (Or.inr (Or.inr ⟨closing, stepped⟩))
  · contradiction

theorem lexemes_add
    {reading : Reading} (ready : reading.awaitsName = false) (form : Form) :
    (reading.add form).lexemes = reading.lexemes ++ form.lexemes := by
  simp [lexemes, ready, add, Form.lexemesOf_append,
    Form.lexemesOf_singleton]

theorem lexemes_enter
    {reading : Reading} (awaits : reading.awaitsName = true) (name : Bytes) :
    (reading.enter name).lexemes = reading.lexemes ++ [⟨.name, name⟩] := by
  simp [lexemes, enter, openLexemes, awaits, Form.lexemesOf]

theorem lexemes_awaitName
    {reading : Reading} (ready : reading.awaitsName = false) :
    ({ reading with awaitsName := true } : Reading).lexemes =
      reading.lexemes ++ [.opening] := by
  simp [lexemes, ready]

theorem lexemes_leave?
    {reading next : Reading}
    (ready : reading.awaitsName = false)
    (left : reading.leave? = some next) :
    next.lexemes = reading.lexemes ++ [.closing] := by
  unfold leave? at left
  cases calls : reading.enclosing with
  | nil =>
      rw [calls] at left
      contradiction
  | cons innermost enclosing =>
      rw [calls] at left
      rw [← Option.some.inj left]
      simp [lexemes, ready, calls, openLexemes, Form.lexemesOf_append,
        Form.lexemes, Form.lexemesOf_singleton]

/-- A token that fits is added to the lexemes that have been taken. -/
theorem lexemes_step?
    {reading next : Reading} {token : Token}
    (stepped : reading.step? token = some next) :
    next.lexemes = reading.lexemes ++ [token.lexeme] := by
  rcases step?_cases stepped with
    ⟨awaits, named, rfl⟩ |
      ⟨ready, ⟨number, rfl⟩ | ⟨string, rfl⟩ | ⟨opening, rfl⟩ |
        ⟨closing, left⟩⟩
  · rw [lexemes_enter awaits, Token.lexeme, named]
  · rw [lexemes_add ready, Form.lexemes, Token.lexeme, number]
  · rw [lexemes_add ready, Form.lexemes, Token.lexeme, string]
  · rw [lexemes_awaitName ready, opening]
  · rw [lexemes_leave? ready left, closing]

theorem finish?_eq_some_iff
    {reading : Reading} {program : Program} :
    reading.finish? = some program ↔
      reading.awaitsName = false ∧ reading.enclosing = [] ∧
        reading.latest.reverse = program := by
  obtain ⟨latest, enclosing, awaitsName⟩ := reading
  cases awaitsName <;> cases enclosing <;> simp [finish?]

theorem lexemes_finish?
    {reading : Reading} {program : Program}
    (finished : reading.finish? = some program) :
    reading.lexemes = program.lexemes := by
  obtain ⟨ready, closed, rfl⟩ := finish?_eq_some_iff.mp finished
  rw [lexemes, closed, ready, Program.lexemes]
  exact List.append_nil _

/-- A program that is read has the lexemes of all tokens. -/
theorem lexemes_of_readFrom
    {reading : Reading} {tokens rest : List Token} {program : Program}
    (read : reading.readFrom tokens = (.ok program, rest)) :
    reading.lexemes ++ tokens.map Token.lexeme = program.lexemes := by
  induction tokens generalizing reading with
  | nil =>
      rw [readFrom] at read
      split at read
      · next finished =>
          cases read
          rw [List.map_nil, List.append_nil]
          exact lexemes_finish? finished
      · cases read
  | cons token tokens inductionHypothesis =>
      rw [readFrom] at read
      split at read
      · next stepped =>
          have taken := inductionHypothesis read
          rw [lexemes_step? stepped, List.append_assoc] at taken
          exact taken
      · cases read

/-! ## Lexemes take a reading on -/

section Tokens

variable {reading : Reading} {token : Token}

theorem readFrom_cons
    {next : Reading} (stepped : reading.step? token = some next)
    (rest : List Token) :
    reading.readFrom (token :: rest) = next.readFrom rest := by
  rw [readFrom, stepped]

theorem step?_number
    {value : Bytes} (ready : reading.awaitsName = false)
    (same : token.lexeme = ⟨.number, value⟩) :
    reading.step? token = some (reading.add (.number value)) := by
  have kind : token.kind = .number := congrArg Lexeme.kind same
  have text : token.text = value := congrArg Lexeme.text same
  simp [step?, ready, kind, text]

theorem step?_string
    {value : Bytes} (ready : reading.awaitsName = false)
    (same : token.lexeme = ⟨.string, value⟩) :
    reading.step? token = some (reading.add (.string value)) := by
  have kind : token.kind = .string := congrArg Lexeme.kind same
  have text : token.text = value := congrArg Lexeme.text same
  simp [step?, ready, kind, text]

theorem step?_name
    {name : Bytes} (awaits : reading.awaitsName = true)
    (same : token.lexeme = ⟨.name, name⟩) :
    reading.step? token = some (reading.enter name) := by
  have kind : token.kind = .name := congrArg Lexeme.kind same
  have text : token.text = name := congrArg Lexeme.text same
  simp [step?, awaits, kind, text]

theorem step?_opening
    (ready : reading.awaitsName = false)
    (same : token.lexeme = .opening) :
    reading.step? token = some { reading with awaitsName := true } := by
  have kind : token.kind = .paren := congrArg Lexeme.kind same
  have opens : token.isOpen = true := token.isOpen_iff.mpr same
  simp [step?, ready, kind, opens]

theorem step?_closing
    (ready : reading.awaitsName = false)
    (same : token.lexeme = .closing) :
    reading.step? token = reading.leave? := by
  have kind : token.kind = .paren := congrArg Lexeme.kind same
  have closes : token.isClose = true := token.isClose_iff.mpr same
  have opensNot : token.isOpen = false := by
    rw [← Bool.not_eq_true, token.isOpen_iff, same]
    decide
  simp [step?, ready, kind, opensNot, closes]

end Tokens

theorem foldl_add (forms : List Form) (reading : Reading) :
    forms.foldl add reading =
      { reading with latest := forms.reverse ++ reading.latest } := by
  induction forms generalizing reading with
  | nil =>
      rfl
  | cons form rest inductionHypothesis =>
      rw [List.foldl_cons, inductionHypothesis, List.reverse_cons,
        List.append_assoc]
      rfl

/-- Closing the call that was opened last, after its parameters, adds it to the
list that it stands in. -/
theorem leave?_foldl_add_enter
    {reading : Reading} (ready : reading.awaitsName = false)
    (name : Bytes) (params : List Form) :
    (params.foldl add
        (({ reading with awaitsName := true } : Reading).enter name)).leave? =
      some (reading.add (.call name params)) := by
  rw [foldl_add]
  simp [leave?, enter, add, ready]

mutual

theorem readFrom_form
    (form : Form) {reading : Reading} {tokens : List Token}
    (ready : reading.awaitsName = false)
    (same : tokens.map Token.lexeme = form.lexemes) (rest : List Token) :
    reading.readFrom (tokens ++ rest) = (reading.add form).readFrom rest := by
  match form with
  | .number value =>
      obtain ⟨token, rfl, sameToken⟩ := List.map_eq_singleton_iff.mp same
      exact readFrom_cons (step?_number ready sameToken) rest
  | .string value =>
      obtain ⟨token, rfl, sameToken⟩ := List.map_eq_singleton_iff.mp same
      exact readFrom_cons (step?_string ready sameToken) rest
  | .call name params =>
      rw [Form.lexemes] at same
      obtain ⟨opening, afterOpening, rfl, opens, sameInner⟩ :=
        List.map_eq_cons_iff.mp same
      obtain ⟨named, afterName, rfl, names, sameParams⟩ :=
        List.map_eq_cons_iff.mp sameInner
      obtain ⟨inner, last, rfl, innerSame, lastSame⟩ :=
        List.map_eq_append_iff.mp sameParams
      obtain ⟨closing, rfl, closes⟩ := List.map_eq_singleton_iff.mp lastSame
      have insideReady :
          (({ reading with awaitsName := true } : Reading).enter
            name).awaitsName = false := rfl
      have afterReady :
          (params.foldl add
            (({ reading with awaitsName := true } : Reading).enter
              name)).awaitsName = false := by
        rw [foldl_add]
        exact insideReady
      rw [List.cons_append, readFrom_cons (step?_opening ready opens),
        List.cons_append, readFrom_cons (step?_name rfl names),
        List.append_assoc, readFrom_forms params insideReady innerSame,
        List.singleton_append]
      exact readFrom_cons
        ((step?_closing afterReady closes).trans
          (leave?_foldl_add_enter ready name params)) rest

theorem readFrom_forms
    (forms : List Form) {reading : Reading} {tokens : List Token}
    (ready : reading.awaitsName = false)
    (same : tokens.map Token.lexeme = Form.lexemesOf forms)
    (rest : List Token) :
    reading.readFrom (tokens ++ rest) =
      (forms.foldl add reading).readFrom rest := by
  match forms with
  | [] =>
      rw [List.map_eq_nil_iff.mp same]
      rfl
  | form :: more =>
      rw [Form.lexemesOf] at same
      obtain ⟨first, remaining, rfl, firstSame, remainingSame⟩ :=
        List.map_eq_append_iff.mp same
      have addedReady : (reading.add form).awaitsName = false := ready
      rw [List.append_assoc, readFrom_form form ready firstSame,
        readFrom_forms more addedReady remainingSame, List.foldl_cons]

end

end Reading

/-- Any lexemes are those of some tokens. -/
theorem Token.exists_of_lexemes (lexemes : List Lexeme) :
    ∃ tokens : List Token, tokens.map Token.lexeme = lexemes := by
  refine ⟨lexemes.map (Lexeme.tokenAt · .unknown), ?_⟩
  rw [List.map_map]
  exact List.map_id _

namespace Program

/-- The tokens of a program that is read are the lexemes that write it. -/
theorem lexemes_of_ofTokens
    {tokens : List Token} {program : Program}
    (read : ofTokens tokens = .ok program) :
    tokens.map Token.lexeme = program.lexemes := by
  have whole :
      Reading.start.readFrom tokens =
        (.ok program, (Reading.start.readFrom tokens).2) :=
    Prod.ext read rfl
  exact Reading.lexemes_of_readFrom whole

/-- The lexemes that write a program are read as that program, wherever they
stand. -/
theorem ofTokens_of_lexemes
    {tokens : List Token} {program : Program}
    (same : tokens.map Token.lexeme = program.lexemes) :
    ofTokens tokens = .ok program := by
  have ready : Reading.start.awaitsName = false := rfl
  have run := Reading.readFrom_forms program ready same []
  have finished :
      (program.foldl Reading.add Reading.start).finish? = some program := by
    rw [Reading.finish?_eq_some_iff, Reading.foldl_add]
    refine ⟨rfl, rfl, ?_⟩
    change (program.reverse ++ []).reverse = program
    rw [List.append_nil, List.reverse_reverse]
  rw [List.append_nil, Reading.readFrom, finished] at run
  exact congrArg Prod.fst run

theorem eq_of_lexemes_eq
    {first second : Program} (same : first.lexemes = second.lexemes) :
    first = second := by
  obtain ⟨tokens, lexemes⟩ := Token.exists_of_lexemes first.lexemes
  have readFirst : ofTokens tokens = .ok first := ofTokens_of_lexemes lexemes
  have readSecond : ofTokens tokens = .ok second :=
    ofTokens_of_lexemes (lexemes.trans same)
  exact Except.ok.inj (readFirst.symm.trans readSecond)

/-- Reading accepts exactly the token lists whose lexemes write a program, and
gives that program.  No two programs are written alike, and the places of the
tokens do not matter. -/
theorem ofTokens_exact :
    (∀ (tokens : List Token) (program : Program),
      ofTokens tokens = .ok program ↔
        tokens.map Token.lexeme = program.lexemes) ∧
    (∀ first second : Program,
      first.lexemes = second.lexemes → first = second) ∧
    (∀ tokens moved : List Token,
      moved.map Token.lexeme = tokens.map Token.lexeme →
      ∀ program : Program,
        ofTokens moved = .ok program ↔ ofTokens tokens = .ok program) := by
  have readIff :
      ∀ (tokens : List Token) (program : Program),
        ofTokens tokens = .ok program ↔
          tokens.map Token.lexeme = program.lexemes :=
    fun _ _ => ⟨lexemes_of_ofTokens, ofTokens_of_lexemes⟩
  refine ⟨readIff, fun _ _ => eq_of_lexemes_eq, ?_⟩
  intro tokens moved sameLexemes program
  rw [readIff, readIff, sameLexemes]

end Program
end SexprCalls
