import SexprCalls.Proofs.CompiledText
import SexprCalls.Proofs.FormGrammar
import SexprCalls.Proofs.LexicalCut

/-!
# From the spelling of a program to its text

A source spells a program if it consists of the lexemes that write the program,
with white space around them.  White space is needed only between two numbers: the
name of a call follows a parenthesis, and so two names never meet.  A source
compiles exactly if it spells a program, and then to the text of that program.
-/

namespace SexprCalls

mutual

/-- The forms that a source can spell: the digits of a number and the letters
of a name are there, and a string holds no quotation mark. -/
def Form.IsWritten : Form → Prop
  | .number value =>
      value ≠ [] ∧ ∀ byte ∈ value, Bytes.isDigit byte = true
  | .string value => Bytes.quoteMark ∉ value
  | .call name params =>
      (name ≠ [] ∧ ∀ byte ∈ name, Bytes.isLetter byte = true) ∧
        Form.AreWritten params

def Form.AreWritten : List Form → Prop
  | [] => True
  | form :: rest => form.IsWritten ∧ Form.AreWritten rest

end

/-- Two numbers have a gap between them. -/
def SpacedLexeme.KeepsNumbersApart (first second : SpacedLexeme) : Prop :=
  first.lexeme.kind = .number → second.lexeme.kind = .number →
    second.gap ≠ []

/-- The lexemes of a program, in order, with white space before, between and
after them. -/
def Program.SpelledBy (program : Program) (source : Bytes) : Prop :=
  ∃ (sequence : List SpacedLexeme) (trailing : Bytes),
    sequence.map SpacedLexeme.lexeme = program.lexemes ∧
      (∀ spaced ∈ sequence, IsBlankRun spaced.gap) ∧
      IsBlankRun trailing ∧
      sequence.IsChain SpacedLexeme.KeepsNumbersApart ∧
      source = SpacedLexeme.bytesOf sequence ++ trailing

/-! ## Forms that can be written -/

mutual

theorem Form.isWritten_iff :
    (form : Form) →
      (form.IsWritten ↔ ∀ lexeme ∈ form.lexemes, lexeme.IsWritten)
  | .number value => by
      rw [Form.lexemes, List.forall_mem_singleton]
      rfl
  | .string value => by
      rw [Form.lexemes, List.forall_mem_singleton]
      rfl
  | .call name params => by
      have opening : Lexeme.opening.IsWritten := Or.inl rfl
      have closing : Lexeme.closing.IsWritten := Or.inr rfl
      have inside := Form.areWritten_iff params
      rw [Form.IsWritten, Form.lexemes, List.forall_mem_cons,
        List.forall_mem_cons, List.forall_mem_append,
        List.forall_mem_singleton, inside]
      constructor
      · rintro ⟨named, written⟩
        exact ⟨opening, named, written, closing⟩
      · rintro ⟨_, named, written, _⟩
        exact ⟨named, written⟩

theorem Form.areWritten_iff :
    (forms : List Form) →
      (Form.AreWritten forms ↔
        ∀ lexeme ∈ Form.lexemesOf forms, lexeme.IsWritten)
  | [] => by
      rw [Form.AreWritten, Form.lexemesOf]
      exact iff_of_true trivial nofun
  | form :: rest => by
      rw [Form.AreWritten, Form.lexemesOf, List.forall_mem_append,
        Form.isWritten_iff form, Form.areWritten_iff rest]

end

/-! ## Names never meet -/

namespace Lexeme

/-- No name follows a name, and none comes first. -/
structure NamesApart (lexemes : List Lexeme) : Prop where
  chained : lexemes.IsChain fun first second =>
    first.kind = .name → second.kind ≠ .name
  starts : ∀ first ∈ lexemes.head?, first.kind ≠ .name

theorem NamesApart.nil : NamesApart [] :=
  ⟨.nil, nofun⟩

theorem NamesApart.cons
    {first : Lexeme} {rest : List Lexeme}
    (plain : first.kind ≠ .name) (apart : NamesApart rest) :
    NamesApart (first :: rest) := by
  refine ⟨List.isChain_cons.mpr ⟨?_, apart.chained⟩, ?_⟩
  · intro second _ named
    exact absurd named plain
  · intro head atHead
    rw [← Option.some.inj atHead]
    exact plain

/-- A name may come behind an opening parenthesis. -/
theorem NamesApart.opening_cons
    {rest : List Lexeme} (name : Bytes) (apart : NamesApart rest) :
    NamesApart (.opening :: ⟨.name, name⟩ :: rest) := by
  refine ⟨.cons_cons ?_ (List.isChain_cons.mpr ⟨?_, apart.chained⟩), ?_⟩
  · intro named
    cases named
  · intro second atHead _
    exact apart.starts second atHead
  · intro head atHead
    rw [← Option.some.inj atHead]
    decide

end Lexeme

mutual

theorem Form.namesApart
    {rest : List Lexeme} (apart : Lexeme.NamesApart rest) :
    (form : Form) → Lexeme.NamesApart (form.lexemes ++ rest)
  | .number value =>
      apart.cons nofun
  | .string value =>
      apart.cons nofun
  | .call name params => by
      have closing : Lexeme.NamesApart (.closing :: rest) :=
        apart.cons nofun
      have inside := Form.namesApart_forms closing params
      rw [Form.lexemes, List.cons_append, List.cons_append,
        List.append_assoc]
      exact inside.opening_cons name

theorem Form.namesApart_forms
    {rest : List Lexeme} (apart : Lexeme.NamesApart rest) :
    (forms : List Form) →
      Lexeme.NamesApart (Form.lexemesOf forms ++ rest)
  | [] =>
      apart
  | form :: others => by
      rw [Form.lexemesOf, List.append_assoc]
      exact Form.namesApart (Form.namesApart_forms apart others) form

end

theorem Program.namesApart (program : Program) :
    Lexeme.NamesApart program.lexemes := by
  have apart := Form.namesApart_forms .nil program
  rw [List.append_nil] at apart
  exact apart

/-- Around the lexemes of a program it is enough to keep numbers apart. -/
theorem SpacedLexeme.isChain_mayPrecede_iff
    {sequence : List SpacedLexeme} {program : Program}
    (lexemes : sequence.map SpacedLexeme.lexeme = program.lexemes) :
    sequence.IsChain MayPrecede ↔ sequence.IsChain KeepsNumbersApart := by
  constructor
  · intro separated
    refine separated.imp ?_
    intro first second mayPrecede firstNumber secondNumber
    exact mayPrecede ⟨firstNumber.trans secondNumber.symm, .inl firstNumber⟩
  · intro numbersApart
    have namesApart := program.namesApart.chained
    rw [← lexemes, List.isChain_map, List.isChain_iff_getElem] at namesApart
    rw [List.isChain_iff_getElem] at numbersApart ⊢
    intro index bound clash
    -- Of the two classes that clash, names do so in no program.
    rcases clash with ⟨sameKind, number | name⟩
    · exact numbersApart index bound number (sameKind.symm.trans number)
    · exact absurd (sameKind.symm.trans name) (namesApart index bound name)

/-! ## Spellings and cuts -/

/-- The spellings of a program are the cuts with its lexemes. -/
theorem Program.spelledBy_iff_cut (program : Program) (source : Bytes) :
    Form.AreWritten program ∧ program.SpelledBy source ↔
      ∃ cut : Cut, cut.bytes = source ∧
        cut.sequence.map SpacedLexeme.lexeme = program.lexemes := by
  rw [Form.areWritten_iff]
  constructor
  · rintro ⟨written, sequence, trailing, lexemes, gapsBlank, trailingBlank,
      numbersApart, rfl⟩
    have lexemesWritten :
        ∀ spaced ∈ sequence, spaced.lexeme.IsWritten := by
      intro spaced member
      apply written
      change spaced.lexeme ∈ program.lexemes
      rw [← lexemes]
      exact List.mem_map_of_mem member
    have separated :=
      (SpacedLexeme.isChain_mayPrecede_iff lexemes).mpr numbersApart
    exact ⟨⟨sequence, trailing, gapsBlank, lexemesWritten, separated,
      trailingBlank⟩, rfl, lexemes⟩
  · rintro ⟨cut, rfl, lexemes⟩
    have numbersApart :=
      (SpacedLexeme.isChain_mayPrecede_iff lexemes).mp cut.separated
    refine ⟨?_, cut.sequence, cut.trailing, lexemes, cut.gaps_blank,
      cut.trailing_blank, numbersApart, rfl⟩
    intro lexeme member
    change lexeme ∈ program.lexemes at member
    rw [← lexemes] at member
    obtain ⟨spaced, inCut, rfl⟩ := List.mem_map.mp member
    exact cut.lexemes_written spaced inCut

/-- A source is scanned and read as a program exactly if it has a cut with the
lexemes of that program. -/
theorem Program.exists_tokens_iff_cut
    (file source : Bytes) (program : Program) :
    (∃ tokens, Token.ofSource file source = .ok tokens ∧
        ofTokens tokens = .ok program) ↔
      ∃ cut : Cut, cut.bytes = source ∧
        cut.sequence.map SpacedLexeme.lexeme = program.lexemes := by
  constructor
  · rintro ⟨tokens, scanned, read⟩
    obtain ⟨cut, sameBytes, rfl⟩ := exists_cut_of_ofSource scanned
    have lexemes := lexemes_of_ofTokens read
    rw [SpacedLexeme.tokensFrom_map_lexeme] at lexemes
    exact ⟨cut, sameBytes, lexemes⟩
  · rintro ⟨cut, rfl, lexemes⟩
    have scanned := ofSource_cut_bytes file cut
    refine ⟨_, scanned, ofTokens_of_lexemes ?_⟩
    rw [SpacedLexeme.tokensFrom_map_lexeme]
    exact lexemes

/-- A source compiles to a text exactly if it spells a program with that
text. -/
theorem compile_eq_ok_iff_spelled (source output : Bytes) :
    compile source = .ok output ↔
      ∃ program : Program,
        Form.AreWritten program ∧ program.SpelledBy source ∧
          output = program.text := by
  rw [compile_eq_ok_iff]
  constructor
  · rintro ⟨tokens, program, scanned, read, sameText⟩
    have cut :=
      (program.exists_tokens_iff_cut [] source).mp ⟨tokens, scanned, read⟩
    obtain ⟨written, spelled⟩ := (program.spelledBy_iff_cut source).mpr cut
    exact ⟨program, written, spelled, sameText⟩
  · rintro ⟨program, written, spelled, sameText⟩
    have cut := (program.spelledBy_iff_cut source).mp ⟨written, spelled⟩
    obtain ⟨tokens, scanned, read⟩ :=
      (program.exists_tokens_iff_cut [] source).mpr cut
    exact ⟨tokens, program, scanned, read, sameText⟩

end SexprCalls
