import SexprCalls.Proofs.StageEvents
import SexprCalls.Proofs.TruncatedSource

/-!
# The bytes of a source and of its text

The text of a program is made of the bytes of its lexemes, in another order, and of
separators: a comma and a space between two arguments, a semicolon behind a call that
stands in no other call, and a newline between two forms.  So a byte that is neither
white space nor part of a separator occurs in the text as often as in the source.  The
parentheses of a text without strings are nested.
-/

namespace SexprCalls

namespace Bytes

def comma : UInt8 := 0x2C

def semicolon : UInt8 := 0x3B

/-- The white-space characters of ASCII. -/
def isAsciiBlank (byte : UInt8) : Bool :=
  (0x09 ≤ byte && byte ≤ 0x0D) || byte == 0x20

/-- No part from the start closes more parentheses than it opens, and the whole closes
all that it opens. -/
structure IsNested (bytes : Bytes) : Prop where
  opened : ∀ size,
    (bytes.take size).count closeParen ≤ (bytes.take size).count openParen
  closed : bytes.count closeParen = bytes.count openParen

end Bytes

namespace Form

/-- The number of places between two parameters of a call. -/
def gaps : Form → Nat
  | .call _ params => params.length - 1
  | _ => 0

def totalGaps : List Form → Nat
  | [] => 0
  | form :: rest => form.gaps + totalGaps rest

end Form

/-- The number of places between two parameters, over the calls on all levels. -/
def Program.gapCount (program : Program) : Nat :=
  Form.totalGaps (Form.subformsOf program)

/-! ## Bytes of the source -/

theorem Bytes.isAsciiBlank_iff (byte : UInt8) :
    isAsciiBlank byte = true ↔
      (0x09 ≤ byte.toNat ∧ byte.toNat ≤ 0x0D) ∨ byte.toNat = 0x20 := by
  simp only [isAsciiBlank, Bool.or_eq_true, Bool.and_eq_true,
    decide_eq_true_eq, beq_iff_eq, UInt8.le_iff_toNat_le, ← UInt8.toNat_inj]
  rfl

/-- An ASCII byte in a run of white space is white space itself. -/
theorem IsBlankRun.not_mem
    {gap : Bytes} (blank : IsBlankRun gap)
    {byte : UInt8} (ascii : byte < 0x80)
    (visible : Bytes.isAsciiBlank byte = false) :
    byte ∉ gap := by
  obtain ⟨chars, blanks, rfl⟩ := blank
  intro member
  obtain ⟨char, isChar, inside⟩ := List.mem_flatMap.mp member
  have isBlank := blanks char isChar
  have small : byte.toNat < 0x80 := UInt8.lt_iff_toNat_lt.mp ascii
  have code := (Text.Utf8.spells_encode char).toNat_eq_of_mem inside small
  simp only [Text.isBlank, Bool.or_eq_true, Bool.and_eq_true,
    decide_eq_true_eq, beq_iff_eq] at isBlank
  rw [← Bool.not_eq_true, Bytes.isAsciiBlank_iff] at visible
  omega

namespace Lexeme

/-- The spellings of some lexemes, one behind the other. -/
def spelled (lexemes : List Lexeme) : Bytes :=
  lexemes.flatMap spelling

theorem spelled_cons (lexeme : Lexeme) (rest : List Lexeme) :
    spelled (lexeme :: rest) = lexeme.spelling ++ spelled rest :=
  List.flatMap_cons

theorem spelled_append (first second : List Lexeme) :
    spelled (first ++ second) = spelled first ++ spelled second :=
  List.flatMap_append

end Lexeme

theorem SpacedLexeme.count_bytesOf
    {sequence : List SpacedLexeme} {byte : UInt8}
    (outside : ∀ spaced ∈ sequence, byte ∉ spaced.gap) :
    (bytesOf sequence).count byte =
      (Lexeme.spelled (sequence.map lexeme)).count byte := by
  induction sequence with
  | nil =>
      rfl
  | cons spaced rest inductionHypothesis =>
      obtain ⟨notInGap, notInRest⟩ := List.forall_mem_cons.mp outside
      rw [bytesOf_cons, List.map_cons, Lexeme.spelled_cons, List.count_append,
        List.count_append, List.count_append,
        List.count_eq_zero_of_not_mem notInGap, inductionHypothesis notInRest,
        Nat.zero_add]

/-- White space apart, a source holds the bytes of the lexemes of its program. -/
theorem Program.IsReadFrom.count_source
    {program : Program} {source : Bytes}
    (isReadFrom : program.IsReadFrom source)
    {byte : UInt8} (ascii : byte < 0x80)
    (visible : Bytes.isAsciiBlank byte = false) :
    source.count byte = (Lexeme.spelled program.lexemes).count byte := by
  obtain ⟨cut, rfl, lexemes⟩ :=
    (program.exists_tokens_iff_cut [] source).mp isReadFrom
  rw [Cut.bytes, List.count_append, ← lexemes,
    SpacedLexeme.count_bytesOf fun spaced member =>
      (cut.gaps_blank spaced member).not_mem ascii visible,
    List.count_eq_zero_of_not_mem (cut.trailing_blank.not_mem ascii visible),
    Nat.add_zero]

/-! ## Bytes of the text -/

theorem count_intercalate
    (byte : UInt8) (separator : Bytes) (parts : List Bytes) :
    (separator.intercalate parts).count byte =
      parts.flatten.count byte +
        (parts.length - 1) * separator.count byte := by
  cases parts with
  | nil =>
      simp
  | cons first rest =>
      rw [OutputNode.intercalate_cons_eq_flatMap, List.flatten_cons,
        List.count_append, List.count_append, List.length_cons,
        Nat.add_sub_cancel, Nat.add_assoc]
      congr 1
      induction rest with
      | nil =>
          simp
      | cons next others inductionHypothesis =>
          rw [List.flatMap_cons, List.flatten_cons, List.length_cons,
            List.count_append, List.count_append, List.count_append,
            inductionHypothesis, Nat.succ_mul]
          omega

theorem mem_intercalate_of_mem_flatten
    {byte : UInt8} (separator : Bytes) {parts : List Bytes}
    (member : byte ∈ parts.flatten) :
    byte ∈ separator.intercalate parts := by
  have positive := List.count_pos_iff.mpr member
  rw [← List.count_pos_iff, count_intercalate]
  omega

theorem Form.totalGaps_append (first second : List Form) :
    totalGaps (first ++ second) = totalGaps first + totalGaps second := by
  induction first with
  | nil =>
      simp [totalGaps]
  | cons form rest inductionHypothesis =>
      simp [totalGaps, inductionHypothesis, Nat.add_assoc]

mutual

/-- The text of a form holds the bytes of its lexemes, and a separator for every
place between two parameters. -/
theorem Form.count_text (byte : UInt8) :
    (form : Form) →
      form.text.count byte =
        (Lexeme.spelled form.lexemes).count byte +
          totalGaps form.subforms * (Bytes.ofString ", ").count byte
  | .number value => by
      simp [Form.text, Form.lexemes, Form.subforms, totalGaps, gaps,
        Lexeme.spelled, Lexeme.spelling]
  | .string value => by
      simp [Form.text, Form.lexemes, Form.subforms, totalGaps, gaps,
        Lexeme.spelled, Lexeme.spelling]
  | .call name params => by
      have inside := Form.count_texts byte params
      have opened : Lexeme.opening.spelling = Bytes.ofString "(" := rfl
      have named : Lexeme.spelling ⟨.name, name⟩ = name := rfl
      have closed : Lexeme.spelled [.closing] = Bytes.ofString ")" := rfl
      have size : (Form.texts params).length = params.length := by
        rw [texts_eq_map, List.length_map]
      rw [Form.text, Form.lexemes, Form.subforms, totalGaps, gaps]
      simp only [Lexeme.spelled_cons, Lexeme.spelled_append, opened, named,
        closed, List.count_append, count_intercalate, inside, size, Nat.add_mul]
      omega

theorem Form.count_texts (byte : UInt8) :
    (forms : List Form) →
      (Form.texts forms).flatten.count byte =
        (Lexeme.spelled (Form.lexemesOf forms)).count byte +
          totalGaps (Form.subformsOf forms) *
            (Bytes.ofString ", ").count byte
  | [] => by
      simp [Form.texts, Form.lexemesOf, Form.subformsOf, totalGaps,
        Lexeme.spelled]
  | form :: rest => by
      have first := Form.count_text byte form
      have others := Form.count_texts byte rest
      rw [Form.texts, List.flatten_cons, Form.lexemesOf, Form.subformsOf,
        Lexeme.spelled_append, totalGaps_append, List.count_append,
        List.count_append, first, others, Nat.add_mul]
      omega

end

namespace Program

theorem flatten_lineTexts_count (byte : UInt8) (program : Program) :
    (program.map Form.lineText).flatten.count byte =
      (Form.texts program).flatten.count byte +
        program.countP Form.isCall * (Bytes.ofString ";").count byte := by
  induction program with
  | nil =>
      simp [Form.texts]
  | cons form rest inductionHypothesis =>
      have line :
          form.lineText.count byte =
            form.text.count byte +
              if form.isCall then (Bytes.ofString ";").count byte else 0 := by
        cases form with
        | call name params =>
            exact List.count_append
        | _ =>
            rfl
      rw [List.map_cons, List.flatten_cons, List.count_append, line,
        inductionHypothesis, Form.texts, List.flatten_cons, List.count_append]
      by_cases call : form.isCall = true
      · rw [if_pos call, List.countP_cons_of_pos call, Nat.succ_mul]
        omega
      · rw [if_neg call, List.countP_cons_of_neg call]
        omega

/-- The bytes of a text: those of the lexemes, and those of the separators. -/
theorem count_text (byte : UInt8) (program : Program) :
    program.text.count byte =
      (Lexeme.spelled program.lexemes).count byte +
        program.gapCount * (Bytes.ofString ", ").count byte +
        program.countP Form.isCall * (Bytes.ofString ";").count byte +
        (program.length - 1) * (Bytes.ofString "\n").count byte := by
  rw [text, count_intercalate, flatten_lineTexts_count, Form.count_texts,
    List.length_map]
  rfl

end Program

/-! ## The last byte of a text -/

theorem Form.exists_getLast?_lineText
    {form : Form} (written : form.IsWritten) :
    ∃ last, form.lineText.getLast? = some last ∧ last ≠ Bytes.newline := by
  cases form with
  | number value =>
      obtain ⟨nonempty, digits⟩ := written
      refine ⟨value.getLast nonempty, List.getLast?_eq_some_getLast nonempty, ?_⟩
      intro ends
      have digit := digits _ (List.getLast_mem nonempty)
      rw [ends] at digit
      cases digit
  | string value =>
      exact ⟨Bytes.quoteMark, List.getLast?_concat, by decide⟩
  | call name params =>
      exact ⟨Bytes.semicolon, List.getLast?_concat, by decide⟩

theorem Program.getLast?_text_ne_newline
    {program : Program} (written : Form.AreWritten program) :
    program.text.getLast? ≠ some Bytes.newline := by
  rcases List.eq_nil_or_concat' program with rfl | ⟨before, form, rfl⟩
  · nofun
  · obtain ⟨lead, texts⟩ := exists_text_concat before
    have formWritten :=
      (Form.areWritten_iff_forall_mem _).mp written form
        (List.mem_append_right before List.mem_cons_self)
    obtain ⟨last, atEnd, visible⟩ := Form.exists_getLast?_lineText formWritten
    rw [texts, List.getLast?_append, atEnd, Option.some_or]
    exact mt Option.some.inj visible

/-! ## Nested parentheses -/

namespace Bytes.IsNested

variable {first second : Bytes}

theorem of_not_mem
    (noOpening : openParen ∉ first) (noClosing : closeParen ∉ first) :
    first.IsNested := by
  have none (size : Nat) : (first.take size).count closeParen = 0 :=
    List.count_eq_zero_of_not_mem fun member =>
      noClosing (List.mem_of_mem_take member)
  refine ⟨fun size => ?_, ?_⟩
  · rw [none]
    exact Nat.zero_le _
  · rw [List.count_eq_zero_of_not_mem noOpening,
      List.count_eq_zero_of_not_mem noClosing]

theorem append (firstNested : first.IsNested) (secondNested : second.IsNested) :
    (first ++ second).IsNested := by
  refine ⟨fun size => ?_, ?_⟩
  · rw [List.take_append, List.count_append, List.count_append]
    exact Nat.add_le_add (firstNested.opened size)
      (secondNested.opened (size - first.length))
  · rw [List.count_append, List.count_append, firstNested.closed,
      secondNested.closed]

theorem inParens (nested : first.IsNested) :
    (Bytes.ofString "(" ++ first ++ Bytes.ofString ")").IsNested := by
  have opening : Bytes.ofString "(" = [openParen] := rfl
  have closing : Bytes.ofString ")" = [closeParen] := rfl
  rw [opening, closing]
  refine ⟨fun size => ?_, ?_⟩
  · cases size with
    | zero =>
        exact Nat.le_refl _
    | succ size =>
        have inside := nested.opened size
        have atMostOne :
            ([closeParen].take (size - first.length)).count closeParen ≤ 1 :=
          (List.take_sublist _ _).count_le closeParen
        rw [List.singleton_append, List.cons_append, List.take_succ_cons,
          List.take_append, List.count_cons_self,
          List.count_cons_of_ne (by decide), List.count_append,
          List.count_append]
        omega
  · have inside := nested.closed
    rw [List.singleton_append, List.cons_append, List.count_cons_self,
      List.count_cons_of_ne (by decide), List.count_append, List.count_append,
      List.count_singleton_self,
      List.count_eq_zero_of_not_mem (show openParen ∉ [closeParen] by decide)]
    omega

theorem intercalate
    {separator : Bytes} (separatorNested : separator.IsNested)
    {parts : List Bytes} (nested : ∀ part ∈ parts, part.IsNested) :
    Bytes.IsNested (separator.intercalate parts) := by
  cases parts with
  | nil =>
      exact of_not_mem List.not_mem_nil List.not_mem_nil
  | cons part rest =>
      obtain ⟨partNested, restNested⟩ := List.forall_mem_cons.mp nested
      rw [OutputNode.intercalate_cons_eq_flatMap]
      apply partNested.append
      clear nested
      induction rest with
      | nil =>
          exact of_not_mem List.not_mem_nil List.not_mem_nil
      | cons next others inductionHypothesis =>
          obtain ⟨nextNested, othersNested⟩ := List.forall_mem_cons.mp restNested
          rw [List.flatMap_cons]
          exact (separatorNested.append nextNested).append
            (inductionHypothesis othersNested)

end Bytes.IsNested

theorem RunClass.isNested
    {kind : TokenKind} {keep : UInt8 → Bool} (run : RunClass kind keep)
    {text : Bytes} (kept : ∀ byte ∈ text, keep byte = true) :
    text.IsNested := by
  have notKept :
      keep Bytes.openParen = false ∧ keep Bytes.closeParen = false := by
    cases run <;> decide
  apply Bytes.IsNested.of_not_mem
  · intro member
    rw [kept _ member] at notKept
    cases notKept.1
  · intro member
    rw [kept _ member] at notKept
    cases notKept.2

mutual

/-- The parentheses of a form without strings are nested. -/
theorem Form.isNested_text :
    (form : Form) → form.IsWritten → Bytes.quoteMark ∉ form.text →
      form.text.IsNested
  | .number value, written, _ =>
      RunClass.digits.isNested written.2
  | .string value, _, noString =>
      absurd List.mem_cons_self noString
  | .call name params, written, noString => by
      have separator : (Bytes.ofString ", ").IsNested :=
        .of_not_mem (by decide) (by decide)
      have named : name.IsNested := RunClass.letters.isNested written.1.2
      have split :
          (Form.call name params).text =
            name ++
              (Bytes.ofString "(" ++
                (Bytes.ofString ", ").intercalate (Form.texts params) ++
                Bytes.ofString ")") := by
        simp only [Form.text, List.append_assoc]
      rw [split] at noString ⊢
      have inside : Bytes.quoteMark ∉ (Form.texts params).flatten := by
        intro member
        have quoted :=
          mem_intercalate_of_mem_flatten (Bytes.ofString ", ") member
        simp [quoted] at noString
      have nested := Form.isNested_texts params written.2 inside
      exact named.append (separator.intercalate nested).inParens

theorem Form.isNested_texts :
    (forms : List Form) → Form.AreWritten forms →
      Bytes.quoteMark ∉ (Form.texts forms).flatten →
      ∀ text ∈ Form.texts forms, Bytes.IsNested text
  | [], _, _ => nofun
  | form :: rest, written, noString => by
      rw [Form.texts, List.flatten_cons, List.mem_append, not_or] at noString
      exact List.forall_mem_cons.mpr
        ⟨Form.isNested_text form written.1 noString.1,
          Form.isNested_texts rest written.2 noString.2⟩

end

theorem Form.isNested_lineText
    {form : Form} (written : form.IsWritten)
    (noString : Bytes.quoteMark ∉ form.lineText) :
    form.lineText.IsNested := by
  rw [lineText_eq_text_append] at noString ⊢
  have inside : Bytes.quoteMark ∉ form.text :=
    mt (List.mem_append_left form.terminator) noString
  have terminated : form.terminator.IsNested := by
    cases form with
    | call name params =>
        exact .of_not_mem
          (show Bytes.openParen ∉ Bytes.ofString ";" by decide)
          (show Bytes.closeParen ∉ Bytes.ofString ";" by decide)
    | _ =>
        exact .of_not_mem List.not_mem_nil List.not_mem_nil
  exact (Form.isNested_text form written inside).append terminated

theorem Program.isNested_text
    {program : Program} (written : Form.AreWritten program)
    (noString : Bytes.quoteMark ∉ program.text) :
    program.text.IsNested := by
  have separator : (Bytes.ofString "\n").IsNested :=
    .of_not_mem (by decide) (by decide)
  apply separator.intercalate
  intro line member
  obtain ⟨form, isForm, rfl⟩ := List.mem_map.mp member
  apply Form.isNested_lineText
  · exact (Form.areWritten_iff_forall_mem program).mp written form isForm
  · intro quoted
    apply noString
    apply mem_intercalate_of_mem_flatten
    exact List.mem_flatten_of_mem member quoted

/-! ## What a compilation keeps -/

/-- The bytes of a text that was made from a source, compared with those of the
source. -/
structure Program.KeepsBytes
    (program : Program) (source text : Bytes) : Prop where
  visible : ∀ byte : UInt8, byte < 0x80 → Bytes.isAsciiBlank byte = false →
    byte ≠ Bytes.comma → byte ≠ Bytes.semicolon →
    text.count byte = source.count byte
  semicolons :
    text.count Bytes.semicolon =
      source.count Bytes.semicolon + program.countP Form.isCall
  commas :
    text.count Bytes.comma = source.count Bytes.comma + program.gapCount
  ending : text.getLast? ≠ some Bytes.newline
  nested : Bytes.quoteMark ∉ source → text.IsNested

/-- The text has the visible bytes of the source, and its own separators. -/
theorem Program.IsReadFrom.count_text
    {program : Program} {source : Bytes}
    (isReadFrom : program.IsReadFrom source)
    {byte : UInt8} (ascii : byte < 0x80)
    (visible : Bytes.isAsciiBlank byte = false) :
    program.text.count byte =
      source.count byte +
        program.gapCount * (Bytes.ofString ", ").count byte +
        program.countP Form.isCall * (Bytes.ofString ";").count byte := by
  have noBreak : byte ∉ Bytes.ofString "\n" := by
    intro member
    rw [List.mem_singleton.mp member] at visible
    cases visible
  rw [Program.count_text, isReadFrom.count_source ascii visible,
    List.count_eq_zero_of_not_mem noBreak, Nat.mul_zero, Nat.add_zero]

theorem Program.IsReadFrom.count_text_of_kept
    {program : Program} {source : Bytes}
    (isReadFrom : program.IsReadFrom source)
    {byte : UInt8} (ascii : byte < 0x80)
    (visible : Bytes.isAsciiBlank byte = false)
    (noComma : byte ≠ Bytes.comma) (noSemicolon : byte ≠ Bytes.semicolon) :
    program.text.count byte = source.count byte := by
  have notInGap : byte ∉ Bytes.ofString ", " := by
    intro member
    rcases List.mem_cons.mp member with isComma | isSpace
    · exact noComma isComma
    · rw [List.mem_singleton.mp isSpace] at visible
      cases visible
  have notBehindCall : byte ∉ Bytes.ofString ";" := by
    intro member
    exact noSemicolon (List.mem_singleton.mp member)
  rw [isReadFrom.count_text ascii visible,
    List.count_eq_zero_of_not_mem notInGap,
    List.count_eq_zero_of_not_mem notBehindCall]
  simp only [Nat.mul_zero, Nat.add_zero]

/-- A compilation keeps every ASCII byte that is no white space, as often as it is
there: only semicolons and commas are added, one behind each call that stands in no
other call and one between two parameters.  The text does not end in a newline, and
where the source holds no string, the parentheses of the text are nested. -/
theorem compile_conserves_bytes
    {source text : Bytes} (compiles : compile source = .ok text) :
    ∃ program : Program, program.IsReadFrom source ∧
      program.KeepsBytes source text := by
  obtain ⟨program, isReadFrom, rfl⟩ := exists_isReadFrom_of_compile compiles
  have written := isReadFrom.areWritten
  refine ⟨program, isReadFrom, ⟨?_, ?_, ?_, ?_, ?_⟩⟩
  · intro byte ascii visible noComma noSemicolon
    exact isReadFrom.count_text_of_kept ascii visible noComma noSemicolon
  · have inGap : (Bytes.ofString ", ").count Bytes.semicolon = 0 := rfl
    have behindCall : (Bytes.ofString ";").count Bytes.semicolon = 1 := rfl
    rw [isReadFrom.count_text (by decide) (by decide), inGap, behindCall,
      Nat.mul_zero, Nat.add_zero, Nat.mul_one]
  · have inGap : (Bytes.ofString ", ").count Bytes.comma = 1 := rfl
    have behindCall : (Bytes.ofString ";").count Bytes.comma = 0 := rfl
    rw [isReadFrom.count_text (by decide) (by decide), inGap, behindCall,
      Nat.mul_zero, Nat.add_zero, Nat.mul_one]
  · exact Program.getLast?_text_ne_newline written
  · intro noString
    apply Program.isNested_text written
    rw [← List.count_eq_zero] at noString ⊢
    rw [isReadFrom.count_text_of_kept (by decide) (by decide) (by decide)
      (by decide)]
    exact noString

/-- A string of separators and parentheses beside a call with two parameters, and calls
without a string. -/
theorem compile_conserves_bytes_of_separators :
    (compile (Bytes.ofString "( f \"a, b);\n(\" ( g 1 2 ) )") =
        .ok (Bytes.ofString "f(\"a, b);\n(\", g(1, 2));") ∧
      ∃ program : Program,
        program.IsReadFrom
            (Bytes.ofString "( f \"a, b);\n(\" ( g 1 2 ) )") ∧
          program.KeepsBytes
            (Bytes.ofString "( f \"a, b);\n(\" ( g 1 2 ) )")
            (Bytes.ofString "f(\"a, b);\n(\", g(1, 2));")) ∧
    (compile (Bytes.ofString "( g 1 2 ) 1") =
        .ok (Bytes.ofString "g(1, 2);\n1") ∧
      ∃ program : Program,
        program.IsReadFrom (Bytes.ofString "( g 1 2 ) 1") ∧
          program.KeepsBytes (Bytes.ofString "( g 1 2 ) 1")
            (Bytes.ofString "g(1, 2);\n1")) := by
  have one : Form.IsWritten (.number (Bytes.ofString "1")) :=
    ⟨by decide, List.all_eq_true.mp rfl⟩
  have two : Form.IsWritten (.number (Bytes.ofString "2")) :=
    ⟨by decide, List.all_eq_true.mp rfl⟩
  have string : Form.IsWritten (.string (Bytes.ofString "a, b);\n(")) :=
    show Bytes.quoteMark ∉ Bytes.ofString "a, b);\n(" by decide
  have inner :
      Form.IsWritten
        (.call (Bytes.ofString "g")
          [.number (Bytes.ofString "1"), .number (Bytes.ofString "2")]) :=
    ⟨⟨by decide, List.all_eq_true.mp rfl⟩, one, two, trivial⟩
  have outer :
      Form.IsWritten
        (.call (Bytes.ofString "f")
          [.string (Bytes.ofString "a, b);\n("),
            .call (Bytes.ofString "g")
              [.number (Bytes.ofString "1"), .number (Bytes.ofString "2")]]) :=
    ⟨⟨by decide, List.all_eq_true.mp rfl⟩, string, inner, trivial⟩
  have space : IsBlankRun (Bytes.ofString " ") :=
    ⟨[' '], List.forall_mem_singleton.mpr rfl, rfl⟩
  have withString :=
    Program.compile_joinedBy (show Form.AreWritten [_] from ⟨outer, trivial⟩)
      space (by decide)
  have withoutString :=
    Program.compile_joinedBy
      (show Form.AreWritten [_, _] from ⟨inner, one, trivial⟩) space (by decide)
  exact ⟨⟨withString, compile_conserves_bytes withString⟩,
    ⟨withoutString, compile_conserves_bytes withoutString⟩⟩

end SexprCalls
