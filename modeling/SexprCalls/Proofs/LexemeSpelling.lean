import SexprCalls.Proofs.CharacterDecoding
import SexprCalls.Token.Scan

/-!
# Lexemes and their spelling

A lexeme is what a token says apart from its place: a class and a text.  This
module says which lexemes can be written and how each is spelled, and compares
that with the piece that the scanner finds at the head of an input.  A digit run
or a letter run is taken whole, so that a lexeme also has to end before what
follows it.
-/

namespace SexprCalls

/-- The class and the text of a token. -/
structure Lexeme where
  kind : TokenKind
  text : Bytes
deriving DecidableEq, Repr

/-- A token without its place. -/
def Token.lexeme (token : Token) : Lexeme :=
  ⟨token.kind, token.text⟩

/-- A lexeme at a place. -/
def Lexeme.tokenAt (lexeme : Lexeme) (pos : Position) : Token :=
  ⟨lexeme.kind, lexeme.text, pos⟩

@[simp]
theorem Lexeme.lexeme_tokenAt (lexeme : Lexeme) (pos : Position) :
    (lexeme.tokenAt pos).lexeme = lexeme :=
  rfl

@[simp]
theorem Lexeme.pos_tokenAt (lexeme : Lexeme) (pos : Position) :
    (lexeme.tokenAt pos).pos = pos :=
  rfl

/-- A sequence of white-space characters. -/
def IsBlankRun (bytes : Bytes) : Prop :=
  ∃ chars : List Char,
    (∀ char ∈ chars, Text.isBlank char = true) ∧ bytes = Bytes.ofChars chars

namespace Lexeme

/-- The lexemes that a source can spell. -/
def IsWritten (lexeme : Lexeme) : Prop :=
  match lexeme.kind with
  | .paren =>
      lexeme.text = [Bytes.openParen] ∨ lexeme.text = [Bytes.closeParen]
  | .number =>
      lexeme.text ≠ [] ∧ ∀ byte ∈ lexeme.text, Bytes.isDigit byte = true
  | .name =>
      lexeme.text ≠ [] ∧ ∀ byte ∈ lexeme.text, Bytes.isLetter byte = true
  | .string => Bytes.quoteMark ∉ lexeme.text
  | .other _ => False

instance : (lexeme : Lexeme) → Decidable lexeme.IsWritten
  | ⟨.paren, _⟩ => inferInstanceAs (Decidable (_ ∨ _))
  | ⟨.number, _⟩ => inferInstanceAs (Decidable (_ ∧ _))
  | ⟨.name, _⟩ => inferInstanceAs (Decidable (_ ∧ _))
  | ⟨.string, _⟩ => inferInstanceAs (Decidable (_ ∉ _))
  | ⟨.other _, _⟩ => inferInstanceAs (Decidable False)

/-- The bytes of a lexeme: its text, in quotation marks for a string. -/
def spelling (lexeme : Lexeme) : Bytes :=
  match lexeme.kind with
  | .string => Bytes.quoteMark :: lexeme.text ++ [Bytes.quoteMark]
  | _ => lexeme.text

/-- Two lexemes that would read as one without a separator. -/
def Clashes (first second : Lexeme) : Prop :=
  first.kind = second.kind ∧ (first.kind = .number ∨ first.kind = .name)

instance (first second : Lexeme) : Decidable (first.Clashes second) :=
  inferInstanceAs (Decidable (_ ∧ _))

/-- Whether a byte right after a lexeme would belong to it. -/
def continuedBy (lexeme : Lexeme) (byte : UInt8) : Bool :=
  match lexeme.kind with
  | .number => Bytes.isDigit byte
  | .name => Bytes.isLetter byte
  | _ => false

/-- The bytes that follow do not continue a lexeme. -/
def EndsBefore (lexeme : Lexeme) (rest : Bytes) : Prop :=
  ∀ byte ∈ rest.head?, lexeme.continuedBy byte = false

end Lexeme

/-- The two classes of lexemes that are runs, with the bytes of such a run. -/
inductive RunClass : TokenKind → (UInt8 → Bool) → Prop
  | digits : RunClass .number Bytes.isDigit
  | letters : RunClass .name Bytes.isLetter

namespace RunClass

variable {kind : TokenKind} {keep : UInt8 → Bool}

theorem isWritten_iff (run : RunClass kind keep) (text : Bytes) :
    Lexeme.IsWritten ⟨kind, text⟩ ↔
      text ≠ [] ∧ ∀ byte ∈ text, keep byte = true := by
  cases run <;> rfl

theorem spelling_eq (run : RunClass kind keep) (text : Bytes) :
    Lexeme.spelling ⟨kind, text⟩ = text := by
  cases run <;> rfl

theorem endsBefore_iff (run : RunClass kind keep) (text rest : Bytes) :
    Lexeme.EndsBefore ⟨kind, text⟩ rest ↔
      ∀ byte ∈ rest.head?, keep byte = false := by
  cases run <;> rfl

end RunClass

/-! ## Byte classes -/

namespace Bytes

theorem isDigit_iff (byte : UInt8) :
    isDigit byte = true ↔ 0x30 ≤ byte.toNat ∧ byte.toNat ≤ 0x39 := by
  simp only [isDigit, Bool.and_eq_true, decide_eq_true_eq,
    UInt8.le_iff_toNat_le]
  rfl

theorem isLetter_iff (byte : UInt8) :
    isLetter byte = true ↔
      (0x61 ≤ byte.toNat ∧ byte.toNat ≤ 0x7A) ∨
        (0x41 ≤ byte.toNat ∧ byte.toNat ≤ 0x5A) := by
  simp only [isLetter, Bool.or_eq_true, Bool.and_eq_true, decide_eq_true_eq,
    UInt8.le_iff_toNat_le]
  rfl

theorem not_isLetter_of_isDigit
    {byte : UInt8} (digit : isDigit byte = true) :
    ¬ isLetter byte = true := by
  rw [isDigit_iff] at digit
  rw [isLetter_iff]
  omega

theorem isParen_iff (byte : UInt8) :
    isParen byte = true ↔ byte.toNat = 0x28 ∨ byte.toNat = 0x29 := by
  simp only [isParen, Bool.or_eq_true, beq_iff_eq, ← UInt8.toNat_inj]
  rfl

theorem eq_quoteMark_iff (byte : UInt8) :
    byte = quoteMark ↔ byte.toNat = 0x22 := by
  rw [← UInt8.toNat_inj]
  rfl

end Bytes

/-- A byte that starts a lexeme of some class. -/
def startsLexeme (byte : UInt8) : Bool :=
  Bytes.isParen byte || Bytes.isDigit byte || Bytes.isLetter byte ||
    byte == Bytes.quoteMark

theorem startsLexeme_eq_false_iff (byte : UInt8) :
    startsLexeme byte = false ↔
      Bytes.isParen byte = false ∧ Bytes.isDigit byte = false ∧
        Bytes.isLetter byte = false ∧ byte ≠ Bytes.quoteMark := by
  simp only [startsLexeme, Bool.or_eq_false_iff, beq_eq_false_iff_ne,
    and_assoc]

/-- No white-space character starts like a lexeme. -/
theorem startsLexeme_eq_false_of_blank
    {char : Char} {first : UInt8} {rest : Bytes}
    (blank : Text.isBlank char = true)
    (encoded : String.utf8EncodeChar char = first :: rest) :
    startsLexeme first = false := by
  have spells := Text.Utf8.spells_encode char
  rw [encoded] at spells
  simp only [Text.isBlank, Bool.or_eq_true, Bool.and_eq_true,
    decide_eq_true_eq, beq_iff_eq] at blank
  rw [startsLexeme_eq_false_iff, ← Bool.not_eq_true, Bytes.isParen_iff,
    ← Bool.not_eq_true, Bytes.isDigit_iff, ← Bool.not_eq_true,
    Bytes.isLetter_iff, Ne, Bytes.eq_quoteMark_iff]
  rcases spells.head_cases with ⟨ascii, same⟩ | ⟨wide, high⟩
  · omega
  · omega

/-- A white-space character that is read was spelled there: a stray byte reads
as the replacement character, which is no white space. -/
theorem exists_blank_of_leading
    {bytes : Bytes}
    (blank : Text.isBlank (Text.Utf8.leading bytes).1 = true) :
    ∃ char rest,
      Text.isBlank char = true ∧
        bytes = String.utf8EncodeChar char ++ rest := by
  unfold Text.Utf8.leading at blank
  cases decoded : Text.Utf8.decode? bytes with
  | none =>
      rw [decoded] at blank
      contradiction
  | some found =>
      rw [decoded] at blank
      obtain ⟨_, rest, headed⟩ := Text.Utf8.decode?_eq_some_iff.mp decoded
      exact ⟨found.1, rest, blank, headed⟩

namespace Lexeme

theorem startsLexeme_of_continuedBy
    {lexeme : Lexeme} {byte : UInt8}
    (continued : lexeme.continuedBy byte = true) :
    startsLexeme byte = true := by
  unfold continuedBy at continued
  split at continued
  · simp only [startsLexeme, continued, Bool.or_true, Bool.true_or]
  · simp only [startsLexeme, continued, Bool.or_true, Bool.true_or]
  · contradiction

/-- A written lexeme starts with a byte of its class. -/
theorem exists_spelling_cons
    {lexeme : Lexeme} (written : lexeme.IsWritten) :
    ∃ first rest, lexeme.spelling = first :: rest ∧
      (Bytes.isDigit first = true ↔ lexeme.kind = .number) ∧
        (Bytes.isLetter first = true ↔ lexeme.kind = .name) := by
  obtain ⟨kind, text⟩ := lexeme
  cases kind with
  | paren =>
      rcases written with openText | closeText
      · exact ⟨Bytes.openParen, [], openText,
          iff_of_false (by decide) nofun, iff_of_false (by decide) nofun⟩
      · exact ⟨Bytes.closeParen, [], closeText,
          iff_of_false (by decide) nofun, iff_of_false (by decide) nofun⟩
  | number =>
      obtain ⟨first, rest, split⟩ := List.exists_cons_of_ne_nil written.1
      have digit : Bytes.isDigit first = true :=
        written.2 first (split ▸ List.mem_cons_self)
      have notLetter := Bytes.not_isLetter_of_isDigit digit
      exact ⟨first, rest, split, iff_of_true digit rfl,
        iff_of_false notLetter nofun⟩
  | name =>
      obtain ⟨first, rest, split⟩ := List.exists_cons_of_ne_nil written.1
      have letter : Bytes.isLetter first = true :=
        written.2 first (split ▸ List.mem_cons_self)
      have notDigit : ¬ Bytes.isDigit first = true :=
        fun digit => Bytes.not_isLetter_of_isDigit digit letter
      exact ⟨first, rest, split, iff_of_false notDigit nofun,
        iff_of_true letter rfl⟩
  | string =>
      exact ⟨Bytes.quoteMark, text ++ [Bytes.quoteMark], rfl,
        iff_of_false (by decide) nofun, iff_of_false (by decide) nofun⟩
  | other kind =>
      exact written.elim

theorem spelling_ne_nil
    {lexeme : Lexeme} (written : lexeme.IsWritten) :
    lexeme.spelling ≠ [] := by
  obtain ⟨first, rest, split, _⟩ := exists_spelling_cons written
  rw [split]
  exact List.cons_ne_nil first rest

/-- A lexeme ends before another one exactly if the two do not clash. -/
theorem endsBefore_spelling_iff
    {lexeme next : Lexeme} (written : next.IsWritten) (rest : Bytes) :
    lexeme.EndsBefore (next.spelling ++ rest) ↔ ¬ lexeme.Clashes next := by
  obtain ⟨first, more, split, digit, letter⟩ := exists_spelling_cons written
  obtain ⟨kind, text⟩ := lexeme
  rw [split, List.cons_append]
  simp only [EndsBefore, List.head?_cons, Option.mem_def, Option.some.injEq,
    forall_eq', Clashes, continuedBy]
  cases kind with
  | number =>
      rw [← Bool.not_eq_true, digit]
      simp [eq_comm]
  | name =>
      rw [← Bool.not_eq_true, letter]
      simp [eq_comm]
  | paren =>
      simp
  | string =>
      simp
  | other kind =>
      simp

theorem endsBefore_of_blankRun
    (lexeme : Lexeme) {gap : Bytes}
    (blank : IsBlankRun gap) (nonempty : gap ≠ []) (rest : Bytes) :
    lexeme.EndsBefore (gap ++ rest) := by
  obtain ⟨chars, blanks, rfl⟩ := blank
  cases chars with
  | nil =>
      exact absurd rfl nonempty
  | cons char chars =>
      obtain ⟨first, more, encoded⟩ := Text.Utf8.exists_encode_cons char
      have other :=
        startsLexeme_eq_false_of_blank (blanks char List.mem_cons_self)
          encoded
      intro byte atHead
      have sameByte : first = byte := by
        simpa [Bytes.ofChars, encoded] using atHead
      subst sameByte
      cases continued : lexeme.continuedBy first with
      | false =>
          rfl
      | true =>
          have starts := startsLexeme_of_continuedBy continued
          rw [other] at starts
          contradiction

theorem EndsBefore.take
    {lexeme : Lexeme} {rest : Bytes} (ends : lexeme.EndsBefore rest)
    (size : Nat) :
    lexeme.EndsBefore (rest.take size) := by
  intro byte atHead
  apply ends
  rw [List.head?_take] at atHead
  split at atHead
  · cases atHead
  · exact atHead

end Lexeme

/-! ## Runs of bytes -/

theorem takeWhile_append_of_ends
    {keep : UInt8 → Bool} {run rest : Bytes}
    (inside : ∀ byte ∈ run, keep byte = true)
    (outside : ∀ byte ∈ rest.head?, keep byte = false) :
    (run ++ rest).takeWhile keep = run ∧
      (run ++ rest).dropWhile keep = rest := by
  rw [List.takeWhile_append_of_pos inside,
    List.dropWhile_append_of_pos inside]
  cases rest with
  | nil =>
      exact ⟨List.append_nil run, rfl⟩
  | cons byte rest =>
      have stop : keep byte = false := outside byte rfl
      rw [List.takeWhile_cons, List.dropWhile_cons, stop]
      exact ⟨List.append_nil run, rfl⟩

theorem head?_dropWhile_eq_false
    (keep : UInt8 → Bool) (bytes : Bytes) :
    ∀ byte ∈ (bytes.dropWhile keep).head?, keep byte = false := by
  intro byte atHead
  have stopped := List.head?_dropWhile_not keep bytes
  rw [Option.mem_def.mp atHead] at stopped
  exact stopped

/-! ## The piece at the head of an input -/

namespace Piece

theorem ofInput_of_isParen
    {first : UInt8} (paren : Bytes.isParen first = true) (input : Bytes) :
    ofInput first input = plain .paren [first] input := by
  rw [ofInput, if_pos paren]

theorem ofInput_of_run
    {kind : TokenKind} {keep : UInt8 → Bool} (run : RunClass kind keep)
    {first : UInt8} (kept : keep first = true) (input : Bytes) :
    ofInput first input =
      plain kind (first :: input.takeWhile keep) (input.dropWhile keep) := by
  cases run with
  | digits =>
      have notParen : ¬ Bytes.isParen first = true := by
        rw [Bytes.isDigit_iff] at kept
        rw [Bytes.isParen_iff]
        omega
      rw [ofInput, if_neg notParen, if_pos kept]
  | letters =>
      have elsewhere :
          ¬ Bytes.isParen first = true ∧ ¬ Bytes.isDigit first = true := by
        rw [Bytes.isLetter_iff] at kept
        rw [Bytes.isParen_iff, Bytes.isDigit_iff]
        omega
      rw [ofInput, if_neg elsewhere.1, if_neg elsewhere.2, if_pos kept]

theorem ofInput_quoteMark (input : Bytes) :
    ofInput Bytes.quoteMark input = afterQuote input :=
  rfl

theorem ofInput_of_no_lexeme
    {first : UInt8} (other : startsLexeme first = false) (input : Bytes) :
    ofInput first input =
      if Text.isBlank (Text.Utf8.leading (first :: input)).1 then
        .blank
          (first :: input.take ((Text.Utf8.leading (first :: input)).2 - 1))
          (input.drop ((Text.Utf8.leading (first :: input)).2 - 1))
      else
        .unknown (Text.Utf8.leading (first :: input)).1 := by
  obtain ⟨notParen, notDigit, notLetter, notQuote⟩ :=
    (startsLexeme_eq_false_iff first).mp other
  rw [ofInput, if_neg (ne_true_of_eq_false notParen),
    if_neg (ne_true_of_eq_false notDigit),
    if_neg (ne_true_of_eq_false notLetter), if_neg notQuote]

theorem ofInput_blank
    {first : UInt8} {input rest : Bytes} {char : Char}
    (blank : Text.isBlank char = true)
    (headed : first :: input = String.utf8EncodeChar char ++ rest) :
    ofInput first input = .blank (String.utf8EncodeChar char) rest := by
  have leading :
      Text.Utf8.leading (first :: input) =
        (char, (String.utf8EncodeChar char).length) := by
    rw [Text.Utf8.leading, Text.Utf8.decode?_eq_some_iff.mpr
      ⟨rfl, rest, headed⟩]
    rfl
  obtain ⟨head, tail, encoded⟩ := Text.Utf8.exists_encode_cons char
  rw [encoded, List.cons_append, List.cons.injEq] at headed
  obtain ⟨rfl, rfl⟩ := headed
  rw [ofInput_of_no_lexeme (startsLexeme_eq_false_of_blank blank encoded),
    leading, if_pos blank, encoded]
  simp only [List.length_cons, Nat.add_sub_cancel, List.take_left,
    List.drop_left]

private theorem ofInput_run
    {kind : TokenKind} {keep : UInt8 → Bool} (run : RunClass kind keep)
    {first : UInt8} {input rest text : Bytes}
    (written : Lexeme.IsWritten ⟨kind, text⟩)
    (ends : Lexeme.EndsBefore ⟨kind, text⟩ rest)
    (headed : first :: input = text ++ rest) :
    ofInput first input = .lexeme kind text text rest := by
  obtain ⟨nonempty, kept⟩ := (run.isWritten_iff text).mp written
  obtain ⟨head, more, rfl⟩ := List.exists_cons_of_ne_nil nonempty
  obtain ⟨rfl, rfl⟩ := List.cons.inj headed
  have whole :=
    takeWhile_append_of_ends
      (fun byte member => kept byte (List.mem_cons_of_mem _ member))
      ((run.endsBefore_iff _ rest).mp ends)
  have piece :=
    ofInput_of_run run (kept first List.mem_cons_self) (more ++ rest)
  rwa [whole.1, whole.2] at piece

/-- A lexeme at the head of an input is found whole, provided that it ends
where its spelling does. -/
theorem ofInput_lexeme
    {first : UInt8} {input rest : Bytes} {lexeme : Lexeme}
    (written : lexeme.IsWritten)
    (ends : lexeme.EndsBefore rest)
    (headed : first :: input = lexeme.spelling ++ rest) :
    ofInput first input =
      .lexeme lexeme.kind lexeme.text lexeme.spelling rest := by
  obtain ⟨kind, text⟩ := lexeme
  cases kind with
  | paren =>
      rcases written with openText | closeText
      · change text = _ at openText
        subst openText
        cases headed
        exact ofInput_of_isParen rfl _
      · change text = _ at closeText
        subst closeText
        cases headed
        exact ofInput_of_isParen rfl _
  | number =>
      exact ofInput_run .digits written ends headed
  | name =>
      exact ofInput_run .letters written ends headed
  | string =>
      change first :: input =
        Bytes.quoteMark :: (text ++ [Bytes.quoteMark] ++ rest) at headed
      rw [List.append_assoc, List.singleton_append] at headed
      obtain ⟨rfl, rfl⟩ := List.cons.inj headed
      have content : ∀ byte ∈ text, isContent byte = true := by
        intro byte member
        exact bne_iff_ne.mpr fun same => written (same ▸ member)
      have closing :
          ∀ byte ∈ (Bytes.quoteMark :: rest).head?,
            isContent byte = false := by
        rintro byte ⟨⟩
        rfl
      have whole := takeWhile_append_of_ends content closing
      rw [ofInput_quoteMark, afterQuote, whole.1, whole.2]
      rfl
  | other kind =>
      exact written.elim

theorem ofInput_unclosed
    {content : Bytes} (unclosed : Bytes.quoteMark ∉ content) :
    ofInput Bytes.quoteMark content = .unterminated := by
  have inside : ∀ byte ∈ content, isContent byte = true := by
    intro byte member
    exact bne_iff_ne.mpr fun same => unclosed (same ▸ member)
  have whole : (content ++ []).dropWhile isContent = [] := by
    refine (takeWhile_append_of_ends inside ?_).2
    intro byte atHead
    cases atHead
  rw [List.append_nil] at whole
  rw [ofInput_quoteMark, afterQuote, whole]

/-- What a piece says about the input that it was found in. -/
def Describes (piece : Piece) (input : Bytes) : Prop :=
  match piece with
  | .blank spelling rest =>
      ∃ char,
        Text.isBlank char = true ∧ spelling = String.utf8EncodeChar char ∧
          input = spelling ++ rest
  | .lexeme kind text spelling rest =>
      Lexeme.IsWritten ⟨kind, text⟩ ∧
        spelling = Lexeme.spelling ⟨kind, text⟩ ∧
        input = spelling ++ rest ∧ Lexeme.EndsBefore ⟨kind, text⟩ rest
  | .unterminated =>
      ∃ content, input = Bytes.quoteMark :: content ∧
        Bytes.quoteMark ∉ content
  | .unknown char =>
      ∃ first rest, input = first :: rest ∧ startsLexeme first = false ∧
        char = (Text.Utf8.leading input).1 ∧ Text.isBlank char = false

private theorem describes_run
    {kind : TokenKind} {keep : UInt8 → Bool} (run : RunClass kind keep)
    {first : UInt8} (kept : keep first = true) (input : Bytes) :
    (plain kind (first :: input.takeWhile keep)
      (input.dropWhile keep)).Describes (first :: input) := by
  refine ⟨(run.isWritten_iff _).mpr ⟨List.cons_ne_nil _ _, ?_⟩,
    (run.spelling_eq _).symm, ?_,
    (run.endsBefore_iff _ _).mpr (head?_dropWhile_eq_false keep input)⟩
  · intro byte member
    rcases List.mem_cons.mp member with rfl | inRun
    · exact kept
    · exact List.all_eq_true.mp List.all_takeWhile byte inRun
  · rw [List.cons_append, List.takeWhile_append_dropWhile]

private theorem describes_afterQuote (input : Bytes) :
    (afterQuote input).Describes (Bytes.quoteMark :: input) := by
  have content : Bytes.quoteMark ∉ input.takeWhile isContent := by
    intro member
    have kept := List.all_eq_true.mp List.all_takeWhile _ member
    contradiction
  have split : input.takeWhile isContent ++ input.dropWhile isContent = input :=
    List.takeWhile_append_dropWhile
  have stop := head?_dropWhile_eq_false isContent input
  unfold afterQuote
  cases remaining : input.dropWhile isContent with
  | nil =>
      rw [remaining, List.append_nil] at split
      rw [split] at content
      exact ⟨input, rfl, content⟩
  | cons closing rest =>
      rw [remaining] at stop split
      have quote : closing = Bytes.quoteMark :=
        bne_eq_false_iff_eq.mp (stop closing rfl)
      subst quote
      refine ⟨content, rfl, ?_, ?_⟩
      · rw [List.cons_append, List.cons_append, List.append_assoc,
          List.singleton_append, split]
      · intro byte atHead
        rfl

/-- Every piece describes the input at whose head it was found. -/
theorem describes_ofInput (first : UInt8) (input : Bytes) :
    (ofInput first input).Describes (first :: input) := by
  by_cases paren : Bytes.isParen first = true
  · rw [ofInput_of_isParen paren]
    refine ⟨?_, rfl, rfl, fun byte atHead => rfl⟩
    simpa [Lexeme.IsWritten, Bytes.isParen] using paren
  by_cases digit : Bytes.isDigit first = true
  · rw [ofInput_of_run .digits digit]
    exact describes_run .digits digit input
  by_cases letter : Bytes.isLetter first = true
  · rw [ofInput_of_run .letters letter]
    exact describes_run .letters letter input
  by_cases quote : first = Bytes.quoteMark
  · subst quote
    exact describes_afterQuote input
  have other : startsLexeme first = false :=
    (startsLexeme_eq_false_iff first).mpr
      ⟨eq_false_of_ne_true paren, eq_false_of_ne_true digit,
        eq_false_of_ne_true letter, quote⟩
  -- No lexeme starts here: the whole character at the head decides.
  by_cases blank : Text.isBlank (Text.Utf8.leading (first :: input)).1 = true
  · obtain ⟨char, rest, blank, headed⟩ := exists_blank_of_leading blank
    rw [ofInput_blank blank headed]
    exact ⟨char, blank, rfl, headed⟩
  · rw [ofInput_of_no_lexeme other, if_neg blank]
    exact ⟨first, input, rfl, other, rfl, eq_false_of_ne_true blank⟩

end Piece
end SexprCalls
