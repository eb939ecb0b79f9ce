import SexprCalls.Proofs.ScannerExactness

/-!
# Lexical errors

A scan stops at the first place where no separator and no lexeme can be read: at a
character that starts neither, or at the opening mark of a string that does not
end.  Everything before that place is a source of its own.  Conversely, behind a
source that scans such a place is always reached, because neither of the two kinds
of character can continue a lexeme.
-/

namespace SexprCalls

namespace Text.Utf8

/-- The character that stands at the head of some bytes, with its size: the one
whose encoding is there, or a replacement character for a single byte where no
encoding is. -/
inductive Reads (bytes : Bytes) : Char → Nat → Prop
  | encoded {char : Char} {rest : Bytes} :
      bytes = String.utf8EncodeChar char ++ rest →
      Reads bytes char (String.utf8EncodeChar char).length
  | stray :
      (∀ char rest, bytes ≠ String.utf8EncodeChar char ++ rest) →
      Reads bytes replacement 1

theorem reads_iff {bytes : Bytes} {char : Char} {size : Nat} :
    Reads bytes char size ↔ leading bytes = (char, size) := by
  rw [leading]
  constructor
  · intro reads
    cases reads with
    | @encoded _ rest headed =>
        rw [decode?_eq_some_iff.mpr ⟨rfl, rest, headed⟩]
        rfl
    | stray strange =>
        cases decoded : decode? bytes with
        | none =>
            rfl
        | some found =>
            obtain ⟨_, rest, headed⟩ := decode?_eq_some_iff.mp decoded
            exact absurd headed (strange found.1 rest)
  · intro same
    cases decoded : decode? bytes with
    | none =>
        rw [decoded] at same
        cases same
        apply Reads.stray
        intro other rest headed
        rw [decode?_eq_some_iff.mpr ⟨rfl, rest, headed⟩] at decoded
        cases decoded
    | some found =>
        rw [decoded] at same
        cases same
        obtain ⟨rfl, rest, headed⟩ := decode?_eq_some_iff.mp decoded
        exact .encoded headed

/-- A byte below `0x80` stands for itself, and no other byte starts such a
character. -/
theorem Reads.head_cases
    {first : UInt8} {rest : Bytes} {char : Char} {size : Nat}
    (reads : Reads (first :: rest) char size) :
    (first.toNat < 0x80 ∧ char.toNat = first.toNat) ∨
      (0x80 ≤ first.toNat ∧ 0x80 ≤ char.toNat) := by
  cases reads with
  | @encoded _ others headed =>
      have spells := spells_encode char
      obtain ⟨head, tail, encoded⟩ := exists_encode_cons char
      rw [encoded, List.cons_append] at headed
      obtain ⟨rfl, _⟩ := List.cons.inj headed
      rw [encoded] at spells
      rcases spells.head_cases with ⟨ascii, same⟩ | ⟨wide, high⟩ <;> omega
  | stray strange =>
      have wide : 0x80 ≤ replacement.toNat := by decide
      by_cases ascii : first.toNat < 0x80
      · -- A byte of this kind is the encoding of a character.
        have valid : first.toNat.isValidChar :=
          Or.inl (Nat.lt_trans ascii (by decide))
        have code : (Char.ofNat first.toNat).toNat = first.toNat :=
          congrArg Char.toNat (dif_pos valid)
        have spells : Spells (Char.ofNat first.toNat).toNat [first] :=
          .one (by omega) code.symm
        have headed := congrArg (· ++ rest) spells.eq_encode
        exact absurd headed (strange _ rest)
      · omega

end Text.Utf8

/-- A character with which neither white space nor a lexeme starts. -/
def IsForeign (char : Char) : Prop :=
  char ≠ '(' ∧ char ≠ ')' ∧ Text.isBlank char = false ∧
    char.isDigit = false ∧ char.isAlpha = false ∧ char ≠ '"'

instance (char : Char) : Decidable (IsForeign char) :=
  inferInstanceAs (Decidable (_ ∧ _))

/-- The bytes at which a scan stops, with the reason and the character that it
reports. -/
inductive StopsScan : Bytes → Cause → Char → Prop
  | unknown {bytes : Bytes} {char : Char} {size : Nat} :
      bytes ≠ [] →
      Text.Utf8.Reads bytes char size →
      IsForeign char →
      StopsScan bytes .unknownCharacter char
  | unterminated {content : Bytes} :
      Bytes.quoteMark ∉ content →
      StopsScan (Bytes.quoteMark :: content) .unterminatedString '"'

/-! ## Characters that start no lexeme -/

theorem isDigit_char_iff (char : Char) :
    char.isDigit = true ↔ 0x30 ≤ char.toNat ∧ char.toNat ≤ 0x39 := by
  simp only [Char.isDigit, Bool.and_eq_true, decide_eq_true_eq, ge_iff_le,
    UInt32.le_iff_toNat_le]
  rfl

theorem isAlpha_char_iff (char : Char) :
    char.isAlpha = true ↔
      (0x41 ≤ char.toNat ∧ char.toNat ≤ 0x5A) ∨
        (0x61 ≤ char.toNat ∧ char.toNat ≤ 0x7A) := by
  change
    (decide ('A'.val ≤ char.val ∧ char.val ≤ 'Z'.val) ||
      (decide ('a'.val ≤ char.val) && decide (char.val ≤ 'z'.val))) = true ↔ _
  simp only [Bool.or_eq_true, Bool.and_eq_true, decide_eq_true_eq,
    UInt32.le_iff_toNat_le]
  rfl

/-- Whether the character at the head of some bytes is foreign shows in its first
byte, white space apart. -/
theorem isForeign_iff
    {first : UInt8} {rest : Bytes} {char : Char} {size : Nat}
    (reads : Text.Utf8.Reads (first :: rest) char size) :
    IsForeign char ↔
      startsLexeme first = false ∧ Text.isBlank char = false := by
  have openCode : char = '(' ↔ char.toNat = 0x28 := Char.toNat_inj.symm
  have closeCode : char = ')' ↔ char.toNat = 0x29 := Char.toNat_inj.symm
  have quoteCode : char = '"' ↔ char.toNat = 0x22 := Char.toNat_inj.symm
  have sameClass :
      startsLexeme first = false ↔
        char ≠ '(' ∧ char ≠ ')' ∧ char.isDigit = false ∧
          char.isAlpha = false ∧ char ≠ '"' := by
    rw [startsLexeme_eq_false_iff, ← Bool.not_eq_true, Bytes.isParen_iff,
      ← Bool.not_eq_true, Bytes.isDigit_iff, ← Bool.not_eq_true,
      Bytes.isLetter_iff, Ne, Bytes.eq_quoteMark_iff, Ne, openCode, Ne,
      closeCode, ← Bool.not_eq_true, isDigit_char_iff, ← Bool.not_eq_true,
      isAlpha_char_iff, Ne, quoteCode]
    rcases reads.head_cases with ⟨ascii, same⟩ | ⟨high, wide⟩ <;> omega
  rw [sameClass, IsForeign]
  constructor
  · rintro ⟨notOpen, notClose, notBlank, notDigit, notLetter, notQuote⟩
    exact ⟨⟨notOpen, notClose, notDigit, notLetter, notQuote⟩, notBlank⟩
  · rintro ⟨⟨notOpen, notClose, notDigit, notLetter, notQuote⟩, notBlank⟩
    exact ⟨notOpen, notClose, notBlank, notDigit, notLetter, notQuote⟩

/-! ## Where a scan stops -/

namespace StopsScan

variable {bytes : Bytes} {cause : Cause} {char : Char}

theorem ne_nil (stops : StopsScan bytes cause char) : bytes ≠ [] := by
  cases stops with
  | unknown nonempty =>
      exact nonempty
  | unterminated =>
      exact List.cons_ne_nil _ _

theorem offset_lt
    {source : Bytes} {offset : Nat}
    (stops : StopsScan (source.drop offset) cause char) :
    offset < source.length := by
  apply Nat.lt_of_not_le
  intro past
  exact stops.ne_nil (List.drop_eq_nil_iff.mpr past)

theorem cause_cases (stops : StopsScan bytes cause char) :
    cause = .unknownCharacter ∨ cause = .unterminatedString ∧ char = '"' := by
  cases stops with
  | unknown =>
      exact Or.inl rfl
  | unterminated =>
      exact Or.inr ⟨rfl, rfl⟩

theorem of_unknown (stops : StopsScan bytes .unknownCharacter char) :
    (∃ size, Text.Utf8.Reads bytes char size) ∧ IsForeign char := by
  cases stops with
  | unknown _ reads foreign =>
      exact ⟨⟨_, reads⟩, foreign⟩

theorem of_unterminated (stops : StopsScan bytes .unterminatedString char) :
    ∃ content, bytes = Bytes.quoteMark :: content ∧
      Bytes.quoteMark ∉ content := by
  cases stops with
  | unterminated unclosed =>
      exact ⟨_, rfl, unclosed⟩

/-- What stops a scan continues no lexeme. -/
theorem endsBefore (stops : StopsScan bytes cause char) (lexeme : Lexeme) :
    lexeme.EndsBefore bytes := by
  intro byte atHead
  rw [← Bool.not_eq_true]
  intro continued
  cases stops with
  | @unknown _ _ size nonempty reads foreign =>
      obtain ⟨first, rest, rfl⟩ := List.exists_cons_of_ne_nil nonempty
      cases atHead
      have starts := Lexeme.startsLexeme_of_continuedBy continued
      rw [((isForeign_iff reads).mp foreign).1] at starts
      cases starts
  | unterminated =>
      cases atHead
      unfold Lexeme.continuedBy at continued
      split at continued <;> cases continued

theorem endsBefore_append
    (stops : StopsScan bytes cause char) (lexeme : Lexeme)
    {gap : Bytes} (blank : IsBlankRun gap) :
    lexeme.EndsBefore (gap ++ bytes) := by
  by_cases empty : gap = []
  · rw [empty]
    exact stops.endsBefore lexeme
  · exact lexeme.endsBefore_of_blankRun blank empty bytes

end StopsScan

theorem exists_stopsScan_of_isStuck
    {stuck : Bytes} (stop : IsStuck stuck) (nonempty : stuck ≠ []) :
    ∃ cause char, StopsScan stuck cause char := by
  obtain ⟨first, rest, rfl⟩ := List.exists_cons_of_ne_nil nonempty
  have described := Piece.describes_ofInput first rest
  rcases stop first rest rfl with piece | ⟨char, piece⟩
  · rw [piece] at described
    obtain ⟨content, same, unclosed⟩ := described
    rw [same]
    exact ⟨_, _, .unterminated unclosed⟩
  · rw [piece] at described
    obtain ⟨_, _, same, noLexeme, sameChar, notBlank⟩ := described
    cases same
    have reads :
        Text.Utf8.Reads (first :: rest) char
          (Text.Utf8.leading (first :: rest)).2 := by
      rw [Text.Utf8.reads_iff, sameChar]
    exact ⟨_, _, .unknown nonempty reads
      ((isForeign_iff reads).mpr ⟨noLexeme, notBlank⟩)⟩

/-! ## The scan of a source with such a place -/

namespace Scanner

/-- The reader that a scan leaves when it stops before some bytes: an unknown
character stays unread, and a string without an end takes all bytes with it. -/
def stoppedAt (file : Bytes) (here : Location) (bytes : Bytes)
    (cause : Cause) : Scanner :=
  if cause = .unknownCharacter then
    ⟨file, here, bytes⟩
  else
    ⟨file, here.past bytes, []⟩

theorem scanOnto_of_stopsScan
    {bytes : Bytes} {cause : Cause} {char : Char}
    (stops : StopsScan bytes cause char)
    (found : List Token) (file : Bytes) (here : Location) :
    scanOnto found file here bytes =
      (.error ⟨cause, char.toNat, here.inFile file⟩,
        stoppedAt file here bytes cause) := by
  cases stops with
  | unknown nonempty reads foreign =>
      obtain ⟨first, rest, rfl⟩ := List.exists_cons_of_ne_nil nonempty
      obtain ⟨noLexeme, notBlank⟩ := (isForeign_iff reads).mp foreign
      have piece : Piece.ofInput first rest = .unknown char := by
        rw [Piece.ofInput_of_no_lexeme noLexeme, Text.Utf8.reads_iff.mp reads,
          if_neg (ne_true_of_eq_false notBlank)]
      rw [scanOnto_of_unknown _ _ _ piece]
      rfl
  | unterminated unclosed =>
      rw [scanOnto_of_unterminated _ _ _ (Piece.ofInput_unclosed unclosed)]
      rfl

/-- Behind a source that scans, the scan reaches the place at which it stops. -/
theorem scan_append
    (cut : Cut) (file : Bytes)
    {bytes : Bytes} {cause : Cause} {char : Char}
    (stops : StopsScan bytes cause char) :
    (ofSource file (cut.bytes ++ bytes)).scan =
      (.error
          ⟨cause, char.toNat, (Location.start.past cut.bytes).inFile file⟩,
        stoppedAt file (Location.start.past cut.bytes) bytes cause) := by
  have fits :
      SpacedLexeme.Fits (cut.trailing ++ bytes) cut.sequence :=
    cut.fits.of_last fun last _ =>
      stops.endsBefore_append last.lexeme cut.trailing_blank
  have whole :
      cut.bytes ++ bytes =
        SpacedLexeme.bytesOf cut.sequence ++ (cut.trailing ++ bytes) :=
    List.append_assoc _ _ _
  rw [whole, scan_ofSource,
    scanOnto_sequence_blankRun _ _ _ fits cut.trailing_blank,
    scanOnto_of_stopsScan stops]
  rfl

end Scanner

/-- Every source can be cut, or is a source that can be cut with a place behind it
at which the scan stops. -/
theorem exists_cut_or_stopsScan (source : Bytes) :
    (∃ cut : Cut, source = cut.bytes) ∨
      ∃ (cut : Cut) (bytes : Bytes) (cause : Cause) (char : Char),
        source = cut.bytes ++ bytes ∧ StopsScan bytes cause char := by
  obtain ⟨sequence, trailing, stuck, rfl, blank, fits, stop⟩ :=
    SpacedLexeme.exists_sequence source
  have before := fits.take trailing.length
  rw [List.take_left] at before
  by_cases empty : stuck = []
  · refine Or.inl ⟨before.toCut blank, ?_⟩
    rw [empty, List.append_nil]
    rfl
  · obtain ⟨cause, char, stops⟩ := exists_stopsScan_of_isStuck stop empty
    refine Or.inr ⟨before.toCut blank, stuck, cause, char, ?_, stops⟩
    rw [← List.append_assoc]
    rfl

namespace Token

variable {file source : Bytes}

theorem ofSource_append_stopsScan
    (cut : Cut) (file : Bytes)
    {bytes : Bytes} {cause : Cause} {char : Char}
    (stops : StopsScan bytes cause char) :
    ofSource file (cut.bytes ++ bytes) =
      .error ⟨cause, char.toNat,
        (Location.start.past cut.bytes).inFile file⟩ :=
  congrArg Prod.fst (Scanner.scan_append cut file stops)

theorem exists_stopsScan_of_ofSource
    {error : LexError} (failed : ofSource file source = .error error) :
    ∃ (offset : Nat) (char : Char),
      error.pos.offset = offset ∧ error.char = char.toNat ∧
        (∃ tokens, ofSource file (source.take offset) = .ok tokens) ∧
        StopsScan (source.drop offset) error.cause char := by
  rcases exists_cut_or_stopsScan source with
    ⟨cut, rfl⟩ | ⟨cut, bytes, cause, char, rfl, stops⟩
  · rw [ofSource_cut_bytes] at failed
    cases failed
  · rw [ofSource_append_stopsScan cut file stops] at failed
    cases failed
    refine ⟨cut.bytes.length, char, ?_, rfl, ?_, ?_⟩
    · exact Location.offset_inFile_past_start file cut.bytes
    · rw [List.take_left]
      exact ⟨_, ofSource_cut_bytes file cut⟩
    · rw [List.drop_left]
      exact stops

theorem exists_error_of_stopsScan
    {offset : Nat} {tokens : List Token} {cause : Cause} {char : Char}
    (scanned : ofSource file (source.take offset) = .ok tokens)
    (stops : StopsScan (source.drop offset) cause char) :
    ∃ error, ofSource file source = .error error ∧ error.cause = cause ∧
      error.char = char.toNat ∧ error.pos.offset = offset := by
  obtain ⟨cut, sameBytes, _⟩ := exists_cut_of_ofSource scanned
  have found := ofSource_append_stopsScan cut file stops
  rw [sameBytes, List.take_append_drop] at found
  refine ⟨_, found, rfl, rfl, ?_⟩
  rw [Location.offset_inFile_past_start,
    List.length_take_of_le (Nat.le_of_lt stops.offset_lt)]

/-- The scan of a source fails in two ways only, each exactly where its reason
stands behind bytes that scan: at a character that starts neither white space nor a
lexeme, and at a quotation mark behind which there is no other one. -/
theorem ofSource_fails_exactly (file source : Bytes) :
    (∀ (char : Char) (offset : Nat),
      (∃ error, ofSource file source = .error error ∧
          error.cause = .unknownCharacter ∧ error.char = char.toNat ∧
          error.pos.offset = offset) ↔
        offset < source.length ∧
          (∃ tokens, ofSource file (source.take offset) = .ok tokens) ∧
          (∃ size, Text.Utf8.Reads (source.drop offset) char size) ∧
          IsForeign char) ∧
    (∀ offset : Nat,
      (∃ error, ofSource file source = .error error ∧
          error.cause = .unterminatedString ∧ error.pos.offset = offset) ↔
        (∃ tokens, ofSource file (source.take offset) = .ok tokens) ∧
          source[offset]? = some Bytes.quoteMark ∧
          Bytes.quoteMark ∉ source.drop (offset + 1)) ∧
    (∀ error, ofSource file source = .error error →
      ∃ (offset : Nat) (char : Char),
        error.pos.offset = offset ∧ error.char = char.toNat ∧
          (error.cause = .unknownCharacter ∨
            error.cause = .unterminatedString ∧ char = '"')) := by
  refine ⟨fun char offset => ⟨?_, ?_⟩, fun offset => ⟨?_, ?_⟩, ?_⟩
  · rintro ⟨error, failed, isUnknown, sameChar, samePlace⟩
    obtain ⟨place, found, atPlace, isFound, scanned, stops⟩ :=
      exists_stopsScan_of_ofSource failed
    rw [isUnknown] at stops
    obtain rfl : place = offset := by omega
    obtain rfl : found = char := Char.toNat_inj.mp (by omega)
    exact ⟨stops.offset_lt, scanned, stops.of_unknown⟩
  · rintro ⟨inside, ⟨tokens, scanned⟩, ⟨size, reads⟩, foreign⟩
    have nonempty : source.drop offset ≠ [] := by
      rw [Ne, List.drop_eq_nil_iff]
      omega
    exact exists_error_of_stopsScan scanned (.unknown nonempty reads foreign)
  · rintro ⟨error, failed, isUnterminated, samePlace⟩
    obtain ⟨place, found, atPlace, _, scanned, stops⟩ :=
      exists_stopsScan_of_ofSource failed
    rw [isUnterminated] at stops
    obtain rfl : place = offset := by omega
    refine ⟨scanned, ?_⟩
    obtain ⟨content, behind, unclosed⟩ := stops.of_unterminated
    have head : (source.drop place)[0]? = source[place]? :=
      List.getElem?_drop
    have tail : (source.drop place).drop 1 = source.drop (place + 1) :=
      List.drop_drop
    rw [← head, ← tail, behind]
    exact ⟨rfl, unclosed⟩
  · rintro ⟨⟨tokens, scanned⟩, quote, unclosed⟩
    have stops :
        StopsScan (source.drop offset) .unterminatedString '"' := by
      obtain ⟨inside, atOffset⟩ := List.getElem?_eq_some_iff.mp quote
      rw [List.drop_eq_getElem_cons inside, atOffset]
      exact .unterminated unclosed
    obtain ⟨error, failed, cause, _, place⟩ :=
      exists_error_of_stopsScan scanned stops
    exact ⟨error, failed, cause, place⟩
  · intro error failed
    obtain ⟨offset, char, place, sameChar, _, stops⟩ :=
      exists_stopsScan_of_ofSource failed
    exact ⟨offset, char, place, sameChar, stops.cause_cases⟩

end Token

end SexprCalls
