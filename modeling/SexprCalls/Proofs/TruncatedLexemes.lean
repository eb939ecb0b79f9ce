import SexprCalls.Proofs.LexicalErrors

/-!
# The lexemes of a truncated source

When only the first bytes of a source are left, the end may lie in three kinds of
places.  Inside a string the closing quotation mark is missing, and inside a
white-space character of several bytes a part of that character is left, which is no
character at all.  Everywhere else what is left is a source that can be scanned: its
lexemes are the first ones of the whole, and the last of them may be a shorter run of
digits or of letters.
-/

namespace SexprCalls

/-- The first `size` bytes end inside a white-space character, which stands behind
the given bytes. -/
def CutsBlank (source : Bytes) (size : Nat) (before : Bytes) : Prop :=
  ∃ char after,
    Text.isBlank char = true ∧
      source = before ++ (String.utf8EncodeChar char ++ after) ∧
      before.length < size ∧
      size < before.length + (String.utf8EncodeChar char).length

namespace Token

/-- The first `size` bytes end inside a string: behind its opening quotation mark
and before its end. -/
def CutsString (token : Token) (size : Nat) : Prop :=
  token.kind = .string ∧ token.pos.offset < size ∧ size < token.endOffset

/-- The byte at an offset belongs to no string. -/
def OutsideStrings (tokens : List Token) (offset : Nat) : Prop :=
  ∀ token ∈ tokens, token.kind = .string →
    ¬ (token.pos.offset ≤ offset ∧ offset < token.endOffset)

end Token

/-- The first of some lexemes; of the last one, if it is a run, only a part may be
left. -/
inductive Lexeme.Begins : List Lexeme → List Lexeme → Prop
  | nil (whole : List Lexeme) : Begins [] whole
  | shortened {kind : TokenKind} {keep : UInt8 → Bool}
      (run : RunClass kind keep) (text more : Bytes) (rest : List Lexeme) :
      Begins [⟨kind, text⟩] (⟨kind, text ++ more⟩ :: rest)
  | cons (lexeme : Lexeme) {part whole : List Lexeme} :
      Begins part whole → Begins (lexeme :: part) (lexeme :: whole)

/-! ## A character that is cut in two -/

namespace Text.Utf8

theorem Spells.isTail_of_mem
    {code : Nat} {first : UInt8} {rest : Bytes}
    (spells : Spells code (first :: rest)) :
    ∀ byte ∈ rest, isTail byte = true := by
  intro byte member
  rw [isTail_iff]
  cases spells with
  | one =>
      cases member
  | two _ _ _ secondByte =>
      rw [List.mem_singleton] at member
      subst member
      omega
  | three _ _ _ secondByte thirdByte =>
      rw [List.mem_cons, List.mem_singleton] at member
      rcases member with rfl | rfl <;> omega
  | four _ _ _ secondByte thirdByte fourthByte =>
      rw [List.mem_cons, List.mem_cons, List.mem_singleton] at member
      rcases member with rfl | rfl | rfl <;> omega

theorem Spells.head_not_isTail
    {code : Nat} {first : UInt8} {rest : Bytes}
    (spells : Spells code (first :: rest)) :
    ¬ isTail first = true := by
  rw [isTail_iff]
  rcases spells.head_cases with ⟨ascii, same⟩ | ⟨wide, high⟩ <;> omega

/-- A part of a character is no character. -/
theorem decode?_take_encode
    (char : Char) {size : Nat}
    (short : size < (String.utf8EncodeChar char).length) :
    decode? ((String.utf8EncodeChar char).take size) = none := by
  cases decoded : decode? ((String.utf8EncodeChar char).take size) with
  | none =>
      rfl
  | some found =>
      exfalso
      obtain ⟨_, rest, headed⟩ := decode?_eq_some_iff.mp decoded
      have split :
          String.utf8EncodeChar char =
            String.utf8EncodeChar found.1 ++
              (rest ++ (String.utf8EncodeChar char).drop size) := by
        rw [← List.append_assoc, ← headed, List.take_append_drop]
      -- The whole bytes would spell both the character and the shorter one.
      have asFound := decode?_eq_some_iff.mpr ⟨rfl, _, split⟩
      have asChar :
          decode? (String.utf8EncodeChar char) =
            some (char, (String.utf8EncodeChar char).length) :=
        decode?_eq_some_iff.mpr ⟨rfl, [], (List.append_nil _).symm⟩
      have sameChar : found.1 = char :=
        congrArg Prod.fst (Option.some.inj (asFound.symm.trans asChar))
      have lengths := congrArg List.length headed
      rw [sameChar, List.length_take, List.length_append] at lengths
      omega

end Text.Utf8

namespace CutsBlank

variable {source before : Bytes} {size : Nat}

theorem length_lt (cuts : CutsBlank source size before) :
    before.length < size := by
  obtain ⟨_, _, _, _, behind, _⟩ := cuts
  exact behind

theorem append (cuts : CutsBlank source size before) (rest : Bytes) :
    CutsBlank (source ++ rest) size before := by
  obtain ⟨char, after, blank, rfl, behind, short⟩ := cuts
  refine ⟨char, after ++ rest, blank, ?_, behind, short⟩
  simp only [List.append_assoc]

theorem prepend (cuts : CutsBlank source size before) (lead : Bytes) :
    CutsBlank (lead ++ source) (lead.length + size) (lead ++ before) := by
  obtain ⟨char, after, blank, rfl, behind, short⟩ := cuts
  refine ⟨char, after, blank, ?_, ?_, ?_⟩
  · rw [List.append_assoc]
  · rw [List.length_append]
    omega
  · rw [List.length_append]
    omega

/-- No character begins where another one is cut. -/
theorem ne_length_of_character
    (cuts : CutsBlank source size before)
    {start after : Bytes} {char : Char}
    (whole : source = start ++ (String.utf8EncodeChar char ++ after)) :
    size ≠ start.length := by
  rintro rfl
  obtain ⟨blank, rest, _, rfl, behind, short⟩ := cuts
  obtain ⟨first, others, encoded⟩ := Text.Utf8.exists_encode_cons char
  have begins := Text.Utf8.spells_encode char
  rw [encoded] at begins
  have inside : first ∈ (String.utf8EncodeChar blank).drop 1 := by
    have atStart := congrArg (fun bytes : Bytes => bytes[start.length]?) whole
    have inBlank :
        start.length - before.length < (String.utf8EncodeChar blank).length := by
      omega
    rw [encoded] at atStart
    simp only [List.getElem?_append_right (Nat.le_of_lt behind),
      List.getElem?_append_left inBlank,
      List.getElem?_append_right (Nat.le_refl _), Nat.sub_self,
      List.cons_append, List.getElem?_cons_zero] at atStart
    apply List.mem_of_getElem? (i := start.length - before.length - 1)
    rw [List.getElem?_drop, Nat.add_sub_cancel' (Nat.sub_pos_of_lt behind)]
    exact atStart
  apply begins.head_not_isTail
  obtain ⟨blankFirst, tail, blankEncoded⟩ :=
    Text.Utf8.exists_encode_cons blank
  have blankSpelled := Text.Utf8.spells_encode blank
  rw [blankEncoded] at blankSpelled inside
  exact blankSpelled.isTail_of_mem first inside

end CutsBlank

/-- What is left of a run of blanks is such a run, or ends inside a character. -/
theorem isBlankRun_take
    {gap : Bytes} (blank : IsBlankRun gap) (size : Nat) :
    IsBlankRun (gap.take size) ∨ ∃ before, CutsBlank gap size before := by
  obtain ⟨chars, blanks, rfl⟩ := blank
  induction chars generalizing size with
  | nil =>
      rw [Bytes.ofChars, List.flatMap_nil, List.take_nil]
      exact Or.inl isBlankRun_nil
  | cons char chars inductionHypothesis =>
      obtain ⟨charBlank, charsBlank⟩ := List.forall_mem_cons.mp blanks
      rw [Bytes.ofChars_cons]
      by_cases none : size = 0
      · subst none
        exact Or.inl isBlankRun_nil
      · by_cases inside : size < (String.utf8EncodeChar char).length
        · refine Or.inr ⟨[], char, Bytes.ofChars chars, charBlank, rfl, ?_, ?_⟩
          · exact Nat.pos_of_ne_zero none
          · simpa using inside
        · have size_eq :
              size =
                (String.utf8EncodeChar char).length +
                  (size - (String.utf8EncodeChar char).length) := by
            omega
          rw [size_eq, List.take_length_add_append]
          rcases inductionHypothesis _ charsBlank with rest | ⟨before, cuts⟩
          · exact Or.inl ((isBlankRun_encode charBlank).append rest)
          · exact Or.inr ⟨_, cuts.prepend (String.utf8EncodeChar char)⟩

/-! ## Lexemes without their end -/

/-- What is left of a lexeme is a shorter run, or a string without its end. -/
theorem Lexeme.take_spelling
    {lexeme : Lexeme} (written : lexeme.IsWritten) {size : Nat}
    (some : 0 < size) (short : size < lexeme.spelling.length) :
    lexeme.kind = .string ∨
      ∃ kind keep text more,
        RunClass kind keep ∧ lexeme = ⟨kind, text ++ more⟩ ∧
          IsWritten ⟨kind, text⟩ ∧ lexeme.spelling.take size = text := by
  obtain ⟨kind, text⟩ := lexeme
  have ofRun {keep : UInt8 → Bool} (run : RunClass kind keep) :
      ∃ kind' keep text' more,
        RunClass kind' keep ∧ Lexeme.mk kind text = ⟨kind', text' ++ more⟩ ∧
          IsWritten ⟨kind', text'⟩ ∧
          (Lexeme.mk kind text).spelling.take size = text' := by
    rw [run.spelling_eq] at short
    obtain ⟨_, kept⟩ := (run.isWritten_iff text).mp written
    refine ⟨kind, keep, text.take size, text.drop size, run, ?_, ?_, ?_⟩
    · rw [List.take_append_drop]
    · refine (run.isWritten_iff _).mpr ⟨?_, ?_⟩
      · apply List.ne_nil_of_length_pos
        rw [List.length_take]
        omega
      · intro byte member
        exact kept byte (List.mem_of_mem_take member)
    · rw [run.spelling_eq]
  cases kind with
  | paren =>
      have single : (Lexeme.mk .paren text).spelling.length = 1 := by
        rcases written with openText | closeText
        · exact congrArg List.length openText
        · exact congrArg List.length closeText
      omega
  | number =>
      exact Or.inr (ofRun .digits)
  | name =>
      exact Or.inr (ofRun .letters)
  | string =>
      exact Or.inl rfl
  | other kind =>
      exact written.elim

/-! ## Sequences before a shorter rest -/

namespace SpacedLexeme

theorem bytesOf_append (first second : List SpacedLexeme) :
    bytesOf (first ++ second) = bytesOf first ++ bytesOf second :=
  List.flatMap_append

theorem Fits.of_append
    {rest : Bytes} {earlier later : List SpacedLexeme}
    (fits : Fits rest (earlier ++ later)) :
    Fits (bytesOf later ++ rest) earlier := by
  induction earlier with
  | nil =>
      exact .nil
  | cons spaced more inductionHypothesis =>
      rw [List.cons_append] at fits
      cases fits with
      | cons blank written ends moreFits =>
          refine .cons blank written ?_ (inductionHypothesis moreFits)
          rw [bytesOf_append, List.append_assoc] at ends
          exact ends

theorem exists_split_of_mem_tokensFrom
    {file : Bytes} {here : Location} {sequence : List SpacedLexeme}
    {token : Token} (member : token ∈ tokensFrom file here sequence) :
    ∃ earlier spaced later,
      sequence = earlier ++ spaced :: later ∧
        token =
          spaced.lexeme.tokenAt
            ((here.past (bytesOf earlier ++ spaced.gap)).inFile file) := by
  induction sequence generalizing here with
  | nil =>
      cases member
  | cons spaced rest inductionHypothesis =>
      rcases List.mem_cons.mp member with rfl | later
      · exact ⟨[], spaced, rest, rfl, rfl⟩
      · obtain ⟨earlier, found, others, rfl, same⟩ := inductionHypothesis later
        refine ⟨spaced :: earlier, found, others, rfl, ?_⟩
        rw [same, ← Location.past_append, bytesOf, bytesOf, List.flatMap_cons,
          List.append_assoc]

/-! ## Where the end may lie -/

/-- Where the first `size` bytes of a sequence and the white space behind it end:
where they can be scanned, inside a string, or inside a white-space character
between the lexemes. -/
inductive EndsIn (file : Bytes) (here : Location)
    (sequence : List SpacedLexeme) (trailing : Bytes) (size : Nat) : Prop
  | source {part : List SpacedLexeme} {rest : Bytes} :
      (bytesOf sequence ++ trailing).take size = bytesOf part ++ rest →
      IsBlankRun rest →
      Fits rest part →
      Lexeme.Begins (part.map lexeme) (sequence.map lexeme) →
      EndsIn file here sequence trailing size
  | string {token : Token} :
      token ∈ tokensFrom file here sequence →
      token.CutsString (here.offset + size) →
      EndsIn file here sequence trailing size
  | blank {before : Bytes} :
      CutsBlank (bytesOf sequence ++ trailing) size before →
      Token.OutsideStrings (tokensFrom file here sequence)
        (here.offset + before.length) →
      EndsIn file here sequence trailing size

variable {file : Bytes} {here : Location} {spaced : SpacedLexeme}
  {more : List SpacedLexeme} {trailing : Bytes} {size : Nat}

theorem gap_end_le_of_mem_tokensFrom
    {token : Token} (member : token ∈ tokensFrom file here (spaced :: more)) :
    ((here.offset + spaced.gap.length : Nat) : Int) ≤ token.pos.offset := by
  rcases List.mem_cons.mp member with rfl | later
  · simp only [Lexeme.pos_tokenAt, Location.inFile, Location.offset_past]
    omega
  · have bound := offset_le_of_mem_tokensFrom later
    rw [Location.offset_past, bytes, List.length_append] at bound
    omega

theorem endsIn_of_gap
    (blank : IsBlankRun spaced.gap) (inGap : size ≤ spaced.gap.length) :
    EndsIn file here (spaced :: more) trailing size := by
  have split :
      bytesOf (spaced :: more) ++ trailing =
        spaced.gap ++
          ((spaced.lexeme.spelling ++ bytesOf more) ++ trailing) := by
    rw [bytesOf_cons, List.append_assoc]
  rcases isBlankRun_take blank size with left | ⟨before, cuts⟩
  · have taken :
        (bytesOf (spaced :: more) ++ trailing).take size =
          bytesOf [] ++ spaced.gap.take size := by
      rw [split, List.take_append_of_le_length inGap]
      rfl
    exact .source taken left .nil (.nil _)
  · have behind := cuts.length_lt
    refine .blank (split ▸ cuts.append _) ?_
    intro token member _ inside
    have bound := gap_end_le_of_mem_tokensFrom member
    omega

theorem endsIn_of_lexeme
    (blank : IsBlankRun spaced.gap) (written : spaced.lexeme.IsWritten)
    (behindGap : spaced.gap.length < size)
    (inLexeme : size < spaced.gap.length + spaced.lexeme.spelling.length) :
    EndsIn file here (spaced :: more) trailing size := by
  rcases Lexeme.take_spelling written
      (Nat.sub_pos_of_lt behindGap)
      (Nat.sub_lt_left_of_lt_add (Nat.le_of_lt behindGap) inLexeme) with
    string | ⟨kind, keep, text, rest, run, whole, partWritten, part⟩
  · refine .string List.mem_cons_self ⟨string, ?_, ?_⟩
    · simp only [Lexeme.pos_tokenAt, Location.inFile, Location.offset_past]
      omega
    · simp only [Token.endOffset, Lexeme.lexeme_tokenAt, Lexeme.pos_tokenAt,
        Location.inFile, Location.offset_past]
      omega
  · have taken :
        (bytesOf (spaced :: more) ++ trailing).take size =
          bytesOf [⟨spaced.gap, kind, text⟩] ++ [] := by
      have size_eq :
          size = spaced.gap.length + (size - spaced.gap.length) := by
        omega
      rw [bytesOf_cons, bytesOf_cons, run.spelling_eq, List.append_assoc,
        List.append_assoc, size_eq, List.take_length_add_append,
        List.take_append_of_le_length (by omega), part, List.append_nil,
        bytesOf, List.flatMap_nil, List.append_nil]
    have begins :
        Lexeme.Begins [⟨kind, text⟩] ((spaced :: more).map lexeme) := by
      rw [List.map_cons, whole]
      exact .shortened run text rest _
    have fits : Fits [] [⟨spaced.gap, kind, text⟩] :=
      .cons blank partWritten (Lexeme.endsBefore_blankRun _ isBlankRun_nil) .nil
    exact .source taken isBlankRun_nil fits begins

theorem EndsIn.cons
    (endsIn : EndsIn file (here.past spaced.bytes) more trailing size)
    (blank : IsBlankRun spaced.gap) (written : spaced.lexeme.IsWritten)
    (ends : spaced.lexeme.EndsBefore (bytesOf more ++ trailing)) :
    EndsIn file here (spaced :: more) trailing
      (spaced.bytes.length + size) := by
  have split :
      bytesOf (spaced :: more) ++ trailing =
        spaced.bytes ++ (bytesOf more ++ trailing) := by
    rw [bytesOf, List.flatMap_cons, List.append_assoc]
    rfl
  cases endsIn with
  | @source part rest taken restBlank fits begins =>
      have shorter := ends.take size
      rw [taken] at shorter
      refine .source ?_ restBlank (.cons blank written shorter fits)
        (.cons spaced.lexeme begins)
      rw [split, List.take_length_add_append, taken, bytesOf, bytesOf,
        List.flatMap_cons, List.append_assoc]
  | @string token member cuts =>
      refine .string (List.mem_cons_of_mem _ member) ?_
      rw [Location.offset_past, Nat.add_assoc] at cuts
      exact cuts
  | @blank before cuts outside =>
      refine .blank (split ▸ cuts.prepend spaced.bytes) ?_
      rw [List.length_append, ← Nat.add_assoc, ← Location.offset_past]
      intro token member
      rcases List.mem_cons.mp member with rfl | later
      · -- The lexeme itself ends before the place.
        intro _ inside
        simp only [Token.endOffset, Lexeme.lexeme_tokenAt, Lexeme.pos_tokenAt,
          Location.inFile, Location.offset_past, bytes, List.length_append]
          at inside
        omega
      · exact outside token later

theorem endsIn_of_fits
    {sequence : List SpacedLexeme} (file : Bytes) (here : Location)
    (fits : Fits trailing sequence) (trailingBlank : IsBlankRun trailing)
    (size : Nat) :
    EndsIn file here sequence trailing size := by
  induction fits generalizing here size with
  | nil =>
      rcases isBlankRun_take trailingBlank size with left | ⟨before, cuts⟩
      · exact .source rfl left .nil (.nil _)
      · refine .blank cuts ?_
        intro token member
        cases member
  | @cons spaced more blank written ends moreFits inductionHypothesis =>
      by_cases inGap : size ≤ spaced.gap.length
      · exact endsIn_of_gap blank inGap
      · by_cases inLexeme :
            size < spaced.gap.length + spaced.lexeme.spelling.length
        · exact endsIn_of_lexeme blank written (by omega) inLexeme
        · have length :
              spaced.bytes.length =
                spaced.gap.length + spaced.lexeme.spelling.length :=
            List.length_append
          have further :=
            (inductionHypothesis (here.past spaced.bytes)
              (size - spaced.bytes.length)).cons blank written ends
          rw [Nat.add_sub_cancel' (by omega)] at further
          exact further

end SpacedLexeme

/-! ## What the scanner finds there -/

/-- The part that is left of a character stops the scan. -/
theorem stopsScan_part_of_character
    (char : Char) {size : Nat} (some : 0 < size)
    (short : size < (String.utf8EncodeChar char).length) :
    StopsScan ((String.utf8EncodeChar char).take size) .unknownCharacter
      Text.Utf8.replacement := by
  have nonempty : (String.utf8EncodeChar char).take size ≠ [] := by
    apply List.ne_nil_of_length_pos
    rw [List.length_take]
    omega
  have reads :
      Text.Utf8.Reads ((String.utf8EncodeChar char).take size)
        Text.Utf8.replacement 1 := by
    rw [Text.Utf8.reads_iff, Text.Utf8.leading,
      Text.Utf8.decode?_take_encode char short]
    rfl
  exact .unknown nonempty reads (by decide)

/-- Of a string that is cut, its first mark and some bytes of its content are
left. -/
theorem Token.CutsString.exists_kept
    {file : Bytes} {earlier : List SpacedLexeme} {gap text : Bytes}
    {size : Nat}
    (cuts :
      CutsString
        ((Lexeme.mk .string text).tokenAt
          ((Location.start.past (SpacedLexeme.bytesOf earlier ++ gap)).inFile
            file)) size) :
    ∃ kept,
      size =
          (SpacedLexeme.bytesOf earlier).length +
            (gap.length + (kept + 1)) ∧
        kept ≤ text.length := by
  obtain ⟨_, behindQuote, beforeEnd⟩ := cuts
  simp only [endOffset, Lexeme.lexeme_tokenAt, Lexeme.pos_tokenAt,
    Lexeme.spelling, Location.inFile, Location.offset_past, Location.start,
    List.length_append, List.length_cons, List.length_nil]
    at behindQuote beforeEnd
  refine ⟨size - ((SpacedLexeme.bytesOf earlier).length + gap.length + 1),
    ?_, ?_⟩
  · omega
  · omega

theorem SpacedLexeme.take_bytesOf_string
    (gap : Bytes) {text : Bytes} (later : List SpacedLexeme)
    (trailing : Bytes) {kept : Nat} (inText : kept ≤ text.length) :
    (bytesOf (⟨gap, .string, text⟩ :: later) ++ trailing).take
        (gap.length + (kept + 1)) =
      gap ++ Bytes.quoteMark :: text.take kept := by
  rw [bytesOf_cons, List.append_assoc, List.take_length_add_append,
    List.append_assoc]
  simp only [Lexeme.spelling, List.cons_append, List.append_assoc,
    List.take_succ_cons]
  rw [List.take_append_of_le_length inText]

theorem Cut.ofSource_take_of_cutsString
    (cut : Cut) (file : Bytes) {token : Token} {size : Nat}
    (member : token ∈ SpacedLexeme.tokensFrom file .start cut.sequence)
    (cuts : token.CutsString size) :
    Token.ofSource file (cut.bytes.take size) =
      .error ⟨.unterminatedString, Bytes.quoteMark.toNat, token.pos⟩ := by
  obtain ⟨earlier, ⟨gap, kind, text⟩, later, whole, rfl⟩ :=
    SpacedLexeme.exists_split_of_mem_tokensFrom member
  have string : kind = .string := cuts.1
  subst string
  obtain ⟨kept, rfl, inText⟩ := cuts.exists_kept
  have blank : IsBlankRun gap :=
    cut.gaps_blank ⟨gap, .string, text⟩ (by simp [whole])
  have unclosed : Bytes.quoteMark ∉ text :=
    cut.lexemes_written ⟨gap, .string, text⟩ (by simp [whole])
  have taken :=
    SpacedLexeme.take_bytesOf_string gap later cut.trailing inText
  have fits := cut.fits
  rw [whole] at fits
  -- The source ends behind the gap; there the scan is stopped by the open string.
  have earlierFits := fits.of_append.take gap.length
  rw [SpacedLexeme.bytesOf_cons, List.append_assoc, List.take_left]
    at earlierFits
  have stops :
      StopsScan (Bytes.quoteMark :: text.take kept) .unterminatedString '"' :=
    .unterminated fun member => unclosed (List.mem_of_mem_take member)
  have stopped :=
    Token.ofSource_append_stopsScan (earlierFits.toCut blank) file stops
  rw [Cut.bytes, whole, SpacedLexeme.bytesOf_append, List.append_assoc,
    List.take_length_add_append, taken, ← List.append_assoc]
  exact stopped

namespace Token

variable {file source : Bytes} {tokens : List Token} {size : Nat}

theorem ofSource_take_of_cutsString
    (scanned : ofSource file source = .ok tokens)
    {token : Token} (member : token ∈ tokens) (cuts : token.CutsString size) :
    ofSource file (source.take size) =
      .error ⟨.unterminatedString, Bytes.quoteMark.toNat, token.pos⟩ := by
  obtain ⟨cut, rfl, rfl⟩ := exists_cut_of_ofSource scanned
  exact cut.ofSource_take_of_cutsString file member cuts

theorem ofSource_take_of_cutsBlank
    (scanned : ofSource file source = .ok tokens)
    {before : Bytes} (cuts : CutsBlank source size before)
    (outside : OutsideStrings tokens before.length) :
    ofSource file (source.take size) =
      .error ⟨.unknownCharacter, Text.Utf8.replacement.toNat,
        (Location.start.past before).inFile file⟩ := by
  obtain ⟨cut, sameBytes, rfl⟩ := exists_cut_of_ofSource scanned
  obtain ⟨char, after, blank, whole, behind, short⟩ := cuts
  -- Before the character ends a source of its own.
  cases SpacedLexeme.endsIn_of_fits file .start cut.fits cut.trailing_blank
      before.length with
  | @source part rest taken restBlank fits _ =>
      change cut.bytes.take before.length = _ at taken
      rw [sameBytes, whole, List.take_left] at taken
      have unknown :=
        ofSource_append_stopsScan (fits.toCut restBlank) file
          (stopsScan_part_of_character char (Nat.sub_pos_of_lt behind)
            (Nat.sub_lt_left_of_lt_add (Nat.le_of_lt behind) short))
      have asCut : (fits.toCut restBlank).bytes = before := taken.symm
      have size_eq : size = before.length + (size - before.length) := by
        omega
      have shorter :
          source.take size =
            before ++
              (String.utf8EncodeChar char).take (size - before.length) := by
        rw [whole, size_eq, List.take_length_add_append,
          List.take_append_of_le_length (by omega), Nat.add_sub_cancel_left]
      rw [shorter]
      rw [asCut] at unknown
      exact unknown
  | string member cutsString =>
      obtain ⟨string, behindQuote, beforeEnd⟩ := cutsString
      simp only [Location.start, Nat.zero_add] at behindQuote beforeEnd
      exact absurd ⟨Int.le_of_lt behindQuote, beforeEnd⟩
        (outside _ member string)
  | blank cutsBlank _ =>
      change CutsBlank cut.bytes _ _ at cutsBlank
      rw [sameBytes] at cutsBlank
      exact absurd rfl (cutsBlank.ne_length_of_character whole)

/-- The first bytes of a source end inside a string, or inside a white-space
character between the lexemes, or they are a source with the first of the
lexemes. -/
theorem ofSource_take_cases
    (scanned : ofSource file source = .ok tokens) (size : Nat) :
    (∃ token ∈ tokens, token.CutsString size) ∨
      (∃ before, CutsBlank source size before ∧
        OutsideStrings tokens before.length) ∨
      ∃ part, ofSource file (source.take size) = .ok part ∧
        Lexeme.Begins (part.map lexeme) (tokens.map lexeme) := by
  obtain ⟨cut, rfl, rfl⟩ := exists_cut_of_ofSource scanned
  cases SpacedLexeme.endsIn_of_fits file .start cut.fits cut.trailing_blank
      size with
  | @source part rest taken restBlank fits begins =>
      refine Or.inr (Or.inr
        ⟨SpacedLexeme.tokensFrom file .start part, ?_, ?_⟩)
      · have found := ofSource_cut_bytes file (fits.toCut restBlank)
        rw [Cut.bytes, taken]
        exact found
      · rw [SpacedLexeme.tokensFrom_map_lexeme,
          SpacedLexeme.tokensFrom_map_lexeme]
        exact begins
  | @string token member cuts =>
      simp only [Location.start, Nat.zero_add] at cuts
      exact Or.inl ⟨token, member, cuts⟩
  | @blank before cuts outside =>
      simp only [Location.start, Nat.zero_add] at outside
      exact Or.inr (Or.inl ⟨before, cuts, outside⟩)

end Token

end SexprCalls
