import SexprCalls.Proofs.SourcePlaces
import SexprCalls.Proofs.TruncatedLexemes

/-!
# The positions of tokens and of lexical errors

A scan keeps its place while it goes from piece to piece.  The position that it gives
to a token, or to the error at which it stops, is the one that can be counted out from
the bytes in front: the newlines before it, and the bytes behind the last of these.  It
is also the one that is found in the table of the offsets at which the lines of the
whole source start.  Line and column grow from token to token and tell the offset.
-/

namespace SexprCalls

namespace Position

/-- The position of an offset, counted out from the bytes in front of it. -/
def ofOffset (file source : Bytes) (offset : Nat) : Position where
  file := file
  offset := offset
  line := (1 + (source.take offset).count Bytes.newline : Nat)
  column := (1 + (Bytes.lastLine (source.take offset)).length : Nat)

/-- The order of reading: by line, and on one line by column. -/
def ReadsBefore (first second : Position) : Prop :=
  first.line < second.line ∨
    first.line = second.line ∧ first.column < second.column

instance (first second : Position) : Decidable (first.ReadsBefore second) :=
  inferInstanceAs (Decidable (_ ∨ _))

/-- The position of an offset by a table of line starts: the line is the last one that
starts at the offset or before it. -/
def ofTable (file : Bytes) (lineStarts : List Nat) (offset : Nat) : Position :=
  let reached := lineStarts.filter (· ≤ offset)
  { file := file
    offset := offset
    line := reached.length
    column := (offset - reached.getLastD 0 + 1 : Nat) }

end Position

namespace Bytes

/-- The offsets behind the newlines of some bytes that start at an offset. -/
def startsBehindNewlines (offset : Nat) : Bytes → List Nat
  | [] => []
  | byte :: rest =>
      if byte = newline then
        (offset + 1) :: startsBehindNewlines (offset + 1) rest
      else
        startsBehindNewlines (offset + 1) rest

/-- The offsets at which the lines of a source start. -/
def lineStarts (source : Bytes) : List Nat :=
  0 :: startsBehindNewlines 0 source

end Bytes

/-! ## Counting out a position -/

theorem Location.inFile_past_start (file before rest : Bytes) :
    (start.past before).inFile file =
      .ofOffset file (before ++ rest) before.length := by
  simp only [inFile, Position.ofOffset, offset_past, line_past_start,
    column_past_start, List.take_left]
  simp [start]

namespace Position

variable {file source : Bytes} {first second : Nat}

/-- Of two offsets in a source, the smaller one reads before the other. -/
theorem readsBefore_ofOffset
    (order : first < second) (inside : second ≤ source.length) :
    (ofOffset file source first).ReadsBefore (ofOffset file source second) := by
  obtain ⟨between, split⟩ : source.take first <+: source.take second :=
    List.take_prefix_take_left (Nat.le_of_lt order)
  have lengths := congrArg List.length split
  rw [List.length_append, List.length_take, List.length_take] at lengths
  simp only [ReadsBefore, ofOffset, ← split, List.count_append]
  by_cases broken : Bytes.newline ∈ between
  · have positive := List.count_pos_iff.mpr broken
    omega
  · rw [Bytes.lastLine_append_of_not_mem _ broken, List.length_append,
      List.count_eq_zero_of_not_mem broken]
    omega

/-- Line and column tell the offset. -/
theorem offset_eq_of_line_column
    (firstInside : first ≤ source.length) (secondInside : second ≤ source.length)
    (sameLine :
      (ofOffset file source first).line = (ofOffset file source second).line)
    (sameColumn :
      (ofOffset file source first).column =
        (ofOffset file source second).column) :
    first = second := by
  by_contra different
  rcases Nat.lt_or_gt_of_ne different with less | greater
  · have reads :
        (ofOffset file source first).ReadsBefore
          (ofOffset file source second) :=
      readsBefore_ofOffset less secondInside
    unfold ReadsBefore at reads
    omega
  · have reads :
        (ofOffset file source second).ReadsBefore
          (ofOffset file source first) :=
      readsBefore_ofOffset greater firstInside
    unfold ReadsBefore at reads
    omega

end Position

/-! ## The table of line starts -/

namespace Bytes

theorem startsBehindNewlines_append (offset : Nat) (first second : Bytes) :
    startsBehindNewlines offset (first ++ second) =
      startsBehindNewlines offset first ++
        startsBehindNewlines (offset + first.length) second := by
  induction first generalizing offset with
  | nil =>
      rfl
  | cons byte rest inductionHypothesis =>
      have place : offset + 1 + rest.length = offset + (rest.length + 1) := by
        omega
      by_cases ends : byte = newline <;>
        simp [startsBehindNewlines, ends, inductionHypothesis, place]

theorem mem_startsBehindNewlines
    {offset place : Nat} {bytes : Bytes}
    (member : place ∈ startsBehindNewlines offset bytes) :
    offset < place ∧ place ≤ offset + bytes.length := by
  induction bytes generalizing offset with
  | nil =>
      cases member
  | cons byte rest inductionHypothesis =>
      rw [startsBehindNewlines] at member
      rw [List.length_cons]
      split at member
      · rcases List.mem_cons.mp member with rfl | later
        · omega
        · have bounds := inductionHypothesis later
          omega
      · have bounds := inductionHypothesis member
        omega

/-- Up to an offset the table lists the line starts of the bytes in front of it. -/
theorem filter_le_lineStarts (before rest : Bytes) :
    (lineStarts (before ++ rest)).filter (· ≤ before.length) =
      lineStarts before := by
  have reached :
      (startsBehindNewlines 0 before).filter (· ≤ before.length) =
        startsBehindNewlines 0 before := by
    rw [List.filter_eq_self]
    intro place member
    have bounds := mem_startsBehindNewlines member
    simp only [decide_eq_true_eq]
    omega
  have behind :
      (startsBehindNewlines (0 + before.length) rest).filter
          (· ≤ before.length) =
        [] := by
    rw [List.filter_eq_nil_iff]
    intro place member
    have bounds := mem_startsBehindNewlines member
    simp only [decide_eq_true_eq]
    omega
  rw [lineStarts, startsBehindNewlines_append, List.filter_cons_of_pos (by simp),
    List.filter_append, reached, behind, List.append_nil]
  rfl

theorem lineStarts_concat (bytes : Bytes) (byte : UInt8) :
    lineStarts (bytes ++ [byte]) =
      lineStarts bytes ++ if byte = newline then [bytes.length + 1] else [] := by
  rw [lineStarts, startsBehindNewlines_append, Nat.zero_add]
  by_cases ends : byte = newline <;>
    simp [startsBehindNewlines, ends, lineStarts]

theorem length_lineStarts (bytes : Bytes) :
    (lineStarts bytes).length = 1 + bytes.count newline := by
  induction bytes using List.reverseRecOn with
  | nil =>
      rfl
  | append_singleton bytes byte inductionHypothesis =>
      rw [lineStarts_concat, List.length_append, inductionHypothesis,
        List.count_append, List.count_singleton]
      by_cases ends : byte = newline
      · simp only [ends, if_true, List.length_singleton, beq_self_eq_true]
        omega
      · simp [ends]

/-- The last line of some bytes stands behind the last line start. -/
theorem getLastD_lineStarts (bytes : Bytes) :
    (lineStarts bytes).getLastD 0 + (lastLine bytes).length = bytes.length := by
  induction bytes using List.reverseRecOn with
  | nil =>
      rfl
  | append_singleton bytes byte inductionHypothesis =>
      rw [lineStarts_concat]
      by_cases ends : byte = newline
      · rw [if_pos ends, ends, lastLine_concat_newline]
        simp
      · rw [if_neg ends, lastLine_concat ends, List.append_nil,
          List.length_append, List.length_append]
        omega

end Bytes

/-- The table of line starts gives the position that is counted out. -/
theorem Position.ofTable_lineStarts
    (file : Bytes) {source : Bytes} {offset : Nat}
    (inside : offset ≤ source.length) :
    ofTable file source.lineStarts offset = ofOffset file source offset := by
  have split := List.take_append_drop offset source
  have size : (source.take offset).length = offset :=
    List.length_take_of_le inside
  have reached :=
    Bytes.filter_le_lineStarts (source.take offset) (source.drop offset)
  rw [split, size] at reached
  have last := Bytes.getLastD_lineStarts (source.take offset)
  rw [size] at last
  have column :
      offset - (Bytes.lineStarts (source.take offset)).getLastD 0 + 1 =
        1 + (Bytes.lastLine (source.take offset)).length := by
    omega
  simp only [ofTable, ofOffset, reached, Bytes.length_lineStarts, column]

/-! ## Tokens and errors -/

namespace Token

variable {file source : Bytes}

/-- A token stands at the offset of its spelling. -/
theorem exists_offset_of_mem
    {tokens : List Token} (scanned : ofSource file source = .ok tokens)
    {token : Token} (member : token ∈ tokens) :
    ∃ offset, offset < source.length ∧
      token.pos = .ofOffset file source offset ∧
      token.lexeme.spelling <+: source.drop offset := by
  obtain ⟨cut, rfl, rfl⟩ := exists_cut_of_ofSource scanned
  obtain ⟨earlier, spaced, later, sequence, rfl⟩ :=
    SpacedLexeme.exists_split_of_mem_tokensFrom member
  have split :
      cut.bytes =
        (SpacedLexeme.bytesOf earlier ++ spaced.gap) ++
          (spaced.lexeme.spelling ++
            (SpacedLexeme.bytesOf later ++ cut.trailing)) := by
    rw [Cut.bytes, sequence, SpacedLexeme.bytesOf_append,
      SpacedLexeme.bytesOf_cons]
    simp only [List.append_assoc]
  have nonempty : spaced.lexeme.spelling ≠ [] := by
    apply Lexeme.spelling_ne_nil
    apply cut.lexemes_written
    rw [sequence]
    exact List.mem_append_right earlier List.mem_cons_self
  refine ⟨(SpacedLexeme.bytesOf earlier ++ spaced.gap).length, ?_, ?_, ?_⟩
  · have positive := List.length_pos_of_ne_nil nonempty
    rw [split]
    simp only [List.length_append]
    omega
  · rw [split]
    exact Location.inFile_past_start file _ _
  · rw [split, List.drop_left]
    exact List.prefix_append _ _

/-- A lexical error stands at the offset of what stops the scan. -/
theorem exists_offset_of_error
    {error : LexError} (failed : ofSource file source = .error error) :
    ∃ (offset : Nat) (char : Char), offset < source.length ∧
      error.pos = .ofOffset file source offset ∧
      error.char = char.toNat ∧
      (∃ tokens, ofSource file (source.take offset) = .ok tokens) ∧
      StopsScan (source.drop offset) error.cause char := by
  rcases exists_cut_or_stopsScan source with
    ⟨cut, rfl⟩ | ⟨cut, bytes, cause, char, rfl, stops⟩
  · rw [ofSource_cut_bytes] at failed
    cases failed
  · rw [ofSource_append_stopsScan cut file stops] at failed
    cases failed
    have positive := List.length_pos_of_ne_nil stops.ne_nil
    refine ⟨cut.bytes.length, char, ?_, ?_, rfl, ?_, ?_⟩
    · rw [List.length_append]
      omega
    · exact Location.inFile_past_start file cut.bytes bytes
    · rw [List.take_left]
      exact ⟨_, ofSource_cut_bytes file cut⟩
    · rw [List.drop_left]
      exact stops

theorem pairwise_readsBefore
    {tokens : List Token} (scanned : ofSource file source = .ok tokens) :
    tokens.Pairwise fun earlier later =>
      earlier.pos.ReadsBefore later.pos := by
  obtain ⟨cut, _, sameTokens⟩ := exists_cut_of_ofSource scanned
  have apart := SpacedLexeme.tokensFrom_pairwise file .start cut.sequence
  rw [← sameTokens] at apart
  apply apart.imp_of_mem
  intro earlier later isEarlier isLater ends
  obtain ⟨first, _, firstPlace, _⟩ := exists_offset_of_mem scanned isEarlier
  obtain ⟨second, inside, secondPlace, _⟩ := exists_offset_of_mem scanned isLater
  have spelled : earlier.pos.offset < earlier.endOffset := by
    rw [sameTokens] at isEarlier
    exact SpacedLexeme.offset_lt_endOffset_of_mem_tokensFrom
      cut.lexemes_written isEarlier
  rw [firstPlace] at spelled ⊢
  rw [secondPlace] at ends ⊢
  apply Position.readsBefore_ofOffset _ (Nat.le_of_lt inside)
  simp only [Position.ofOffset] at spelled ends
  omega

/-- Every token of a source, and the error at which its scan stops, has the position
that the bytes in front of it give: that of the first byte of its lexeme, or of what
stops the scan.  The table of line starts gives the same positions.  From token to
token these come later in the order of reading, so that line and column tell the
offset. -/
theorem ofSource_positions (file source : Bytes) :
    (∀ tokens, ofSource file source = .ok tokens →
      (∃ cut : Cut, cut.bytes = source ∧
        tokens.map Token.placed = cut.placed) ∧
      (∀ token ∈ tokens, ∃ offset, offset < source.length ∧
        token.pos = .ofOffset file source offset ∧
        token.lexeme.spelling <+: source.drop offset) ∧
      (tokens.Pairwise fun earlier later =>
        earlier.pos.ReadsBefore later.pos) ∧
      ∀ first ∈ tokens, ∀ second ∈ tokens,
        first.pos.line = second.pos.line →
        first.pos.column = second.pos.column →
        first.pos.offset = second.pos.offset) ∧
    (∀ error, ofSource file source = .error error →
      ∃ (offset : Nat) (char : Char), offset < source.length ∧
        error.pos = .ofOffset file source offset ∧
        error.char = char.toNat ∧
        (∃ tokens, ofSource file (source.take offset) = .ok tokens) ∧
        StopsScan (source.drop offset) error.cause char) ∧
    (∀ offset < source.length,
      Position.ofTable file source.lineStarts offset =
        .ofOffset file source offset) := by
  refine ⟨fun tokens scanned => ⟨?_, ?_, ?_, ?_⟩, ?_, ?_⟩
  · obtain ⟨cut, sameBytes, rfl⟩ := exists_cut_of_ofSource scanned
    exact ⟨cut, sameBytes,
      SpacedLexeme.tokensFrom_map_placed file .start cut.sequence⟩
  · intro token member
    exact exists_offset_of_mem scanned member
  · exact pairwise_readsBefore scanned
  · intro first firstMember second secondMember sameLine sameColumn
    obtain ⟨firstOffset, firstInside, firstPlace, _⟩ :=
      exists_offset_of_mem scanned firstMember
    obtain ⟨secondOffset, secondInside, secondPlace, _⟩ :=
      exists_offset_of_mem scanned secondMember
    rw [firstPlace, secondPlace] at sameLine sameColumn ⊢
    rw [Position.offset_eq_of_line_column (Nat.le_of_lt firstInside)
      (Nat.le_of_lt secondInside) sameLine sameColumn]
  · intro error failed
    exact exists_offset_of_error failed
  · intro offset inside
    exact Position.ofTable_lineStarts file (Nat.le_of_lt inside)

end Token

end SexprCalls
