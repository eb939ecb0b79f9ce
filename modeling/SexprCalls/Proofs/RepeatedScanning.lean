import SexprCalls.Proofs.LexicalErrors

/-!
# Scanning again

A scan leaves its reader at the end of the source, or before a character that it
cannot read.  Either way the reader has come to rest: a further scan finds nothing
more to read, or is stopped by the same character, and leaves the reader where it
is.  So all results but the first are alike, however often a source is scanned.
-/

namespace SexprCalls

namespace Scanner

/-- The reader that several scans, one after the other, leave. -/
def after : (times : Nat) → Scanner → Scanner
  | 0, scanner => scanner
  | times + 1, scanner => after times scanner.scan.2

/-- A reader of a source stands at an offset: the bytes before it have been read,
those from it on have not. -/
structure StandsAt (scanner : Scanner) (source : Bytes) (offset : Nat) :
    Prop where
  inside : offset ≤ source.length
  reached : scanner.here = Location.start.past (source.take offset)
  unread : scanner.rest = source.drop offset

/-- A further scan gives the result and leaves the reader as it is. -/
def Rests (scanner : Scanner) (result : Except LexError (List Token)) : Prop :=
  scanner.scan = (result, scanner)

/-! ## Several scans -/

theorem scanRepeatedly_succ (times : Nat) (scanner : Scanner) :
    scanRepeatedly (times + 1) scanner =
      scanner.scan.1 :: scanRepeatedly times scanner.scan.2 :=
  rfl

theorem scanRepeatedly_eq_map (times : Nat) (scanner : Scanner) :
    scanRepeatedly times scanner =
      (List.range times).map fun index => (scanner.after index).scan.1 := by
  induction times generalizing scanner with
  | zero =>
      rfl
  | succ times inductionHypothesis =>
      rw [scanRepeatedly_succ, inductionHypothesis, List.range_succ_eq_map,
        List.map_cons, List.map_map]
      rfl

namespace Rests

variable {scanner : Scanner} {result : Except LexError (List Token)}

theorem after_eq (rests : scanner.Rests result) (times : Nat) :
    scanner.after times = scanner := by
  induction times with
  | zero =>
      rfl
  | succ times inductionHypothesis =>
      rw [after, rests]
      exact inductionHypothesis

theorem scanRepeatedly_eq (rests : scanner.Rests result) (times : Nat) :
    scanRepeatedly times scanner = List.replicate times result := by
  induction times with
  | zero =>
      rfl
  | succ times inductionHypothesis =>
      rw [scanRepeatedly_succ, rests, inductionHypothesis,
        List.replicate_succ]

end Rests

/-- A reader that one scan brings to rest gives the same result from then on. -/
theorem tail_scanRepeatedly
    {scanner : Scanner} {later : Except LexError (List Token)}
    (rests : scanner.scan.2.Rests later) (times : Nat) :
    (scanRepeatedly (times + 1) scanner).tail = List.replicate times later := by
  rw [scanRepeatedly_succ, List.tail_cons, rests.scanRepeatedly_eq]

theorem after_of_pos
    {scanner : Scanner} {later : Except LexError (List Token)}
    (rests : scanner.scan.2.Rests later) {calls : Nat} (some : 0 < calls) :
    scanner.after calls = scanner.scan.2 := by
  obtain ⟨times, rfl⟩ := Nat.exists_eq_add_one.mpr some
  exact rests.after_eq times

/-! ## Where one scan leaves the reader -/

theorem rests_at_end (file : Bytes) (here : Location) :
    Rests ⟨file, here, []⟩ (.ok []) := by
  rw [Rests, scan, scanOnto]
  rfl

theorem standsAt_end (file source : Bytes) :
    StandsAt ⟨file, Location.start.past source, []⟩ source source.length where
  inside := Nat.le_refl _
  reached := by rw [List.take_length]
  unread := by rw [List.drop_length]

variable {file source : Bytes}

theorem scan_left_of_ok
    {tokens : List Token} (scanned : Token.ofSource file source = .ok tokens) :
    (ofSource file source).scan.2 =
      ⟨file, Location.start.past source, []⟩ := by
  obtain ⟨cut, rfl, _⟩ := exists_cut_of_ofSource scanned
  rw [scan_cut]

theorem scan_left_of_error
    {error : LexError} (failed : Token.ofSource file source = .error error) :
    ∃ (offset : Nat) (char : Char),
      error =
          ⟨error.cause, char.toNat,
            (Location.start.past (source.take offset)).inFile file⟩ ∧
        StopsScan (source.drop offset) error.cause char ∧
        (ofSource file source).scan.2 =
          stoppedAt file (Location.start.past (source.take offset))
            (source.drop offset) error.cause := by
  obtain ⟨offset, char, _, _, ⟨tokens, scanned⟩, stops⟩ :=
    Token.exists_stopsScan_of_ofSource failed
  obtain ⟨cut, sameBytes, _⟩ := exists_cut_of_ofSource scanned
  have run := scan_append cut file stops
  rw [sameBytes, List.take_append_drop] at run
  have sameError := failed.symm.trans (congrArg Prod.fst run)
  refine ⟨offset, char, Except.error.inj sameError, stops, ?_⟩
  rw [run]

/-- Behind the last token and behind a string without an end, nothing is left. -/
theorem scan_left_of_read_out
    (readOut :
      (∃ tokens, Token.ofSource file source = .ok tokens) ∨
        ∃ error, Token.ofSource file source = .error error ∧
          error.cause = .unterminatedString) :
    (ofSource file source).scan.2 =
      ⟨file, Location.start.past source, []⟩ := by
  rcases readOut with ⟨tokens, scanned⟩ | ⟨error, failed, unterminated⟩
  · exact scan_left_of_ok scanned
  · obtain ⟨offset, char, _, _, left⟩ := scan_left_of_error failed
    rw [left, unterminated, stoppedAt, if_neg (by decide),
      ← Location.past_append, List.take_append_drop]

theorem rests_of_unknown
    {bytes : Bytes} {char : Char}
    (stops : StopsScan bytes .unknownCharacter char)
    (file : Bytes) (here : Location) :
    Rests ⟨file, here, bytes⟩
      (.error ⟨.unknownCharacter, char.toNat, here.inFile file⟩) :=
  scanOnto_of_stopsScan stops [] file here

/-- However often a reader scans its source, the first result is that of a fresh
scan.  After a success and after a string without an end the reader stands at the
end and finds no more tokens.  After an unknown character it stands at the first
byte of that character and reports the same error again. -/
theorem scanRepeatedly_settles (file source : Bytes) (times : Nat) :
    (scanRepeatedly (times + 1) (ofSource file source) =
      (List.range (times + 1)).map fun index =>
        ((ofSource file source).after index).scan.1) ∧
    (scanRepeatedly (times + 1) (ofSource file source)).head? =
      some (Token.ofSource file source) ∧
    ((∃ tokens, Token.ofSource file source = .ok tokens) ∨
        (∃ error, Token.ofSource file source = .error error ∧
          error.cause = .unterminatedString) →
      (scanRepeatedly (times + 1) (ofSource file source)).tail =
          List.replicate times (.ok []) ∧
        ∀ calls, 0 < calls →
          ((ofSource file source).after calls).StandsAt source
            source.length) ∧
    (∀ error, Token.ofSource file source = .error error →
      error.cause = .unknownCharacter →
        (scanRepeatedly (times + 1) (ofSource file source)).tail =
            List.replicate times (.error error) ∧
          ∃ (offset : Nat) (char : Char) (size : Nat),
            error.pos.offset = offset ∧ error.char = char.toNat ∧
              Text.Utf8.Reads (source.drop offset) char size ∧
              offset < source.length ∧
              ∀ calls, 0 < calls →
                ((ofSource file source).after calls).StandsAt source
                  offset) ∧
    (∀ error, Token.ofSource file source = .error error →
      error.cause = .unterminatedString ∨
        error.cause = .unknownCharacter) := by
  refine ⟨scanRepeatedly_eq_map _ _, rfl, fun readOut => ?_,
    fun error failed unknown => ?_, fun error failed => ?_⟩
  · have left := scan_left_of_read_out readOut
    have rests := rests_at_end file (Location.start.past source)
    rw [← left] at rests
    refine ⟨tail_scanRepeatedly rests times, fun calls some => ?_⟩
    rw [after_of_pos rests some, left]
    exact standsAt_end file source
  · obtain ⟨offset, char, same, stops, left⟩ := scan_left_of_error failed
    rw [unknown] at same stops left
    rw [stoppedAt, if_pos rfl] at left
    have rests :=
      rests_of_unknown stops file (Location.start.past (source.take offset))
    rw [← same, ← left] at rests
    have inside := stops.offset_lt
    obtain ⟨⟨size, reads⟩, _⟩ := stops.of_unknown
    refine ⟨tail_scanRepeatedly rests times, offset, char, size, ?_, ?_, reads,
      inside, fun calls some => ?_⟩
    · rw [same, Location.offset_inFile_past_start,
        List.length_take_of_le (Nat.le_of_lt inside)]
    · rw [same]
    · rw [after_of_pos rests some, left]
      exact ⟨Nat.le_of_lt inside, rfl, rfl⟩
  · obtain ⟨offset, char, _, stops, _⟩ := scan_left_of_error failed
    rcases stops.cause_cases with unknown | ⟨unterminated, _⟩
    · exact Or.inr unknown
    · exact Or.inl unterminated

end Scanner
end SexprCalls
