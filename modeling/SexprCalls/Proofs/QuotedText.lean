import SexprCalls.Proofs.CharacterDecoding
import SexprCalls.Text.Quoted

/-!
# A quoted text tells the text

Between its quotation marks a quoted text is a row of escapes, one for each
segment of the text.  `IsEscape` gives the three forms of an escape, and
`unescape?` reads one off the head of a byte string, by the letter behind the
backslash.  What it reads does not depend on what follows, so two texts that are
quoted alike have the same segments and are equal.  No byte of a quoted text is a
control character.
-/

namespace SexprCalls

/-- Where the head of a text tells its first piece, the whole text tells all of
them. -/
theorem Bytes.eq_of_flatMap_eq
    {Piece : Type} {write : Piece → Bytes} {pieces others : List Piece}
    (visible : ∀ piece ∈ pieces, write piece ≠ [])
    (otherVisible : ∀ other ∈ others, write other ≠ [])
    (apart : ∀ piece ∈ pieces, ∀ other ∈ others, ∀ rest otherRest : Bytes,
      write piece ++ rest = write other ++ otherRest → piece = other)
    (same : pieces.flatMap write = others.flatMap write) :
    pieces = others := by
  induction pieces generalizing others with
  | nil =>
      cases others with
      | nil =>
          rfl
      | cons other otherRest =>
          rw [List.flatMap_nil, List.flatMap_cons, List.nil_eq,
            List.append_eq_nil_iff] at same
          exact absurd same.1 (otherVisible other List.mem_cons_self)
  | cons piece rest inductionHypothesis =>
      cases others with
      | nil =>
          rw [List.flatMap_nil, List.flatMap_cons,
            List.append_eq_nil_iff] at same
          exact absurd same.1 (visible piece List.mem_cons_self)
      | cons other otherRest =>
          rw [List.flatMap_cons, List.flatMap_cons] at same
          have first : piece = other :=
            apart piece List.mem_cons_self other List.mem_cons_self _ _ same
          subst first
          rw [inductionHypothesis
            (fun piece member => visible piece (List.mem_cons_of_mem _ member))
            (fun other member =>
              otherVisible other (List.mem_cons_of_mem _ member))
            (fun piece member other isOther =>
              apart piece (List.mem_cons_of_mem _ member)
                other (List.mem_cons_of_mem _ isOther))
            (List.append_cancel_left same)]

/-- No byte of a text is a control character. -/
def Bytes.isGraphic (bytes : Bytes) : Bool :=
  bytes.all fun byte => 0x20 ≤ byte

theorem Bytes.isGraphic_append {first second : Bytes} :
    (first ++ second).isGraphic = true ↔
      first.isGraphic = true ∧ second.isGraphic = true := by
  rw [isGraphic, List.all_append, Bool.and_eq_true]
  rfl

theorem Bytes.isGraphic_cons {first : UInt8} {rest : Bytes} :
    isGraphic (first :: rest) = true ↔ 0x20 ≤ first ∧ rest.isGraphic = true := by
  rw [isGraphic, List.all_cons, Bool.and_eq_true, decide_eq_true_eq]
  rfl

theorem Bytes.newline_not_mem_of_isGraphic
    {bytes : Bytes} (graphic : bytes.isGraphic = true) :
    newline ∉ bytes := by
  intro member
  have shown := List.all_eq_true.mp graphic newline member
  contradiction

namespace Text

open Utf8

/-! ## Segments -/

theorem Utf8.segments_flatMap_bytes (text : Bytes) :
    (segments text).flatMap Segment.bytes = text := by
  fun_induction segments text with
  | case1 =>
      rfl
  | case2 first rest char size decoded inductionHypothesis =>
      obtain ⟨rfl, behind, split⟩ := decode?_eq_some_iff.mp decoded
      obtain ⟨lead, tail, encoded⟩ := exists_encode_cons char
      rw [encoded, List.cons_append, List.cons.injEq] at split
      obtain ⟨rfl, rfl⟩ := split
      rw [List.flatMap_cons, inductionHypothesis, Segment.bytes, encoded,
        List.length_cons, Nat.add_sub_cancel, List.drop_left, List.cons_append]
  | case3 first rest decoded inductionHypothesis =>
      rw [List.flatMap_cons, inductionHypothesis, Segment.bytes,
        List.singleton_append]

/-- A byte below `0x80` is a character. -/
theorem Utf8.le_of_stray_mem_segments
    {text : Bytes} {byte : UInt8} (member : .stray byte ∈ segments text) :
    0x80 ≤ byte.toNat := by
  fun_induction segments text with
  | case1 =>
      exact absurd member List.not_mem_nil
  | case2 first rest char size decoded inductionHypothesis =>
      rw [List.mem_cons] at member
      exact inductionHypothesis (member.resolve_left nofun)
  | case3 first rest decoded inductionHypothesis =>
      rw [List.mem_cons, Segment.stray.injEq] at member
      rcases member with rfl | member
      · refine Nat.le_of_not_lt fun small => ?_
        have ascii : byte < 0x80 := UInt8.lt_iff_toNat_lt.mpr small
        unfold decode? at decoded
        simp only [if_pos ascii] at decoded
        contradiction
      · exact inductionHypothesis member

/-! ## Hexadecimal digits -/

/-- The value of a digit or of one of the letters from `a` to `f`. -/
def digitValue (digit : UInt8) : Nat :=
  if digit.toNat < 0x40 then digit.toNat - 0x30 else digit.toNat - 0x57

/-- The number that hexadecimal digits write, highest first. -/
def hexValue (digits : Bytes) : Nat :=
  (digits.map digitValue).foldl (fun value digit => 16 * value + digit) 0

theorem digitChar_mod_sixteen (number : Nat) :
    (Bytes.ofChars [Nat.digitChar (number % 16)]).map digitValue =
        [number % 16] ∧
      (Bytes.ofChars [Nat.digitChar (number % 16)]).isGraphic = true := by
  have sixteen :
      ∀ digit : Fin 16,
        (Bytes.ofChars [Nat.digitChar digit]).map digitValue = [digit.val] ∧
          (Bytes.ofChars [Nat.digitChar digit]).isGraphic = true := by
    decide
  exact sixteen ⟨number % 16, Nat.mod_lt _ (by decide)⟩

theorem map_digitValue_hexDigits_succ (width number : Nat) :
    (hexDigits (width + 1) number).map digitValue =
      (hexDigits width (number / 16)).map digitValue ++ [number % 16] := by
  rw [hexDigits, List.map_append, (digitChar_mod_sixteen number).1]

@[simp]
theorem length_hexDigits (width number : Nat) :
    (hexDigits width number).length = width := by
  induction width generalizing number with
  | zero =>
      rfl
  | succ width inductionHypothesis =>
      rw [← List.length_map digitValue, map_digitValue_hexDigits_succ,
        List.length_append, List.length_map, inductionHypothesis,
        List.length_singleton]

/-- The digits write the number up to a multiple of a power of sixteen. -/
theorem hexValue_hexDigits (width number : Nat) :
    hexValue (hexDigits width number) = number % Nat.pow 16 width := by
  induction width generalizing number with
  | zero =>
      exact (Nat.mod_one number).symm
  | succ width inductionHypothesis =>
      have upper := inductionHypothesis (number / 16)
      have power : Nat.pow 16 (width + 1) = 16 * Nat.pow 16 width :=
        Nat.mul_comm (Nat.pow 16 width) 16
      rw [hexValue] at upper ⊢
      rw [map_digitValue_hexDigits_succ, List.foldl_append, upper, power,
        Nat.mod_mul, Nat.add_comm]
      rfl

theorem isGraphic_hexDigits (width number : Nat) :
    (hexDigits width number).isGraphic = true := by
  induction width generalizing number with
  | zero =>
      rfl
  | succ width inductionHypothesis =>
      rw [hexDigits, Bytes.isGraphic_append]
      exact ⟨inductionHypothesis _, (digitChar_mod_sixteen number).2⟩

/-! ## Reading an escape -/

def backslash : UInt8 := 0x5C

/-- The number of hexadecimal digits behind a letter. -/
def hexWidth? (letter : UInt8) : Option Nat :=
  match letter.toNat with
  | 0x78 => some 2
  | 0x75 => some 4
  | 0x55 => some 8
  | _ => none

/-- The code that a letter alone stands for behind a backslash. -/
def escapedCode (letter : UInt8) : Nat :=
  match letter.toNat with
  | 0x61 => 0x07
  | 0x62 => 0x08
  | 0x74 => 0x09
  | 0x6E => 0x0A
  | 0x76 => 0x0B
  | 0x66 => 0x0C
  | 0x72 => 0x0D
  | code => code

/-- What a number of so many hexadecimal digits stands for: two digits give a
byte, which is a character below `0x80`, and more give a character. -/
def Utf8.Segment.ofCode (width code : Nat) : Segment :=
  if width = 2 ∧ 0x80 ≤ code then
    .stray (UInt8.ofNat code)
  else
    .char (Char.ofNat code)

/-- The segment that the bytes behind a backslash show. -/
def escaped? : Bytes → Option Segment
  | [] => none
  | letter :: digits =>
      match hexWidth? letter with
      | some width => some (.ofCode width (hexValue (digits.take width)))
      | none => some (.char (Char.ofNat (escapedCode letter)))

/-- The segment that the head of a byte string shows between two quotation
marks. -/
def unescape? : Bytes → Option Segment
  | [] => none
  | first :: rest =>
      if first = backslash then
        escaped? rest
      else
        (decode? (first :: rest)).map fun read => .char read.1

theorem unescape?_backslash (rest : Bytes) :
    unescape? (backslash :: rest) = escaped? rest := by
  rw [unescape?, if_pos rfl]

theorem unescape?_encode
    {char : Char} (plain : char ≠ '\\') (rest : Bytes) :
    unescape? (String.utf8EncodeChar char ++ rest) = some (.char char) := by
  have spells := spells_encode char
  obtain ⟨first, tail, encoded⟩ := exists_encode_cons char
  have decoded := decode?_of_spells spells rest
  rw [encoded] at spells decoded ⊢
  have notBackslash : first ≠ backslash := by
    rintro rfl
    rcases spells.head_cases with ⟨_, same⟩ | ⟨_, high⟩
    · exact plain (Char.toNat_inj.mp same.symm)
    · exact absurd high (by decide)
  rw [List.cons_append] at decoded ⊢
  rw [unescape?, if_neg notBackslash, decoded]
  rfl

/-! ## The forms of an escape -/

theorem le_of_isPrintable {char : Char} (printable : isPrintable char = true) :
    0x20 ≤ char.toNat := by
  rw [isPrintable] at printable
  split at printable
  · exact of_decide_eq_true printable
  · omega

theorem isGraphic_encode {char : Char} (large : 0x20 ≤ char.toNat) :
    Bytes.isGraphic (String.utf8EncodeChar char) = true := by
  rw [Bytes.isGraphic, List.all_eq_true]
  intro byte member
  rw [decide_eq_true_eq, UInt8.le_iff_toNat_le]
  refine Nat.le_of_not_lt fun small => ?_
  have ascii : byte.toNat < 0x80 := Nat.lt_trans small (by decide)
  rw [(spells_encode char).toNat_eq_of_mem member ascii] at small
  exact absurd large (Nat.not_le_of_lt small)

/-- How a segment is written between quotation marks: a character as itself, a
backslash with a letter, or a backslash with a letter and the digits of a code. -/
inductive IsEscape : Segment → Bytes → Prop
  | plain {char : Char} :
      char ≠ '\\' → 0x20 ≤ char.toNat →
      IsEscape (.char char) (String.utf8EncodeChar char)
  | letter {byte : UInt8} :
      0x20 ≤ byte → hexWidth? byte = none →
      IsEscape (.char (Char.ofNat (escapedCode byte))) [backslash, byte]
  | digits {byte : UInt8} {width code : Nat} :
      0x20 ≤ byte → hexWidth? byte = some width → code < Nat.pow 16 width →
      IsEscape (.ofCode width code)
        (backslash :: byte :: hexDigits width code)

namespace IsEscape

variable {segment : Segment} {bytes : Bytes}

theorem ne_nil (escape : IsEscape segment bytes) : bytes ≠ [] := by
  cases escape with
  | plain =>
      exact (spells_encode _).ne_nil
  | letter | digits =>
      exact List.cons_ne_nil _ _

/-- An escape shows its segment whatever follows it. -/
theorem unescape?_append (escape : IsEscape segment bytes) (rest : Bytes) :
    unescape? (bytes ++ rest) = some segment := by
  cases escape with
  | plain notBackslash =>
      exact unescape?_encode notBackslash rest
  | letter _ alone =>
      rw [List.cons_append, List.singleton_append, unescape?_backslash,
        escaped?, alone]
  | digits _ wide fits =>
      rw [List.cons_append, List.cons_append, unescape?_backslash, escaped?,
        wide]
      simp only [List.take_left' (length_hexDigits _ _), hexValue_hexDigits,
        Nat.mod_eq_of_lt fits]

theorem isGraphic (escape : IsEscape segment bytes) :
    bytes.isGraphic = true := by
  cases escape with
  | plain _ large =>
      exact isGraphic_encode large
  | letter large =>
      exact Bytes.isGraphic_cons.mpr
        ⟨by decide, Bytes.isGraphic_cons.mpr ⟨large, rfl⟩⟩
  | digits large =>
      exact Bytes.isGraphic_cons.mpr
        ⟨by decide,
          Bytes.isGraphic_cons.mpr ⟨large, isGraphic_hexDigits _ _⟩⟩

end IsEscape

theorem shortEscape?_eq_some
    {char letter : Char} (short : shortEscape? char = some letter) :
    ∃ byte : UInt8,
      Bytes.ofChars ['\\', letter] = [backslash, byte] ∧
        0x20 ≤ byte ∧ hexWidth? byte = none ∧
          escapedCode byte = char.toNat := by
  rw [shortEscape?] at short
  split at short
  case h_8 =>
    contradiction
  all_goals
    rename_i code
    cases short
    rw [code]
    exact ⟨_, rfl, by decide, rfl, rfl⟩

theorem isEscape_hexEscape
    {letter : Char} {byte : UInt8} {width code : Nat}
    (spelled : Bytes.ofChars ['\\', letter] = [backslash, byte])
    (large : 0x20 ≤ byte) (wide : hexWidth? byte = some width)
    (fits : code < Nat.pow 16 width) :
    IsEscape (.ofCode width code) (hexEscape letter width code) := by
  rw [hexEscape, spelled]
  exact .digits large wide fits

theorem Utf8.Segment.ofCode_toNat
    {char : Char} {width : Nat} (single : width = 2 → char.toNat < 0x80) :
    ofCode width char.toNat = .char char := by
  rw [ofCode, if_neg (by omega), Char.ofNat_toNat]

theorem isEscape_quotationMark :
    IsEscape (.char '"') (Bytes.ofChars ['\\', '"']) :=
  @IsEscape.letter 0x22 (by decide) rfl

theorem isEscape_apostrophe :
    IsEscape (.char apostrophe) (Bytes.ofChars ['\\', apostrophe]) :=
  @IsEscape.letter 0x27 (by decide) rfl

/-- Between two marks that can be escaped themselves, every character has an
escape. -/
theorem isEscape_escapeChar
    {mark : Char} (escaped : IsEscape (.char mark) (Bytes.ofChars ['\\', mark]))
    (char : Char) :
    IsEscape (.char char) (escapeChar mark char) := by
  rw [escapeChar]
  split
  case isTrue special =>
    have slash :
        IsEscape (.char (Char.ofNat (escapedCode backslash)))
          [backslash, backslash] :=
      .letter (by decide) rfl
    rcases special with rfl | rfl
    · exact escaped
    · exact slash
  case isFalse ordinary =>
    split
    case isTrue printable =>
      rw [Bytes.ofChars, List.flatMap_singleton]
      exact .plain (fun same => ordinary (.inr same))
        (le_of_isPrintable printable)
    case isFalse =>
      split
      case h_1 letter short =>
        obtain ⟨byte, spelled, large, alone, code⟩ := shortEscape?_eq_some short
        rw [spelled, ← Char.ofNat_toNat char, ← code]
        exact .letter large alone
      case h_2 =>
        -- The number of digits grows with the code of the character.
        split
        case isTrue control =>
          have small : char.toNat < 0x80 := by omega
          rw [← Segment.ofCode_toNat fun _ => small]
          exact isEscape_hexEscape rfl (by decide) rfl
            (Nat.lt_trans small (by decide))
        case isFalse =>
          split
          case isTrue basic =>
            rw [← Segment.ofCode_toNat (show 4 = 2 → _ by omega)]
            exact isEscape_hexEscape rfl (by decide) rfl basic
          case isFalse =>
            rw [← Segment.ofCode_toNat (show 8 = 2 → _ by omega)]
            exact isEscape_hexEscape rfl (by decide) rfl
              (Nat.lt_trans (toNat_lt char) (by decide))

theorem isEscape_escapeSegment
    {text : Bytes} {segment : Segment} (member : segment ∈ segments text) :
    IsEscape segment (escapeSegment '"' segment) := by
  cases segment with
  | char char =>
      exact isEscape_escapeChar isEscape_quotationMark char
  | stray byte =>
      have stray : Segment.ofCode 2 byte.toNat = .stray byte := by
        rw [Segment.ofCode, if_pos ⟨rfl, le_of_stray_mem_segments member⟩,
          UInt8.ofNat_toNat]
      rw [escapeSegment, ← stray]
      exact isEscape_hexEscape rfl (by decide) rfl (UInt8.toNat_lt byte)

/-! ## Quoted texts -/

theorem quoted_injective {text other : Bytes} (same : quoted text = quoted other) :
    text = other := by
  rw [quoted, quoted, List.append_assoc, List.append_assoc] at same
  have inside := List.append_cancel_right (List.append_cancel_left same)
  have segmentsSame : segments text = segments other := by
    refine Bytes.eq_of_flatMap_eq
      (fun segment member => (isEscape_escapeSegment member).ne_nil)
      (fun segment member => (isEscape_escapeSegment member).ne_nil) ?_ inside
    intro segment member otherSegment isOther rest otherRest shown
    have read := congrArg unescape? shown
    rw [(isEscape_escapeSegment member).unescape?_append,
      (isEscape_escapeSegment isOther).unescape?_append] at read
    exact Option.some.inj read
  rw [← segments_flatMap_bytes text, segmentsSame, segments_flatMap_bytes]

theorem isGraphic_quoted (text : Bytes) :
    (quoted text).isGraphic = true := by
  rw [quoted, Bytes.isGraphic_append, Bytes.isGraphic_append]
  refine ⟨⟨rfl, ?_⟩, rfl⟩
  rw [Bytes.isGraphic, List.all_flatMap, List.all_eq_true]
  intro segment member
  exact (isEscape_escapeSegment member).isGraphic

/-! ## Quoted characters -/

theorem charOfCode_toNat (char : Char) : charOfCode char.toNat = char := by
  have valid : 0 ≤ (char.toNat : Int) ∧ (char.toNat : Int).toNat.isValidChar :=
    ⟨Int.natCast_nonneg _, char.valid⟩
  rw [charOfCode, if_pos valid]
  exact Char.ofNat_toNat char

theorem quotedChar_injective
    {char other : Char}
    (same : quotedChar char.toNat = quotedChar other.toNat) : char = other := by
  have escape := isEscape_escapeChar isEscape_apostrophe
  rw [quotedChar, quotedChar, charOfCode_toNat, charOfCode_toNat,
    List.append_assoc, List.append_assoc] at same
  have read := congrArg unescape? (List.append_cancel_left same)
  rw [(escape char).unescape?_append, (escape other).unescape?_append] at read
  exact Segment.char.inj (Option.some.inj read)

end Text
end SexprCalls
