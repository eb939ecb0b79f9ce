import SexprCalls.Bytes

/-!
# UTF-8

Reading characters off the head of a byte string.  Only the shortest form of a
Unicode scalar value is well-formed; where none stands, a single byte is taken
alone.
-/

namespace SexprCalls.Text.Utf8

/-- The bytes that may follow the first one of a longer sequence. -/
def isTail (byte : UInt8) : Bool :=
  0x80 ≤ byte && byte ≤ 0xBF

/-- The six payload bits of a byte that follows the first one. -/
def tailBits (byte : UInt8) : Nat :=
  byte.toNat % 0x40

/-- The character of a scalar value that needs at least `least`, together with
the number of bytes that spell it. -/
def scalar? (least size value : Nat) : Option (Char × Nat) :=
  if least ≤ value ∧ value.isValidChar then
    some (Char.ofNat value, size)
  else
    none

/-- The character that the head of a byte string spells and the number of its
bytes, or nothing where the head is not well-formed. -/
def decode? : Bytes → Option (Char × Nat)
  | [] => none
  | first :: rest =>
      if first < 0x80 then
        some (Char.ofNat first.toNat, 1)
      else if first < 0xC0 then
        none
      else if first < 0xE0 then
        match rest with
        | second :: _ =>
            if isTail second then
              scalar? 0x80 2 (first.toNat % 0x20 * 0x40 + tailBits second)
            else
              none
        | [] => none
      else if first < 0xF0 then
        match rest with
        | second :: third :: _ =>
            if isTail second && isTail third then
              scalar? 0x800 3
                ((first.toNat % 0x10 * 0x40 + tailBits second) * 0x40 +
                  tailBits third)
            else
              none
        | _ => none
      else if first < 0xF8 then
        match rest with
        | second :: third :: fourth :: _ =>
            if isTail second && isTail third && isTail fourth then
              scalar? 0x10000 4
                (((first.toNat % 0x08 * 0x40 + tailBits second) * 0x40 +
                  tailBits third) * 0x40 + tailBits fourth)
            else
              none
        | _ => none
      else
        none

/-- The character that stands for a byte outside every well-formed sequence. -/
def replacement : Char := '\uFFFD'

/-- The character at the head of a byte string and the number of its bytes; a
byte that starts no well-formed sequence reads as one replacement character. -/
def leading (bytes : Bytes) : Char × Nat :=
  (decode? bytes).getD (replacement, 1)

/-- A part of a byte string: a well-formed character or a byte outside of any. -/
inductive Segment where
  | char (value : Char)
  | stray (value : UInt8)
deriving DecidableEq, Repr

def Segment.bytes : Segment → Bytes
  | .char value => String.utf8EncodeChar value
  | .stray value => [value]

/-- A byte string cut into well-formed characters and stray bytes. -/
def segments : Bytes → List Segment
  | [] => []
  | first :: rest =>
      match decode? (first :: rest) with
      | some (char, size) => .char char :: segments (rest.drop (size - 1))
      | none => .stray first :: segments rest
termination_by bytes => bytes.length
decreasing_by all_goals simp +arith

/-- A byte string with a replacement character for each stray byte. -/
def sanitize (bytes : Bytes) : Bytes :=
  (segments bytes).flatMap fun
    | .char value => String.utf8EncodeChar value
    | .stray _ => String.utf8EncodeChar replacement

end SexprCalls.Text.Utf8
