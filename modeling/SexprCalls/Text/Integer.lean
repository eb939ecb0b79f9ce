import SexprCalls.Bytes

/-!
# Reading integers

An integer is written with an optional sign and in base ten, or after a mark in
base two (`0b`), eight (`0o` or a leading zero) or sixteen (`0x`).  Single
underscores may stand between digits, and after the mark.  The value has to fit
into sixty-four bits with a sign.
-/

namespace SexprCalls.Text.Integer

/-- Why a text is no integer. -/
inductive Problem where
  | malformed
  | outOfRange
deriving DecidableEq, Repr

def Problem.text : Problem → Bytes
  | .malformed => Bytes.ofString "invalid syntax"
  | .outOfRange => Bytes.ofString "value out of range"

/-- The byte that may stand between digits. -/
def underscore : UInt8 := 0x5F

/-- A letter in lower case; other bytes above the letters move as well, but not
onto a letter. -/
def lower (byte : UInt8) : UInt8 :=
  byte ||| 0x20

/-- The base that the mark at the head of a text gives, and the digits after
the mark. -/
def base : Bytes → Nat × Bytes
  | 0x30 :: mark :: digit :: rest =>
      if lower mark = 0x62 then (2, digit :: rest)
      else if lower mark = 0x6F then (8, digit :: rest)
      else if lower mark = 0x78 then (16, digit :: rest)
      else (8, mark :: digit :: rest)
  | 0x30 :: rest => (8, rest)
  | digits => (10, digits)

/-- The value of a digit, which may be a letter. -/
def digit? (byte : UInt8) : Option Nat :=
  if Bytes.isDigit byte then
    some (byte.toNat - 0x30)
  else if Bytes.isLetter byte then
    some ((lower byte).toNat - 0x61 + 10)
  else
    none

/-- The first number that sixty-four bits with a sign cannot hold. -/
def signedBound : Nat := 0x8000000000000000

/-- The value of digits after those that make up `value`.  The first byte that
is no digit and the first digit that leads out of range each end the reading. -/
def magnitude (base : Nat) (value : Nat) : Bytes → Except Problem Nat
  | [] => .ok value
  | byte :: rest =>
      if byte = underscore then
        magnitude base value rest
      else
        match digit? byte with
        | none => .error .malformed
        | some digit =>
            if base ≤ digit then
              .error .malformed
            else if 2 * signedBound ≤ value * base + digit then
              .error .outOfRange
            else
              magnitude base (value * base + digit) rest

/-- Whether every underscore follows and precedes a digit, given whether a
digit stands before the text. -/
def underscoresSeparate : (afterDigit : Bool) → Bytes → Bool
  | _, [] => true
  | afterDigit, byte :: rest =>
      if byte = underscore then
        afterDigit &&
          match rest with
          | [] => false
          | next :: _ => next != underscore && underscoresSeparate false rest
      else
        underscoresSeparate true rest

/-- Whether the underscores of an unsigned text stand where they may; a mark
counts as a digit. -/
def underscoresFit (text : Bytes) : Bool :=
  match text with
  | 0x30 :: mark :: rest =>
      if lower mark = 0x62 ∨ lower mark = 0x6F ∨ lower mark = 0x78 then
        underscoresSeparate true rest
      else
        underscoresSeparate false text
  | _ => underscoresSeparate false text

/-- Whether a text starts with a minus sign, and the text after its sign. -/
def sign : Bytes → Bool × Bytes
  | 0x2D :: rest => (true, rest)
  | 0x2B :: rest => (false, rest)
  | text => (false, text)

def read (text : Bytes) : Except Problem Int :=
  let (negative, unsigned) := sign text
  if unsigned.isEmpty then
    .error .malformed
  else
    let (base, digits) := base unsigned
    match magnitude base 0 digits with
    | .error problem => .error problem
    | .ok value =>
        if !underscoresFit unsigned then
          .error .malformed
        else if negative then
          if signedBound < value then .error .outOfRange else .ok (-value)
        else
          if signedBound ≤ value then .error .outOfRange else .ok value

end SexprCalls.Text.Integer
