import SexprCalls.Text.Printable
import SexprCalls.Text.Utf8

/-!
# Quoted texts and characters

A text between quotation marks in which every character that would not show is
written as an escape: a short one for the common control characters, two, four
or eight hexadecimal digits for the others, and two digits for a byte that
belongs to no character.
-/

namespace SexprCalls.Text

open Utf8

/-- The lowest `width` hexadecimal digits of a number, highest first. -/
def hexDigits : (width number : Nat) → Bytes
  | 0, _ => []
  | width + 1, number =>
      hexDigits width (number / 16) ++
        Bytes.ofChars [Nat.digitChar (number % 16)]

/-- An escape made of a backslash, a letter and hexadecimal digits. -/
def hexEscape (letter : Char) (width number : Nat) : Bytes :=
  Bytes.ofChars ['\\', letter] ++ hexDigits width number

/-- The letter of the short escape of a control character. -/
def shortEscape? (char : Char) : Option Char :=
  match char.toNat with
  | 0x07 => some 'a'
  | 0x08 => some 'b'
  | 0x09 => some 't'
  | 0x0A => some 'n'
  | 0x0B => some 'v'
  | 0x0C => some 'f'
  | 0x0D => some 'r'
  | _ => none

/-- A character as it stands between two quotation marks `mark`. -/
def escapeChar (mark char : Char) : Bytes :=
  if char = mark ∨ char = '\\' then
    Bytes.ofChars ['\\', char]
  else if isPrintable char then
    Bytes.ofChars [char]
  else
    match shortEscape? char with
    | some letter => Bytes.ofChars ['\\', letter]
    | none =>
        if char.toNat < 0x20 ∨ char.toNat = 0x7F then
          hexEscape 'x' 2 char.toNat
        else if char.toNat < 0x10000 then
          hexEscape 'u' 4 char.toNat
        else
          hexEscape 'U' 8 char.toNat

/-- A segment as it stands between two quotation marks `mark`. -/
def escapeSegment (mark : Char) : Segment → Bytes
  | .char char => escapeChar mark char
  | .stray byte => hexEscape 'x' 2 byte.toNat

def quoted (text : Bytes) : Bytes :=
  Bytes.ofChars ['"'] ++ (segments text).flatMap (escapeSegment '"') ++
    Bytes.ofChars ['"']

/-- The character with a given code, or the replacement character where the
code is no Unicode scalar value. -/
def charOfCode (code : Int) : Char :=
  if 0 ≤ code ∧ code.toNat.isValidChar then
    Char.ofNat code.toNat
  else
    replacement

def apostrophe : Char := Char.ofNat 0x27

/-- A character, given by its code, in single quotation marks. -/
def quotedChar (code : Int) : Bytes :=
  Bytes.ofChars [apostrophe] ++ escapeChar apostrophe (charOfCode code) ++
    Bytes.ofChars [apostrophe]

end SexprCalls.Text
