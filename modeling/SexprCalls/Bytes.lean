/-!
# Byte strings

Every text that this library reads or writes is a byte string: sources, names
and literal texts need not be well-formed in any encoding.  This module holds
the type, the way in from `String`, and the decimal spelling of numbers.
-/

namespace SexprCalls

/-- A text as the sequence of its bytes. -/
abbrev Bytes := List UInt8

namespace Bytes

/-- The UTF-8 bytes of a sequence of characters. -/
def ofChars (chars : List Char) : Bytes :=
  chars.flatMap String.utf8EncodeChar

/-- The UTF-8 bytes of a string. -/
def ofString (text : String) : Bytes :=
  ofChars text.toList

/-- The decimal spelling of a natural number, without leading zeros. -/
def ofNat (number : Nat) : Bytes :=
  ofChars (Nat.toDigits 10 number)

/-- The decimal spelling of an integer, with a minus sign below zero. -/
def ofInt : Int → Bytes
  | .ofNat number => ofNat number
  | .negSucc number => ofChars ['-'] ++ ofNat (number + 1)

def newline : UInt8 := 0x0A

/-- The byte that opens and closes a string. -/
def quoteMark : UInt8 := 0x22

def openParen : UInt8 := 0x28

def closeParen : UInt8 := 0x29

/-- The ten ASCII digits. -/
def isDigit (byte : UInt8) : Bool :=
  0x30 ≤ byte && byte ≤ 0x39

/-- The fifty-two ASCII letters. -/
def isLetter (byte : UInt8) : Bool :=
  (0x61 ≤ byte && byte ≤ 0x7A) || (0x41 ≤ byte && byte ≤ 0x5A)

def isParen (byte : UInt8) : Bool :=
  byte == openParen || byte == closeParen

end Bytes
end SexprCalls
