import SexprCalls.Compiler

/-!
# Log lines

A stage event is written in one of two forms: as a record for programs, or as a
line for a reader at a console.
-/

namespace SexprCalls

namespace StageEvent

/-- What a stage counts. -/
def label : StageEvent → Bytes
  | .tokenized _ => Bytes.ofString "tokens"
  | .parsed _ => Bytes.ofString "forms"
  | .lowered _ => Bytes.ofString "statements"
  | .rendered _ => Bytes.ofString "bytes"

/-- How many of them the stage has made. -/
def count : StageEvent → Nat
  | .tokenized count => count
  | .parsed count => count
  | .lowered count => count
  | .rendered count => count

/-- What the stage has done. -/
def title : StageEvent → Bytes
  | .tokenized _ => Bytes.ofString "tokenized"
  | .parsed _ => Bytes.ofString "parsed"
  | .lowered _ => Bytes.ofString "rewritten"
  | .rendered _ => Bytes.ofString "rendered"

end StageEvent

namespace Log

open Text Utf8

/-- The short escape of a control character in a record. -/
def shortEscape? (char : Char) : Option Char :=
  match char.toNat with
  | 0x08 => some 'b'
  | 0x09 => some 't'
  | 0x0A => some 'n'
  | 0x0C => some 'f'
  | 0x0D => some 'r'
  | _ => none

/-- A segment of a text inside a record. -/
def recordSegment : Segment → Bytes
  | .stray _ => hexEscape 'u' 4 replacement.toNat
  | .char value =>
      if value = '"' ∨ value = '\\' then
        Bytes.ofChars ['\\', value]
      else
        match shortEscape? value with
        | some letter => Bytes.ofChars ['\\', letter]
        | none =>
            if value.toNat < 0x20 ∨ value.toNat = 0x7F then
              hexEscape 'u' 4 value.toNat
            else
              Bytes.ofChars [value]

def recordText (text : Bytes) : Bytes :=
  [Bytes.quoteMark] ++ (segments text).flatMap recordSegment ++
    [Bytes.quoteMark]

def recordField (label value : Bytes) : Bytes :=
  recordText label ++ Bytes.ofString ":" ++ value

def record (file : Bytes) (event : StageEvent) : Bytes :=
  let fields :=
    [recordField (Bytes.ofString "level") (recordText (Bytes.ofString "debug")),
     recordField (Bytes.ofString "file") (recordText file),
     recordField event.label (Bytes.ofNat event.count),
     recordField (Bytes.ofString "message") (recordText event.title)]
  Bytes.ofString "\x7b" ++ List.intercalate (Bytes.ofString ",") fields ++
    Bytes.ofString "\x7d"

/-- A byte that a console value may hold without quotation marks. -/
def isPlain (byte : UInt8) : Bool :=
  0x20 < byte && byte ≤ 0x7E && byte != 0x5C && byte != Bytes.quoteMark

def consoleText (text : Bytes) : Bytes :=
  if text.all isPlain then text else quoted (sanitize text)

/-- A field on a console line, with its label. -/
def consoleField (label value : Bytes) : Bytes × Bytes :=
  (label, Bytes.ofString " " ++ label ++ Bytes.ofString "=" ++ value)

/-- The time on every console line.  It is fixed, so that equal runs write equal
logs. -/
def timeOfDay : Bytes := Bytes.ofString "4:05AM"

/-- An event as a console line, with its fields in the order of their labels. -/
def consoleLine (file : Bytes) (event : StageEvent) : Bytes :=
  let fields :=
    [consoleField (Bytes.ofString "file") (consoleText file),
     consoleField event.label (Bytes.ofNat event.count)]
  let sorted := fields.mergeSort fun first second => first.1 ≤ second.1
  timeOfDay ++ Bytes.ofString " DBG " ++ event.title ++
    sorted.flatMap (fun labelled => labelled.2) ++ Bytes.ofString "\n"

end Log
end SexprCalls
