import SexprCalls.Bytes

/-!
# Positions in a source

A `Position` is what an error message shows: a file with an offset, a line and
a column.  A `Location` is the running place of a reader in a source; it moves
forward byte by byte, and a newline byte is the only end of a line.
-/

namespace SexprCalls

/-- A place in a named source.  Offsets count bytes from zero, lines and
columns from one; a line that is not positive means that no place is known. -/
structure Position where
  file : Bytes
  offset : Int
  line : Int
  column : Int
deriving DecidableEq, Repr

namespace Position

/-- A position that names a file and no place in it. -/
def ofFile (file : Bytes) : Position :=
  ⟨file, 0, 0, 0⟩

def unknown : Position := ofFile []

def isKnown (pos : Position) : Bool :=
  0 < pos.line

/-- The text of a position: the file, the line and the column, joined by colons.
The file is left out when it is empty, the column when it is zero, and both
numbers when no place is known; a dash stands for nothing at all. -/
def text (pos : Position) : Bytes :=
  let colon := Bytes.ofString ":"
  if pos.isKnown then
    (if pos.file.isEmpty then [] else pos.file ++ colon) ++
      Bytes.ofInt pos.line ++
      (if pos.column = 0 then [] else colon ++ Bytes.ofInt pos.column)
  else if pos.file.isEmpty then
    Bytes.ofString "-"
  else
    pos.file

end Position

/-- The place of a reader in its source: the number of bytes read, and the line
and the column of the next byte. -/
structure Location where
  offset : Nat
  line : Nat
  column : Nat
deriving DecidableEq, Repr

namespace Location

/-- The place before the first byte. -/
def start : Location := ⟨0, 1, 1⟩

/-- The place after one more byte. -/
def step (here : Location) (byte : UInt8) : Location :=
  if byte = Bytes.newline then
    ⟨here.offset + 1, here.line + 1, 1⟩
  else
    ⟨here.offset + 1, here.line, here.column + 1⟩

/-- The place after a run of bytes. -/
def past (here : Location) (bytes : Bytes) : Location :=
  bytes.foldl step here

/-- The place as a position in a named source. -/
def inFile (here : Location) (file : Bytes) : Position :=
  ⟨file, here.offset, here.line, here.column⟩

end Location
end SexprCalls
