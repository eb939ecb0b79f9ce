import SexprCalls.Text.Utf8

/-!
# Columns

A text whose tabs end cells is set out so that the cells of a column have one
width.  A cell that a tab ends stands in a column, and the text after the last
tab of a line stands in none.  A column reaches over neighbouring lines only: a
line without a cell in it ends it, and a form feed ends all columns.  What
stands between two guard bytes is never cut.
-/

namespace SexprCalls.Text.Columns

/-- The byte before and after a stretch that is not cut. -/
def guardByte : UInt8 := 0xFF

/-- The bytes that end a cell: the horizontal and the vertical tab. -/
def endsCell (byte : UInt8) : Bool :=
  byte == 0x09 || byte == 0x0B

def formFeed : UInt8 := 0x0C

/-- A line: its cells that stand in columns, and the text after them. -/
structure Row where
  cells : List Bytes
  last : Bytes
deriving DecidableEq, Repr

/-! ## Cutting a text -/

/-- A text while it is cut into cells, lines and blocks of lines.  The latest
part comes first in every list. -/
structure Cutting where
  guarded : Bool := false
  cell : Bytes := []
  cells : List Bytes := []
  rows : List Row := []
  blocks : List (List Row) := []

namespace Cutting

def endCell (cutting : Cutting) : Cutting :=
  { cutting with
    cell := []
    cells := cutting.cell.reverse :: cutting.cells }

/-- End the line; its last cell stands in no column. -/
def endRow (cutting : Cutting) : Cutting :=
  { cutting with
    cell := []
    cells := []
    rows := ⟨cutting.cells.reverse, cutting.cell.reverse⟩ :: cutting.rows }

/-- End the line and the block of lines that share columns. -/
def endBlock (cutting : Cutting) : Cutting :=
  let ended := cutting.endRow
  { ended with
    rows := []
    blocks := ended.rows.reverse :: ended.blocks }

/-- Take in one byte.  Guard bytes stay part of the text. -/
def step (cutting : Cutting) (byte : UInt8) : Cutting :=
  if byte = guardByte then
    { cutting with
      guarded := !cutting.guarded
      cell := byte :: cutting.cell }
  else if cutting.guarded then
    { cutting with cell := byte :: cutting.cell }
  else if endsCell byte then
    cutting.endCell
  else if byte = Bytes.newline then
    cutting.endRow
  else if byte = formFeed then
    cutting.endBlock
  else
    { cutting with cell := byte :: cutting.cell }

end Cutting

/-- The blocks of lines of a text. -/
def blocks (text : Bytes) : List (List Row) :=
  (text.foldl Cutting.step {}).endBlock.blocks.reverse

/-! ## Widths -/

/-- The number of characters of a cell.  A stray byte counts for one, and a
guard byte for none. -/
def cellWidth (cell : Bytes) : Nat :=
  ((Utf8.segments cell).filter (· ≠ .stray guardByte)).length

/-- The number of blanks after the widest cell of a column. -/
def gap : Nat := 2

/-- Raise the widths of a line to those of a neighbour, as far as both lines
have cells. -/
def raise : (neighbour own : List Nat) → List Nat
  | _, [] => []
  | [], own => own
  | other :: neighbour, width :: own => max other width :: raise neighbour own

/-- Raise the widths of each line to those of the lines before it. -/
def spread (before : List Nat) : List (List Nat) → List (List Nat)
  | [] => []
  | own :: rest =>
      let raised := raise before own
      raised :: spread raised rest

/-- The widths of the columns in each line of a block: the widest cell above
and below, for as long as the column reaches. -/
def widths (rows : List Row) : List (List Nat) :=
  let own := rows.map fun row => row.cells.map fun cell => cellWidth cell + gap
  (spread [] (spread [] own).reverse).reverse

/-! ## Setting out -/

/-- A cell with blanks after it, up to a width. -/
def pad (cell : Bytes) (width : Nat) : Bytes :=
  cell ++ List.replicate (width - cellWidth cell) 0x20

/-- A line with its cells at the widths of their columns. -/
def Row.setOut (row : Row) (widths : List Nat) : Bytes :=
  (List.zipWith pad row.cells widths).flatten ++ row.last

/-- A text with its cells set out in columns. -/
def setOut (text : Bytes) : Bytes :=
  [Bytes.newline].intercalate ((blocks text).flatMap fun rows =>
    List.zipWith Row.setOut rows (widths rows))

end SexprCalls.Text.Columns
