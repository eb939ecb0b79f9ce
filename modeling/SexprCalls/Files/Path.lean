import SexprCalls.Bytes

/-!
# Paths

A path is a sequence of parts with slashes between them.  The shortest form of
a path leaves out empty parts and single dots, and lets a double dot cancel the
part before it.
-/

namespace SexprCalls.Path

def slash : UInt8 := 0x2F

/-- The part that stays where it is. -/
def hereDots : Bytes := Bytes.ofString "."

/-- The part that leads one level up. -/
def upDots : Bytes := Bytes.ofString ".."

/-- The parts of a path, empty ones included. -/
def parts : Bytes → List Bytes
  | [] => [[]]
  | byte :: rest =>
      if byte = slash then
        [] :: parts rest
      else
        match parts rest with
        | [] => [[byte]]
        | part :: more => (byte :: part) :: more

def isRooted (path : Bytes) : Bool :=
  path.head? = some slash

/-- The parts of the shortest form after one more part, the last one first.  A
double dot that has nothing to cancel is kept, but not at the top. -/
def pushPart (rooted : Bool) (kept : List Bytes) (part : Bytes) : List Bytes :=
  if part = [] ∨ part = hereDots then
    kept
  else if part = upDots then
    match kept with
    | [] => if rooted then [] else [upDots]
    | last :: before => if last = upDots then upDots :: kept else before
  else
    part :: kept

def shortest (path : Bytes) : Bytes :=
  let rooted := isRooted path
  let kept := ((parts path).foldl (pushPart rooted) []).reverse
  let joined := List.intercalate [slash] kept
  if rooted then
    slash :: joined
  else if joined.isEmpty then
    hereDots
  else
    joined

/-- The shortest form of the path of an entry in a directory. -/
def entry (directory name : Bytes) : Bytes :=
  shortest (directory ++ slash :: name)

end SexprCalls.Path
