import SexprCalls.SourceNode.Walk

/-!
# Checks on a source tree

A check passes or fails a tree and changes nothing.  The one check of this
library rejects programs whose calls nest deeper than a limit.
-/

namespace SexprCalls

/-- A named condition on trees. -/
structure Check where
  name : Bytes
  run : SourceNode → Except (Fault Error) Unit

namespace Check

/-- Run checks in order up to the first that fails, and give the names of those
that were started. -/
def runAll (root : SourceNode) :
    List Check → List Bytes × Except (Fault Error) Unit
  | [] => ([], .ok ())
  | check :: rest =>
      match check.run root with
      | .ok () =>
          let (started, result) := runAll root rest
          (check.name :: started, result)
      | .error fault => ([check.name], .error fault)

/-- Count a call on the way in, and stop where the count of the calls that are
open passes the limit.  A foreign node that gives itself out as a call has no name to
report. -/
def enterCall (limit : Int) (node : SourceNode) : Step Nat :=
  fun depth =>
    if limit < (depth + 1 : Nat) then
      match node with
      | .call name _ => (.error (.error (.depth ⟨limit, name⟩)), depth + 1)
      | _ => (.error .crash, depth + 1)
    else
      (.ok (), depth + 1)

def depthHooks (limit : Int) : Hooks Nat
  | .known .call =>
      { enter := fun node _ => enterCall limit node
        exit := fun _ _ => Step.change fun depth => depth - 1 }
  | _ => Hook.idle

/-- Reject trees whose calls nest deeper than a limit; a call that stands in no
other has depth one.  A limit that is not positive rejects nothing. -/
def maxDepth (limit : Int) : Check where
  name := Bytes.ofString "max-depth"
  run := fun root =>
    if limit ≤ 0 then
      .ok ()
    else
      (root.walk (depthHooks limit) 0).1

end Check
end SexprCalls
