import SexprCalls.Bytes

/-!
# Further kinds

Tokens and source nodes have four kinds each, with the numbers 0 to 3.  What comes
from elsewhere may be of a further kind, with any other number.
-/

namespace SexprCalls

/-- A kind by its number, which is none of those that have a name. -/
structure FurtherKind where
  code : Int
  unnamed : code < 0 ∨ 3 < code
deriving DecidableEq, Repr

namespace FurtherKind

def text (kind : FurtherKind) : Bytes :=
  Bytes.ofString "Kind(" ++ Bytes.ofInt kind.code ++ Bytes.ofString ")"

/-- The kind with a number, among four named kinds and the further ones. -/
def orNamed {κ : Type} (other : FurtherKind → κ) (kind₀ kind₁ kind₂ kind₃ : κ)
    (code : Int) : κ :=
  if unnamed : code < 0 ∨ 3 < code then other ⟨code, unnamed⟩
  else if code = 0 then kind₀
  else if code = 1 then kind₁
  else if code = 2 then kind₂
  else kind₃

end FurtherKind
end SexprCalls
