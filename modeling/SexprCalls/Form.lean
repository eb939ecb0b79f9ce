import SexprCalls.Bytes

/-!
# Forms

The language has three forms: a number, a string, and the call of a name with
forms as parameters.  A program is a list of forms.
-/

namespace SexprCalls

/-- A form of the source language.  A number keeps its digits and a string its
content, exactly as they were written. -/
inductive Form where
  | number (value : Bytes)
  | string (value : Bytes)
  | call (name : Bytes) (params : List Form)
deriving Repr

/-- The forms of a source, in order. -/
abbrev Program := List Form

end SexprCalls
