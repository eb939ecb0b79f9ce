import SexprCalls.FileError
import SexprCalls.Form.Read
import SexprCalls.OutputNode
import SexprCalls.SourceNode
import SexprCalls.Token.Scan

/-!
# Errors and faults

The errors of every stage of a compilation, with their wording.  A caller may
wrap errors in one of its own, so that an error is looked for in another one along
the chain of what is wrapped.  A `Fault` is how an operation on trees may end
without a result: with an error that it reports, or with a crash, about which it
reports nothing.
-/

namespace SexprCalls

/-- A call at which the nesting limit is crossed. -/
structure DepthError where
  limit : Int
  call : Bytes
deriving DecidableEq, Repr

def DepthError.message (error : DepthError) : Bytes :=
  Cause.nestingTooDeep.text ++ Bytes.ofString ": " ++ error.call ++
    Bytes.ofString " exceeds " ++ Bytes.ofInt error.limit ++
    Bytes.ofString " levels"

/-- A node at which a walk over a source tree fails. -/
structure TraversalError where
  cause : Cause
  node : SourceNode
deriving Repr

def TraversalError.message (error : TraversalError) : Bytes :=
  Bytes.ofString "walk: " ++ error.cause.text ++ Bytes.ofString ": " ++
    error.node.describe

/-- A node that cannot be printed. -/
structure RenderError where
  cause : Cause
  node : OutputNode
deriving Repr

def RenderError.message (error : RenderError) : Bytes :=
  Bytes.ofString "render: " ++ error.cause.text ++ Bytes.ofString ": " ++
    error.node.typeName

/-- The errors of a compilation, and those that the hooks and checks of a
caller bring: a cause in the words of the caller, or other errors wrapped in
them. -/
inductive Error where
  | lex (error : LexError)
  | parse (error : ParseError)
  | depth (error : DepthError)
  | traversal (error : TraversalError)
  | render (error : RenderError)
  | unreadable (path : Bytes) (error : FileError)
  | bare (cause : Cause)
  | wrapping (text : Bytes) (wrapped : List Error)
deriving Repr

namespace Error

def message : Error → Bytes
  | .lex error => error.message
  | .parse error => error.message
  | .depth error => error.message
  | .traversal error => error.message
  | .render error => error.message
  | .unreadable path error =>
      Bytes.ofString "reading " ++ path ++ Bytes.ofString ": " ++ error.message
  | .bare cause => cause.text
  | .wrapping text _ => text

/-- The cause that an error rests on itself, where it has one. -/
def cause? : Error → Option Cause
  | .lex error => some error.cause
  | .parse error => some error.cause
  | .depth _ => some .nestingTooDeep
  | .traversal error => some error.cause
  | .render error => some error.cause
  | .unreadable _ error => error.cause?
  | .bare cause => some cause
  | .wrapping _ _ => none

mutual

/-- An error and all that it wraps, in the order in which an error is looked for
in it. -/
def chain : Error → List Error
  | .wrapping text wrapped => .wrapping text wrapped :: chainOf wrapped
  | error => [error]

def chainOf : List Error → List Error
  | [] => []
  | error :: rest => error.chain ++ chainOf rest

end

/-- The causes that are found in an error. -/
def causes (error : Error) : List Cause :=
  error.chain.filterMap cause?

def lex? : Error → Option LexError
  | .lex error => some error
  | _ => none

def parse? : Error → Option ParseError
  | .parse error => some error
  | _ => none

end Error

/-- How an operation may end without a result. -/
inductive Fault (ε : Type) where
  | error (error : ε)
  | crash
deriving Repr

namespace Fault

/-- The fault of a walk that meets a node it has no rule for. -/
def unsupportedSource (node : SourceNode) : Fault Error :=
  .error (.traversal ⟨.unsupportedSourceNode, node⟩)

/-- The fault of a printer that meets a node it has no rule for. -/
def unsupportedOutput (node : OutputNode) : Fault Error :=
  .error (.render ⟨.unsupportedOutputNode, node⟩)

end Fault
end SexprCalls
