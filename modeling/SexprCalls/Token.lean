import SexprCalls.FurtherKind
import SexprCalls.Position
import SexprCalls.Text.Quoted

/-!
# Tokens

A token is a lexeme of a source together with its class and its place.
-/

namespace SexprCalls

/-- The lexical class of a token.  The scanner makes the first four; a token
list from elsewhere may number further classes. -/
inductive TokenKind where
  | paren
  | number
  | string
  | name
  | other (kind : FurtherKind)
deriving DecidableEq, Repr

namespace TokenKind

def ofCode : Int → TokenKind :=
  FurtherKind.orNamed .other .paren .number .string .name

def text : TokenKind → Bytes
  | .paren => Bytes.ofString "paren"
  | .number => Bytes.ofString "number"
  | .string => Bytes.ofString "string"
  | .name => Bytes.ofString "name"
  | .other kind => kind.text

end TokenKind

/-- A lexeme.  The text of a string is its content, without the quotation
marks around it. -/
structure Token where
  kind : TokenKind
  text : Bytes
  pos : Position
deriving DecidableEq, Repr

namespace Token

def isOpen (token : Token) : Bool :=
  token.kind = .paren && token.text = [Bytes.openParen]

def isClose (token : Token) : Bool :=
  token.kind = .paren && token.text = [Bytes.closeParen]

/-- A token in words: its class and its text, which is quoted for strings. -/
def describe (token : Token) : Bytes :=
  token.kind.text ++ Bytes.ofString " " ++
    if token.kind = .string then Text.quoted token.text else token.text

end Token
end SexprCalls
