import SexprCalls.Cause
import SexprCalls.Form
import SexprCalls.Token

/-!
# Reading forms

Tokens are read one after the other.  A `Reading` holds what the tokens read so
far say: the forms of the innermost list that is still open, and around it the
calls that wait for their closing parenthesis.  A token either takes a reading
to the next one or does not fit, so that an error is found at the first token
after which no program can continue.
-/

namespace SexprCalls

/-- The first token that does not fit, or none where the tokens ran out. -/
structure ParseError where
  cause : Cause
  token : Option Token
deriving DecidableEq, Repr

/-- The wording of a parse error; the place is left out when it is not known. -/
def ParseError.message (error : ParseError) : Bytes :=
  match error.token with
  | none => error.cause.text
  | some token =>
      (if token.pos.isKnown then token.pos.text ++ Bytes.ofString ": " else []) ++
        error.cause.text ++ Bytes.ofString ": " ++ token.describe

/-- A call that is still open: its name, and the forms that stood before it in
the list it belongs to, the latest first. -/
structure OpenCall where
  name : Bytes
  before : List Form
deriving Repr

/-- What the tokens read so far say.  The forms of the innermost open list come
latest first, the open calls innermost first.  After an opening parenthesis the
reading waits for the name of a call. -/
structure Reading where
  latest : List Form
  enclosing : List OpenCall
  awaitsName : Bool
deriving Repr

namespace Reading

def start : Reading := ⟨[], [], false⟩

/-- One more form in the innermost open list. -/
def add (reading : Reading) (form : Form) : Reading :=
  { reading with latest := form :: reading.latest }

/-- The reading inside a call that has just been named. -/
def enter (reading : Reading) (name : Bytes) : Reading :=
  { latest := []
    enclosing := ⟨name, reading.latest⟩ :: reading.enclosing
    awaitsName := false }

/-- The reading after the innermost open call has been closed, if there is
one. -/
def leave? (reading : Reading) : Option Reading :=
  match reading.enclosing with
  | [] => none
  | innermost :: enclosing =>
      some
        { latest :=
            .call innermost.name reading.latest.reverse :: innermost.before
          enclosing := enclosing
          awaitsName := false }

/-- The reading after one more token, or nothing where the token does not
fit. -/
def step? (reading : Reading) (token : Token) : Option Reading :=
  if reading.awaitsName then
    if token.kind = .name then
      some (reading.enter token.text)
    else
      none
  else if token.kind = .number then
    some (reading.add (.number token.text))
  else if token.kind = .string then
    some (reading.add (.string token.text))
  else if token.isOpen then
    some { reading with awaitsName := true }
  else if token.isClose then
    reading.leave?
  else
    none

/-- The program that has been read, if no call is open. -/
def finish? (reading : Reading) : Option Program :=
  if reading.awaitsName ∨ ¬ reading.enclosing.isEmpty then
    none
  else
    some reading.latest.reverse

/-- Read on to the last token or to the first that does not fit, and give the
tokens after that one. -/
def readFrom : Reading → List Token → Except ParseError Program × List Token
  | reading, [] =>
      match reading.finish? with
      | some program => (.ok program, [])
      | none => (.error ⟨.unexpectedEndOfInput, none⟩, [])
  | reading, token :: rest =>
      match reading.step? token with
      | some reading => readFrom reading rest
      | none => (.error ⟨.unexpectedToken, some token⟩, rest)

end Reading

namespace Program

/-- Read a program off a token list, and give the tokens that are left. -/
def read (tokens : List Token) : Except ParseError Program × List Token :=
  Reading.start.readFrom tokens

def ofTokens (tokens : List Token) : Except ParseError Program :=
  (read tokens).1

/-- The results of reading several times, each time from the tokens that the
reading before has left. -/
def readRepeatedly :
    (times : Nat) → List Token → List (Except ParseError Program)
  | 0, _ => []
  | times + 1, tokens =>
      let (result, rest) := read tokens
      result :: readRepeatedly times rest

end Program
end SexprCalls
