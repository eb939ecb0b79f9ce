import SexprCalls.Cause
import SexprCalls.Token
import SexprCalls.Text.Blank

/-!
# Scanning

A source is read from left to right, one piece at a time: a white-space
character, a parenthesis, a maximal run of digits or of letters, or a string
between quotation marks.  Reading stops at the first byte where no piece
starts.  Each piece leaves a shorter rest, so that the scan ends.
-/

namespace SexprCalls

/-- The first character that a scan could not take, and its place.  The
character is the opening quotation mark where a string does not end. -/
structure LexError where
  cause : Cause
  char : Int
  pos : Position
deriving DecidableEq, Repr

/-- The wording of a lexical error; the place is left out when it is not known. -/
def LexError.message (error : LexError) : Bytes :=
  (if error.pos.isKnown then error.pos.text ++ Bytes.ofString ": " else []) ++
    error.cause.text ++ Bytes.ofString " " ++ Text.quotedChar error.char

/-- What stands at the head of an input: a separator, a lexeme, or a place
where the scan stops.  The first two give the bytes they take and the rest. -/
inductive Piece where
  | blank (spelling rest : Bytes)
  | lexeme (kind : TokenKind) (text spelling rest : Bytes)
  | unterminated
  | unknown (char : Char)

namespace Piece

/-- A byte that may stand inside a string. -/
def isContent (byte : UInt8) : Bool :=
  byte != Bytes.quoteMark

/-- A lexeme whose text is its spelling. -/
def plain (kind : TokenKind) (spelling rest : Bytes) : Piece :=
  .lexeme kind spelling spelling rest

/-- The piece that starts with a quotation mark, from the bytes after it. -/
def afterQuote (rest : Bytes) : Piece :=
  let content := rest.takeWhile isContent
  match rest.dropWhile isContent with
  | [] => .unterminated
  | closing :: rest =>
      .lexeme .string content
        (Bytes.quoteMark :: content ++ [closing]) rest

/-- The piece at the head of an input, given by its first byte and the rest. -/
def ofInput (first : UInt8) (rest : Bytes) : Piece :=
  if Bytes.isParen first then
    plain .paren [first] rest
  else if Bytes.isDigit first then
    plain .number (first :: rest.takeWhile Bytes.isDigit)
      (rest.dropWhile Bytes.isDigit)
  else if Bytes.isLetter first then
    plain .name (first :: rest.takeWhile Bytes.isLetter)
      (rest.dropWhile Bytes.isLetter)
  else if first = Bytes.quoteMark then
    afterQuote rest
  else
    let (char, size) := Text.Utf8.leading (first :: rest)
    if Text.isBlank char then
      .blank (first :: rest.take (size - 1)) (rest.drop (size - 1))
    else
      .unknown char

theorem length_dropWhile_le (keep : UInt8 → Bool) (bytes : Bytes) :
    (bytes.dropWhile keep).length ≤ bytes.length :=
  (List.dropWhile_suffix keep).length_le

/-- A separator leaves no more than what follows its first byte. -/
theorem rest_le_of_blank
    {first : UInt8} {input spelling rest : Bytes}
    (piece : ofInput first input = .blank spelling rest) :
    rest.length ≤ input.length := by
  simp only [ofInput, plain] at piece
  split at piece
  · contradiction
  · split at piece
    · contradiction
    · split at piece
      · contradiction
      · split at piece
        · simp only [afterQuote] at piece
          split at piece <;> contradiction
        · split at piece
          · injection piece with _ sameRest
            subst sameRest
            simp
          · contradiction

/-- A lexeme leaves no more than what follows its first byte. -/
theorem rest_le_of_lexeme
    {first : UInt8} {input text spelling rest : Bytes} {kind : TokenKind}
    (piece : ofInput first input = .lexeme kind text spelling rest) :
    rest.length ≤ input.length := by
  simp only [ofInput, plain] at piece
  split at piece
  · injection piece with _ _ _ sameRest
    simp [sameRest]
  · split at piece
    · injection piece with _ _ _ sameRest
      subst sameRest
      exact length_dropWhile_le _ _
    · split at piece
      · injection piece with _ _ _ sameRest
        subst sameRest
        exact length_dropWhile_le _ _
      · split at piece
        · simp only [afterQuote] at piece
          split at piece
          · contradiction
          · next closing after remaining =>
              injection piece with _ _ _ sameRest
              subst sameRest
              have shorter := length_dropWhile_le isContent input
              rw [remaining] at shorter
              simp only [List.length_cons] at shorter
              omega
        · split at piece <;> contradiction

end Piece

/-- A reader of one source: the name of the source, the place reached, and the
bytes that are still to be read. -/
structure Scanner where
  file : Bytes
  here : Location
  rest : Bytes
deriving DecidableEq, Repr

namespace Scanner

/-- A reader at the first byte of a source. -/
def ofSource (file source : Bytes) : Scanner :=
  ⟨file, .start, source⟩

/-- Read to the end, adding to the tokens found so far, the latest first.  A
string without an end takes the whole rest with it; an unknown character stays
unread. -/
def scanOnto (found : List Token) (file : Bytes) (here : Location) :
    Bytes → Except LexError (List Token) × Scanner
  | [] => (.ok found.reverse, ⟨file, here, []⟩)
  | first :: input =>
      match piece : Piece.ofInput first input with
      | .blank spelling rest =>
          have := Piece.rest_le_of_blank piece
          scanOnto found file (here.past spelling) rest
      | .lexeme kind text spelling rest =>
          have := Piece.rest_le_of_lexeme piece
          scanOnto (⟨kind, text, here.inFile file⟩ :: found) file
            (here.past spelling) rest
      | .unterminated =>
          (.error
              ⟨.unterminatedString, Bytes.quoteMark.toNat, here.inFile file⟩,
            ⟨file, here.past (first :: input), []⟩)
      | .unknown char =>
          (.error ⟨.unknownCharacter, char.toNat, here.inFile file⟩,
            ⟨file, here, first :: input⟩)
termination_by input => input.length

/-- Read the rest of the source, and give its tokens in order or the error at
which reading stopped, together with the reader as it is left. -/
def scan (scanner : Scanner) : Except LexError (List Token) × Scanner :=
  scanOnto [] scanner.file scanner.here scanner.rest

/-- The results of reading with the same reader several times. -/
def scanRepeatedly :
    (times : Nat) → Scanner → List (Except LexError (List Token))
  | 0, _ => []
  | times + 1, scanner =>
      let (result, scanner) := scanner.scan
      result :: scanRepeatedly times scanner

end Scanner

def Token.ofSource (file source : Bytes) : Except LexError (List Token) :=
  (Scanner.ofSource file source).scan.1

end SexprCalls
