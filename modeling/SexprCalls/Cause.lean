import SexprCalls.Bytes

/-!
# Causes

What an error rests on, apart from where it happened and to what.
-/

namespace SexprCalls

/-- The reasons for which an operation of this library fails.  Callers that
supply hooks or checks of their own bring reasons in their own words. -/
inductive Cause where
  | unknownCharacter
  | unterminatedString
  | unexpectedToken
  | unexpectedEndOfInput
  | nestingTooDeep
  | unsupportedSourceNode
  | unsupportedOutputNode
  | missingFile
  | custom (text : Bytes)
deriving DecidableEq, Repr

def Cause.text : Cause → Bytes
  | .unknownCharacter => Bytes.ofString "unknown character"
  | .unterminatedString => Bytes.ofString "unterminated string"
  | .unexpectedToken => Bytes.ofString "unexpected token"
  | .unexpectedEndOfInput => Bytes.ofString "unexpected end of input"
  | .nestingTooDeep => Bytes.ofString "call nesting too deep"
  | .unsupportedSourceNode => Bytes.ofString "unsupported node kind"
  | .unsupportedOutputNode => Bytes.ofString "unsupported node kind"
  | .missingFile => Bytes.ofString "file does not exist"
  | .custom text => text

end SexprCalls
