import Hyperscript.Text.Position

namespace Hyperscript.Style

inductive FaultKind
  | unterminatedComment
  | missingColon
  | missingName
  | unterminatedString
  | unclosedParenthesis
  deriving DecidableEq, Repr

def FaultKind.message : FaultKind → String
  | .unterminatedComment => "End of comment missing"
  | .missingColon => "property missing ':'"
  | .missingName => "property missing name"
  | .unterminatedString => "End of string missing"
  | .unclosedParenthesis => "missing ')'"

/-- Why a text is no declaration list, and what of the text stands from the offending character on. -/
structure Fault where
  kind : FaultKind
  rest : List Char
  deriving DecidableEq, Repr

/-- A fault with its place in the whole text. -/
structure Error where
  kind : FaultKind
  position : Text.Position
  deriving DecidableEq, Repr

def Error.message (error : Error) : String :=
  toString error.position.line ++ ":" ++ toString error.position.column ++ ": " ++ error.kind.message

/-- The place of a fault lies behind all that stands before the offending character. -/
def Fault.locate (fault : Fault) (text : List Char) : Error where
  kind := fault.kind
  position := .behind (text.take (text.length - fault.rest.length))

end Hyperscript.Style
