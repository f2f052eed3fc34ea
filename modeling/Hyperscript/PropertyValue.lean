import Hyperscript.Number.Printing

namespace Hyperscript

/-- One item of a list-valued property. -/
inductive Token
  | text (value : String)
  | number (value : Number)
  deriving DecidableEq, Repr, Inhabited

namespace Token

def toText : Token → String
  | .text value => value
  | .number value => value.toText

def same : Token → Token → Bool
  | .text value, .text value' => value = value'
  | .number value, .number value' => value.same value'
  | _, _ => false

end Token

/-- The value of a property as a tree holds it. A property can be present and yet `null`. -/
inductive PropertyValue
  | null
  | text (value : String)
  | number (value : Number)
  | bool (value : Bool)
  | list (tokens : List Token)
  deriving DecidableEq, Repr, Inhabited

namespace PropertyValue

/-- Whether the value counts as true where a boolean is asked for. A list does, the empty one too. -/
def isTruthy : PropertyValue → Bool
  | .null => false
  | .text value => value ≠ ""
  | .number value => value.isTruthy
  | .bool value => value
  | .list _ => true

/-- The values that stand for an absent property wherever they are met. -/
def isAbsent : PropertyValue → Bool
  | .null => true
  | .bool value => !value
  | .number value => value = .nan
  | _ => false

def sameTokens : List Token → List Token → Bool
  | [], [] => true
  | token :: rest, token' :: rest' => token.same token' && sameTokens rest rest'
  | _, _ => false

def same : PropertyValue → PropertyValue → Bool
  | .null, .null => true
  | .text value, .text value' => value = value'
  | .number value, .number value' => value.same value'
  | .bool value, .bool value' => value = value'
  | .list tokens, .list tokens' => sameTokens tokens tokens'
  | _, _ => false

end PropertyValue

end Hyperscript
