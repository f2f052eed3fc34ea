import Hyperscript.Number.Printing
import Hyperscript.OrderedMap

namespace Hyperscript

/-- Style declarations under their names, as an object. -/
abbrev StyleObject := OrderedMap String

/-- The value of an attribute as a builder receives it. -/
inductive Value
  | text (value : String)
  | number (value : Number)
  | bool (value : Bool)
  | style (declarations : StyleObject)
  | map (entries : OrderedMap Value)
  deriving Repr, Inhabited

abbrev Attributes := OrderedMap Value

namespace Value

def text? : Value → Option String
  | .text value => some value
  | _ => none

def style? : Value → Option StyleObject
  | .style declarations => some declarations
  | _ => none

def map? : Value → Option Attributes
  | .map entries => some entries
  | _ => none

/-- The value as it is written in markup. Styles and maps have no such form. -/
def toText? : Value → Option String
  | .text value => some value
  | .number value => some value.toText
  | .bool value => some (if value then "true" else "false")
  | .style _ => none
  | .map _ => none

end Value

end Hyperscript
