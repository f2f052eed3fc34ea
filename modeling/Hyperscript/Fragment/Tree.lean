import Hyperscript.Fragment.Markup
import Hyperscript.Node
import Hyperscript.Number.Reading
import Hyperscript.Property.Schema
import Hyperscript.TokenList

namespace Hyperscript.Fragment

/-- The value of an attribute as its property asks for it. What asks for a number and shows none stays
text. -/
def typedValue (info : Info) (value : String) : PropertyValue :=
  if info.boolean then .bool true
  else if info.commaSeparated then .list ((TokenList.parseCommas value).map .text)
  else if info.spaceSeparated then .list ((TokenList.parseSpaces value).map .text)
  else if info.number then
    match Number.ofChars? (Text.trim value.toList) with
    | some number => .number number
    | none => .text value
  else .text value

/-- The properties that stand for the attributes of an element. -/
def typedProperties (space : Space) (attributes : List (String × String)) : Properties :=
  .ofList (attributes.map fun pair =>
    let info := Schema.standard.find space pair.1
    (info.propertyName, typedValue info pair.2))

namespace Markup

mutual

/-- The node for markup whose parent is in `space`, if there is one. -/
def toNode? (space : Space) : Markup → Option Node
  | .text value => some (.text value)
  | .comment value => some (.comment value)
  | .doctype => some .doctype
  | .element tag attributes children =>
    some (.element tag (typedProperties (space.enter tag) attributes) (toNodes (space.enter tag) children))
  | .other => none

def toNodes (space : Space) : List Markup → List Node
  | [] => []
  | markup :: rest => (markup.toNode? space).toList ++ toNodes space rest

end

end Markup

/-- The root for a fragment, whatever parser has read it. -/
def tree (markups : List Markup) : Node :=
  .root (Markup.toNodes .html markups)

end Hyperscript.Fragment
