import Hyperscript.Dialect
import Hyperscript.Property.Schema
import Hyperscript.Style.Declarations
import Hyperscript.TokenList

namespace Hyperscript

/-- Where an attribute goes: into the flat map, or into a map nested in it. -/
inductive Slot
  | flat (key : String)
  | nested (map key : String)
  deriving DecidableEq, Repr

namespace Slot

/-- The nested map that takes a property. Classes and styles stay flat in every dialect, and what has to
be set on the element object does where the nested map holds markup attributes only. -/
def nestedMap? (dialect : Dialect) (info : Info) : Option String :=
  if info.isClassOrStyle then none
  else if info.mustUseProperty && dialect ≠ .retainedFramework then none
  else dialect.nestedMap?

/-- Custom data and accessibility attributes keep their markup name where other properties do not. -/
def keepsAttributeName (info : Info) : Bool :=
  "data-".toList.isPrefixOf info.attributeName.toList || "aria-".toList.isPrefixOf info.attributeName.toList

def flatKey (schema : Schema) (dialect : Dialect) (info : Info) : String :=
  match dialect with
  | .retainedDom =>
    if !info.defined || keepsAttributeName info then info.attributeName
    else (schema.rename info.propertyName).getD info.propertyName
  | .attributesDom => info.propertyName
  | .plain | .selectorDom | .retainedFramework => info.attributeName

def ofInfo (schema : Schema) (dialect : Dialect) (info : Info) : Slot :=
  match nestedMap? dialect info with
  | some map => .nested map info.attributeName
  | none => .flat (flatKey schema dialect info)

end Slot

namespace Attributes

/-- The nested map of a name, empty if there is none or if something else has the name. -/
def inner (attributes : Attributes) (map : String) : Attributes :=
  match attributes.get? map with
  | some (.map entries) => entries
  | _ => ∅

def place (attributes : Attributes) (slot : Slot) (value : Value) : Attributes :=
  match slot with
  | .flat key => attributes.insert key value
  | .nested map key => attributes.insert map (.map ((inner attributes map).insert key value))

/-- Lists become text, separated as the property asks for. -/
def ofPropertyValue (info : Info) : PropertyValue → Value
  | .null => .text ""
  | .text value => .text value
  | .number value => .number value
  | .bool value => .bool value
  | .list tokens =>
    .text (if info.commaSeparated then TokenList.printCommas tokens else TokenList.printSpaces tokens)

/-- Whether a property leaves no trace: it is absent, or a known boolean that is false in a dialect that
tells true booleans by their presence. -/
def isDropped (dialect : Dialect) (info : Info) (value : PropertyValue) : Bool :=
  value.isAbsent || (dialect.explicitBooleans && info.boolean && !value.isTruthy)

/-- The value under which a kept property is passed on. -/
def passed (dialect : Dialect) (info : Info) (value : PropertyValue) : Except Style.Error Value :=
  let value := if info.boolean && dialect = .selectorDom then .text "" else ofPropertyValue info value
  match value with
  | .text text =>
    if info.propertyName = "style" && dialect.objectStyle then
      match Style.parseStyle text with
      | .ok declarations => .ok (.style declarations)
      | .error fault => .error fault
    else .ok (.text text)
  | value => .ok value

/-- Add one property of an element. -/
def add (schema : Schema) (dialect : Dialect) (space : Space) (attributes : Attributes) (name : String)
    (value : PropertyValue) : Except Style.Error Attributes :=
  let info := schema.find space name
  if isDropped dialect info value then .ok attributes
  else
    match passed dialect info value with
    | .ok value => .ok (place attributes (.ofInfo schema dialect info) value)
    | .error fault => .error fault

/-- Add properties one after the other, up to the first style that is no declaration list. -/
def addAll (schema : Schema) (dialect : Dialect) (space : Space) (attributes : Attributes) :
    List (String × PropertyValue) → Except Style.Error Attributes
  | [] => .ok attributes
  | (name, value) :: rest =>
    match add schema dialect space attributes name value with
    | .ok attributes => addAll schema dialect space attributes rest
    | .error fault => .error fault

/-- The attributes that stand for the properties of an element. -/
def ofProperties (schema : Schema) (dialect : Dialect) (space : Space) (properties : Properties) :
    Except Style.Error Attributes :=
  addAll schema dialect space ∅ properties.entries

end Attributes

end Hyperscript
