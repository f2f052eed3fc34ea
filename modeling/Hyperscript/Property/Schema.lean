import Hyperscript.Property.DataName
import Hyperscript.Property.Table

namespace Hyperscript

/-- What a renderer asks about properties. -/
structure Schema where
  /-- What a property or attribute name means in a space. -/
  find : Space → String → Info
  /-- The name under which retained trees take a property, where it is not the property's own. -/
  rename : String → Option String

namespace Schema

/-- A name is looked up in the table of its space, then read as custom data, then taken as it stands. -/
def standardFind (space : Space) (name : String) : Info :=
  match Info.known? space name with
  | some info => info
  | none =>
    match Info.dataRest? name.toList with
    | some rest => Info.ofDataName name rest
    | none => Info.unknown name

def standardRenames : List (String × String) :=
  [("classId", "classID"), ("dataType", "datatype"), ("itemId", "itemID"),
   ("strokeDashArray", "strokeDasharray"), ("strokeDashOffset", "strokeDashoffset"),
   ("strokeLineCap", "strokeLinecap"), ("strokeLineJoin", "strokeLinejoin"),
   ("strokeMiterLimit", "strokeMiterlimit"), ("typeOf", "typeof"), ("xLinkActuate", "xlinkActuate"),
   ("xLinkArcRole", "xlinkArcrole"), ("xLinkHref", "xlinkHref"), ("xLinkRole", "xlinkRole"),
   ("xLinkShow", "xlinkShow"), ("xLinkTitle", "xlinkTitle"), ("xLinkType", "xlinkType"),
   ("xmlnsXLink", "xmlnsXlink")]

def standard : Schema where
  find := standardFind
  rename property := standardRenames.lookup property

instance : Inhabited Schema := ⟨standard⟩

/-- The schema with some names decided beforehand, exactly as they are spelled and in both spaces. -/
def override (schema : Schema) (infos : List (String × Info)) (renames : List (String × String)) : Schema where
  find space name := (infos.lookup name).getD (schema.find space name)
  rename property := (renames.lookup property).or (schema.rename property)

end Schema

end Hyperscript
