namespace Hyperscript

/-- How the value of a property is written and where it has to be set. -/
structure Traits where
  boolean : Bool := false
  mustUseProperty : Bool := false
  commaSeparated : Bool := false
  spaceSeparated : Bool := false
  number : Bool := false
  deriving DecidableEq, Repr

/-- What is known of one property: its name on an element object, its name in markup, its traits. -/
structure Info extends Traits where
  propertyName : String
  attributeName : String
  defined : Bool
  deriving DecidableEq, Repr

namespace Info

/-- A name that no table knows stands for itself, as property and as attribute. -/
def unknown (name : String) : Info :=
  { propertyName := name, attributeName := name, defined := false }

/-- The class list and the style have a place of their own in every calling convention. -/
def isClassOrStyle (info : Info) : Bool :=
  info.propertyName = "className" || info.propertyName = "style"

end Info

end Hyperscript
