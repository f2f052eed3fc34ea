import Hyperscript.Property.Info
import Hyperscript.Text.Dashed
import Hyperscript.Text.UpperCase
import Hyperscript.Text.WordChar

namespace Hyperscript

open Text

namespace Info

def isDataChar (c : Char) : Bool :=
  c = '-' || c = '.' || c = ':' || isWordChar c

/-- What follows `data` in the name of custom data. The four letters may be in any case, and at least one
character must follow, each of them a dash, a dot, a colon or a word character. -/
def dataRest? (name : List Char) : Option (List Char) :=
  if (name.take 4).map Char.toLower = ['d', 'a', 't', 'a'] && !(name.drop 4).isEmpty &&
      (name.drop 4).all isDataChar then
    some (name.drop 4)
  else none

def raiseFirst : List Char → List Char
  | [] => []
  | c :: rest => upperChar c ++ rest

def leadingDash : List Char → List Char
  | '-' :: rest => '-' :: rest
  | text => '-' :: text

/-- The property for `data-` and `rest`: `data-foo-bar` is held as `dataFooBar`. -/
def dataProperty (rest : List Char) : String :=
  "data" ++ String.ofList (raiseFirst (raiseAfterDash rest))

/-- The attribute for `data` and `rest`: `dataFooBar` is written `data-foo-bar`. -/
def dataAttribute (rest : List Char) : String :=
  "data" ++ String.ofList (leadingDash (dashBeforeCapitals rest))

/-- The two names of custom data. A dash after `data` marks an attribute name, which gives the property
name; else the name is a property name, which gives the attribute name unless it has dashed letters. -/
def ofDataName (name : String) : List Char → Info
  | '-' :: rest => { propertyName := dataProperty rest, attributeName := name, defined := true }
  | rest =>
    if hasDashedLetter rest then { propertyName := name, attributeName := name, defined := true }
    else { propertyName := name, attributeName := dataAttribute rest, defined := true }

end Info

end Hyperscript
