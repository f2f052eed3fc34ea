import Hyperscript.PropertyValue
import Hyperscript.Text.Pieces

namespace Hyperscript.TokenList

open Text

/-- The words of a space-separated list. -/
def parseSpaces (value : String) : List String :=
  (words value.toList).map String.ofList

/-- The items of a comma-separated list, trimmed. Empty items count, but a single one at the end stands
for nothing: a list may end in a comma. -/
def parseCommas (value : String) : List String :=
  let items := (pieces (· = ',') value.toList).map trim
  (if items.getLast? = some [] then items.dropLast else items).map String.ofList

def joinTrimmed (separator : List Char) (items : List (List Char)) : String :=
  String.ofList (trim (separator.intercalate items))

def printSpaces (tokens : List Token) : String :=
  joinTrimmed [' '] (tokens.map fun token => token.toText.toList)

/-- A comma-separated list. An empty item at the end is written twice, as one of the two is not read. -/
def printCommas (tokens : List Token) : String :=
  let items := tokens.map fun token => token.toText.toList
  joinTrimmed [',', ' '] (if items.getLast? = some [] then items ++ [[]] else items)

end Hyperscript.TokenList
