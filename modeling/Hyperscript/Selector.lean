import Hyperscript.Text.Pieces
import Hyperscript.Value

namespace Hyperscript.Selector

/-- The map that the selector dialect nests its attributes in. -/
def nestedName : String := "attrs"

/-- Take an attribute out, from the flat map or else from the nested one. A nested map that is left empty
goes too. -/
def take (attributes : Attributes) (key : String) : Option Value × Attributes :=
  match attributes.get? key with
  | some value => (some value, attributes.erase key)
  | none =>
    match attributes.get? nestedName with
    | some (.map entries) =>
      let left := entries.erase key
      (entries.get? key,
        if left.isEmpty then attributes.erase nestedName else attributes.insert nestedName (.map left))
    | _ => (none, attributes)

def idPart (value : Option Value) : String :=
  match value.bind Value.toText? with
  | some text => if text = "" then "" else "#" ++ text
  | none => ""

def classPart (value : Option Value) : String :=
  match value.bind Value.toText? with
  | some text => String.ofList ((Text.words text.toList).flatMap ('.' :: ·))
  | none => ""

/-- Move id and classes from the attributes into the name: `h1#intro.large.bold`. -/
def fold (name : String) (attributes : Attributes) : String × Attributes :=
  let (id, attributes) := take attributes "id"
  let (classes, attributes) := take attributes "class"
  (name ++ idPart id ++ classPart classes, attributes)

end Hyperscript.Selector
