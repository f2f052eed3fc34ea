import Hyperscript.Builder
import Hyperscript.Space
import Hyperscript.Text.UpperCase

namespace Hyperscript

/-- The calling conventions of builders. -/
inductive Dialect
  /-- No conventions: attributes as in markup. -/
  | plain
  /-- Attributes flat under property names, styles as objects, keys. -/
  | retainedDom
  /-- Attributes in a nested map, upper-case HTML tags, an explicit namespace, styles as objects, keys. -/
  | attributesDom
  /-- Attributes in a nested map, id and classes in the tag name, flags as empty texts. -/
  | selectorDom
  /-- Attributes in a nested map, styles as objects, keys. -/
  | retainedFramework
  deriving DecidableEq, Repr, Inhabited

namespace Dialect

/-- The kind under which nodes of the attributes dialect are known. -/
def virtualNode : String := "VirtualNode"

/-- The dialect that markers and the shape of a trial node show; the shape is absent when the trial was
refused. The selector dialect shows in the markers alone, and the retained one only without a key. -/
def classify (markers : Markers) (shape : Option Shape) : Dialect :=
  if markers.context && markers.cleanup then .selectorDom
  else match shape with
    | none => .plain
    | some shape =>
      if shape.kind = some virtualNode then .attributesDom
      else if shape.frameworkContext then .retainedFramework
      else if shape.owner && shape.key.isNone then .retainedDom
      else .plain

/-- Whether children are reconciled by keys, so that keys are generated unless this is forbidden. -/
def generatesKeys : Dialect → Bool
  | .retainedDom | .attributesDom | .retainedFramework => true
  | .plain | .selectorDom => false

/-- Whether a known boolean must be left out when it is false. -/
def explicitBooleans : Dialect → Bool
  | .attributesDom | .selectorDom | .retainedFramework => true
  | .plain | .retainedDom => false

/-- Whether styles are passed as objects. -/
def objectStyle : Dialect → Bool
  | .retainedDom | .attributesDom | .retainedFramework => true
  | .plain | .selectorDom => false

/-- The name of the nested map that holds most attributes. -/
def nestedMap? : Dialect → Option String
  | .attributesDom => some "attributes"
  | .selectorDom | .retainedFramework => some "attrs"
  | .plain | .retainedDom => none

def foldsSelector (dialect : Dialect) : Bool :=
  dialect = .selectorDom

/-- Whether elements outside HTML carry the address of their space. -/
def namesSpace (dialect : Dialect) : Bool :=
  dialect = .attributesDom

def tagName (dialect : Dialect) (space : Space) (tag : String) : String :=
  if dialect = .attributesDom && space = .html then String.ofList (Text.upperCase tag.toList) else tag

end Dialect

namespace Builder

variable {σ ν : Type}

/-- The call that finds out a builder's dialect: a bare `div` that stands for no element. -/
def trial : Call ν where
  name := "div"
  attributes := ∅
  children := none
  context := none

/-- Find out the dialect by one trial call. A refusal is no error; there is only no shape to look at. -/
def detect (builder : Builder σ ν) : StateM σ Dialect := fun state =>
  let markers := builder.markers state
  match builder.create trial state with
  | .ok node after =>
    let (shape, seen) := builder.inspect node after
    (.classify markers (some shape), seen)
  | .error _ after => (.classify markers none, after)

end Builder

end Hyperscript
