import Hyperscript.OrderedMap
import Hyperscript.PropertyValue

namespace Hyperscript

abbrev Properties := OrderedMap PropertyValue

/-- A markup tree. Only elements and texts produce output; a root does so at the top alone. -/
inductive Node
  | root (children : List Node)
  | element (tag : String) (properties : Properties) (children : List Node)
  | text (value : String)
  | comment (value : String)
  | doctype
  | raw (value : String)
  deriving Repr, Inhabited

structure Element where
  tag : String
  properties : Properties
  children : List Node
  deriving Repr, Inhabited

inductive NodeKind
  | root
  | element
  | text
  | comment
  | doctype
  | raw
  deriving DecidableEq, Repr

def NodeKind.name : NodeKind → String
  | .root => "root"
  | .element => "element"
  | .text => "text"
  | .comment => "comment"
  | .doctype => "doctype"
  | .raw => "raw"

namespace Node

def kind : Node → NodeKind
  | .root _ => .root
  | .element .. => .element
  | .text _ => .text
  | .comment _ => .comment
  | .doctype => .doctype
  | .raw _ => .raw

def isElement (node : Node) : Bool :=
  node.kind = .element

/-- Elements and texts. -/
def isVisible (node : Node) : Bool :=
  node.kind = .element || node.kind = .text

def children : Node → List Node
  | .root children => children
  | .element _ _ children => children
  | _ => []

mutual

/-- The texts at and below a node, one after the other in document order. -/
def textContent : Node → String
  | .root children => textOfAll children
  | .element _ _ children => textOfAll children
  | .text value => value
  | _ => ""

def textOfAll : List Node → String
  | [] => ""
  | node :: rest => node.textContent ++ textOfAll rest

end

/-- The same keys with the same values, in any order. -/
def sameProperties (properties properties' : Properties) : Bool :=
  properties.size = properties'.size &&
    properties.entries.all fun entry => (properties'.get? entry.1).any entry.2.same

mutual

/-- Equality of trees up to the order of properties, with numbers compared as values. -/
def same : Node → Node → Bool
  | .root children, .root children' => sameAll children children'
  | .element tag properties children, .element tag' properties' children' =>
    tag = tag' && sameProperties properties properties' && sameAll children children'
  | .text value, .text value' => value = value'
  | .comment value, .comment value' => value = value'
  | .doctype, .doctype => true
  | .raw value, .raw value' => value = value'
  | _, _ => false

def sameAll : List Node → List Node → Bool
  | [], [] => true
  | node :: rest, node' :: rest' => node.same node' && sameAll rest rest'
  | _, _ => false

end

mutual

/-- The tree with the properties of each element ordered by name. -/
def sortProperties : Node → Node
  | .root children => .root (sortAll children)
  | .element tag properties children => .element tag properties.sortKeys (sortAll children)
  | node => node

def sortAll : List Node → List Node
  | [] => []
  | node :: rest => node.sortProperties :: sortAll rest

end

end Node

namespace Element

/-- An element without properties and children. -/
def bare (tag : String) : Element :=
  { tag, properties := ∅, children := [] }

def toNode (element : Element) : Node :=
  .element element.tag element.properties element.children

def setProperty (element : Element) (name : String) (value : PropertyValue) : Element :=
  { element with properties := element.properties.insert name value }

def addChild (element : Element) (child : Node) : Element :=
  { element with children := element.children ++ [child] }

def property? (element : Element) (name : String) : Option PropertyValue :=
  element.properties.get? name

def visibleChildren (element : Element) : List Node :=
  element.children.filter Node.isVisible

end Element

end Hyperscript
