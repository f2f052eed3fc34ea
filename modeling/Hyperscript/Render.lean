import Hyperscript.Attributes
import Hyperscript.Selector

namespace Hyperscript

inductive RenderError
  | invalidBuilder
  /-- The tree is neither a root nor an element; nothing at all is `none`. -/
  | invalidNode (kind : Option NodeKind)
  | invalidStyle (tag : String) (error : Style.Error)
  | refused (tag : String) (reason : String)
  deriving DecidableEq, Repr

def RenderError.message : RenderError → String
  | .invalidBuilder => "builder is not callable"
  | .invalidNode kind =>
    "Expected root or element, not `" ++ (kind.map NodeKind.name).getD "undefined" ++ "`"
  | .invalidStyle tag error => tag ++ "[style]:" ++ error.message
  | .refused tag reason => "builder failed on `" ++ tag ++ "`: " ++ reason

/-- What stays the same while one tree is rendered. -/
structure Rendering (σ ν : Type) where
  builder : Builder σ ν
  schema : Schema
  dialect : Dialect
  /-- What keys begin with, if keys are generated. -/
  keyText : Option String

/-- What changes on the way: the state of the builder, and the number of keys given so far. -/
structure Progress (σ : Type) where
  builder : σ
  keys : Nat
  deriving Repr

abbrev RenderM (σ : Type) := EStateM RenderError (Progress σ)

namespace Rendering

variable {σ ν : Type}

/-- The name and the attributes of an element's call, but for the key. -/
def shape (rendering : Rendering σ ν) (space : Space) (element : Element) :
    Except Style.Error (String × Attributes) :=
  match Attributes.ofProperties rendering.schema rendering.dialect space element.properties with
  | .error error => .error error
  | .ok attributes =>
    let name := rendering.dialect.tagName space element.tag
    let attributes :=
      if rendering.dialect.namesSpace && space ≠ .html then
        attributes.insert "namespace" (.text space.uri)
      else attributes
    .ok (if rendering.dialect.foldsSelector then Selector.fold name attributes else (name, attributes))

def checkStyle (tag : String) {α : Type} : Except Style.Error α → RenderM σ α
  | .ok value => pure value
  | .error error => throw (.invalidStyle tag error)

/-- Add the next key, if keys are generated. Whatever had its name gives way. -/
def addKey (rendering : Rendering σ ν) (attributes : Attributes) : RenderM σ Attributes :=
  match rendering.keyText with
  | none => pure attributes
  | some text => do
    let number ← modifyGet fun progress => (progress.keys + 1, { progress with keys := progress.keys + 1 })
    return attributes.insert "key" (.text (text ++ toString number))

def create (rendering : Rendering σ ν) (tag : String) (call : Call ν) : RenderM σ ν := fun progress =>
  match rendering.builder.create call progress.builder with
  | .ok node builder => .ok node { progress with builder }
  | .error reason builder => .error (.refused tag reason) { progress with builder }

/-- Render an element in the space that holds for it, given how its children are rendered. It takes its
key on the way down and is built on the way up. -/
def buildElement (rendering : Rendering σ ν) (space : Space) (element : Element)
    (renderChildren : RenderM σ (List (Child ν))) : RenderM σ ν := do
  let (name, attributes) ← checkStyle element.tag (rendering.shape space element)
  let attributes ← rendering.addKey attributes
  let children ← renderChildren
  rendering.create element.tag
    { name, attributes, children := if children.isEmpty then none else some children, context := some element }

mutual

/-- Render a child of an element in `space`, if it is visible. -/
def child? (rendering : Rendering σ ν) (space : Space) : Node → RenderM σ (Option (Child ν))
  | .element tag properties inner => do
    let node ← rendering.buildElement (space.enter tag) { tag, properties, children := inner }
      (rendering.children (space.enter tag) inner)
    return some (.node node)
  | .text value => return some (.text value)
  | _ => return none

/-- Render the visible ones of some children of an element in `space`, in document order. -/
def children (rendering : Rendering σ ν) (space : Space) : List Node → RenderM σ (List (Child ν))
  | [] => return []
  | node :: rest => do
    let first ← rendering.child? space node
    let others ← rendering.children space rest
    return first.toList ++ others

end

/-- Render an element whose parent is in `space`, with all below it. -/
def element (rendering : Rendering σ ν) (space : Space) (element : Element) : RenderM σ ν :=
  rendering.buildElement (space.enter element.tag) element
    (rendering.children (space.enter element.tag) element.children)

end Rendering

end Hyperscript
