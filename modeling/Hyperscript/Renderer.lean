import Hyperscript.Options
import Hyperscript.Render

namespace Hyperscript

/-- How trees are rendered. It keeps nothing from one tree to the next: each render finds out the
builder's dialect anew and counts its own keys. -/
structure Renderer where
  options : Options := {}
  schema : Schema := .standard

namespace Renderer

variable {σ ν : Type}

/-- The element to render. A root stands for its only child if that is an element, and for a `div` around
its children otherwise. -/
def rootElement : Option Node → Except RenderError Element
  | some (.root [.element tag properties children]) => .ok { tag, properties, children }
  | some (.root children) => .ok { Element.bare "div" with children }
  | some (.element tag properties children) => .ok { tag, properties, children }
  | some other => .error (.invalidNode (some other.kind))
  | none => .error (.invalidNode none)

/-- Render an element through a builder: a trial call first, then one call for each element, children
before their parent, up to the first failure. -/
def renderElement (renderer : Renderer) (builder : Builder σ ν) (element : Element) :
    EStateM RenderError σ ν := fun state =>
  let (dialect, state) := builder.detect state
  let rendering : Rendering σ ν :=
    { builder, schema := renderer.schema, dialect, keyText := renderer.options.keyPrefix.resolve dialect }
  match rendering.element renderer.options.space element { builder := state, keys := 0 } with
  | .ok node progress => .ok node progress.builder
  | .error error progress => .error error progress.builder

/-- Render a tree through a builder, of which either may be missing. A missing builder is reported first,
and a tree that cannot be rendered is reported before the builder is called. -/
def render (renderer : Renderer) (builder : Option (Builder σ ν)) (tree : Option Node) :
    EStateM RenderError σ ν :=
  match builder with
  | none => throw .invalidBuilder
  | some builder =>
    match rootElement tree with
    | .ok element => renderer.renderElement builder element
    | .error error => throw error

end Renderer

end Hyperscript
