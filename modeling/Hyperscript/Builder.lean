import Hyperscript.Node
import Hyperscript.Value

namespace Hyperscript

/-- A child as it is handed to a builder: a node built before, or text. -/
inductive Child (ν : Type)
  | node (node : ν)
  | text (value : String)
  deriving DecidableEq, Repr

/-- One request to build an element. `children` is absent, and never empty, where there is no child:
some builders take an empty list for content. `context` is the element of the tree, absent in a trial. -/
structure Call (ν : Type) where
  name : String
  attributes : Attributes
  children : Option (List (Child ν))
  context : Option Element
  deriving Repr

def Call.arity {ν : Type} (call : Call ν) : Nat :=
  if call.children.isSome then 3 else 2

/-- What can be seen of a built node. -/
structure Shape where
  kind : Option String := none
  owner : Bool := false
  key : Option String := none
  frameworkContext : Bool := false
  deriving DecidableEq, Repr

/-- What can be seen of a builder without a call. -/
structure Markers where
  context : Bool := false
  cleanup : Bool := false
  deriving DecidableEq, Repr

/-- A function that builds elements, with a state `σ` of its own and nodes of type `ν`. A call may be
refused, with a reason; the state after a refusal counts. -/
structure Builder (σ ν : Type) where
  markers : σ → Markers
  create : Call ν → EStateM String σ ν
  inspect : ν → StateM σ Shape

namespace Builder

/-- A plain function as a builder: it never refuses and shows nothing of itself. -/
def ofFunction {σ ν : Type} (build : Call ν → StateM σ ν) : Builder σ ν where
  markers _ := {}
  create call state := .ok (build call state).1 (build call state).2
  inspect _ := pure {}

end Builder

end Hyperscript
