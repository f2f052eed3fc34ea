import Hyperscript.Builder

namespace Hyperscript

/-- A call as it was made, with the node that it gave unless it was refused. -/
structure Entry (ν : Type) where
  node : Option ν
  call : Call ν

/-- The state of a builder with all calls made so far, the refused ones too, in order. -/
structure Traced (σ ν : Type) where
  state : σ
  calls : List (Entry ν) := []

namespace Builder

/-- The same builder, with its calls written down. -/
def traced {σ ν : Type} (builder : Builder σ ν) : Builder (Traced σ ν) ν where
  markers trace := builder.markers trace.state
  create call trace :=
    match builder.create call trace.state with
    | .ok node state => .ok node { state, calls := trace.calls ++ [{ node := some node, call }] }
    | .error reason state => .error reason { state, calls := trace.calls ++ [{ node := none, call }] }
  inspect node trace :=
    let (shape, state) := builder.inspect node trace.state
    (shape, { trace with state })

end Builder

end Hyperscript
