import Hyperscript.Dialect

namespace Hyperscript

/-- What a scripted builder shows and which calls it refuses. -/
structure Script where
  markers : Markers := {}
  /-- The shapes it shows, one for each inspection; the last one serves for all that follow. -/
  shapes : List Shape := []
  /-- The names that it refuses to build. -/
  refuse : List String := []
  /-- The calls that it refuses, counted from zero. -/
  failAt : List Nat := []

/-- How often a scripted builder has been asked. -/
structure Tally where
  calls : Nat := 0
  inspections : Nat := 0
  deriving DecidableEq, Repr

namespace Script

/-- The script with the signs of a dialect. -/
def imitate (script : Script) : Dialect → Script
  | .plain => script
  | .retainedDom => { script with shapes := [{ owner := true }] }
  | .attributesDom => { script with shapes := [{ kind := some Dialect.virtualNode }] }
  | .selectorDom => { script with markers := { context := true, cleanup := true } }
  | .retainedFramework => { script with shapes := [{ frameworkContext := true }] }

def refuses (script : Script) (number : Nat) (name : String) : Bool :=
  script.refuse.contains name || script.failAt.contains number

def shape (script : Script) (inspection : Nat) : Shape :=
  (script.shapes[inspection]?.or script.shapes.getLast?).getD {}

/-- A builder that follows a script. Its nodes are the numbers of their calls. -/
def builder (script : Script) : Builder Tally Nat where
  markers _ := script.markers
  create call tally :=
    let after := { tally with calls := tally.calls + 1 }
    if script.refuses tally.calls call.name then .error "refused" after else .ok tally.calls after
  inspect _ tally := (script.shape tally.inspections, { tally with inspections := tally.inspections + 1 })

/-- A plain function whose nodes are the numbers of their calls. -/
def numbering : Builder Tally Nat :=
  .ofFunction fun _ tally => (tally.calls, { tally with calls := tally.calls + 1 })

end Script

end Hyperscript
