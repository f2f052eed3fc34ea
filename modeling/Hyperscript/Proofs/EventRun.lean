import Mathlib.Logic.Function.Basic
import Hyperscript.Proofs.PostOrder
import Hyperscript.Proofs.StyleFaults
import Hyperscript.Render

namespace Hyperscript

/-- The state between two events of a walk: the builder's, and the nodes built so far under the places of
their elements. -/
structure Desk (σ ν : Type) where
  builder : σ
  built : Place → Option ν

/-- A child as it is handed on, if it is visible and, for an element, built. -/
def Node.handed? {ν : Type} (built : Place → Option ν) (place : Place) : Node → Option (Child ν)
  | .element .. => (built place).map .node
  | .text value => some (.text value)
  | _ => none

/-- The children handed on for an element at `place`, in document order. -/
def Node.handedAll {ν : Type} (built : Place → Option ν) (place : Place) (index : Nat) (nodes : List Node) :
    List (Child ν) :=
  (nodes.zipIdx index).filterMap fun numbered => numbered.1.handed? built (place ++ [numbered.2])

namespace Node

variable {ν : Type}

theorem handedAll_cons (built : Place → Option ν) (place : Place) (index : Nat) (node : Node)
    (rest : List Node) :
    handedAll built place index (node :: rest) =
      (node.handed? built (place ++ [index])).toList ++ handedAll built place (index + 1) rest := by
  unfold handedAll
  rw [List.zipIdx_cons, List.filterMap_cons]
  cases node.handed? built (place ++ [index]) <;> rfl

theorem handed?_congr {built built' : Place → Option ν} {place : Place} (node : Node)
    (same : built place = built' place) : node.handed? built place = node.handed? built' place := by
  cases node <;> simp [handed?, same]

/-- What is handed on depends on what is built for the children and on nothing else. -/
theorem handedAll_congr {built built' : Place → Option ν} {place : Place} {index : Nat} (nodes : List Node)
    (same : ∀ i, index ≤ i → built (place ++ [i]) = built' (place ++ [i])) :
    handedAll built place index nodes = handedAll built' place index nodes := by
  induction nodes generalizing index with
  | nil => rfl
  | cons node rest ih =>
    rw [handedAll_cons, handedAll_cons, handed?_congr node (same index le_rfl),
      ih fun i bound => same i (by omega)]

end Node

namespace Rendering

variable {σ ν : Type} (rendering : Rendering σ ν)

/-- Attributes with the key of the element with a number, if keys are generated. -/
def keyed (number : Nat) (attributes : Attributes) : Attributes :=
  match rendering.keyText with
  | none => attributes
  | some text => attributes.insert "key" (.text (text ++ toString number))

/-- The name and the attributes of the call for a visited element, its key included. An element with a
rejected style is never created, so its call does not matter. -/
def dressed (visit : Visit) : String × Attributes :=
  match rendering.shape visit.space visit.element with
  | .error _ => (visit.element.tag, ∅)
  | .ok (name, attributes) => (name, rendering.keyed visit.number attributes)

/-- The call for a visited element when its children are built. -/
def callFor (built : Place → Option ν) (visit : Visit) : Call ν where
  name := (rendering.dressed visit).1
  attributes := (rendering.dressed visit).2
  children :=
    if (Node.handedAll built visit.place 0 visit.element.children).isEmpty then none
    else some (Node.handedAll built visit.place 0 visit.element.children)
  context := some visit.element

/-- One event. Entering an element fails for a rejected style, and creating one if the builder refuses. -/
def occur : Event → Desk σ ν → EStateM.Result RenderError (Desk σ ν) Unit
  | .enter visit, desk =>
    match rendering.shape visit.space visit.element with
    | .ok _ => .ok () desk
    | .error fault => .error (.invalidStyle visit.element.tag fault) desk
  | .create visit, desk =>
    match rendering.builder.create (rendering.callFor desk.built visit) desk.builder with
    | .ok node builder => .ok () { builder, built := Function.update desk.built visit.place (some node) }
    | .error reason builder => .error (.refused visit.element.tag reason) { desk with builder }

/-- Events one after the other, up to the first that fails. -/
def run : List Event → Desk σ ν → EStateM.Result RenderError (Desk σ ν) Unit
  | [], desk => .ok () desk
  | event :: rest, desk =>
    match rendering.occur event desk with
    | .ok _ desk => run rest desk
    | .error error desk => .error error desk

theorem run_append (events later : List Event) (desk : Desk σ ν) :
    rendering.run (events ++ later) desk =
      match rendering.run events desk with
      | .ok _ desk => rendering.run later desk
      | .error error desk => .error error desk := by
  induction events generalizing desk with
  | nil => rfl
  | cons event rest ih =>
    simp only [List.cons_append, run]
    split
    · exact ih _
    · rfl

/-- A run fails at the first event that fails: all events before it take place, and none after it. -/
theorem run_error_iff {events : List Event} {desk last : Desk σ ν} {error : RenderError} :
    rendering.run events desk = .error error last ↔ ∃ before event after reached,
      events = before ++ event :: after ∧ rendering.run before desk = .ok () reached ∧
      rendering.occur event reached = .error error last := by
  constructor
  · intro failed
    induction events generalizing desk with
    | nil => simp [run] at failed
    | cons event rest ih =>
      simp only [run] at failed
      split at failed
      · next next passed =>
        obtain ⟨before, culprit, after, reached, rfl, first, found⟩ := ih failed
        exact ⟨event :: before, culprit, after, reached, rfl, by simpa only [run, passed] using first, found⟩
      · next found =>
        cases failed
        exact ⟨[], event, rest, desk, rfl, rfl, found⟩
  · rintro ⟨before, event, after, reached, rfl, first, found⟩
    simp only [run_append, first, run, found]

end Rendering

end Hyperscript
