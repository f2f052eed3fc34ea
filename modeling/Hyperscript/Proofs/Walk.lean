import Mathlib.Data.List.Infix
import Mathlib.Data.List.Perm.Basic
import Hyperscript.Space
import Hyperscript.Node

namespace Hyperscript

/-- Where an element stands below another: the child numbers on the way down, counted from zero among
all children. The empty place is the upper element itself. -/
abbrev Place := List Nat

/-- An element as a walk meets it. The elements of a walk are numbered as they are entered. -/
structure Visit where
  place : Place
  space : Space
  number : Nat
  element : Element

/-- A walk enters each element before all below it and creates it after all below it. -/
inductive Event
  | enter (visit : Visit)
  | create (visit : Visit)

namespace Event

def visit : Event → Visit
  | .enter visit => visit
  | .create visit => visit

def created? : Event → Option Visit
  | .enter _ => none
  | .create visit => some visit

/-- The elements that some events create, in order. -/
def created (events : List Event) : List Visit :=
  events.filterMap created?

/-- What two runs of events create, they create one after the other. -/
@[simp] theorem created_append (events later : List Event) :
    created (events ++ later) = created events ++ created later :=
  List.filterMap_append

@[simp] theorem created_nil : created [] = [] := rfl

/-- Entering an element creates nothing. -/
@[simp] theorem created_enter (visit : Visit) (rest : List Event) :
    created (.enter visit :: rest) = created rest := rfl

@[simp] theorem created_create (visit : Visit) (rest : List Event) :
    created (.create visit :: rest) = visit :: created rest := rfl

/-- An element is created where its creation is one of the events. -/
theorem mem_created {visit : Visit} {events : List Event} :
    visit ∈ created events ↔ .create visit ∈ events := by
  simp only [created, List.mem_filterMap]
  constructor
  · rintro ⟨event, member, same⟩
    cases event with
    | enter => simp [created?] at same
    | create other => simpa [created?] using (Option.some.inj same) ▸ member
  · intro member
    exact ⟨_, member, rfl⟩

end Event

namespace Node

mutual

/-- The number of elements at and below a node that a walk meets. It does not go into roots. -/
def elementCount : Node → Nat
  | .element _ _ inner => 1 + elementCountAll inner
  | _ => 0

def elementCountAll : List Node → Nat
  | [] => 0
  | node :: rest => node.elementCount + elementCountAll rest

end

mutual

/-- The events at a node that stands at `place` in `space`, if `number` is the next number. -/
def events (place : Place) (space : Space) (number : Nat) : Node → List Event
  | .element tag properties inner =>
    .enter ⟨place, space.enter tag, number, ⟨tag, properties, inner⟩⟩ ::
      (eventsFrom place 0 (space.enter tag) (number + 1) inner ++
        [.create ⟨place, space.enter tag, number, ⟨tag, properties, inner⟩⟩])
  | _ => []

/-- The events at those children of the element at `place` that come from the child `index` on. -/
def eventsFrom (place : Place) (index : Nat) (space : Space) (number : Nat) : List Node → List Event
  | [] => []
  | node :: rest =>
    node.events (place ++ [index]) space number ++
      eventsFrom place (index + 1) space (number + node.elementCount) rest

end

end Node

/-- The walk through an element whose parent is in `space`. -/
def Element.walk (element : Element) (space : Space) : List Event :=
  element.toNode.events [] space 1

end Hyperscript
