import Hyperscript.Proofs.ElementPlaces

namespace Hyperscript

/-- Places in document order: an element comes before all below it, and what stands at or below an earlier
child of an element comes before what stands at or below a later one. -/
def Place.Before (place other : Place) : Prop :=
  (place <+: other ∧ place ≠ other) ∨
    ∃ above i j, i < j ∧ above ++ [i] <+: place ∧ above ++ [j] <+: other

theorem Place.before_below {place other : Place} {i : Nat} (under : place ++ [i] <+: other) :
    Place.Before place other :=
  Or.inl (Place.above_of_child under)

namespace Node

mutual

/-- The places of the elements at and below a node that stands at `place`, in document order. Like a walk it
does not go into roots. -/
def preorder (place : Place) : Node → List Place
  | .element _ _ inner => place :: preorderFrom place 0 inner
  | _ => []

def preorderFrom (place : Place) (index : Nat) : List Node → List Place
  | [] => []
  | node :: rest => node.preorder (place ++ [index]) ++ preorderFrom place (index + 1) rest

end

mutual

/-- A walk meets as many elements as the document order has places. -/
theorem length_preorder (place : Place) : (node : Node) → (node.preorder place).length = node.elementCount
  | .element tag properties inner => by
    simp only [preorder, elementCount, List.length_cons, length_preorderFrom place 0 inner]
    omega
  | .root _ => rfl
  | .text _ => rfl
  | .comment _ => rfl
  | .doctype => rfl
  | .raw _ => rfl

theorem length_preorderFrom (place : Place) (index : Nat) : (nodes : List Node) →
    (preorderFrom place index nodes).length = elementCountAll nodes
  | [] => rfl
  | node :: rest => by
    simp only [preorderFrom, elementCountAll, List.length_append, length_preorder _ node,
      length_preorderFrom place (index + 1) rest]

end

mutual

/-- All places of a node lie at or below its own. -/
theorem isPrefix_of_mem_preorder {place other : Place} : (node : Node) → other ∈ node.preorder place →
    place <+: other
  | .element tag properties inner, member => by
    rw [preorder, List.mem_cons] at member
    rcases member with rfl | below
    · exact List.prefix_rfl
    · obtain ⟨i, _, under⟩ := isPrefix_of_mem_preorderFrom inner below
      exact (List.prefix_append place [i]).trans under
  | .root _, member => by cases member
  | .text _, member => by cases member
  | .comment _, member => by cases member
  | .doctype, member => by cases member
  | .raw _, member => by cases member

theorem isPrefix_of_mem_preorderFrom {place other : Place} {index : Nat} : (nodes : List Node) →
    other ∈ preorderFrom place index nodes → ∃ i, index ≤ i ∧ place ++ [i] <+: other
  | [], member => by cases member
  | node :: rest, member => by
    rw [preorderFrom, List.mem_append] at member
    rcases member with here | later
    · exact ⟨index, le_rfl, isPrefix_of_mem_preorder node here⟩
    · obtain ⟨i, bound, under⟩ := isPrefix_of_mem_preorderFrom rest later
      exact ⟨i, by omega, under⟩

end

mutual

/-- The places stand in document order. -/
theorem preorder_before (place : Place) : (node : Node) → (node.preorder place).Pairwise Place.Before
  | .element tag properties inner => by
    rw [preorder, List.pairwise_cons]
    refine ⟨?_, preorderFrom_before place 0 inner⟩
    intro other below
    obtain ⟨i, _, under⟩ := isPrefix_of_mem_preorderFrom inner below
    exact Place.before_below under
  | .root _ => .nil
  | .text _ => .nil
  | .comment _ => .nil
  | .doctype => .nil
  | .raw _ => .nil

theorem preorderFrom_before (place : Place) (index : Nat) : (nodes : List Node) →
    (preorderFrom place index nodes).Pairwise Place.Before
  | [] => .nil
  | node :: rest => by
    rw [preorderFrom, List.pairwise_append]
    refine ⟨preorder_before _ node, preorderFrom_before _ _ rest, ?_⟩
    intro other here later there
    obtain ⟨i, bound, under⟩ := isPrefix_of_mem_preorderFrom rest there
    exact Or.inr ⟨place, index, i, bound, isPrefix_of_mem_preorder node here, under⟩

end

mutual

/-- A walk creates the elements of the document order, in another order. -/
theorem created_perm_preorder (place : Place) (space : Space) (number : Nat) : (node : Node) →
    ((Event.created (node.events place space number)).map Visit.place).Perm (node.preorder place)
  | .element tag properties inner => by
    simp only [events, preorder, Event.created_enter, Event.created_append, Event.created_create,
      Event.created_nil, List.map_append, List.map_cons, List.map_nil]
    exact (List.perm_append_singleton _ _).trans ((createdFrom_perm_preorderFrom _ _ _ _ inner).cons _)
  | .root _ => .nil
  | .text _ => .nil
  | .comment _ => .nil
  | .doctype => .nil
  | .raw _ => .nil

theorem createdFrom_perm_preorderFrom (place : Place) (index : Nat) (space : Space) (number : Nat) :
    (nodes : List Node) → ((Event.created (eventsFrom place index space number nodes)).map Visit.place).Perm
      (preorderFrom place index nodes)
  | [] => .nil
  | node :: rest => by
    rw [eventsFrom, preorderFrom, Event.created_append, List.map_append]
    exact (created_perm_preorder _ _ _ node).append (createdFrom_perm_preorderFrom _ _ _ _ rest)

end

mutual

/-- The number of an element says how many elements come before it in document order, whatever the order in
which the walk creates them. -/
theorem number_of_created {visit : Visit} {place : Place} {space : Space} {number : Nat} : (node : Node) →
    visit ∈ Event.created (node.events place space number) →
      ∃ i, (node.preorder place)[i]? = some visit.place ∧ visit.number = number + i
  | .element tag properties inner, member => by
    simp only [events, Event.created_enter, Event.created_append, Event.created_create, Event.created_nil,
      List.mem_append, List.mem_singleton] at member
    rcases member with below | rfl
    · obtain ⟨i, found, same⟩ := number_of_createdFrom inner below
      exact ⟨i + 1, by rwa [preorder, List.getElem?_cons_succ], by omega⟩
    · exact ⟨0, rfl, rfl⟩
  | .root _, member => by cases member
  | .text _, member => by cases member
  | .comment _, member => by cases member
  | .doctype, member => by cases member
  | .raw _, member => by cases member

theorem number_of_createdFrom {visit : Visit} {place : Place} {index : Nat} {space : Space} {number : Nat} :
    (nodes : List Node) → visit ∈ Event.created (eventsFrom place index space number nodes) →
      ∃ i, (preorderFrom place index nodes)[i]? = some visit.place ∧ visit.number = number + i
  | [], member => by cases member
  | node :: rest, member => by
    rw [eventsFrom, Event.created_append, List.mem_append] at member
    rcases member with here | later
    · obtain ⟨i, found, same⟩ := number_of_created node here
      obtain ⟨bound, _⟩ := List.getElem?_eq_some_iff.mp found
      exact ⟨i, by rw [preorderFrom, List.getElem?_append_left bound, found], same⟩
    · obtain ⟨i, found, same⟩ := number_of_createdFrom rest later
      refine ⟨node.elementCount + i, ?_, by omega⟩
      rw [preorderFrom, List.getElem?_append_right (by rw [length_preorder]; omega), length_preorder,
        Nat.add_sub_cancel_left, found]

end

mutual

/-- The numbers of a walk are used up without gaps. -/
theorem numbers_perm_range (place : Place) (space : Space) (number : Nat) : (node : Node) →
    ((Event.created (node.events place space number)).map Visit.number).Perm
      (List.range' number node.elementCount)
  | .element tag properties inner => by
    simp only [events, elementCount, Event.created_enter, Event.created_append, Event.created_create,
      Event.created_nil, List.map_append, List.map_cons, List.map_nil, Nat.add_comm 1, List.range'_succ]
    exact (List.perm_append_singleton _ _).trans ((numbersFrom_perm_range _ _ _ _ inner).cons _)
  | .root _ => .nil
  | .text _ => .nil
  | .comment _ => .nil
  | .doctype => .nil
  | .raw _ => .nil

theorem numbersFrom_perm_range (place : Place) (index : Nat) (space : Space) (number : Nat) :
    (nodes : List Node) → ((Event.created (eventsFrom place index space number nodes)).map Visit.number).Perm
      (List.range' number (elementCountAll nodes))
  | [] => .nil
  | node :: rest => by
    rw [eventsFrom, elementCountAll, Event.created_append, List.map_append, ← List.range'_append_1]
    exact (numbers_perm_range _ _ _ node).append (numbersFrom_perm_range _ _ _ _ rest)

end

end Node

/-- The places of all elements that are reached from an element through elements, in document order. -/
def Element.documentOrder (element : Element) : List Place :=
  element.toNode.preorder []

end Hyperscript
