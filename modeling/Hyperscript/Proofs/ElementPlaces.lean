import Mathlib.Data.List.Perm.Basic
import Hyperscript.Proofs.PostOrder

namespace Hyperscript

namespace Node

/-- The element at a place at or below a node, if the way down leads through elements only. -/
def elementAt? : Node → Place → Option Element
  | .element tag properties children, [] => some ⟨tag, properties, children⟩
  | .element _ _ children, index :: rest => children[index]?.bind fun child => child.elementAt? rest
  | _, _ => none

/-- The places of the element children among some nodes, which are the children from `index` on of the
element at `place`. -/
def childPlaces (place : Place) (index : Nat) (nodes : List Node) : List Place :=
  (nodes.zipIdx index).filterMap fun numbered =>
    if numbered.1.isElement then some (place ++ [numbered.2]) else none

theorem childPlaces_cons (place : Place) (index : Nat) (node : Node) (rest : List Node) :
    childPlaces place index (node :: rest) =
      (if node.isElement then [place ++ [index]] else []) ++ childPlaces place (index + 1) rest := by
  unfold childPlaces
  rw [List.zipIdx_cons, List.filterMap_cons]
  cases node.isElement <;> rfl

theorem mem_childPlaces {place other : Place} {index : Nat} {nodes : List Node}
    (member : other ∈ childPlaces place index nodes) : ∃ i, other = place ++ [i] := by
  simp only [childPlaces, List.mem_filterMap, Option.ite_none_right_eq_some, Option.some.injEq] at member
  obtain ⟨numbered, _, _, same⟩ := member
  exact ⟨numbered.2, same.symm⟩

end Node

/-- The places of the element children of a visited element. -/
def Visit.childPlaces (visit : Visit) : List Place :=
  Node.childPlaces visit.place 0 visit.element.children

namespace Node

mutual

/-- What a walk creates at or below a node stands at its place. -/
theorem elementAt?_of_created {visit : Visit} {place : Place} {space : Space} {number : Nat} :
    (node : Node) → visit ∈ Event.created (node.events place space number) →
      ∃ rest, visit.place = place ++ rest ∧ node.elementAt? rest = some visit.element
  | .element tag properties inner, member => by
    simp only [events, Event.created_enter, Event.created_append, Event.created_create,
      Event.created_nil, List.mem_append, List.mem_singleton] at member
    rcases member with below | rfl
    · obtain ⟨i, child, rest, found, there, same⟩ := elementAt?_of_createdFrom inner below
      refine ⟨i :: rest, by simpa using there, ?_⟩
      simp only [elementAt?, found, Option.bind_some, same]
    · exact ⟨[], by simp, rfl⟩
  | .root _, member => by simp [events] at member
  | .text _, member => by simp [events] at member
  | .comment _, member => by simp [events] at member
  | .doctype, member => by simp [events] at member
  | .raw _, member => by simp [events] at member

theorem elementAt?_of_createdFrom {visit : Visit} {place : Place} {index : Nat} {space : Space}
    {number : Nat} : (nodes : List Node) →
      visit ∈ Event.created (eventsFrom place index space number nodes) →
      ∃ i child rest, nodes[i]? = some child ∧ visit.place = place ++ [index + i] ++ rest ∧
        child.elementAt? rest = some visit.element
  | [], member => by simp [eventsFrom] at member
  | node :: later, member => by
    simp only [eventsFrom, Event.created_append, List.mem_append] at member
    rcases member with here | there
    · obtain ⟨rest, same, found⟩ := elementAt?_of_created node here
      exact ⟨0, node, rest, rfl, by simpa using same, found⟩
    · obtain ⟨i, child, rest, at_, same, found⟩ := elementAt?_of_createdFrom later there
      refine ⟨i + 1, child, rest, by simpa using at_, ?_, found⟩
      rw [same, show index + 1 + i = index + (i + 1) by omega]

end

mutual

/-- A walk creates every element at or below a node. -/
theorem created_of_elementAt? {below : Element} (place : Place) (space : Space) (number : Nat) :
    (node : Node) → (rest : Place) → node.elementAt? rest = some below →
      ∃ visit ∈ Event.created (node.events place space number),
        visit.place = place ++ rest ∧ visit.element = below
  | .element tag properties inner, [], found => by
    simp only [elementAt?, Option.some.injEq] at found
    refine ⟨⟨place, space.enter tag, number, ⟨tag, properties, inner⟩⟩, ?_, by simp, found⟩
    simp [events]
  | .element tag properties inner, i :: rest, found => by
    simp only [elementAt?, Option.bind_eq_some_iff] at found
    obtain ⟨child, at_, found⟩ := found
    obtain ⟨visit, member, there, same⟩ :=
      createdFrom_of_elementAt? place 0 (space.enter tag) (number + 1) inner i rest at_ found
    refine ⟨visit, ?_, by simpa using there, same⟩
    simp [events, member]
  | .root _, _, found => by simp [elementAt?] at found
  | .text _, _, found => by simp [elementAt?] at found
  | .comment _, _, found => by simp [elementAt?] at found
  | .doctype, _, found => by simp [elementAt?] at found
  | .raw _, _, found => by simp [elementAt?] at found

theorem createdFrom_of_elementAt? {below : Element} {child : Node} (place : Place) (index : Nat)
    (space : Space) (number : Nat) : (nodes : List Node) → (i : Nat) → (rest : Place) →
      nodes[i]? = some child → child.elementAt? rest = some below →
      ∃ visit ∈ Event.created (eventsFrom place index space number nodes),
        visit.place = place ++ [index + i] ++ rest ∧ visit.element = below
  | [], i, _, at_, _ => by simp at at_
  | node :: later, 0, rest, at_, found => by
    simp only [List.getElem?_cons_zero, Option.some.injEq] at at_
    subst at_
    obtain ⟨visit, member, there, same⟩ :=
      created_of_elementAt? (place ++ [index]) space number node rest found
    exact ⟨visit, by simp [eventsFrom, member], there, same⟩
  | node :: later, i + 1, rest, at_, found => by
    simp only [List.getElem?_cons_succ] at at_
    obtain ⟨visit, member, there, same⟩ := createdFrom_of_elementAt? place (index + 1) space
      (number + node.elementCount) later i rest at_ found
    refine ⟨visit, by simp [eventsFrom, member], ?_, same⟩
    rw [there, show index + 1 + i = index + (i + 1) by omega]

end

mutual

/-- Each place at which a walk creates an element is either where the walk starts or the place of a child
of an element created, and it is so once. -/
theorem childPlaces_perm (place : Place) (space : Space) (number : Nat) : (node : Node) →
    ((Event.created (node.events place space number)).flatMap Visit.childPlaces ++
        if node.isElement then [place] else []).Perm
      ((Event.created (node.events place space number)).map Visit.place)
  | .element tag properties inner => by
    have below := childPlacesFrom_perm place 0 (space.enter tag) (number + 1) inner
    simp only [events, Event.created_enter, Event.created_append, Event.created_create,
      Event.created_nil, List.flatMap_append, List.map_append, List.flatMap_cons, List.flatMap_nil,
      List.append_nil, List.map_cons, List.map_nil]
    exact below.append_right [place]
  | .root _ => List.Perm.nil
  | .text _ => List.Perm.nil
  | .comment _ => List.Perm.nil
  | .doctype => List.Perm.nil
  | .raw _ => List.Perm.nil

theorem childPlacesFrom_perm (place : Place) (index : Nat) (space : Space) (number : Nat) :
    (nodes : List Node) →
    ((Event.created (eventsFrom place index space number nodes)).flatMap Visit.childPlaces ++
        childPlaces place index nodes).Perm
      ((Event.created (eventsFrom place index space number nodes)).map Visit.place)
  | [] => List.Perm.nil
  | node :: rest => by
    have here := childPlaces_perm (place ++ [index]) space number node
    have later := childPlacesFrom_perm place (index + 1) space (number + node.elementCount) rest
    simp only [eventsFrom, Event.created_append, List.flatMap_append, List.map_append, childPlaces_cons]
    refine List.Perm.trans ?_ (here.append later)
    rw [List.append_assoc, List.append_assoc]
    exact (List.perm_append_comm_assoc _ _ _).append_left _

end

end Node

end Hyperscript
