import Hyperscript.Proofs.LinearUse

namespace Hyperscript

namespace Node

/-- The space that holds for the element at a place below a node whose parent is in `space`. It is entered
with each element on the way down, the element itself included. -/
def spaceAt (space : Space) : Node → Place → Space
  | .element tag _ _, [] => space.enter tag
  | .element tag _ children, index :: rest =>
    match children[index]? with
    | some child => child.spaceAt (space.enter tag) rest
    | none => space.enter tag
  | _, _ => space

mutual

/-- A walk is in the space of the place, whatever it has met before. -/
theorem spaceAt_of_created {visit : Visit} {place : Place} {space : Space} {number : Nat} : (node : Node) →
    visit ∈ Event.created (node.events place space number) →
      ∃ rest, visit.place = place ++ rest ∧ visit.space = node.spaceAt space rest
  | .element tag properties inner, member => by
    simp only [events, Event.created_enter, Event.created_append, Event.created_create, Event.created_nil,
      List.mem_append, List.mem_singleton] at member
    rcases member with below | rfl
    · obtain ⟨i, child, rest, found, there, same⟩ := spaceAt_of_createdFrom inner below
      refine ⟨i :: rest, by simpa using there, ?_⟩
      simp only [spaceAt, found, same]
    · exact ⟨[], by simp, rfl⟩
  | .root _, member => by cases member
  | .text _, member => by cases member
  | .comment _, member => by cases member
  | .doctype, member => by cases member
  | .raw _, member => by cases member

theorem spaceAt_of_createdFrom {visit : Visit} {place : Place} {index : Nat} {space : Space} {number : Nat} :
    (nodes : List Node) → visit ∈ Event.created (eventsFrom place index space number nodes) →
      ∃ i child rest, nodes[i]? = some child ∧ visit.place = place ++ [index + i] ++ rest ∧
        visit.space = child.spaceAt space rest
  | [], member => by cases member
  | node :: later, member => by
    rw [eventsFrom, Event.created_append, List.mem_append] at member
    rcases member with here | there
    · obtain ⟨rest, below, same⟩ := spaceAt_of_created node here
      exact ⟨0, node, rest, rfl, by simpa using below, same⟩
    · obtain ⟨i, child, rest, found, below, same⟩ := spaceAt_of_createdFrom later there
      refine ⟨i + 1, child, rest, by simpa using found, ?_, same⟩
      rw [below, show index + 1 + i = index + (i + 1) by omega]

end

/-- An element named `svg`, in any ASCII case, is met on the way from a node down to a place, at its beginning or
end or between. -/
def MeetsSvg (node : Node) (place : Place) : Prop :=
  ∃ above upper, above <+: place ∧ node.elementAt? above = some upper ∧
    upper.tag.toList.map Char.toLower = ['s', 'v', 'g']

theorem meetsSvg_nil {tag : String} {properties : Properties} {children : List Node} :
    (Node.element tag properties children).MeetsSvg [] ↔ tag.toList.map Char.toLower = ['s', 'v', 'g'] := by
  constructor
  · rintro ⟨above, upper, within, found, svg⟩
    obtain rfl := List.prefix_nil.mp within
    cases found
    exact svg
  · exact fun svg => ⟨[], ⟨tag, properties, children⟩, List.prefix_rfl, rfl, svg⟩

/-- The path through a child meets what the child is told to meet, and the parent. -/
theorem meetsSvg_cons {tag : String} {properties : Properties} {children : List Node} {index : Nat}
    {rest : Place} {child : Node} (found : children[index]? = some child) :
    (Node.element tag properties children).MeetsSvg (index :: rest) ↔
      tag.toList.map Char.toLower = ['s', 'v', 'g'] ∨ child.MeetsSvg rest := by
  constructor
  · rintro ⟨above, upper, within, here, svg⟩
    cases above with
    | nil =>
      cases here
      exact Or.inl svg
    | cons i above =>
      obtain ⟨rfl, shorter⟩ := List.cons_prefix_cons.mp within
      rw [elementAt?, found, Option.bind_some] at here
      exact Or.inr ⟨above, upper, shorter, here, svg⟩
  · rintro (svg | ⟨above, upper, within, here, svg⟩)
    · exact ⟨[], ⟨tag, properties, children⟩, List.nil_prefix, rfl, svg⟩
    · exact ⟨index :: above, upper, List.cons_prefix_cons.mpr ⟨rfl, within⟩,
        by rw [elementAt?, found, Option.bind_some, here], svg⟩

/-- Which space holds for an element depends on the way down to it only. -/
theorem spaceAt_eq_svg_iff {space : Space} {node : Node} {place : Place} {below : Element}
    (found : node.elementAt? place = some below) :
    node.spaceAt space place = .svg ↔ space = .svg ∨ node.MeetsSvg place := by
  induction place generalizing node space with
  | nil =>
    cases node with
    | element tag properties children => rw [spaceAt, meetsSvg_nil, Space.enter_eq_svg_iff]
    | _ => cases found
  | cons index rest ih =>
    cases node with
    | element tag properties children =>
      rw [elementAt?, Option.bind_eq_some_iff] at found
      obtain ⟨child, here, found⟩ := found
      rw [spaceAt, here, meetsSvg_cons here, ← or_assoc, ← Space.enter_eq_svg_iff]
      exact ih found
    | _ => cases found

end Node

/-- A walk has at each place the space that the path to it leads to. -/
theorem Element.space_of_walk {element : Element} {space : Space} {visit : Visit}
    (member : visit ∈ Event.created (element.walk space)) :
    visit.space = element.toNode.spaceAt space visit.place := by
  obtain ⟨rest, same, found⟩ := Node.spaceAt_of_created element.toNode member
  rw [same, List.nil_append, found]

end Hyperscript
