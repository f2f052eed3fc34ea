import Mathlib.Data.List.Forall2
import Hyperscript.Proofs.EventRun
import Hyperscript.Proofs.PropertyOrder
import Hyperscript.Renderer

namespace Hyperscript

namespace Node

mutual

/-- Trees that differ only in the order of each element's properties. -/
inductive Reordered : Node → Node → Prop
  | root {children children' : List Node} (below : ReorderedAll children children') :
    Reordered (.root children) (.root children')
  | element (tag : String) {properties properties' : Properties} {children children' : List Node}
    (perm : properties.entries.Perm properties'.entries) (below : ReorderedAll children children') :
    Reordered (.element tag properties children) (.element tag properties' children')
  | text (value : String) : Reordered (.text value) (.text value)
  | comment (value : String) : Reordered (.comment value) (.comment value)
  | doctype : Reordered .doctype .doctype
  | raw (value : String) : Reordered (.raw value) (.raw value)

inductive ReorderedAll : List Node → List Node → Prop
  | nil : ReorderedAll [] []
  | cons {node node' : Node} {rest rest' : List Node} (here : Reordered node node')
    (later : ReorderedAll rest rest') : ReorderedAll (node :: rest) (node' :: rest')

end

mutual

theorem Reordered.elementCount {node node' : Node} : node.Reordered node' → node.elementCount = node'.elementCount
  | .element _ _ below => by rw [Node.elementCount, Node.elementCount, below.elementCountAll]
  | .root _ => rfl
  | .text _ => rfl
  | .comment _ => rfl
  | .doctype => rfl
  | .raw _ => rfl

theorem ReorderedAll.elementCountAll {nodes nodes' : List Node} :
    ReorderedAll nodes nodes' → elementCountAll nodes = elementCountAll nodes'
  | .nil => rfl
  | .cons here later => by
    rw [Node.elementCountAll, Node.elementCountAll, here.elementCount, later.elementCountAll]

end

/-- Reordered children are handed on as the same nodes and texts. -/
theorem ReorderedAll.handedAll {ν : Type} (built : Place → Option ν) (place : Place) (index : Nat)
    {nodes nodes' : List Node} (same : ReorderedAll nodes nodes') :
    Node.handedAll built place index nodes = Node.handedAll built place index nodes' := by
  induction nodes generalizing index nodes' with
  | nil =>
    cases same
    rfl
  | cons node rest ih =>
    cases same with
    | cons here later =>
      rw [handedAll_cons, handedAll_cons, ih (index + 1) later]
      cases here <;> rfl

end Node

/-- Elements that differ only in the order of properties, their own and those of all elements below. -/
structure Element.Reordered (element element' : Element) : Prop where
  tag : element.tag = element'.tag
  perm : element.properties.entries.Perm element'.properties.entries
  below : Node.ReorderedAll element.children element'.children

theorem Element.Reordered.toNode {element element' : Element} (same : element.Reordered element') :
    element.toNode.Reordered element'.toNode := by
  obtain ⟨tag, properties, children⟩ := element
  obtain ⟨tag', properties', children'⟩ := element'
  obtain ⟨rfl, perm, below⟩ := same
  exact .element tag perm below

/-- Visits of elements that differ only in the order of properties. -/
structure Visit.Reordered (visit visit' : Visit) : Prop where
  place : visit.place = visit'.place
  space : visit.space = visit'.space
  number : visit.number = visit'.number
  element : visit.element.Reordered visit'.element

/-- The same event at elements that differ only in the order of properties. -/
inductive Event.Reordered : Event → Event → Prop
  | enter {visit visit' : Visit} (same : visit.Reordered visit') : Reordered (.enter visit) (.enter visit')
  | create {visit visit' : Visit} (same : visit.Reordered visit') : Reordered (.create visit) (.create visit')

namespace Node

mutual

/-- Reordered trees are walked through alike. -/
theorem Reordered.events (place : Place) (space : Space) (number : Nat) {node node' : Node} :
    node.Reordered node' →
      List.Forall₂ Event.Reordered (node.events place space number) (node'.events place space number)
  | @Reordered.element tag properties properties' children children' perm below => by
    have visit : Visit.Reordered ⟨place, space.enter tag, number, ⟨tag, properties, children⟩⟩
        ⟨place, space.enter tag, number, ⟨tag, properties', children'⟩⟩ :=
      ⟨rfl, rfl, rfl, ⟨rfl, perm, below⟩⟩
    rw [Node.events, Node.events]
    exact .cons (.enter visit) (List.rel_append (below.eventsFrom place 0 (space.enter tag) (number + 1))
      (.cons (.create visit) .nil))
  | .root _ => .nil
  | .text _ => .nil
  | .comment _ => .nil
  | .doctype => .nil
  | .raw _ => .nil

theorem ReorderedAll.eventsFrom (place : Place) (index : Nat) (space : Space) (number : Nat)
    {nodes nodes' : List Node} : ReorderedAll nodes nodes' →
      List.Forall₂ Event.Reordered (Node.eventsFrom place index space number nodes)
        (Node.eventsFrom place index space number nodes')
  | .nil => .nil
  | .cons here later => by
    rw [Node.eventsFrom, Node.eventsFrom, here.elementCount]
    exact List.rel_append (here.events _ space number) (later.eventsFrom place (index + 1) space _)

end

end Node

theorem Element.Reordered.walk {element element' : Element} (same : element.Reordered element') (space : Space) :
    List.Forall₂ Event.Reordered (element.walk space) (element'.walk space) :=
  same.toNode.events [] space 1

/-- Reordered trees are rendered as reordered elements, or not at all for the same reason. -/
theorem Renderer.rootElement_reordered {tree tree' : Node} (same : tree.Reordered tree') :
    SameOutcome Element.Reordered (rootElement (some tree)) (rootElement (some tree')) := by
  cases same with
  | element tag perm below => exact .ok ⟨rfl, perm, below⟩
  | text value => exact .error _
  | comment value => exact .error _
  | doctype => exact .error _
  | raw value => exact .error _
  | root below =>
    -- Only a root with a single child that is an element stands for it.
    have whole := below
    cases below with
    | nil => exact .ok ⟨rfl, .nil, whole⟩
    | cons here later =>
      cases later with
      | nil =>
        cases here with
        | element tag perm below => exact .ok ⟨rfl, perm, below⟩
        | _ => exact .ok ⟨rfl, .nil, whole⟩
      | cons second rest => cases here <;> exact .ok ⟨rfl, .nil, whole⟩

end Hyperscript
