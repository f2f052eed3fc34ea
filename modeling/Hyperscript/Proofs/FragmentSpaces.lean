import Hyperscript.Fragment.Tree
import Hyperscript.Proofs.SpacePaths
import Hyperscript.Renderer

namespace Hyperscript.Fragment

/-- An element of markup as it is converted. Its attributes are typed in `space`. -/
structure Conversion where
  space : Space
  tag : String
  attributes : List (String × String)
  children : List Markup

def Conversion.element (conversion : Conversion) : Element where
  tag := conversion.tag
  properties := typedProperties conversion.space conversion.attributes
  children := Markup.toNodes conversion.space conversion.children

/-- The markup that has nodes. A place in a tree counts these only. -/
def kept (markups : List Markup) : List Markup :=
  markups.filter Markup.isKept

namespace Markup

/-- The conversion of the element at a place below markup whose parent is in `space`. -/
def conversionAt? (space : Space) : Markup → Place → Option Conversion
  | .element tag attributes children, [] => some ⟨space.enter tag, tag, attributes, children⟩
  | .element tag _ children, index :: rest =>
    (kept children)[index]?.bind fun child => child.conversionAt? (space.enter tag) rest
  | _, _ => none

theorem toNode?_isSome (space : Space) (markup : Markup) : (markup.toNode? space).isSome = markup.isKept := by
  cases markup <;> rfl

/-- The nodes are those of the markup that has nodes, one for each. -/
theorem map_some_toNodes (space : Space) (markups : List Markup) :
    (toNodes space markups).map some = (kept markups).map (toNode? space) := by
  induction markups with
  | nil => rfl
  | cons markup rest ih =>
    have stays := toNode?_isSome space markup
    rw [kept, List.filter_cons, ← kept, ← stays, toNodes, List.map_append, ih]
    cases here : markup.toNode? space with
    | none => rfl
    | some node =>
      rw [Option.isSome_some, if_pos rfl, List.map_cons, here]
      rfl

theorem getElem?_toNodes_eq_some {space : Space} {markups : List Markup} {index : Nat} {node : Node}
    (here : (toNodes space markups)[index]? = some node) :
    ∃ markup, (kept markups)[index]? = some markup ∧ markup.toNode? space = some node := by
  have listed := congrArg (·[index]?) (map_some_toNodes space markups)
  simp only [List.getElem?_map, here, Option.map_some] at listed
  exact Option.map_eq_some_iff.mp listed.symm

/-- The elements of converted markup are the conversions of its elements, and they stand in the spaces in
which their attributes were typed. -/
theorem conversionAt?_of_elementAt? {space : Space} {markup : Markup} {node : Node} {place : Place}
    {below : Element} (converts : markup.toNode? space = some node) (found : node.elementAt? place = some below) :
    ∃ conversion, markup.conversionAt? space place = some conversion ∧ below = conversion.element ∧
      node.spaceAt space place = conversion.space := by
  induction place generalizing markup node space with
  | nil =>
    cases markup with
    | element tag attributes children =>
      cases converts
      cases found
      exact ⟨_, rfl, rfl, rfl⟩
    | _ =>
      cases converts
      try cases found
  | cons index rest ih =>
    cases markup with
    | element tag attributes children =>
      obtain rfl := Option.some.inj converts
      rw [Node.elementAt?, Option.bind_eq_some_iff] at found
      obtain ⟨child, here, found⟩ := found
      obtain ⟨inner, listed, converts⟩ := getElem?_toNodes_eq_some here
      obtain ⟨conversion, converted, same, typed⟩ := ih converts found
      refine ⟨conversion, by rw [conversionAt?, listed, Option.bind_some, converted], same, ?_⟩
      rw [Node.spaceAt, here]
      exact typed
    | _ =>
      cases converts
      try cases found

end Markup

/-- The conversion of the element at a place of a fragment, whose first number says at which place of the
whole fragment it begins. -/
def conversionAt? (markups : List Markup) : Place → Option Conversion
  | [] => none
  | index :: rest => (kept markups)[index]?.bind fun markup => markup.conversionAt? .html rest

/-- A visited element is the conversion of the markup at a place, and it is visited in the space in which the
attributes of that markup were typed. -/
def IsConversionOf (markups : List Markup) (place : Place) (visit : Visit) : Prop :=
  ∃ conversion, conversionAt? markups place = some conversion ∧ visit.element = conversion.element ∧
    visit.space = conversion.space

theorem isConversionOf_of_element {markups : List Markup} {node : Node} {index : Nat} {visit : Visit}
    {rest : Place} (here : (Markup.toNodes .html markups)[index]? = some node)
    (found : node.elementAt? rest = some visit.element) (space : visit.space = node.spaceAt .html rest) :
    IsConversionOf markups (index :: rest) visit := by
  obtain ⟨markup, listed, converts⟩ := Markup.getElem?_toNodes_eq_some here
  obtain ⟨conversion, converted, same, typed⟩ := Markup.conversionAt?_of_elementAt? converts found
  exact ⟨conversion, by rw [conversionAt?, listed, Option.bind_some, converted], same, by rw [space, typed]⟩

/-- The `div` around all of a fragment. -/
def wrapper (markups : List Markup) : Element :=
  { Element.bare "div" with children := Markup.toNodes .html markups }

/-- Below the `div` around a fragment each place is one of the fragment itself. -/
theorem isConversionOf_of_wrapper {markups : List Markup} {visit : Visit}
    (member : visit ∈ Event.created ((wrapper markups).walk .html)) (below : visit.place ≠ []) :
    IsConversionOf markups visit.place visit := by
  have found := Rendering.elementAt?_of_walk member
  have space := Element.space_of_walk member
  obtain ⟨index, rest, split⟩ := List.exists_cons_of_ne_nil below
  rw [split] at found space ⊢
  simp only [wrapper, Element.toNode, Node.elementAt?, Node.spaceAt, Option.bind_eq_some_iff] at found space
  obtain ⟨node, here, found⟩ := found
  rw [here] at space
  exact isConversionOf_of_element here found space

/-- A fragment is rendered as its only element, or as a `div` around all that it has. Both ways each element of
the markup is visited in the space in which its attributes were typed. -/
theorem rootElement_tree (markups : List Markup) : ∃ element,
    Renderer.rootElement (some (tree markups)) = .ok element ∧
      ((∃ markup, kept markups = [markup] ∧ markup.toNode? .html = some element.toNode ∧
          ∀ visit ∈ Event.created (element.walk .html), IsConversionOf markups (0 :: visit.place) visit) ∨
        element = wrapper markups ∧
          ∀ visit ∈ Event.created (element.walk .html), visit.place ≠ [] →
            IsConversionOf markups visit.place visit) := by
  have wrapped : ∀ visit ∈ Event.created ((wrapper markups).walk .html), visit.place ≠ [] →
      IsConversionOf markups visit.place visit := fun _ => isConversionOf_of_wrapper
  have nodes := Markup.map_some_toNodes .html markups
  by_cases lone : ∃ tag properties children, Markup.toNodes .html markups = [.element tag properties children]
  · obtain ⟨tag, properties, children, lone⟩ := lone
    rw [lone, List.map_singleton, eq_comm, List.map_eq_singleton_iff] at nodes
    obtain ⟨markup, single, converts⟩ := nodes
    refine ⟨⟨tag, properties, children⟩, by rw [tree, lone]; rfl, Or.inl ⟨markup, single, converts, ?_⟩⟩
    intro visit member
    exact isConversionOf_of_element (by rw [lone]; rfl) (Rendering.elementAt?_of_walk member)
      (Element.space_of_walk member)
  · refine ⟨wrapper markups, ?_, Or.inr ⟨rfl, wrapped⟩⟩
    rw [tree, Renderer.rootElement, wrapper]
    intro tag properties children single
    exact lone ⟨tag, properties, children, single⟩

end Hyperscript.Fragment
