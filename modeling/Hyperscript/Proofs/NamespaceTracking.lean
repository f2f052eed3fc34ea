import Hyperscript.Proofs.CallsMade
import Hyperscript.Proofs.DialectPlacement
import Hyperscript.Proofs.FragmentSpaces

namespace Hyperscript

open Info

variable {σ ν : Type}

namespace Attributes

theorem get?_place_of_ne (attributes : Attributes) {slot : Slot} {key : String} (other : slot.outerKey ≠ key)
    (value : Value) : (place attributes slot value).get? key = attributes.get? key := by
  cases slot with
  | flat taken => exact (attributes.get?_insert taken key value).trans (if_neg (Ne.symm other))
  | nested map name => exact (attributes.get?_insert map key _).trans (if_neg (Ne.symm other))

/-- In the attributes dialect no property of the standard schema is placed at the key for the namespace. -/
theorem outerKey_ne_namespace (space : Space) (name : String) :
    (slotOf .standard .attributesDom space name).outerKey ≠ "namespace" := by
  cases placing : slotOf .standard .attributesDom space name with
  | flat key =>
    obtain ⟨flat, rfl⟩ := ofInfo_eq_flat rfl placing
    have listed := listed_of_staysFlat (mem_table_of_staysFlat flat) flat
    have apart : ∀ row ∈ [classRow, styleRow] ++ stateRows, row.propertyName ≠ "namespace" := by
      decide +kernel
    exact apart _ listed
  | nested map key =>
    obtain ⟨nests, _⟩ := ofInfo_eq_nested placing
    obtain rfl := Option.some.inj nests
    have apart : "attributes" ≠ "namespace" := by decide
    exact apart

/-- No property is placed where the namespace goes. -/
theorem ofProperties_namespace {space : Space} {properties : Properties} {attributes : Attributes}
    (added : ofProperties .standard .attributesDom space properties = .ok attributes) :
    attributes.get? "namespace" = none := by
  have free : ∀ before name value, before.get? "namespace" = none →
      (place before (slotOf .standard .attributesDom space name) value).get? "namespace" = none :=
    fun before name value absent =>
      (get?_place_of_ne before (outerKey_ne_namespace space name) value).trans absent
  exact addAll_keeps free rfl added

end Attributes

namespace Rendering

theorem get?_keyed (rendering : Rendering σ ν) (number : Nat) (attributes : Attributes) {name : String}
    (other : name ≠ "key") : (rendering.keyed number attributes).get? name = attributes.get? name := by
  unfold keyed
  split
  · rfl
  · rw [OrderedMap.get?_insert, if_neg other]

/-- The tag is spelled, and the namespace is given, by the space of the element. -/
theorem shape_attributesDom {rendering : Rendering σ ν} (dialect : rendering.dialect = .attributesDom)
    (schema : rendering.schema = .standard) {space : Space} {element : Element} {name : String}
    {attributes : Attributes} (shaped : rendering.shape space element = .ok (name, attributes)) :
    name = Dialect.tagName .attributesDom space element.tag ∧
      attributes.get? "namespace" = if space = .html then none else some (.text space.uri) := by
  simp only [shape, dialect, schema] at shaped
  split at shaped
  · cases shaped
  · next added =>
    obtain ⟨rfl, rfl⟩ := Prod.mk.inj (Except.ok.inj shaped)
    refine ⟨rfl, ?_⟩
    have free := Attributes.ofProperties_namespace added
    cases space with
    | html => exact free
    | svg => exact OrderedMap.get?_insert ..

end Rendering

/-- A recorded call for a visited element, shaped in the element's space. In the attributes dialect with the
standard schema HTML elements are named in capitals, and others carry the address of their space. -/
structure ShapedInSpace (rendering : Rendering σ ν) (visit : Visit) (entry : Entry ν) : Prop where
  context : entry.call.context = some visit.element
  shaped : ∃ attributes, rendering.shape visit.space visit.element = .ok (entry.call.name, attributes) ∧
    entry.call.attributes = rendering.keyed visit.number attributes
  html : rendering.dialect = .attributesDom → rendering.schema = .standard → visit.space = .html →
    entry.call.name = String.ofList (Text.upperCase visit.element.tag.toList) ∧
      entry.call.attributes.get? "namespace" = none
  svg : rendering.dialect = .attributesDom → rendering.schema = .standard → visit.space = .svg →
    entry.call.name = visit.element.tag ∧
      entry.call.attributes.get? "namespace" = some (.text "http://www.w3.org/2000/svg")

theorem Rendering.entryFor_shapedInSpace {rendering : Rendering σ ν} {visit : Visit}
    (entered : ∃ shaped, rendering.shape visit.space visit.element = .ok shaped) (built : Place → Option ν) :
    ShapedInSpace rendering visit (rendering.entryFor built visit) := by
  obtain ⟨⟨name, attributes⟩, shaped⟩ := entered
  obtain ⟨named, added, context⟩ := entryFor_of_shape shaped built
  have other : "namespace" ≠ "key" := by decide
  have lookup := rendering.get?_keyed visit.number attributes other
  refine ⟨context, ⟨attributes, by rw [named]; exact shaped, added⟩, ?_, ?_⟩
  · intro dialect schema html
    obtain ⟨spelled, address⟩ := shape_attributesDom dialect schema shaped
    rw [named, added, lookup, spelled, address, html]
    exact ⟨rfl, rfl⟩
  · intro dialect schema svg
    obtain ⟨spelled, address⟩ := shape_attributesDom dialect schema shaped
    rw [named, added, lookup, spelled, address, svg]
    exact ⟨rfl, rfl⟩

namespace Renderer

/-- The space in which an element is looked up and shaped depends on the way down to it and on nothing else: it
is the SVG space if and only if the tree stands there or an `svg` element is met on the way, the element itself
included. All calls of a render are shaped in the spaces of their elements. In a fragment, rendered with the
options as they are unless set, these are the spaces in which the attributes of the markup were typed, whatever
markup the parser delivers and whether the fragment is its only element or is put into a `div`. -/
theorem render_tracks_namespace (renderer : Renderer) (builder : Builder σ ν) {tree : Option Node}
    {element : Element} (found : rootElement tree = .ok element) (start : Traced σ ν) :
    (∀ place below, element.toNode.elementAt? place = some below →
      ∃ visit ∈ Event.created (element.walk renderer.options.space),
        visit.place = place ∧ visit.element = below) ∧
    (∀ visit ∈ Event.created (element.walk renderer.options.space),
      element.toNode.elementAt? visit.place = some visit.element ∧
      (visit.space = .svg ↔ renderer.options.space = .svg ∨ element.toNode.MeetsSvg visit.place)) ∧
    (∃ dialect trialled visits entries, builder.traced.detect start = (dialect, trialled) ∧
      (Traced.final (renderer.render (some builder.traced) tree start)).calls = trialled.calls ++ entries ∧
      visits <+: Event.created (element.walk renderer.options.space) ∧
      List.Forall₂ (ShapedInSpace (renderer.rendering builder.traced dialect)) visits entries) ∧
    ∀ markups, ∃ content, rootElement (some (Fragment.tree markups)) = .ok content ∧
      ((∃ markup, Fragment.kept markups = [markup] ∧ markup.toNode? .html = some content.toNode ∧
          ∀ visit ∈ Event.created (content.walk ({} : Renderer).options.space),
            Fragment.IsConversionOf markups (0 :: visit.place) visit) ∨
        content = Fragment.wrapper markups ∧
          ∀ visit ∈ Event.created (content.walk ({} : Renderer).options.space), visit.place ≠ [] →
            Fragment.IsConversionOf markups visit.place visit) := by
  refine ⟨?_, ?_, ?_, Fragment.rootElement_tree⟩
  · intro place below here
    exact Node.created_of_elementAt? [] renderer.options.space 1 element.toNode place here
  · intro visit member
    have here := Rendering.elementAt?_of_walk member
    rw [Element.space_of_walk member]
    exact ⟨here, Node.spaceAt_eq_svg_iff here⟩
  · obtain ⟨visits, built, some, entered, calls, _⟩ := renderer.renderElement_calls builder element start
    rw [render_of_ok found]
    refine ⟨_, _, visits, _, rfl, calls, some, ?_⟩
    rw [List.forall₂_map_right_iff, List.forall₂_same]
    exact fun visit member => Rendering.entryFor_shapedInSpace (entered visit member) built

/-- A drawing in a drawing, and a paragraph after both. The inner drawing and the paragraph have a property
called `namespace`. -/
def drawing : Element where
  tag := "div"
  properties := ∅
  children := [.element "sVg" ∅ [.element "svg" (.ofList [("namespace", .text "mine")]) []],
    .element "p" (.ofList [("namespace", .text "mine")]) []]

theorem render_tracks_namespace_drawing : rootElement (some drawing.toNode) = .ok drawing ∧
    (∀ place below, drawing.toNode.elementAt? place = some below →
      ∃ visit ∈ Event.created (drawing.walk .html), visit.place = place ∧ visit.element = below) ∧
    (∀ visit ∈ Event.created (drawing.walk .html), drawing.toNode.elementAt? visit.place = some visit.element ∧
      (visit.space = .svg ↔ Space.html = .svg ∨ drawing.toNode.MeetsSvg visit.place)) ∧
    ∃ dialect trialled visits entries,
      (Script.imitate {} .attributesDom).builder.traced.detect { state := {} } = (dialect, trialled) ∧
      (Traced.final (Renderer.render {} (some (Script.imitate {} .attributesDom).builder.traced)
        (some drawing.toNode) { state := {} })).calls = trialled.calls ++ entries ∧
      visits <+: Event.created (drawing.walk .html) ∧
      List.Forall₂ (ShapedInSpace (Renderer.rendering {} (Script.imitate {} .attributesDom).builder.traced dialect))
        visits entries := by
  obtain ⟨reached, spaces, calls, _⟩ :=
    render_tracks_namespace {} (Script.imitate {} .attributesDom).builder
      (show rootElement (some drawing.toNode) = .ok drawing from rfl) { state := {} }
  exact ⟨rfl, reached, spaces, calls⟩

end Renderer

end Hyperscript
