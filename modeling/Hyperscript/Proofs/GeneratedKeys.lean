import Mathlib.Data.List.Forall2
import Hyperscript.Proofs.CallsMade
import Hyperscript.Proofs.DocumentOrder
import Hyperscript.Proofs.LinearUse

namespace Hyperscript

variable {σ ν : Type}

/-- A recorded call for a visited element: its attributes are those of the element's properties, namespace
and selector, and where keys are generated a key with the element's number, in the flat map. -/
structure CarriesKey (rendering : Rendering σ ν) (visit : Visit) (entry : Entry ν) : Prop where
  context : entry.call.context = some visit.element
  unkeyed : rendering.keyText = none →
    rendering.shape visit.space visit.element = .ok (entry.call.name, entry.call.attributes)
  keyed : ∀ text, rendering.keyText = some text → ∃ attributes,
    rendering.shape visit.space visit.element = .ok (entry.call.name, attributes) ∧
      entry.call.attributes = attributes.insert "key" (.text (text ++ toString visit.number)) ∧
      entry.call.attributes.get? "key" = some (.text (text ++ toString visit.number))

/-- How the calls of one render are numbered: `visits` are the elements of the calls in the order in which
these are made, which is not the order of the numbers. Each has the space that the walk from `space` has there. -/
structure NumberedInDocumentOrder (rendering : Rendering σ ν) (space : Space) (element : Element)
    (visits : List Visit) (entries : List (Entry ν)) : Prop where
  walked : visits <+: Event.created (element.walk space)
  /-- The document order has each element that is reached through elements, and nothing else. -/
  reachable : ∀ place, place ∈ element.documentOrder ↔ ∃ below, element.toNode.elementAt? place = some below
  ordered : element.documentOrder.Pairwise Place.Before
  made : visits.Pairwise fun visit later => Place.Precedes visit.place later.place
  numbered : ∀ visit ∈ visits, 1 ≤ visit.number ∧
    element.documentOrder[visit.number - 1]? = some visit.place ∧
    element.toNode.elementAt? visit.place = some visit.element
  calls : List.Forall₂ (CarriesKey rendering) visits entries
  differ : rendering.keyText ≠ none →
    entries.Pairwise fun entry later => entry.call.attributes.get? "key" ≠ later.call.attributes.get? "key"

namespace Element

/-- The document order has what is reached through elements. -/
theorem mem_documentOrder {element : Element} {place : Place} :
    place ∈ element.documentOrder ↔ ∃ below, element.toNode.elementAt? place = some below := by
  rw [documentOrder, ← (Node.created_perm_preorder [] .html 1 element.toNode).mem_iff]
  exact Rendering.place_mem_walk_iff

/-- An element has the number of its place in document order, counted from one. -/
theorem number_of_walk {element : Element} {space : Space} {visit : Visit}
    (member : visit ∈ Event.created (element.walk space)) :
    1 ≤ visit.number ∧ element.documentOrder[visit.number - 1]? = some visit.place := by
  obtain ⟨i, found, same⟩ := Node.number_of_created element.toNode member
  rw [same, Nat.add_sub_cancel_left]
  exact ⟨Nat.le_add_right 1 i, found⟩

/-- The numbers of a walk are those from one up to the number of elements, each once. -/
theorem walk_numbers_perm (element : Element) (space : Space) :
    ((Event.created (element.walk space)).map Visit.number).Perm
      (List.range' 1 element.documentOrder.length) := by
  rw [documentOrder, Node.length_preorder]
  exact Node.numbers_perm_range [] space 1 element.toNode

/-- No two elements of a walk have the same number. -/
theorem walk_numbers_differ (element : Element) (space : Space) :
    (Event.created (element.walk space)).Pairwise fun visit later => visit.number ≠ later.number := by
  have distinct := (element.walk_numbers_perm space).nodup_iff.mpr List.nodup_range'
  exact List.pairwise_map.mp distinct

end Element

/-- Behind one prefix two numbers make two keys. -/
theorem key_injective (text : String) {number other : Nat}
    (same : text ++ toString number = text ++ toString other) : number = other := by
  have back : ∀ n, Nat.ofDigitChars 10 (Nat.toDigits 10 n) 0 = n :=
    fun _ => Nat.ofDigitChars_toDigits (by decide) (by decide)
  have digits : Nat.toDigits 10 number = Nat.toDigits 10 other :=
    String.ofList_injective ((String.append_right_inj text).mp same)
  rw [← back number, digits, back]

namespace Rendering

theorem entryFor_carriesKey {rendering : Rendering σ ν} {visit : Visit}
    (entered : ∃ shaped, rendering.shape visit.space visit.element = .ok shaped) (built : Place → Option ν) :
    CarriesKey rendering visit (rendering.entryFor built visit) := by
  obtain ⟨⟨name, attributes⟩, shaped⟩ := entered
  obtain ⟨named, added, context⟩ := entryFor_of_shape shaped built
  refine ⟨context, ?_, ?_⟩
  · intro none
    rw [named, added, keyed, none]
    exact shaped
  · intro text some
    refine ⟨attributes, by rw [named]; exact shaped, by rw [added, keyed, some], ?_⟩
    rw [added, keyed, some, OrderedMap.get?_insert, if_pos rfl]

theorem numberedInDocumentOrder {rendering : Rendering σ ν} {element : Element} {space : Space}
    {visits : List Visit} (some : visits <+: Event.created (element.walk space))
    (entered : ∀ visit ∈ visits, ∃ shaped, rendering.shape visit.space visit.element = .ok shaped)
    (built : Place → Option ν) :
    NumberedInDocumentOrder rendering space element visits (visits.map (rendering.entryFor built)) where
  walked := some
  reachable _ := Element.mem_documentOrder
  ordered := Node.preorder_before [] element.toNode
  made := (element.walk_precedes space).sublist some.sublist
  numbered visit member := by
    obtain ⟨positive, found⟩ := Element.number_of_walk (some.subset member)
    exact ⟨positive, found, elementAt?_of_walk (some.subset member)⟩
  calls := by
    rw [List.forall₂_map_right_iff, List.forall₂_same]
    exact fun visit member => entryFor_carriesKey (entered visit member) built
  differ keys := by
    obtain ⟨text, found⟩ := Option.ne_none_iff_exists'.mp keys
    have numbers := (element.walk_numbers_differ space).sublist some.sublist
    rw [List.pairwise_map]
    refine numbers.imp_of_mem ?_
    intro visit later member member' other same
    obtain ⟨_, _, _, here⟩ := (entryFor_carriesKey (entered visit member) built).keyed text found
    obtain ⟨_, _, _, there⟩ := (entryFor_carriesKey (entered later member') built).keyed text found
    rw [here, there, Option.some.injEq, Value.text.injEq] at same
    exact other (key_injective text same)

end Rendering

namespace Renderer

/-- Generated keys follow the document order, although an element is created after all below it. The call for
the element that is the `i`-th of all elements in document order has the key with the number `i` in its flat
map, whatever its properties are. So no two keys of a render are the same, and a render that succeeds uses
the numbers from one up to the number of elements. Without a prefix no key is added. -/
theorem render_numbers_in_document_order (renderer : Renderer) (builder : Builder σ ν) {tree : Option Node}
    {element : Element} (found : rootElement tree = .ok element) (start : Traced σ ν) :
    ∃ dialect trialled answer visits entries, builder.traced.detect start = (dialect, trialled) ∧
      trialled.calls = start.calls ++ [⟨answer, Builder.trial⟩] ∧
      (Traced.final (renderer.render (some builder.traced) tree start)).calls = trialled.calls ++ entries ∧
      (renderer.rendering builder.traced dialect).keyText = renderer.options.keyPrefix.resolve dialect ∧
      NumberedInDocumentOrder (renderer.rendering builder.traced dialect) renderer.options.space element visits
        entries ∧
      ∀ result finish, renderer.render (some builder.traced) tree start = .ok result finish →
        (visits.map Visit.number).Perm (List.range' 1 element.documentOrder.length) := by
  obtain ⟨answer, tried, _⟩ := builder.traced_detect start
  obtain ⟨visits, built, some, entered, calls, all⟩ := renderer.renderElement_calls builder element start
  rw [render_of_ok found]
  refine ⟨_, _, answer, visits, _, rfl, tried, calls, rfl,
    Rendering.numberedInDocumentOrder some entered built, ?_⟩
  intro result finish done
  rw [all result finish done]
  exact element.walk_numbers_perm _

/-- A list of three elements with text between them, of which the last has a key of its own. -/
def keyedList : Element where
  tag := "ul"
  properties := ∅
  children := [.element "li" ∅ [.element "b" ∅ []], .text "and", .element "li" (.ofList [("key", .text "mine")]) []]

theorem render_numbers_in_document_order_list : rootElement (some (.root [keyedList.toNode])) = .ok keyedList ∧
    ∃ dialect trialled answer visits entries,
      Script.numbering.traced.detect { state := {} } = (dialect, trialled) ∧
      trialled.calls = [] ++ [⟨answer, Builder.trial⟩] ∧
      (Traced.final (Renderer.render { options := .ofText "row-" } (some Script.numbering.traced)
        (some (.root [keyedList.toNode])) { state := {} })).calls = trialled.calls ++ entries ∧
      (Renderer.rendering { options := .ofText "row-" } Script.numbering.traced dialect).keyText = some "row-" ∧
      NumberedInDocumentOrder (Renderer.rendering { options := .ofText "row-" } Script.numbering.traced dialect)
        .html keyedList visits entries ∧
      ∀ result finish, Renderer.render { options := .ofText "row-" } (some Script.numbering.traced)
          (some (.root [keyedList.toNode])) { state := {} } = .ok result finish →
        (visits.map Visit.number).Perm (List.range' 1 4) :=
  ⟨rfl, render_numbers_in_document_order { options := .ofText "row-" } Script.numbering rfl { state := {} }⟩

end Renderer

end Hyperscript
