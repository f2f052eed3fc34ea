import Hyperscript.Proofs.CallChildren
import Hyperscript.Proofs.FailFast
import Hyperscript.Proofs.FreshNodes

namespace Hyperscript

variable {σ ν : Type}

/-- What a tree is rendered as: itself if it is an element, its only child if it is a root with an element
as its only child, and a `div` around its children if it is any other root. -/
def Node.RendersAs (tree : Node) (element : Element) : Prop :=
  tree = element.toNode ∨ tree = .root [element.toNode] ∨
    ∃ children, tree = .root children ∧ (∀ only : Element, children ≠ [only.toNode]) ∧
      element = { tag := "div", properties := ∅, children }

theorem Renderer.rendersAs_of_rootElement {tree : Node} {element : Element}
    (found : Renderer.rootElement (some tree) = .ok element) : tree.RendersAs element := by
  unfold Renderer.rootElement at found
  split at found
  · next same => cases found; cases same; exact Or.inr (Or.inl rfl)
  · next children others same =>
    cases found
    cases same
    refine Or.inr (Or.inr ⟨children, rfl, ?_, rfl⟩)
    rintro ⟨tag, properties, inner⟩ same
    exact others tag properties inner (by rw [same]; rfl)
  · next same => cases found; cases same; exact Or.inl rfl
  · cases found
  · cases found

/-- How the calls recorded for an element fit together. `places` are the places of the elements in the order
of their calls, and `nodeAt` gives the node of each. -/
structure UsesEachNodeOnce (element : Element) (places : List Place) (nodeAt : Place → ν)
    (entries : List (Entry ν)) (trial result : ν) : Prop where
  /-- There is a call for each element that is reached through elements. -/
  reachable : ∀ place, place ∈ places ↔ ∃ below, element.toNode.elementAt? place = some below
  /-- The calls come in the order of the places, so none comes twice. -/
  order : places.Pairwise Place.Precedes
  calls : List.Forall₂ (fun place entry => ∃ below, element.toNode.elementAt? place = some below ∧
    entry.call.context = some below ∧ entry.node = some (nodeAt place) ∧
    entry.call.children = if below.visibleChildren = [] then none
      else some (Node.childrenFrom nodeAt place 0 below.children)) places entries
  /-- There are three arguments if and only if there are children, and never an empty list of them. -/
  arity : ∀ entry ∈ entries, entry.call.children ≠ some [] ∧
    (entry.call.arity = 3 ↔ ∃ below, entry.call.context = some below ∧ below.visibleChildren ≠ [])
  result_eq : nodeAt [] = result
  /-- Each node is used once: as a child or as the result. -/
  once : (entries.flatMap Entry.used ++ [result]).Perm (entries.filterMap Entry.node)
  distinct : (trial :: entries.filterMap Entry.node).Nodup
  /-- What a call uses was handed out before. -/
  later : ∀ before entry after, entries = before ++ entry :: after →
    ∀ node ∈ entry.used, node ∈ before.filterMap Entry.node

namespace Rendering

section Completed

variable {builder : Builder σ ν} {rendering : Rendering (Traced σ ν) ν} {element : Element} {space : Space}
  {trace : Traced σ ν} {desk : Desk (Traced σ ν) ν}

theorem place_mem_walk_iff {place : Place} :
    place ∈ (Event.created (element.walk space)).map Visit.place ↔
      ∃ below, element.toNode.elementAt? place = some below := by
  simp only [List.mem_map]
  constructor
  · rintro ⟨visit, member, rfl⟩
    obtain ⟨rest, same, found⟩ := Node.elementAt?_of_created element.toNode member
    rw [same, List.nil_append]
    exact ⟨visit.element, found⟩
  · rintro ⟨below, found⟩
    obtain ⟨visit, member, same, _⟩ := Node.created_of_elementAt? [] space 1 element.toNode place found
    exact ⟨visit, member, same⟩

theorem elementAt?_of_walk {visit : Visit} (member : visit ∈ Event.created (element.walk space)) :
    element.toNode.elementAt? visit.place = some visit.element := by
  obtain ⟨rest, same, found⟩ := Node.elementAt?_of_created element.toNode member
  rwa [same, List.nil_append]

theorem walk_childPlaces_perm :
    ((Event.created (element.walk space)).flatMap Visit.childPlaces ++ [[]]).Perm
      ((Event.created (element.walk space)).map Visit.place) :=
  Node.childPlaces_perm [] space 1 element.toNode

/-- A child comes before its parent. -/
theorem childPlaces_before {before after : List Visit} {visit : Visit} {child : Place}
    (walk : Event.created (element.walk space) = before ++ visit :: after) (member : child ∈ visit.childPlaces) :
    child ∈ before.map Visit.place := by
  have listed : child ∈ (Event.created (element.walk space)).map Visit.place := by
    refine walk_childPlaces_perm.subset (List.mem_append_left _ (List.mem_flatMap.mpr ⟨visit, ?_, member⟩))
    rw [walk]
    exact List.mem_append_right _ (List.mem_cons_self ..)
  obtain ⟨i, rfl⟩ := Node.mem_childPlaces member
  have order := element.walk_precedes space
  rw [walk, List.pairwise_append, List.pairwise_cons] at order
  rw [walk, List.map_append, List.map_cons, List.mem_append, List.mem_cons] at listed
  rcases listed with earlier | self | later
  · exact earlier
  · simp at self
  · obtain ⟨other, created, same⟩ := List.mem_map.mp later
    have precedes := order.2.1.1 other created
    rw [same] at precedes
    exact absurd (List.prefix_append _ _) precedes.not_isPrefix

/-- Each node but the result is used for the element above its own. -/
theorem used_perm {result : ν} (here : desk.built [] = some result) :
    (((Event.created (element.walk space)).map (rendering.entryFor desk.built)).flatMap Entry.used ++ [result]).Perm
      (((Event.created (element.walk space)).map (rendering.entryFor desk.built)).filterMap Entry.node) := by
  have places : ((Event.created (element.walk space)).flatMap Visit.childPlaces ++ [[]]).Perm _ :=
    walk_childPlaces_perm
  have perm := places.filterMap desk.built
  rw [List.filterMap_append, ← rendering.entriesFor_nodes, ← rendering.entriesFor_used] at perm
  simpa only [List.filterMap_cons, here, List.filterMap_nil] using perm

theorem usesEachNodeOnce {result trial : ν}
    (passed : rendering.run (element.walk space) (Renderer.emptyDesk trace) = .ok () desk)
    (here : desk.built [] = some result)
    (distinct : (trial :: ((Event.created (element.walk space)).map
      (rendering.entryFor desk.built)).filterMap Entry.node).Nodup) :
    UsesEachNodeOnce element ((Event.created (element.walk space)).map Visit.place)
      (fun place => (desk.built place).getD result)
      ((Event.created (element.walk space)).map (rendering.entryFor desk.built)) trial result := by
  have built : ∀ place ∈ (Event.created (element.walk space)).map Visit.place,
      desk.built place = some ((desk.built place).getD result) := by
    intro place member
    obtain ⟨visit, created, rfl⟩ := List.mem_map.mp member
    obtain ⟨node, found⟩ := run_builds (element.walk_precedes space) passed created
    rw [found, Option.getD_some]
  have childBuilt : ∀ visit ∈ Event.created (element.walk space), ∀ child ∈ visit.childPlaces,
      desk.built child = some ((desk.built child).getD result) := by
    intro visit created child member
    refine built child (walk_childPlaces_perm.subset (List.mem_append_left _ ?_))
    exact List.mem_flatMap.mpr ⟨visit, created, member⟩
  refine ⟨fun place => place_mem_walk_iff, ?_, ?_, ?_, ?_, used_perm here, distinct, ?_⟩
  · exact List.pairwise_map.mpr (element.walk_precedes space)
  · rw [List.forall₂_map_left_iff, List.forall₂_map_right_iff, List.forall₂_same]
    intro visit created
    exact ⟨visit.element, elementAt?_of_walk created, rfl,
      built visit.place (List.mem_map_of_mem created), entryFor_children (childBuilt visit created)⟩
  · intro entry member
    obtain ⟨visit, created, rfl⟩ := List.mem_map.mp member
    exact entryFor_arity (childBuilt visit created)
  · rw [here, Option.getD_some]
  · intro before entry after split node member
    obtain ⟨earlier, others, walk, rfl, same⟩ := List.map_eq_append_iff.mp split
    obtain ⟨visit, later, rfl, rfl, rfl⟩ := List.map_eq_cons_iff.mp same
    rw [entryFor_used, List.mem_filterMap] at member
    obtain ⟨child, below, found⟩ := member
    rw [rendering.entriesFor_nodes, List.mem_filterMap]
    exact ⟨child, childPlaces_before walk below, found⟩

end Completed

end Rendering

namespace Renderer

/-- Rendering loses, repeats and reorders nothing: with a builder that never refuses and whose nodes are
all different, there is one call for each element after the trial, children before their parent, and each
node but that of the trial is used in one later call or is the result. -/
theorem render_uses_each_node_once (renderer : Renderer) {builder : Builder σ ν} {start finish : σ}
    {tree : Node} {result : ν} (willing : builder.NeverRefuses start) (fresh : builder.HandsOutFresh start)
    (rendered : renderer.render (some builder) (some tree) start = .ok result finish) :
    ∃ element trace trial entries places nodeAt, tree.RendersAs element ∧
      renderer.render (some builder.traced) (some tree) { state := start } = .ok result trace ∧
      trace.state = finish ∧ trace.calls = ⟨some trial, Builder.trial⟩ :: entries ∧
      UsesEachNodeOnce element places nodeAt entries trial result := by
  cases found : rootElement (some tree) with
  | error error => rw [render_of_error found] at rendered; cases rendered
  | ok element =>
    rw [renderer.render_dropCalls builder (some tree) { state := start }] at rendered
    rw [render_of_ok found] at rendered ⊢
    have ends := renderer.renderElement_ends builder.traced element { state := start }
    split at ends
    · next desk passed =>
      obtain ⟨node, here, outcome⟩ := ends
      rw [outcome] at rendered
      cases rendered
      have started : builder.traced.Reaches { state := start } (builder.traced.detect { state := start }).2 :=
        Builder.Reaches.start.detect
      have distinct := fresh desk.builder (started.run passed)
      have calls := Rendering.run_ok_calls rfl (element.walk_precedes renderer.options.space) passed
      obtain ⟨trial, after, answered⟩ := willing start .start Builder.trial
      have tried : (builder.traced.detect { state := start }).2.calls = [⟨some trial, Builder.trial⟩] := by
        simp only [Builder.detect, Builder.traced, answered]
        rfl
      simp only [emptyDesk, tried, List.singleton_append] at calls
      rw [calls] at distinct
      exact ⟨element, desk.builder, trial, _, _, _, rendersAs_of_rootElement found, outcome, rfl, calls,
        Rendering.usesEachNodeOnce passed here distinct⟩
    · next error desk failed =>
      rw [ends] at rendered
      cases rendered

/-- A mixed tree is rendered so: a text, an element with an element and a comment in it, and a doctype,
under a root that is rendered as a `div`. -/
theorem render_uses_each_node_once_numbering :
    ∃ element trace trial entries places nodeAt,
      (Node.root [.text "a", .element "p" ∅ [.element "b" ∅ [], .comment "c"], .doctype]).RendersAs element ∧
      Renderer.render {} (some Script.numbering.traced)
        (some (.root [.text "a", .element "p" ∅ [.element "b" ∅ [], .comment "c"], .doctype]))
        { state := {} } = .ok 3 trace ∧
      trace.state = { calls := 4, inspections := 0 } ∧ trace.calls = ⟨some trial, Builder.trial⟩ :: entries ∧
      UsesEachNodeOnce element places nodeAt entries trial 3 :=
  render_uses_each_node_once {} (Script.numbering_neverRefuses {}) (Script.numbering_handsOutFresh {}) rfl

end Renderer

end Hyperscript
