import Hyperscript.Proofs.Recording
import Hyperscript.Proofs.ReorderedTrees
import Hyperscript.Script

namespace Hyperscript

variable {σ ν : Type}

/-- The same call up to the order of attributes, whatever element it is made for. -/
structure Call.Same (call call' : Call ν) : Prop where
  name : call.name = call'.name
  attributes : Attributes.Same call.attributes call'.attributes
  children : call.children = call'.children

/-- The same call with the same answer. -/
structure Entry.Same (entry entry' : Entry ν) : Prop where
  node : entry.node = entry'.node
  call : entry.call.Same entry'.call
  arity : entry.call.arity = entry'.call.arity

theorem Entry.Same.of_call {call call' : Call ν} (same : call.Same call') (node : Option ν) :
    Entry.Same ⟨node, call⟩ ⟨node, call'⟩ :=
  ⟨rfl, same, by simp only [Call.arity, same.children]⟩

/-- The same result or the same error, with related states. -/
inductive SameEnd {ε σ α : Type} (related : σ → σ → Prop) :
    EStateM.Result ε σ α → EStateM.Result ε σ α → Prop
  | ok (value : α) {state state' : σ} (same : related state state') :
    SameEnd related (.ok value state) (.ok value state')
  | error (error : ε) {state state' : σ} (same : related state state') :
    SameEnd related (.error error state) (.error error state')

/-- The answers of the builder depend neither on the order of attributes nor on the element of the tree. Its
states may depend on them, but only so that they are still alike: no later answer tells them apart. -/
structure Builder.IgnoresOrder (builder : Builder σ ν) (alike : σ → σ → Prop) : Prop where
  refl : ∀ state, alike state state
  create : ∀ {call call' state state'}, call.Same call' → alike state state' →
    SameEnd alike (builder.create call state) (builder.create call' state')

/-- Alike states after the same calls with the same answers. -/
structure Traced.Same (alike : σ → σ → Prop) (trace trace' : Traced σ ν) : Prop where
  state : alike trace.state trace'.state
  calls : List.Forall₂ Entry.Same trace.calls trace'.calls

/-- The same nodes are built, and the states of the builder are alike. -/
structure Desk.Same (alike : σ → σ → Prop) (desk desk' : Desk (Traced σ ν) ν) : Prop where
  builder : desk.builder.Same alike desk'.builder
  built : desk.built = desk'.built

/-- No two properties of the element that leave a trace have the same key in the same map. -/
def Visit.PlacedApart (dialect : Dialect) (visit : Visit) : Prop :=
  visit.element.properties.entries.Pairwise (Attributes.Apart .standard dialect visit.space)

/-- A builder that does not look at the order of attributes does not do so when it is recorded. -/
theorem Builder.IgnoresOrder.traced {builder : Builder σ ν} {alike : σ → σ → Prop}
    (ignores : builder.IgnoresOrder alike) {call call' : Call ν} (same : call.Same call')
    {trace trace' : Traced σ ν} (traces : trace.Same alike trace') :
    SameEnd (Traced.Same alike) (builder.traced.create call trace) (builder.traced.create call' trace') := by
  have answers := ignores.create same traces.state
  simp only [Builder.traced]
  revert answers
  generalize builder.create call trace.state = outcome
  generalize builder.create call' trace'.state = outcome'
  intro answers
  cases answers with
  | ok node states => exact .ok node ⟨states, List.rel_append traces.calls (.cons (.of_call same _) .nil)⟩
  | error reason states =>
    exact .error reason ⟨states, List.rel_append traces.calls (.cons (.of_call same _) .nil)⟩

/-- The trial is the same call for every tree. -/
theorem Builder.IgnoresOrder.detect {builder : Builder σ ν} {alike : σ → σ → Prop}
    (ignores : builder.IgnoresOrder alike) (state : σ) :
    (builder.traced.detect { state }).2.Same alike (builder.traced.detect { state }).2 := by
  obtain ⟨answer, calls, _⟩ := builder.traced_detect { state }
  have trial : (Builder.trial : Call ν).Same Builder.trial := ⟨rfl, .empty, rfl⟩
  rw [List.nil_append] at calls
  refine ⟨ignores.refl _, ?_⟩
  rw [calls]
  exact .cons (.of_call trial answer) .nil

namespace Rendering

/-- Elements with reordered properties are shaped to the same attributes. -/
theorem dressed_same {rendering : Rendering σ ν} (standard : rendering.schema = .standard) {visit visit' : Visit}
    (same : visit.Reordered visit') (apart : visit.PlacedApart rendering.dialect) :
    SameShape (rendering.dressed visit) (rendering.dressed visit') := by
  have shapes := shape_perm standard visit.space same.element.tag same.element.perm apart
  unfold dressed
  rw [← same.space, ← same.number, ← same.element.tag]
  revert shapes
  generalize rendering.shape visit.space visit.element = outcome
  generalize rendering.shape visit.space visit'.element = outcome'
  intro shapes
  cases shapes with
  | error => exact ⟨rfl, .empty⟩
  | ok shaped => exact ⟨shaped.1, rendering.keyed_same visit.number shaped.2⟩

theorem callFor_same {rendering : Rendering σ ν} (standard : rendering.schema = .standard) {visit visit' : Visit}
    (same : visit.Reordered visit') (apart : visit.PlacedApart rendering.dialect) (built : Place → Option ν) :
    (rendering.callFor built visit).Same (rendering.callFor built visit') := by
  obtain ⟨name, attributes⟩ := dressed_same standard same apart
  refine ⟨name, attributes, ?_⟩
  simp only [callFor, ← same.place, ← same.element.below.handedAll]

section Traced

variable {builder : Builder σ ν} {alike : σ → σ → Prop} {rendering : Rendering (Traced σ ν) ν}

/-- The same event at elements that differ in the order of properties ends in the same way. -/
theorem occur_same (recorded : rendering.builder = builder.traced) (standard : rendering.schema = .standard)
    (ignores : builder.IgnoresOrder alike) {event event' : Event} (same : event.Reordered event')
    (apart : event.visit.PlacedApart rendering.dialect) {desk desk' : Desk (Traced σ ν) ν}
    (desks : desk.Same alike desk') :
    SameEnd (Desk.Same alike) (rendering.occur event desk) (rendering.occur event' desk') := by
  cases same with
  | @enter visit visit' same =>
    have shapes := shape_perm standard visit.space same.element.tag same.element.perm apart
    simp only [occur]
    rw [← same.space, ← same.element.tag]
    revert shapes
    generalize rendering.shape visit.space visit.element = outcome
    generalize rendering.shape visit.space visit'.element = outcome'
    intro shapes
    cases shapes with
    | ok => exact .ok () desks
    | error fault => exact .error _ desks
  | @create visit visit' same =>
    have answers := ignores.traced (callFor_same standard same apart desk.built) desks.builder
    simp only [occur, recorded]
    rw [← same.place, ← same.element.tag, ← desks.built]
    revert answers
    generalize builder.traced.create (rendering.callFor desk.built visit) desk.builder = outcome
    generalize builder.traced.create (rendering.callFor desk.built visit') desk'.builder = outcome'
    intro answers
    cases answers with
    | ok node states => exact .ok () ⟨states, rfl⟩
    | error reason states => exact .error _ ⟨states, rfl⟩

/-- Runs through reordered trees keep together, up to the first event that fails in both. -/
theorem run_same (recorded : rendering.builder = builder.traced) (standard : rendering.schema = .standard)
    (ignores : builder.IgnoresOrder alike) {events events' : List Event}
    (same : List.Forall₂ Event.Reordered events events')
    (apart : ∀ event ∈ events, event.visit.PlacedApart rendering.dialect) {desk desk' : Desk (Traced σ ν) ν}
    (desks : desk.Same alike desk') :
    SameEnd (Desk.Same alike) (rendering.run events desk) (rendering.run events' desk') := by
  induction same generalizing desk desk' with
  | nil => exact .ok () desks
  | @cons event event' rest rest' here _ ih =>
    obtain ⟨first, others⟩ := List.forall_mem_cons.mp apart
    have occurred := occur_same recorded standard ignores here first desks
    simp only [run]
    revert occurred
    generalize rendering.occur event desk = outcome
    generalize rendering.occur event' desk' = outcome'
    intro occurred
    cases occurred with
    | ok _ reached => exact ih others reached
    | error error reached => exact .error error reached

end Traced

end Rendering

namespace Renderer

theorem renderElement_same (renderer : Renderer) (standard : renderer.schema = .standard) {builder : Builder σ ν}
    {alike : σ → σ → Prop} (ignores : builder.IgnoresOrder alike) {element element' : Element}
    (same : element.Reordered element') (state : σ)
    (apart : ∀ event ∈ element.walk renderer.options.space,
      event.visit.PlacedApart (builder.detect state).1) :
    SameEnd (Traced.Same alike) (renderer.renderElement builder.traced element { state })
      (renderer.renderElement builder.traced element' { state }) := by
  obtain ⟨_, _, detected⟩ := builder.traced_detect { state }
  rw [detected] at apart
  have start : (emptyDesk (builder.traced.detect { state }).2 : Desk (Traced σ ν) ν).Same alike
      (emptyDesk (builder.traced.detect { state }).2) := ⟨ignores.detect state, rfl⟩
  have runs : SameEnd (Desk.Same alike)
      ((renderer.rendering builder.traced (builder.traced.detect { state }).1).run
        (element.walk renderer.options.space) (emptyDesk (builder.traced.detect { state }).2))
      ((renderer.rendering builder.traced (builder.traced.detect { state }).1).run
        (element'.walk renderer.options.space) (emptyDesk (builder.traced.detect { state }).2)) :=
    Rendering.run_same rfl standard ignores (same.walk renderer.options.space) apart start
  have ends := renderer.renderElement_ends builder.traced element { state }
  have ends' := renderer.renderElement_ends builder.traced element' { state }
  revert runs ends ends'
  generalize (renderer.rendering builder.traced (builder.traced.detect { state }).1).run
    (element.walk renderer.options.space) (emptyDesk (builder.traced.detect { state }).2) = outcome
  generalize (renderer.rendering builder.traced (builder.traced.detect { state }).1).run
    (element'.walk renderer.options.space) (emptyDesk (builder.traced.detect { state }).2) = outcome'
  intro runs
  cases runs with
  | ok _ desks =>
    rintro ⟨node, here, finish⟩ ⟨node', here', finish'⟩
    rw [← desks.built, here] at here'
    rw [finish, finish', ← Option.some.inj here']
    exact .ok node desks.builder
  | error error desks =>
    intro finish finish'
    rw [finish, finish']
    exact .error error desks.builder

/-- The order of properties is irrelevant. Trees that differ in nothing else are rendered by the same calls in
the same order, up to the order of attributes, and with the same result or the same error, if the builder
ignores the order of attributes and no element has two properties with one place. -/
theorem render_ignores_property_order (renderer : Renderer) (standard : renderer.schema = .standard)
    {builder : Builder σ ν} {alike : σ → σ → Prop} (ignores : builder.IgnoresOrder alike) {tree tree' : Node}
    (same : tree.Reordered tree') (state : σ)
    (apart : ∀ element, rootElement (some tree) = .ok element →
      ∀ event ∈ element.walk renderer.options.space, event.visit.PlacedApart (builder.detect state).1) :
    SameEnd (Traced.Same alike) (renderer.render (some builder.traced) (some tree) { state })
        (renderer.render (some builder.traced) (some tree') { state }) ∧
      SameEnd alike (renderer.render (some builder) (some tree) state)
        (renderer.render (some builder) (some tree') state) := by
  have traced : SameEnd (Traced.Same alike) (renderer.render (some builder.traced) (some tree) { state })
      (renderer.render (some builder.traced) (some tree') { state }) := by
    have roots := rootElement_reordered same
    revert roots
    cases found : rootElement (some tree) with
    | error error =>
      cases found' : rootElement (some tree') with
      | ok => nofun
      | error error' =>
        rintro ⟨⟩
        rw [render_of_error found, render_of_error found']
        exact .error error ⟨ignores.refl state, .nil⟩
    | ok element =>
      cases found' : rootElement (some tree') with
      | error => nofun
      | ok element' =>
        rintro ⟨same⟩
        rw [render_of_ok found, render_of_ok found']
        exact renderer.renderElement_same standard ignores same state (apart element found)
  refine ⟨traced, ?_⟩
  have plain : ∀ tree, renderer.render (some builder) tree state =
      Traced.dropCalls (renderer.render (some builder.traced) tree { state }) :=
    fun tree => renderer.render_dropCalls builder tree { state }
  rw [plain, plain]
  revert traced
  generalize renderer.render (some builder.traced) (some tree) { state } = outcome
  generalize renderer.render (some builder.traced) (some tree') { state } = outcome'
  intro traced
  cases traced with
  | ok node same => exact .ok node same.state
  | error error same => exact .error error same.state

/-- A style and a class, which stay flat, and a custom attribute, which does not. -/
def paragraphProperties : List (String × PropertyValue) :=
  [("style", .text "color: red"), ("className", .text "a"), ("data-x", .bool true)]

def paragraph (properties : List (String × PropertyValue)) : Node :=
  .element "p" (.ofList properties) [.text "b"]

def paragraphBuilder : Builder Tally Nat :=
  (({} : Script).imitate .attributesDom).builder

theorem paragraphBuilder_ignoresOrder : paragraphBuilder.IgnoresOrder Eq where
  refl _ := rfl
  create := by
    rintro call call' tally _ same rfl
    simp only [paragraphBuilder, Script.builder, same.name]
    split
    · exact .error _ rfl
    · exact .ok _ rfl

theorem paragraphProperties_apart :
    paragraphProperties.Pairwise (Attributes.Apart .standard .attributesDom .html) := by
  have slot : ∀ name, Attributes.slotOf .standard .attributesDom .html name =
      Slot.ofInfo .standard .attributesDom (Schema.standard.find .html name) := fun _ => rfl
  have style : Schema.standard.find .html "style" = Info.styleRow := Info.find_of_common (by decide) .html (by decide)
  have className : Schema.standard.find .html "className" = Info.classRow :=
    Info.find_of_common (by decide) .html (by decide)
  have styleSlot : Slot.ofInfo .standard .attributesDom Info.styleRow = .flat "style" := rfl
  have classSlot : Slot.ofInfo .standard .attributesDom Info.classRow = .flat "className" := rfl
  have custom : "data-x".toList = Info.customMark ++ ['x'] := by decide
  have ordinary : (Schema.standard.find .html "data-x").Ordinary := (Info.find_customMark custom).1
  have dataSlot : Slot.ofInfo .standard .attributesDom (Schema.standard.find .html "data-x") =
      .nested "attributes" (Schema.standard.find .html "data-x").attributeName :=
    Attributes.ofInfo_of_not_staysFlat rfl (Attributes.ordinary_not_staysFlat ordinary) .standard
  simp [paragraphProperties, Attributes.Apart, slot, style, className, styleSlot, classSlot, dataSlot]

theorem render_ignores_property_order_paragraph :
    SameEnd (Traced.Same Eq)
        (({} : Renderer).render (some paragraphBuilder.traced) (some (paragraph paragraphProperties)) { state := {} })
        (({} : Renderer).render (some paragraphBuilder.traced) (some (paragraph paragraphProperties.reverse))
          { state := {} }) ∧
      SameEnd Eq (({} : Renderer).render (some paragraphBuilder) (some (paragraph paragraphProperties)) {})
        (({} : Renderer).render (some paragraphBuilder) (some (paragraph paragraphProperties.reverse)) {}) := by
  have same : (paragraph paragraphProperties).Reordered (paragraph paragraphProperties.reverse) :=
    .element "p" paragraphProperties.reverse_perm.symm (.cons (.text "b") .nil)
  have detected : (paragraphBuilder.detect {}).1 = .attributesDom := by decide
  have apart : ∀ element, rootElement (some (paragraph paragraphProperties)) = .ok element →
      ∀ event ∈ element.walk .html, event.visit.PlacedApart (paragraphBuilder.detect {}).1 := by
    rintro element ⟨rfl⟩ event member
    rw [detected]
    rcases List.mem_cons.mp member with rfl | member
    · exact paragraphProperties_apart
    · rw [List.mem_singleton.mp member]
      exact paragraphProperties_apart
  exact render_ignores_property_order {} rfl paragraphBuilder_ignoresOrder same {} apart

end Renderer

end Hyperscript
