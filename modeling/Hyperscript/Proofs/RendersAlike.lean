import Hyperscript.Proofs.OrderIndependence

namespace Hyperscript

variable {σ ν : Type}

/-- The same call, whatever element it is made for. -/
structure Call.SameButContext (call call' : Call ν) : Prop where
  name : call.name = call'.name
  attributes : call.attributes = call'.attributes
  children : call.children = call'.children

/-- The same call, whatever element it is made for, with the same answer. -/
structure Entry.SameButContext (entry entry' : Entry ν) : Prop where
  node : entry.node = entry'.node
  call : entry.call.SameButContext entry'.call
  arity : entry.call.arity = entry'.call.arity

theorem Entry.SameButContext.of_call {call call' : Call ν} (same : call.SameButContext call') (node : Option ν) :
    Entry.SameButContext ⟨node, call⟩ ⟨node, call'⟩ :=
  ⟨rfl, same, by simp only [Call.arity, same.children]⟩

theorem Entry.SameButContext.refl (entry : Entry ν) : entry.SameButContext entry :=
  ⟨rfl, ⟨rfl, rfl, rfl⟩, rfl⟩

/-- Two recursions that end alike go on alike. -/
theorem SameEnd.bind {ε α β : Type} {related : σ → σ → Prop} {first first' : EStateM ε σ α}
    {next next' : α → EStateM ε σ β} {state state' : σ} (here : SameEnd related (first state) (first' state'))
    (later : ∀ value {reached reached' : σ}, related reached reached' →
      SameEnd related (next value reached) (next' value reached')) :
    SameEnd related ((first >>= next) state) ((first' >>= next') state') := by
  show SameEnd related (EStateM.bind first next state) (EStateM.bind first' next' state')
  unfold EStateM.bind
  revert here
  generalize first state = outcome
  generalize first' state' = outcome'
  intro here
  cases here with
  | ok value same => exact later value same
  | error error same => exact .error error same

theorem SameEnd.pure {ε α : Type} {related : σ → σ → Prop} {state state' : σ} (same : related state state')
    (value : α) :
    SameEnd related ((Pure.pure value : EStateM ε σ α) state) ((Pure.pure value : EStateM ε σ α) state') :=
  .ok value same

/-- The answers of the builder do not depend on the element of the tree that a call is made for. Its states may
depend on it, but only so that they are still alike: no later answer tells them apart. -/
structure Builder.IgnoresContext (builder : Builder σ ν) (alike : σ → σ → Prop) : Prop where
  refl : ∀ state, alike state state
  create : ∀ {call call' state state'}, call.SameButContext call' → alike state state' →
    SameEnd alike (builder.create call state) (builder.create call' state')

/-- Alike states after the same calls with the same answers. -/
structure Traced.SameButContext (alike : σ → σ → Prop) (trace trace' : Traced σ ν) : Prop where
  state : alike trace.state trace'.state
  calls : List.Forall₂ Entry.SameButContext trace.calls trace'.calls

theorem Builder.IgnoresContext.traced {builder : Builder σ ν} {alike : σ → σ → Prop}
    (ignores : builder.IgnoresContext alike) : builder.traced.IgnoresContext (Traced.SameButContext alike) where
  refl trace := ⟨ignores.refl trace.state, List.forall₂_same.mpr fun entry _ => .refl entry⟩
  create := by
    intro call call' trace trace' same traces
    have answers := ignores.create same traces.state
    simp only [Builder.traced]
    revert answers
    generalize builder.create call trace.state = outcome
    generalize builder.create call' trace'.state = outcome'
    intro answers
    cases answers with
    | ok node states => exact .ok node ⟨states, List.rel_append traces.calls (.cons (.of_call same _) .nil)⟩
    | error reason states =>
      exact .error reason ⟨states, List.rel_append traces.calls (.cons (.of_call same _) .nil)⟩

/-- Alike builder states, and the same number of keys given. -/
structure Progress.Alike (alike : σ → σ → Prop) (progress progress' : Progress σ) : Prop where
  builder : alike progress.builder progress'.builder
  keys : progress.keys = progress'.keys

namespace Rendering

/-- The name and the attributes of an element's call, the key with a given number included. -/
def outfit (rendering : Rendering σ ν) (space : Space) (element : Element) (number : Nat) :
    Except Style.Error (String × Attributes) :=
  (rendering.shape space element).map fun shaped => (shaped.1, rendering.keyed number shaped.2)

section Alike

variable (outfits : Space → Element → Nat → Except Style.Error (String × Attributes))

mutual

/-- Two nodes below an element in `space` that come to the same: elements with the same tag and the same outfits
whose children come to the same, or the same text. -/
inductive NodesAlike : Space → Node → Node → Prop
  | element {space : Space} {tag : String} {properties properties' : Properties} {inner inner' : List Node}
    (dressed : outfits (space.enter tag) ⟨tag, properties, inner⟩ =
      outfits (space.enter tag) ⟨tag, properties', inner'⟩)
    (below : ChildrenAlike (space.enter tag) inner inner') :
    NodesAlike space (.element tag properties inner) (.element tag properties' inner')
  | text {space : Space} (value : String) : NodesAlike space (.text value) (.text value)

/-- Two lists of children that come to the same. What is not visible may be left out of the second one. -/
inductive ChildrenAlike : Space → List Node → List Node → Prop
  | nil {space : Space} : ChildrenAlike space [] []
  | skip {space : Space} {node : Node} {rest rest' : List Node} (silent : node.isVisible = false)
    (later : ChildrenAlike space rest rest') : ChildrenAlike space (node :: rest) rest'
  | cons {space : Space} {node node' : Node} {rest rest' : List Node} (here : NodesAlike space node node')
    (later : ChildrenAlike space rest rest') : ChildrenAlike space (node :: rest) (node' :: rest')

end

end Alike

variable {rendering : Rendering σ ν} {alike : σ → σ → Prop}

/-- An element is built from its outfit with the next number. -/
theorem buildElement_outfit (space : Space) (element : Element) (renderChildren : RenderM σ (List (Child ν)))
    (progress : Progress σ) :
    rendering.buildElement space element renderChildren progress =
      match rendering.outfit space element (progress.keys + 1) with
      | .ok (name, attributes) =>
        (renderChildren >>= fun children => rendering.create element.tag
          { name, attributes, children := if children.isEmpty then none else some children,
            context := some element }) (rendering.counted progress)
      | .error fault => .error (.invalidStyle element.tag fault) progress := by
  rw [buildElement_eq, outfit]
  cases rendering.shape space element with
  | error fault => rfl
  | ok shaped =>
    simp only [Except.map, bind_eq]
    cases renderChildren (rendering.counted progress) <;> rfl

theorem create_alike (ignores : rendering.builder.IgnoresContext alike) (tag : String) {call call' : Call ν}
    (same : call.SameButContext call') {progress progress' : Progress σ} (steps : progress.Alike alike progress') :
    SameEnd (Progress.Alike alike) (rendering.create tag call progress) (rendering.create tag call' progress') := by
  have answers := ignores.create same steps.builder
  unfold create
  revert answers
  generalize rendering.builder.create call progress.builder = outcome
  generalize rendering.builder.create call' progress'.builder = outcome'
  intro answers
  cases answers with
  | ok node states => exact .ok node ⟨states, steps.keys⟩
  | error reason states => exact .error _ ⟨states, steps.keys⟩

theorem counted_alike (rendering : Rendering σ ν) {progress progress' : Progress σ}
    (steps : progress.Alike alike progress') :
    (rendering.counted progress).Alike alike (rendering.counted progress') := by
  unfold counted
  split
  · exact steps
  · exact ⟨steps.builder, congrArg (· + 1) steps.keys⟩

theorem buildElement_alike (ignores : rendering.builder.IgnoresContext alike) {space : Space}
    (element element' : Element) (tag : element.tag = element'.tag)
    (dressed : rendering.outfit space element = rendering.outfit space element')
    {renderChildren renderChildren' : RenderM σ (List (Child ν))} {progress progress' : Progress σ}
    (steps : progress.Alike alike progress')
    (below : SameEnd (Progress.Alike alike) (renderChildren (rendering.counted progress))
      (renderChildren' (rendering.counted progress'))) :
    SameEnd (Progress.Alike alike) (rendering.buildElement space element renderChildren progress)
      (rendering.buildElement space element' renderChildren' progress') := by
  rw [buildElement_outfit, buildElement_outfit, dressed, steps.keys, tag]
  cases rendering.outfit space element' (progress'.keys + 1) with
  | error fault => exact .error _ steps
  | ok outfit =>
    refine below.bind fun children _ _ reached => create_alike ignores element'.tag ?_ reached
    exact ⟨rfl, rfl, rfl⟩

/-- What is not visible hands on nothing and takes no key. -/
theorem children_skip {space : Space} {node : Node} (silent : node.isVisible = false) (rest : List Node)
    (progress : Progress σ) :
    rendering.children space (node :: rest) progress = rendering.children space rest progress := by
  have none : rendering.child? space node progress = .ok none progress := by
    cases node <;> first | rfl | cases silent
  simp only [children_cons, none, Option.toList_none, List.nil_append]
  cases rendering.children space rest progress <;> rfl

mutual

/-- Nodes that come to the same are rendered alike. -/
theorem child?_alike (ignores : rendering.builder.IgnoresContext alike) {space : Space}
    {progress progress' : Progress σ} (steps : progress.Alike alike progress') : (node : Node) → {node' : Node} →
    NodesAlike rendering.outfit space node node' →
    SameEnd (Progress.Alike alike) (rendering.child? space node progress) (rendering.child? space node' progress')
  | .element tag properties inner, _, same => by
    cases same with
    | @element _ _ _ properties' _ inner' dressed below =>
      have children := children_alike ignores (rendering.counted_alike steps) inner below
      have built := buildElement_alike ignores ⟨tag, properties, inner⟩ ⟨tag, properties', inner'⟩ rfl dressed steps
        children
      rw [child?, child?]
      exact built.bind fun node _ _ reached => .pure reached _
  | .text value, _, same => by
    cases same with
    | text => exact .ok _ steps

/-- Children that come to the same are rendered alike. -/
theorem children_alike (ignores : rendering.builder.IgnoresContext alike) {space : Space}
    {progress progress' : Progress σ} (steps : progress.Alike alike progress') : (nodes : List Node) →
    {nodes' : List Node} → ChildrenAlike rendering.outfit space nodes nodes' →
    SameEnd (Progress.Alike alike) (rendering.children space nodes progress)
      (rendering.children space nodes' progress')
  | [], _, same => by
    cases same with
    | nil => exact .ok _ steps
  | node :: rest, nodes', same => by
    cases same with
    | skip silent later =>
      rw [children_skip silent]
      exact children_alike ignores steps rest later
    | cons here later =>
      rw [children, children]
      refine (child?_alike ignores steps node here).bind fun child _ _ reached => ?_
      exact (children_alike ignores reached rest later).bind fun others _ _ last => .pure last _

end

theorem element_alike (ignores : rendering.builder.IgnoresContext alike) {space : Space} {element element' : Element}
    (same : NodesAlike rendering.outfit space element.toNode element'.toNode) {progress progress' : Progress σ}
    (steps : progress.Alike alike progress') :
    SameEnd (Progress.Alike alike) (rendering.element space element progress)
      (rendering.element space element' progress') := by
  obtain ⟨tag, properties, inner⟩ := element
  obtain ⟨tag', properties', inner'⟩ := element'
  cases same with
  | element dressed below =>
    exact buildElement_alike ignores ⟨tag, properties, inner⟩ ⟨tag, properties', inner'⟩ rfl dressed steps
      (children_alike ignores (rendering.counted_alike steps) inner below)

end Rendering

namespace Renderer

variable {builder : Builder σ ν} {alike : σ → σ → Prop}

theorem renderElement_alike (renderer : Renderer) (ignores : builder.IgnoresContext alike) {element element' : Element}
    (state : σ) (same : Rendering.NodesAlike (renderer.rendering builder (builder.detect state).1).outfit
      renderer.options.space element.toNode element'.toNode) :
    SameEnd alike (renderer.renderElement builder element state) (renderer.renderElement builder element' state) := by
  have start : (⟨(builder.detect state).2, 0⟩ : Progress σ).Alike alike ⟨(builder.detect state).2, 0⟩ :=
    ⟨ignores.refl _, rfl⟩
  have built := Rendering.element_alike ignores same start
  rw [renderElement_eq, renderElement_eq]
  revert built
  generalize (renderer.rendering builder (builder.detect state).1).element renderer.options.space element
    ⟨(builder.detect state).2, 0⟩ = outcome
  generalize (renderer.rendering builder (builder.detect state).1).element renderer.options.space element'
    ⟨(builder.detect state).2, 0⟩ = outcome'
  intro built
  cases built with
  | ok node reached => exact .ok node reached.builder
  | error error reached => exact .error error reached.builder

/-- Trees that come to the same are rendered by the same calls in the same order, but for the elements that the
calls are made for, and with the same result or error, if the builder ignores those elements. -/
theorem render_alike (renderer : Renderer) (ignores : builder.IgnoresContext alike) {tree tree' : Option Node}
    {element element' : Element} (found : rootElement tree = .ok element) (found' : rootElement tree' = .ok element')
    (state : σ) (same : Rendering.NodesAlike (renderer.rendering builder (builder.detect state).1).outfit
      renderer.options.space element.toNode element'.toNode) :
    SameEnd (Traced.SameButContext alike) (renderer.render (some builder.traced) tree { state })
        (renderer.render (some builder.traced) tree' { state }) ∧
      SameEnd alike (renderer.render (some builder) tree state) (renderer.render (some builder) tree' state) := by
  obtain ⟨_, _, detected⟩ := builder.traced_detect { state }
  rw [detected] at same
  have traced : SameEnd (Traced.SameButContext alike) (renderer.render (some builder.traced) tree { state })
      (renderer.render (some builder.traced) tree' { state }) := by
    rw [render_of_ok found, render_of_ok found']
    exact renderer.renderElement_alike ignores.traced { state } same
  refine ⟨traced, ?_⟩
  rw [renderer.render_dropCalls builder tree { state }, renderer.render_dropCalls builder tree' { state }]
  revert traced
  generalize renderer.render (some builder.traced) tree { state } = outcome
  generalize renderer.render (some builder.traced) tree' { state } = outcome'
  intro traced
  cases traced with
  | ok node same => exact .ok node same.state
  | error error same => exact .error error same.state

end Renderer

end Hyperscript
