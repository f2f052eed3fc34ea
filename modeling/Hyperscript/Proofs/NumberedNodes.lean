import Hyperscript.Proofs.FreshNodes
import Hyperscript.Proofs.PlainAgain

namespace Hyperscript

variable {σ ν μ : Type}

/-- `rich` is `plain` with more on its nodes, which `bare` takes off: it makes of each call what `plain` makes of the
call with bare nodes, and shows the same of itself. -/
structure Builder.Covers (rich : Builder σ μ) (plain : Builder σ ν) (bare : μ → ν) : Prop where
  markers : plain.markers = rich.markers
  create : ∀ call, plain.create (call.map bare) = bare <$> rich.create call
  inspect : ∀ node, plain.inspect (bare node) = rich.inspect node

/-- The same rendering for another builder. -/
def Rendering.withBuilder (rendering : Rendering σ μ) (builder : Builder σ ν) : Rendering σ ν :=
  { rendering with builder }

section Covered

variable {plain : Builder σ ν} {bare : μ → ν}

/-- The trial goes the same way for both. -/
theorem Builder.Covers.detect {rich : Builder σ μ} (covers : rich.Covers plain bare) (state : σ) :
    plain.detect state = rich.detect state := by
  have trial : (Builder.trial : Call μ).map bare = Builder.trial := rfl
  have answered := congrFun (covers.create Builder.trial) state
  rw [trial] at answered
  simp only [Builder.detect, covers.markers, answered, Functor.map, EStateM.map]
  cases rich.create Builder.trial state with
  | ok node after => simp only [covers.inspect]
  | error reason after => rfl

namespace Rendering

variable (rendering : Rendering σ μ)

theorem create_covers (covers : rendering.builder.Covers plain bare) (tag : String) (call : Call μ) :
    (rendering.withBuilder plain).create tag (call.map bare) = bare <$> rendering.create tag call := by
  funext progress
  have answered := congrFun (covers.create call) progress.builder
  simp only [create, withBuilder, answered, Functor.map, EStateM.map]
  cases rendering.builder.create call progress.builder <;> rfl

/-- An element is built with bare nodes if its children are rendered so. -/
theorem buildElement_covers (covers : rendering.builder.Covers plain bare) (space : Space) (element : Element)
    {renderChildren : RenderM σ (List (Child ν))} {richChildren : RenderM σ (List (Child μ))}
    (below : renderChildren = List.map (Child.map bare) <$> richChildren) :
    (rendering.withBuilder plain).buildElement space element renderChildren =
      bare <$> rendering.buildElement space element richChildren := by
  have shapes : (rendering.withBuilder plain).shape space element = rendering.shape space element := rfl
  have keys : ∀ attributes, (rendering.withBuilder plain).addKey attributes = rendering.addKey attributes :=
    fun _ => rfl
  simp only [buildElement, below, shapes, keys, map_bind, bind_map_left]
  refine bind_congr fun shaped => bind_congr fun attributes => bind_congr fun children => ?_
  rw [← create_covers rendering covers]
  congr 1
  cases children <;> rfl

mutual

theorem child?_covers (covers : rendering.builder.Covers plain bare) (space : Space) : (node : Node) →
    (rendering.withBuilder plain).child? space node = Option.map (Child.map bare) <$> rendering.child? space node
  | .element tag properties inner => by
    have below := children_covers covers (space.enter tag) inner
    have built := rendering.buildElement_covers covers (space.enter tag) ⟨tag, properties, inner⟩ below
    simp only [child?, built, map_bind, bind_map_left, map_pure, Option.map, Child.map]
  | .text _ => by simp only [child?, map_pure, Option.map, Child.map]
  | .root _ => by simp only [child?, map_pure, Option.map]
  | .comment _ => by simp only [child?, map_pure, Option.map]
  | .doctype => by simp only [child?, map_pure, Option.map]
  | .raw _ => by simp only [child?, map_pure, Option.map]

theorem children_covers (covers : rendering.builder.Covers plain bare) (space : Space) : (nodes : List Node) →
    (rendering.withBuilder plain).children space nodes =
      List.map (Child.map bare) <$> rendering.children space nodes
  | [] => by simp only [children, map_pure, List.map_nil]
  | node :: rest => by
    simp only [children, child?_covers covers space node, children_covers covers space rest, map_bind, bind_map_left,
      map_pure, List.map_append, Option.toList_map]

end

end Rendering

/-- Taking the surplus off the result of a render gives the result of rendering for bare nodes. -/
theorem Renderer.render_covers (renderer : Renderer) {rich : Builder σ μ} (covers : rich.Covers plain bare)
    (tree : Option Node) : renderer.render (some plain) tree = bare <$> renderer.render (some rich) tree := by
  funext state
  cases found : rootElement tree with
  | error error =>
    simp only [Functor.map, EStateM.map, render_of_error found]
  | ok element =>
    have below := (renderer.rendering rich (rich.detect state).1).children_covers covers
      (renderer.options.space.enter element.tag) element.children
    have built := congrFun ((renderer.rendering rich (rich.detect state).1).buildElement_covers covers
      (renderer.options.space.enter element.tag) element below) ⟨(rich.detect state).2, 0⟩
    have same : (renderer.rendering rich (rich.detect state).1).withBuilder plain =
        renderer.rendering plain (rich.detect state).1 := rfl
    rw [same] at built
    simp only [Functor.map, EStateM.map] at built ⊢
    rw [render_of_ok found, render_of_ok found, renderElement_eq, renderElement_eq, covers.detect, Rendering.element,
      Rendering.element, built]
    cases (renderer.rendering rich (rich.detect state).1).buildElement _ _ _ _ <;> rfl

end Covered

def Entry.map (f : μ → ν) (entry : Entry μ) : Entry ν where
  node := entry.node.map f
  call := entry.call.map f

namespace Builder

/-- The same builder, with the number of its call beside each node. Calls are numbered from zero, the refused ones
too. -/
def numbered (builder : Builder σ ν) : Builder (Traced σ ν) (Nat × ν) where
  markers := builder.traced.markers
  create call trace :=
    match builder.traced.create (call.map Prod.snd) trace with
    | .ok node after => .ok (trace.calls.length, node) after
    | .error reason after => .error reason after
  inspect node := builder.traced.inspect node.2

theorem numbered_covers (builder : Builder σ ν) : builder.numbered.Covers builder.traced Prod.snd where
  markers := rfl
  create call := by
    funext trace
    simp only [numbered, Functor.map, EStateM.map]
    cases builder.traced.create (call.map Prod.snd) trace <;> rfl
  inspect _ := rfl

end Builder

namespace Traced

/-- A record of numbered calls has the calls of the record below it, and beside each node the number of the call that
gave it. -/
structure IsNumbered (log : Traced (Traced σ ν) (Nat × ν)) : Prop where
  calls : log.state.calls = log.calls.map (Entry.map Prod.snd)
  numbers : ∀ (number : Nat) (entry : Entry (Nat × ν)), log.calls[number]? = some entry →
    ∀ node, entry.node = some node → node.1 = number

/-- One more call gets the next number, whatever its answer. -/
theorem IsNumbered.add {log next : Traced (Traced σ ν) (Nat × ν)} (numbered : IsNumbered log) {entry : Entry (Nat × ν)}
    (calls : next.calls = log.calls ++ [entry]) (below : next.state.calls = log.state.calls ++ [entry.map Prod.snd])
    (number : ∀ node, entry.node = some node → node.1 = log.state.calls.length) : IsNumbered next where
  calls := by rw [below, numbered.calls, calls, List.map_append, List.map_singleton]
  numbers number' entry' found node answered := by
    rw [calls] at found
    rcases lt_or_ge number' log.calls.length with earlier | last
    · rw [List.getElem?_append_left earlier] at found
      exact numbered.numbers number' entry' found node answered
    · obtain ⟨bound, rfl⟩ := List.getElem?_eq_some_iff.mp found
      rw [List.getElem_append_right last, List.getElem_singleton] at answered
      rw [number node answered, numbered.calls, List.length_map]
      rw [List.length_append, List.length_singleton] at bound
      omega

theorem IsNumbered.create (builder : Builder σ ν) {log : Traced (Traced σ ν) (Nat × ν)} (numbered : IsNumbered log)
    (call : Call (Nat × ν)) : IsNumbered (final (builder.numbered.traced.create call log)) := by
  simp only [Builder.traced, Builder.numbered]
  cases builder.create (call.map Prod.snd) log.state.state with
  | ok node after => exact numbered.add rfl rfl fun _ same => by cases same; rfl
  | error reason after => exact numbered.add rfl rfl fun _ same => by cases same

/-- Nodes with different numbers are different, however the nodes below them repeat. -/
theorem IsNumbered.nodup {log : Traced (Traced σ ν) (Nat × ν)} (numbered : IsNumbered log) :
    (log.calls.filterMap Entry.node).Nodup := by
  rw [List.Nodup, List.pairwise_filterMap, List.pairwise_iff_getElem]
  intro earlier later _ _ before node here node' there same
  have first := numbered.numbers earlier _ (List.getElem?_eq_getElem _) node here
  have second := numbered.numbers later _ (List.getElem?_eq_getElem _) node' there
  rw [← same, first] at second
  omega

end Traced

theorem Builder.numbered_isNumbered (builder : Builder σ ν) {start : σ} {log : Traced (Traced σ ν) (Nat × ν)}
    (reached : builder.numbered.traced.Reaches { state := { state := start } } log) : log.IsNumbered := by
  induction reached with
  | start => exact ⟨rfl, nofun⟩
  | @answered log next call node _ answer ih =>
    have made := ih.create builder call
    rwa [answer] at made
  | @refused log next call reason _ answer ih =>
    have made := ih.create builder call
    rwa [answer] at made
  | inspected _ ih => exact ⟨ih.calls, ih.numbers⟩

end Hyperscript
