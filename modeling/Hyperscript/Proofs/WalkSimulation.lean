import Hyperscript.Proofs.EventRun

namespace Hyperscript

namespace Rendering

variable {σ ν : Type} (rendering : Rendering σ ν)

/-- The number that comes next, if elements are numbered at all. -/
def NextNumber (number : Nat) (progress : Progress σ) : Prop :=
  rendering.keyText ≠ none → progress.keys + 1 = number

/-- A recursion over a part of a tree ends as a run of its events does, with the same error or with a value
that fits the nodes built. -/
def Mirrors {α : Type} (number : Nat) (fits : α → (Place → Option ν) → Prop) :
    EStateM.Result RenderError (Progress σ) α → EStateM.Result RenderError (Desk σ ν) Unit → Prop
  | .ok value progress, .ok _ desk =>
    desk.builder = progress.builder ∧ rendering.NextNumber number progress ∧ fits value desk.built
  | .error error progress, .error other desk => other = error ∧ desk.builder = progress.builder
  | _, _ => False

/-- `node` was built at `place`, and nothing changed at places that are not at or below it. -/
def FitsNode (before : Place → Option ν) (place : Place) (node : ν) (built : Place → Option ν) : Prop :=
  built place = some node ∧ ∀ other, ¬ place <+: other → built other = before other

/-- `child` is what is handed on for `node` at `place`, and nothing changed at other places. -/
def FitsChild (before : Place → Option ν) (place : Place) (node : Node) (child : Option (Child ν))
    (built : Place → Option ν) : Prop :=
  node.handed? built place = child ∧ ∀ other, ¬ place <+: other → built other = before other

/-- `children` is what is handed on for `nodes`, the children from `index` on of the element at `place`, and
nothing changed at other places. -/
def FitsChildren (before : Place → Option ν) (place : Place) (index : Nat) (nodes : List Node)
    (children : List (Child ν)) (built : Place → Option ν) : Prop :=
  Node.handedAll built place index nodes = children ∧
    ∀ other, (∀ i, index ≤ i → ¬ place ++ [i] <+: other) → built other = before other

/-- The progress after an element has taken its key. -/
def counted (progress : Progress σ) : Progress σ :=
  match rendering.keyText with
  | none => progress
  | some _ => { progress with keys := progress.keys + 1 }

theorem bind_eq {α β : Type} (first : RenderM σ α) (next : α → RenderM σ β) (progress : Progress σ) :
    (first >>= next) progress =
      match first progress with
      | .ok value after => next value after
      | .error error after => .error error after := by
  show EStateM.bind first next progress = _
  unfold EStateM.bind
  cases first progress <;> rfl

theorem pure_eq {α : Type} (value : α) (progress : Progress σ) :
    (pure value : RenderM σ α) progress = .ok value progress := rfl

theorem addKey_eq (attributes : Attributes) (progress : Progress σ) :
    rendering.addKey attributes progress =
      .ok (rendering.keyed (progress.keys + 1) attributes) (rendering.counted progress) := by
  unfold addKey keyed counted
  cases rendering.keyText <;> rfl

theorem checkStyle_ok (tag : String) {α : Type} (value : α) (progress : Progress σ) :
    checkStyle tag (.ok value) progress = .ok value progress := rfl

/-- An element is checked, takes its key, has its children rendered and is created, in this order. -/
theorem buildElement_eq (space : Space) (element : Element) (renderChildren : RenderM σ (List (Child ν)))
    (progress : Progress σ) :
    rendering.buildElement space element renderChildren progress =
      match rendering.shape space element with
      | .ok (name, attributes) =>
        match renderChildren (rendering.counted progress) with
        | .ok children after =>
          rendering.create element.tag
            { name, attributes := rendering.keyed (progress.keys + 1) attributes,
              children := if children.isEmpty then none else some children, context := some element } after
        | .error error after => .error error after
      | .error fault => .error (.invalidStyle element.tag fault) progress := by
  unfold buildElement
  cases rendering.shape space element with
  | error fault => rfl
  | ok shaped =>
    simp only [bind_eq, checkStyle_ok, addKey_eq]
    cases renderChildren (rendering.counted progress) <;> rfl

theorem children_cons (space : Space) (node : Node) (rest : List Node) (progress : Progress σ) :
    rendering.children space (node :: rest) progress =
      match rendering.child? space node progress with
      | .ok first after =>
        match rendering.children space rest after with
        | .ok others last => .ok (first.toList ++ others) last
        | .error error last => .error error last
      | .error error after => .error error after := by
  simp only [Rendering.children, bind_eq, pure_eq]
  cases rendering.child? space node progress with
  | error error after => rfl
  | ok first after => cases others : rendering.children space rest after <;> simp only [others]

theorem child?_element (space : Space) (tag : String) (properties : Properties) (inner : List Node)
    (progress : Progress σ) :
    rendering.child? space (.element tag properties inner) progress =
      match rendering.element space ⟨tag, properties, inner⟩ progress with
      | .ok node after => .ok (some (.node node)) after
      | .error error after => .error error after := by
  simp only [Rendering.child?, bind_eq, pure_eq, Rendering.element]

variable {rendering}

theorem NextNumber.counted {number : Nat} {progress : Progress σ}
    (next : rendering.NextNumber number progress) :
    rendering.NextNumber (number + 1) (rendering.counted progress) := by
  intro numbered
  have here := next numbered
  unfold Rendering.counted
  split
  · contradiction
  · simp only; omega

theorem counted_builder (progress : Progress σ) : (rendering.counted progress).builder = progress.builder := by
  unfold counted
  split <;> rfl

/-- Keys carry the numbers of the walk. -/
theorem keyed_next {number : Nat} {progress : Progress σ} (next : rendering.NextNumber number progress)
    (attributes : Attributes) :
    rendering.keyed (progress.keys + 1) attributes = rendering.keyed number attributes := by
  unfold keyed
  split
  · rfl
  · next numbered => rw [next (by simp [numbered])]

/-- Building an element mirrors its events if rendering its children mirrors theirs. -/
theorem buildElement_mirrors (visit : Visit) {renderChildren : RenderM σ (List (Child ν))}
    {below : List Event} {last : Nat} {progress : Progress σ} {desk : Desk σ ν}
    (same : desk.builder = progress.builder) (next : rendering.NextNumber visit.number progress)
    (inner : rendering.Mirrors last (FitsChildren desk.built visit.place 0 visit.element.children)
      (renderChildren (rendering.counted progress)) (rendering.run below desk)) :
    rendering.Mirrors last (FitsNode desk.built visit.place)
      (rendering.buildElement visit.space visit.element renderChildren progress)
      (rendering.run (.enter visit :: (below ++ [.create visit])) desk) := by
  rw [buildElement_eq]
  simp only [run, occur]
  cases shaped : rendering.shape visit.space visit.element with
  | error fault => exact ⟨rfl, same⟩
  | ok shape =>
    simp only [run_append]
    revert inner
    cases rendered : renderChildren (rendering.counted progress) with
    | error error after =>
      cases rendering.run below desk with
      | error other reached => exact id
      | ok _ reached => exact False.elim
    | ok children after =>
      cases rendering.run below desk with
      | error other reached => exact False.elim
      | ok _ reached =>
        rintro ⟨builder, number, handed, kept⟩
        have call : rendering.callFor reached.built visit =
            { name := shape.1, attributes := rendering.keyed (progress.keys + 1) shape.2,
              children := if children.isEmpty then none else some children,
              context := some visit.element } := by
          simp only [callFor, dressed, shaped, handed, keyed_next next]
        simp only [run, occur, Rendering.create, call, builder]
        cases rendering.builder.create _ after.builder with
        | error reason state => exact ⟨rfl, rfl⟩
        | ok node state =>
          refine ⟨rfl, number, Function.update_self .., ?_⟩
          intro other outside
          have apart : other ≠ visit.place := by rintro rfl; exact outside List.prefix_rfl
          exact (Function.update_of_ne apart ..).trans
            (kept other fun i _ under => outside ((List.prefix_append _ _).trans under))

mutual

/-- Rendering a child mirrors its events. -/
theorem child?_mirrors (space : Space) (place : Place) {number : Nat} {progress : Progress σ}
    {desk : Desk σ ν} (same : desk.builder = progress.builder)
    (next : rendering.NextNumber number progress) : (node : Node) →
    rendering.Mirrors (number + node.elementCount) (FitsChild desk.built place node)
      (rendering.child? space node progress) (rendering.run (node.events place space number) desk)
  | .element tag properties inner => by
    have below := children_mirrors (space.enter tag) place 0
      (same.trans (counted_builder progress).symm) next.counted inner
    have built := buildElement_mirrors ⟨place, space.enter tag, number, ⟨tag, properties, inner⟩⟩ same next below
    rw [child?_element, show number + (Node.element tag properties inner).elementCount =
      number + 1 + Node.elementCountAll inner by simp only [Node.elementCount]; omega]
    revert built
    simp only [Node.events, Rendering.element]
    cases rendering.buildElement (space.enter tag) ⟨tag, properties, inner⟩
        (rendering.children (space.enter tag) inner) progress with
    | error error after =>
      cases rendering.run _ desk with
      | error other reached => exact id
      | ok _ reached => exact False.elim
    | ok node after =>
      cases rendering.run _ desk with
      | error other reached => exact False.elim
      | ok _ reached =>
        rintro ⟨builder, number', here, kept⟩
        exact ⟨builder, number', by simp only [Node.handed?, here, Option.map_some], kept⟩
  | .root _ => ⟨same, next, rfl, fun _ _ => rfl⟩
  | .text _ => ⟨same, next, rfl, fun _ _ => rfl⟩
  | .comment _ => ⟨same, next, rfl, fun _ _ => rfl⟩
  | .doctype => ⟨same, next, rfl, fun _ _ => rfl⟩
  | .raw _ => ⟨same, next, rfl, fun _ _ => rfl⟩

/-- Rendering some children mirrors their events. Later children leave alone what earlier ones built. -/
theorem children_mirrors (space : Space) (place : Place) (index : Nat) {number : Nat}
    {progress : Progress σ} {desk : Desk σ ν} (same : desk.builder = progress.builder)
    (next : rendering.NextNumber number progress) : (nodes : List Node) →
    rendering.Mirrors (number + Node.elementCountAll nodes) (FitsChildren desk.built place index nodes)
      (rendering.children space nodes progress)
      (rendering.run (Node.eventsFrom place index space number nodes) desk)
  | [] => ⟨same, next, rfl, fun _ _ => rfl⟩
  | node :: rest => by
    have first := child?_mirrors space (place ++ [index]) same next node
    rw [children_cons]
    simp only [Node.eventsFrom, run_append]
    revert first
    cases rendering.child? space node progress with
    | error error after =>
      cases rendering.run (node.events (place ++ [index]) space number) desk with
      | error other reached => exact id
      | ok _ reached => exact False.elim
    | ok child after =>
      cases rendering.run (node.events (place ++ [index]) space number) desk with
      | error other reached => exact False.elim
      | ok _ reached =>
        rintro ⟨builder, number', handed, kept⟩
        have others := children_mirrors space place (index + 1) builder number' rest
        rw [Node.elementCountAll, ← Nat.add_assoc]
        revert others
        simp only
        cases rendering.children space rest after with
        | error error last =>
          cases rendering.run _ reached with
          | error other final => exact id
          | ok _ final => exact False.elim
        | ok children last =>
          cases rendering.run _ reached with
          | error other final => exact False.elim
          | ok _ final =>
            rintro ⟨builder', number'', handed', kept'⟩
            refine ⟨builder', number'', ?_, ?_⟩
            · have stays : final.built (place ++ [index]) = reached.built (place ++ [index]) := by
                refine kept' _ fun i bound under => ?_
                have := Place.child_unique under List.prefix_rfl
                omega
              rw [Node.handedAll_cons, Node.handed?_congr node stays, handed, handed']
            · intro other outside
              rw [kept' other fun i bound => outside i (by omega)]
              exact kept other (outside index le_rfl)

end

/-- Rendering an element mirrors the walk through it. -/
theorem element_mirrors (element : Element) (space : Space) {progress : Progress σ} {desk : Desk σ ν}
    (same : desk.builder = progress.builder) (first : progress.keys = 0) :
    ∃ number, rendering.Mirrors number (FitsNode desk.built []) (rendering.element space element progress)
      (rendering.run (element.walk space) desk) := by
  have next : rendering.NextNumber 1 progress := fun _ => by omega
  have below := children_mirrors (space.enter element.tag) [] 0
    (same.trans (counted_builder progress).symm) next.counted element.children
  exact ⟨_, buildElement_mirrors ⟨[], space.enter element.tag, 1, element⟩ same next below⟩

end Rendering

end Hyperscript
