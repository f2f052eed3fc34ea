import Hyperscript.Proofs.FragmentNames
import Hyperscript.Proofs.NumberedCalls
import Hyperscript.Proofs.RendersAlike

namespace Hyperscript

open Info

variable {σ ν : Type}

/-- A value of a call as the value of a property. The plain dialect passes neither styles nor maps. -/
def PropertyValue.ofValue : Value → PropertyValue
  | .text value => .text value
  | .number value => .number value
  | .bool value => .bool value
  | .style _ => .null
  | .map _ => .null

/-- The attributes of a call as the properties of an element, in their order. -/
def Attributes.toProperties (attributes : Attributes) : Properties :=
  attributes.mapValues .ofValue

def Child.map {μ : Type} (f : ν → μ) : Child ν → Child μ
  | .node built => .node (f built)
  | .text value => .text value

def Call.map {μ : Type} (f : ν → μ) (call : Call ν) : Call μ :=
  { call with children := call.children.map (List.map (Child.map f)) }

/-- A child where nodes are trees. -/
def Child.tree : Child Node → Node
  | .node tree => tree
  | .text value => .text value

/-- The element that a call tells of: its tag is the name of the call. -/
def Call.tree (call : Call Node) : Node :=
  .element call.name call.attributes.toProperties ((call.children.getD []).map Child.tree)

/-- The same builder, with a tree beside each of its nodes: the element that is rebuilt from the call. -/
def Builder.rebuilding (builder : Builder σ ν) : Builder σ (ν × Node) where
  markers := builder.markers
  create call state :=
    match builder.create (call.map Prod.fst) state with
    | .ok node after => .ok (node, (call.map Prod.snd).tree) after
    | .error reason after => .error reason after
  inspect built := builder.inspect built.1

/-- The trial shows the same dialect if trees are rebuilt. -/
theorem Builder.rebuilding_detect (builder : Builder σ ν) (state : σ) :
    builder.rebuilding.detect state = builder.detect state := by
  have trial : (Builder.trial : Call (ν × Node)).map Prod.fst = Builder.trial := rfl
  simp only [Builder.detect, Builder.rebuilding, trial]
  cases builder.create Builder.trial state <;> rfl

namespace Info

/-- The name of a generated key is that of no property, so it stands for itself. -/
theorem attributeName_key (space : Space) : (Schema.standard.find space "key").attributeName = "key" := by
  have noData : dataRest? "key".toList = none := by decide
  have found : Schema.standard.find space "key" = unknown "key" := by
    simp only [Schema.standard, Schema.standardFind, known?_key, noData]
  exact congrArg Info.attributeName found

end Info

/-- The values that the plain dialect passes: texts, numbers but for NaN, and flags that are set. -/
def Value.IsPlain : Value → Prop
  | .text _ => True
  | .number value => value ≠ .nan
  | .bool value => value = true
  | .style _ => False
  | .map _ => False

/-- A value that is passed comes to itself as the value of any property. -/
theorem Value.IsPlain.ofPropertyValue_ofValue {value : Value} (plain : value.IsPlain) (info : Info) :
    Attributes.ofPropertyValue info (.ofValue value) = value := by
  cases value with
  | style declarations => exact plain.elim
  | map entries => exact plain.elim
  | _ => rfl

theorem Value.IsPlain.isAbsent_ofValue {value : Value} (plain : value.IsPlain) :
    (PropertyValue.ofValue value).isAbsent = false := by
  cases value with
  | text value => rfl
  | number value => exact decide_eq_false plain
  | bool value =>
    obtain rfl : value = true := plain
    rfl
  | style declarations => exact plain.elim
  | map entries => exact plain.elim

theorem PropertyValue.isPlain_of_not_isAbsent {value : PropertyValue} (present : value.isAbsent = false)
    (info : Info) : (Attributes.ofPropertyValue info value).IsPlain := by
  cases value with
  | null => cases present
  | text value => trivial
  | number value => exact of_decide_eq_false present
  | bool value =>
    cases value with
    | false => cases present
    | true => rfl
  | list tokens => trivial

theorem OrderedMap.mem_insertEntry {α : Type} {key : String} {value : α} {entry : String × α}
    {entries : List (String × α)} (member : entry ∈ insertEntry key value entries) :
    entry = (key, value) ∨ entry ∈ entries := by
  induction entries with
  | nil => exact Or.inl (List.mem_singleton.mp member)
  | cons first rest ih =>
    obtain ⟨name, old⟩ := first
    rw [insertEntry] at member
    split at member
    · rcases List.mem_cons.mp member with here | later
      · exact Or.inl here
      · exact Or.inr (List.mem_cons_of_mem _ later)
    · rcases List.mem_cons.mp member with here | later
      · exact Or.inr (here ▸ List.mem_cons_self ..)
      · exact (ih later).imp_right (List.mem_cons_of_mem _)

namespace Attributes

/-- Attributes that come to themselves in the plain dialect: each key stands for itself, and so does each value. -/
structure Canonical (space : Space) (attributes : Attributes) : Prop where
  keys : ∀ entry ∈ attributes.entries, (Schema.standard.find space entry.1).attributeName = entry.1
  values : ∀ entry ∈ attributes.entries, entry.2.IsPlain

variable {space : Space}

theorem Canonical.insert {attributes : Attributes} (canonical : attributes.Canonical space) {key : String}
    {value : Value} (named : (Schema.standard.find space key).attributeName = key) (plain : value.IsPlain) :
    Canonical space (attributes.insert key value) where
  keys entry member := by
    rw [OrderedMap.entries_insert] at member
    rcases OrderedMap.mem_insertEntry member with rfl | earlier
    · exact named
    · exact canonical.keys entry earlier
  values entry member := by
    rw [OrderedMap.entries_insert] at member
    rcases OrderedMap.mem_insertEntry member with rfl | earlier
    · exact plain
    · exact canonical.values entry earlier

/-- What the plain dialect makes of properties is canonical. -/
theorem canonical_ofProperties {properties : Properties} {attributes : Attributes}
    (added : ofProperties .standard .plain space properties = .ok attributes) : attributes.Canonical space := by
  have step : ∀ (kept : List (String × PropertyValue)) (before : Attributes), before.Canonical space →
      (∀ property ∈ kept, property.2.isAbsent = false) →
      (kept.foldl (fun map property => map.insert (Schema.standard.find space property.1).attributeName
        (ofPropertyValue (Schema.standard.find space property.1) property.2)) before).Canonical space := by
    intro kept
    induction kept with
    | nil => exact fun _ canonical _ => canonical
    | cons property rest ih =>
      intro before canonical present
      rw [List.forall_mem_cons] at present
      exact ih _ (canonical.insert (find_attributeName space _) (PropertyValue.isPlain_of_not_isAbsent present.1 _))
        present.2
  rw [ofProperties, addAll_plain] at added
  cases added
  refine step _ _ ⟨List.forall_mem_nil _, List.forall_mem_nil _⟩ fun property member => ?_
  simpa using (List.mem_filter.mp member).2

/-- Canonical attributes, taken for properties, come to themselves. -/
theorem Canonical.ofProperties_toProperties {attributes : Attributes} (canonical : attributes.Canonical space) :
    ofProperties .standard .plain space attributes.toProperties = .ok attributes := by
  have entries : attributes.toProperties.entries = attributes.entries.map fun entry => (entry.1, .ofValue entry.2) :=
    OrderedMap.entries_mapValues PropertyValue.ofValue attributes
  have present : attributes.toProperties.entries.filter (fun property => !property.2.isAbsent) =
      attributes.toProperties.entries := by
    refine List.filter_eq_self.mpr fun property member => ?_
    rw [entries] at member
    obtain ⟨entry, listed, rfl⟩ := List.mem_map.mp member
    rw [(canonical.values entry listed).isAbsent_ofValue]
    rfl
  have back : attributes.toProperties.entries.map (fun property =>
      ((Schema.standard.find space property.1).attributeName,
        ofPropertyValue (Schema.standard.find space property.1) property.2)) = attributes.entries := by
    rw [entries, List.map_map]
    refine (List.map_congr_left fun entry listed => ?_).trans (List.map_id _)
    exact Prod.ext (canonical.keys entry listed) ((canonical.values entry listed).ofPropertyValue_ofValue _)
  rw [ofProperties, addAll_plain, present]
  refine congrArg Except.ok (Eq.trans ?_ attributes.ofList_entries)
  rw [← back, OrderedMap.ofList, List.foldl_map]

end Attributes

namespace Rendering

variable {rendering : Rendering σ ν}

/-- A key is not in the way of a second one. -/
theorem keyed_keyed (rendering : Rendering σ ν) (number later : Nat) (attributes : Attributes) :
    rendering.keyed later (rendering.keyed number attributes) = rendering.keyed later attributes := by
  unfold keyed
  cases rendering.keyText with
  | none => rfl
  | some text => exact attributes.insert_insert _ _ _

theorem canonical_keyed (rendering : Rendering σ ν) {space : Space} {attributes : Attributes}
    (canonical : attributes.Canonical space) (number : Nat) : (rendering.keyed number attributes).Canonical space := by
  unfold keyed
  cases rendering.keyText with
  | none => exact canonical
  | some text => exact canonical.insert (attributeName_key space) trivial

/-- An element that has the outfit of another for its tag and properties has the outfits of the other. -/
theorem outfit_again (dialect : rendering.dialect = .plain) (schema : rendering.schema = .standard) {space : Space}
    {element : Element} {number : Nat} {name : String} {attributes : Attributes}
    (dressed : rendering.outfit space element number = .ok (name, attributes)) (inner : List Node) :
    name = element.tag ∧
      rendering.outfit space ⟨element.tag, attributes.toProperties, inner⟩ = rendering.outfit space element := by
  cases added : Attributes.ofProperties .standard .plain space element.properties with
  | error fault => cases (Attributes.addAll_plain ..).symm.trans added
  | ok first =>
    rw [outfit, shape_plain dialect schema added] at dressed
    cases dressed
    refine ⟨rfl, funext fun later => ?_⟩
    have again := (rendering.canonical_keyed (Attributes.canonical_ofProperties added) number).ofProperties_toProperties
    rw [outfit, outfit, shape_plain dialect schema added, shape_plain dialect schema again]
    simp only [Except.map, keyed_keyed]

/-- The rendering with a tree rebuilt from each call. -/
def rebuilding (rendering : Rendering σ ν) : Rendering σ (ν × Node) :=
  { rendering with builder := rendering.builder.rebuilding }

/-- The same outcome without and with rebuilt trees, which fit what they are rebuilt from. -/
inductive Rebuilds {ε σ α β : Type} (forget : β → α) (fits : β → Prop) :
    EStateM.Result ε σ α → EStateM.Result ε σ β → Prop
  | ok {kept : α} {value : β} {state : σ} (same : kept = forget value) (fit : fits value) :
    Rebuilds forget fits (.ok kept state) (.ok value state)
  | error {error : ε} {state : σ} : Rebuilds forget fits (.error error state) (.error error state)

/-- The children of a call as they are rebuilt. -/
def rebuilt (children : List (Child (ν × Node))) : List Node :=
  children.map fun child => (child.map Prod.snd).tree

theorem Rebuilds.imp {ε σ α β : Type} {forget : β → α} {fits fits' : β → Prop} {plain : EStateM.Result ε σ α}
    {rebuilding : EStateM.Result ε σ β} (same : Rebuilds forget fits plain rebuilding)
    (weaker : ∀ value, fits value → fits' value) : Rebuilds forget fits' plain rebuilding := by
  cases same with
  | ok same fit => exact .ok same (weaker _ fit)
  | error => exact .error

/-- Two recursions that end in the same way, without and with rebuilt trees, go on so. -/
theorem Rebuilds.bind {ε σ α β α' β' : Type} {forget : β → α} {forget' : β' → α'} {fits : β → Prop} {fits' : β' → Prop}
    {first : EStateM ε σ α} {first' : EStateM ε σ β} {next : α → EStateM ε σ α'} {next' : β → EStateM ε σ β'}
    {state : σ} (here : Rebuilds forget fits (first state) (first' state))
    (later : ∀ value, fits value → ∀ reached,
      Rebuilds forget' fits' (next (forget value) reached) (next' value reached)) :
    Rebuilds forget' fits' ((first >>= next) state) ((first' >>= next') state) := by
  show Rebuilds forget' fits' (EStateM.bind first next state) (EStateM.bind first' next' state)
  unfold EStateM.bind
  revert here
  generalize first state = outcome
  generalize first' state = outcome'
  intro here
  cases here with
  | ok same fit =>
    subst same
    exact later _ fit _
  | error => exact .error

theorem Rebuilds.pure {ε σ α β : Type} {forget : β → α} {fits : β → Prop} {kept : α} {value : β} {state : σ}
    (same : kept = forget value) (fit : fits value) :
    Rebuilds forget fits ((Pure.pure kept : EStateM ε σ α) state) ((Pure.pure value : EStateM ε σ β) state) :=
  .ok same fit

theorem create_rebuilds (rendering : Rendering σ ν) (tag : String) (call : Call (ν × Node)) (progress : Progress σ) :
    Rebuilds Prod.fst (fun built => built.2 = (call.map Prod.snd).tree)
      (rendering.create tag (call.map Prod.fst) progress) (rendering.rebuilding.create tag call progress) := by
  simp only [create, rebuilding, Builder.rebuilding]
  cases rendering.builder.create (call.map Prod.fst) progress.builder with
  | ok node after => exact .ok rfl rfl
  | error reason after => exact .error

/-- If its children are rebuilt as nodes that come to the same, so is an element. -/
theorem element_rebuilds_of_children (dialect : rendering.dialect = .plain) (schema : rendering.schema = .standard)
    {space : Space} (element : Element) {progress : Progress σ}
    (below : Rebuilds (List.map (Child.map Prod.fst))
      (fun children => ChildrenAlike rendering.outfit (space.enter element.tag) element.children (rebuilt children))
      (rendering.children (space.enter element.tag) element.children (rendering.counted progress))
      (rendering.rebuilding.children (space.enter element.tag) element.children (rendering.counted progress))) :
    Rebuilds Prod.fst (fun built => NodesAlike rendering.outfit space element.toNode built.2)
      (rendering.element space element progress) (rendering.rebuilding.element space element progress) := by
  have outfits : rendering.rebuilding.outfit = rendering.outfit := rfl
  have counted : rendering.rebuilding.counted progress = rendering.counted progress := rfl
  rw [Rendering.element, Rendering.element, buildElement_outfit, buildElement_outfit, outfits, counted]
  cases dressed : rendering.outfit (space.enter element.tag) element (progress.keys + 1) with
  | error fault => exact .error
  | ok outfit =>
    obtain ⟨name, attributes⟩ := outfit
    refine below.bind fun children alike reached => ?_
    obtain ⟨rfl, again⟩ := outfit_again dialect schema dressed (rebuilt children)
    let call : Call (ν × Node) :=
      { name := element.tag, attributes, children := if children.isEmpty then none else some children,
        context := some element }
    have made := rendering.create_rebuilds element.tag call reached
    have handed : call.map Prod.fst =
        { name := element.tag, attributes, context := some element,
          children := if (children.map (Child.map Prod.fst)).isEmpty then none
            else some (children.map (Child.map Prod.fst)) } := by
      cases children <;> rfl
    have tree : (call.map Prod.snd).tree = .element element.tag attributes.toProperties (rebuilt children) := by
      cases children <;> simp [call, Call.tree, Call.map, rebuilt]
    rw [handed] at made
    refine made.imp fun built same => ?_
    rw [same, tree]
    exact .element again.symm alike

/-- A child that is rendered is rebuilt as a node that comes to the same, and a child that is not is not visible. -/
def RebuiltChild (rendering : Rendering σ ν) (space : Space) (node : Node) : Option (Child (ν × Node)) → Prop
  | some child => NodesAlike rendering.outfit space node (child.map Prod.snd).tree
  | none => node.isVisible = false

mutual

theorem child?_rebuilds (dialect : rendering.dialect = .plain) (schema : rendering.schema = .standard)
    (space : Space) (progress : Progress σ) : (node : Node) →
    Rebuilds (Option.map (Child.map Prod.fst)) (rendering.RebuiltChild space node)
      (rendering.child? space node progress) (rendering.rebuilding.child? space node progress)
  | .element tag properties inner => by
    have below := children_rebuilds dialect schema (space.enter tag) (rendering.counted progress) inner
    have built := element_rebuilds_of_children dialect schema ⟨tag, properties, inner⟩ below
    rw [child?, child?]
    exact built.bind fun _ fit _ => .pure rfl fit
  | .text value => .ok rfl (.text value)
  | .root _ => .ok rfl rfl
  | .comment _ => .ok rfl rfl
  | .doctype => .ok rfl rfl
  | .raw _ => .ok rfl rfl

theorem children_rebuilds (dialect : rendering.dialect = .plain) (schema : rendering.schema = .standard)
    (space : Space) (progress : Progress σ) : (nodes : List Node) →
    Rebuilds (List.map (Child.map Prod.fst))
      (fun children => ChildrenAlike rendering.outfit space nodes (rebuilt children))
      (rendering.children space nodes progress) (rendering.rebuilding.children space nodes progress)
  | [] => .ok rfl .nil
  | node :: rest => by
    rw [children, children]
    refine (child?_rebuilds dialect schema space progress node).bind fun child fit reached => ?_
    refine (children_rebuilds dialect schema space reached rest).bind fun others alike _ => ?_
    cases child with
    | none => exact .pure rfl (.skip fit alike)
    | some child => exact .pure rfl (.cons fit alike)

end

theorem NodesAlike.exists_element {outfits : Space → Element → Nat → Except Style.Error (String × Attributes)}
    {space : Space} {element : Element} {node : Node} (same : NodesAlike outfits space element.toNode node) :
    ∃ element' : Element, node = element'.toNode := by
  obtain ⟨tag, properties, inner⟩ := element
  cases same with
  | @element _ _ _ properties' _ inner' _ _ => exact ⟨⟨tag, properties', inner'⟩, rfl⟩

end Rendering

namespace Script

theorem numbering_ignoresContext : numbering.IgnoresContext Eq where
  refl _ := rfl
  create := by
    rintro _ _ tally _ _ rfl
    exact .ok tally.calls rfl

end Script

namespace Renderer

/-- Each node that a render gives in the plain dialect is rebuilt as an element that comes to the same as the one
that is rendered. -/
theorem renderElement_rebuilds (renderer : Renderer) (schema : renderer.schema = .standard) (builder : Builder σ ν)
    (element : Element) {state : σ} (plain : (builder.detect state).1 = .plain) :
    Rendering.Rebuilds Prod.fst (fun built =>
        Rendering.NodesAlike (renderer.rendering builder .plain).outfit renderer.options.space element.toNode built.2)
      (renderer.renderElement builder element state) (renderer.renderElement builder.rebuilding element state) := by
  have rebuilding : renderer.rendering builder.rebuilding .plain = (renderer.rendering builder .plain).rebuilding := rfl
  have dialect : (renderer.rendering builder .plain).dialect = .plain := rfl
  have below := Rendering.children_rebuilds dialect schema (renderer.options.space.enter element.tag)
    ((renderer.rendering builder .plain).counted ⟨(builder.detect state).2, 0⟩) element.children
  have built := Rendering.element_rebuilds_of_children dialect schema element below
  rw [renderElement_eq, renderElement_eq, builder.rebuilding_detect, plain, rebuilding]
  revert built
  generalize (renderer.rendering builder .plain).element renderer.options.space element
    ⟨(builder.detect state).2, 0⟩ = outcome
  generalize (renderer.rendering builder .plain).rebuilding.element renderer.options.space element
    ⟨(builder.detect state).2, 0⟩ = outcome'
  intro built
  cases built with
  | ok same fit => exact .ok same fit
  | error => exact .error

/-- Elements that come to the same are rendered by the same calls. -/
theorem numberedCalls_alike (renderer : Renderer) {element element' : Element}
    (same : Rendering.NodesAlike (renderer.rendering Script.numbering .plain).outfit renderer.options.space
      element.toNode element'.toNode) : renderer.numberedCalls element = renderer.numberedCalls element' := by
  have alike := renderer.renderElement_alike Script.numbering_ignoresContext.traced { state := {} } same
  unfold numberedCalls
  revert alike
  generalize renderer.renderElement Script.numbering.traced element { state := {} } = outcome
  generalize renderer.renderElement Script.numbering.traced element' { state := {} } = outcome'
  intro alike
  have calls : List.Forall₂ Entry.SameButContext (Traced.final outcome).calls (Traced.final outcome').calls := by
    cases alike with
    | ok _ traces => exact traces.calls
    | error _ traces => exact traces.calls
  refine Attributes.map_eq_of_forall₂ (fun entry entry' alike => ?_) calls
  simp only [alike.call.name, alike.call.attributes, alike.call.children]

/-- Plain rendering is idempotent. From the calls of a successful render a tree is rebuilt, with the names of the calls
for tags, their attributes for properties and what they are handed for children. Its renders with the same options make
the same calls again, whatever builder of the plain dialect they are given, and with the same builder they give the
same result if this ignores the elements that the calls are made for. In particular an attribute name is that of
itself. -/
theorem plain_render_repeats (renderer : Renderer) (schema : renderer.schema = .standard) (builder : Builder σ ν)
    {tree : Option Node} {start : σ} (plain : (builder.detect start).1 = .plain) {result : ν} {finish : Traced σ ν}
    (rendered : renderer.render (some builder.traced) tree { state := start } = .ok result finish) :
    (∃ again calls,
      renderer.render (some builder.traced.rebuilding) tree { state := start } = .ok (result, again) finish ∧
      Follows finish.calls calls ∧
      (∀ {τ μ : Type} (other : Builder τ μ) (state : τ), (other.detect state).1 = .plain →
        Makes calls (renderer.render (some other.traced) (some again) { state })) ∧
      ∀ {alike : σ → σ → Prop}, builder.IgnoresContext alike →
        SameEnd (Traced.SameButContext alike) (.ok result finish)
          (renderer.render (some builder.traced) (some again) { state := start })) ∧
    ∀ space name, (Schema.standard.find space (Schema.standard.find space name).attributeName).attributeName =
      (Schema.standard.find space name).attributeName := by
  refine ⟨?_, find_attributeName⟩
  cases found : rootElement tree with
  | error error =>
    rw [render_of_error found] at rendered
    cases rendered
  | ok element =>
    obtain ⟨_, _, detected⟩ := builder.traced_detect { state := start }
    have traced : (builder.traced.detect { state := start }).1 = .plain := by
      rw [detected] at plain
      exact plain
    have makes := renderer.makes_numberedCalls builder element start traced
    have rebuilds := renderer.renderElement_rebuilds schema builder.traced element traced
    have once := rendered
    rw [render_of_ok found] at once
    rw [once] at makes rebuilds
    generalize outcome : renderer.renderElement builder.traced.rebuilding element { state := start } = rebuilt
      at rebuilds
    cases rebuilds with
    | @ok _ built _ same alike =>
      subst same
      obtain ⟨node, again⟩ := built
      obtain ⟨element', rfl⟩ := alike.exists_element
      refine ⟨element'.toNode, renderer.numberedCalls element, ?_, makes, ?_, ?_⟩
      · rw [render_of_ok found, outcome]
      · intro τ μ other state plain'
        obtain ⟨_, _, detected'⟩ := other.traced_detect { state }
        rw [detected'] at plain'
        rw [render_of_ok rfl, renderer.numberedCalls_alike alike]
        exact renderer.makes_numberedCalls other element' state plain'
      · intro same ignores
        rw [← rendered]
        refine (renderer.render_alike ignores found rfl start ?_).1
        rw [plain]
        exact alike

theorem renderElement_of_element {renderer : Renderer} {builder : Builder σ ν} {element : Element} {state trialled : σ}
    {dialect : Dialect} {node : ν} {progress : Progress σ} (detected : builder.detect state = (dialect, trialled))
    (built : (renderer.rendering builder dialect).element renderer.options.space element ⟨trialled, 0⟩ =
      .ok node progress) : renderer.renderElement builder element state = .ok node progress.builder := by
  simp only [renderElement_eq, detected, built]

/-- A paragraph with a key of its own, an absent title, and a text and an element below it. -/
def keyedParagraph : Element where
  tag := "p"
  properties := .ofList [("data-x", .text "a"), ("key", .text "mine"), ("title", .null)]
  children := [.text "b", .element "i" ∅ []]

/-- The first calls for the paragraph. The paragraph takes its key before the element below it, and is built after. -/
def keyedParagraphTrace (made : Nat) : Traced Tally Nat where
  state := { calls := made }
  calls := List.take made
    [⟨some 0, Builder.trial⟩, ⟨some 1, ⟨"i", .ofList [("key", .text "row-2")], none, some ⟨"i", ∅, []⟩⟩⟩,
      ⟨some 2, ⟨"p", .ofList [("data-x", .text "a"), ("key", .text "row-1")], some [.text "b", .node 1],
        some keyedParagraph⟩⟩]

theorem render_keyedParagraph :
    Renderer.render { options := .ofText "row-" } (some Script.numbering.traced) (some keyedParagraph.toNode)
      { state := {} } = .ok 2 (keyedParagraphTrace 3) := by
  let rendering : Rendering (Traced Tally Nat) Nat :=
    Renderer.rendering { options := .ofText "row-" } Script.numbering.traced .plain
  have outer : rendering.outfit .html keyedParagraph 1 =
      .ok ("p", .ofList [("data-x", .text "a"), ("key", .text "row-1")]) := by
    have custom : "data-x".toList = customMark ++ ['x'] := by decide
    have data : (Schema.standard.find .html "data-x").attributeName = "data-x" := (find_customMark custom).2
    have added : Attributes.ofProperties .standard .plain .html keyedParagraph.properties =
        .ok (.ofList [("data-x", .text "a"), ("key", .text "mine")]) := by
      rw [Attributes.ofProperties, Attributes.addAll_plain, keyedParagraph, OrderedMap.entries_ofList (by decide)]
      simp only [List.filter, PropertyValue.isAbsent, Bool.not_false, Bool.not_true, List.foldl_cons,
        List.foldl_nil, data, attributeName_key]
      rfl
    have shape : rendering.shape .html keyedParagraph =
        .ok ("p", .ofList [("data-x", .text "a"), ("key", .text "mine")]) := Rendering.shape_plain rfl rfl added
    rw [Rendering.outfit, shape]
    rfl
  have inner : rendering.outfit .html ⟨"i", ∅, []⟩ 2 = .ok ("i", .ofList [("key", .text "row-2")]) := by
    have added : Attributes.ofProperties .standard .plain .html ∅ = .ok ∅ := rfl
    have shape : rendering.shape .html ⟨"i", ∅, []⟩ = .ok ("i", ∅) := Rendering.shape_plain rfl rfl added
    rw [Rendering.outfit, shape]
    rfl
  have paragraph : Space.html.enter keyedParagraph.tag = .html := by decide
  have italic : Space.html.enter "i" = .html := by decide
  have below : rendering.children .html keyedParagraph.children ⟨keyedParagraphTrace 1, 1⟩ =
      .ok [.text "b", .node 1] ⟨keyedParagraphTrace 2, 2⟩ := by
    have text : ∀ progress, rendering.child? .html (.text "b") progress = .ok (some (.text "b")) progress :=
      fun _ => rfl
    simp only [keyedParagraph, Rendering.children_cons, text, Rendering.child?_element, Rendering.element,
      Rendering.buildElement_outfit, italic, inner]
    rfl
  have counted : rendering.counted ⟨keyedParagraphTrace 1, 0⟩ = ⟨keyedParagraphTrace 1, 1⟩ := rfl
  have built : rendering.element .html keyedParagraph ⟨keyedParagraphTrace 1, 0⟩ =
      .ok 2 ⟨keyedParagraphTrace 3, 2⟩ := by
    rw [Rendering.element, Rendering.buildElement_outfit, paragraph, counted, outer]
    simp only [Rendering.bind_eq, below]
    rfl
  have detected : Script.numbering.traced.detect { state := {} } = (.plain, keyedParagraphTrace 1) := rfl
  have found : rootElement (some keyedParagraph.toNode) = .ok keyedParagraph := rfl
  rw [render_of_ok found]
  exact renderElement_of_element detected built

theorem plain_render_repeats_keyedParagraph :
    (∃ again calls,
      Renderer.render { options := .ofText "row-" } (some Script.numbering.traced.rebuilding)
        (some keyedParagraph.toNode) { state := {} } = .ok (2, again) (keyedParagraphTrace 3) ∧
      Follows (keyedParagraphTrace 3).calls calls ∧
      (∀ {τ μ : Type} (other : Builder τ μ) (state : τ), (other.detect state).1 = .plain →
        Makes calls (Renderer.render { options := .ofText "row-" } (some other.traced) (some again) { state })) ∧
      ∀ {alike : Tally → Tally → Prop}, Script.numbering.IgnoresContext alike →
        SameEnd (Traced.SameButContext alike) (.ok 2 (keyedParagraphTrace 3))
          (Renderer.render { options := .ofText "row-" } (some Script.numbering.traced) (some again) { state := {} })) ∧
    ∀ space name, (Schema.standard.find space (Schema.standard.find space name).attributeName).attributeName =
      (Schema.standard.find space name).attributeName :=
  plain_render_repeats { options := .ofText "row-" } rfl Script.numbering rfl render_keyedParagraph

end Renderer

end Hyperscript
