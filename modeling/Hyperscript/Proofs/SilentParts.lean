import Hyperscript.Proofs.RendersAlike

namespace Hyperscript

open Info

variable {σ ν : Type}

namespace Attributes

variable {schema : Schema} {dialect : Dialect} {space : Space}

/-- Whether a property comes to nothing: a value that stands for an absent one, or a flag that is not set where set
flags are told by their presence. -/
def isSilent (schema : Schema) (dialect : Dialect) (space : Space) (property : String × PropertyValue) : Bool :=
  property.2 = .null || property.2 = .bool false || property.2 = .number .nan ||
    (dialect ∈ [.attributesDom, .selectorDom, .retainedFramework] && (schema.find space property.1).boolean &&
      !property.2.isTruthy)

/-- What comes to nothing is what the placing of properties drops. -/
theorem isSilent_eq_isDropped (property : String × PropertyValue) :
    isSilent schema dialect space property = isDropped dialect (schema.find space property.1) property.2 := by
  have absent : (property.2 = .null || property.2 = .bool false || property.2 = .number .nan : Bool) =
      property.2.isAbsent := by
    cases property.2 with
    | bool value => cases value <;> rfl
    | number value => simp [PropertyValue.isAbsent]
    | _ => rfl
  have explicit : (dialect ∈ [.attributesDom, .selectorDom, .retainedFramework] : Bool) = dialect.explicitBooleans := by
    cases dialect <;> rfl
  rw [isSilent, isDropped, absent, explicit]

/-- Properties that come to nothing may be left out. They neither set a key nor give one its place, they make no
nested map, and their styles are not read. -/
theorem addAll_filter_not_isSilent (attributes : Attributes) (properties : List (String × PropertyValue)) :
    addAll schema dialect space attributes (properties.filter fun property => !isSilent schema dialect space property) =
      addAll schema dialect space attributes properties := by
  induction properties generalizing attributes with
  | nil => rfl
  | cons property rest ih =>
    cases silent : isSilent schema dialect space property with
    | true =>
      rw [isSilent_eq_isDropped] at silent
      rw [List.filter_cons_of_neg (by simp [isSilent_eq_isDropped, silent]), ih, addAll, add_of_isDropped silent]
    | false =>
      rw [List.filter_cons_of_pos (by simp [silent]), addAll, addAll]
      split
      · exact ih _
      · rfl

end Attributes

namespace Node

mutual

/-- The node without its silent parts: without the properties that come to nothing, and below it without what is
not visible and all that this holds. -/
def prune (schema : Schema) (dialect : Dialect) (space : Space) : Node → Node
  | .element tag properties inner =>
    .element tag
      (properties.filter fun property => !Attributes.isSilent schema dialect (space.enter tag) property)
      (pruneAll schema dialect (space.enter tag) inner)
  | node => node

def pruneAll (schema : Schema) (dialect : Dialect) (space : Space) : List Node → List Node
  | [] => []
  | node :: rest =>
    match node with
    | .comment _ | .doctype | .raw _ | .root _ => pruneAll schema dialect space rest
    | node => node.prune schema dialect space :: pruneAll schema dialect space rest

end

end Node

namespace Rendering

/-- An element without its silent properties is shaped as before. -/
theorem outfit_prune (rendering : Rendering σ ν) (space : Space) (tag : String) (properties : Properties)
    (inner inner' : List Node) :
    rendering.outfit space ⟨tag, properties, inner⟩ = rendering.outfit space ⟨tag,
      properties.filter fun property => !Attributes.isSilent rendering.schema rendering.dialect space property,
      inner'⟩ := by
  funext number
  simp only [outfit, shape, Attributes.ofProperties, OrderedMap.entries_filter, Attributes.addAll_filter_not_isSilent]

mutual

/-- A node that is visible is rendered as what is left of it. -/
theorem nodesAlike_prune (rendering : Rendering σ ν) (space : Space) : (node : Node) → node.isVisible = true →
    NodesAlike rendering.outfit space node (node.prune rendering.schema rendering.dialect space)
  | .element tag properties inner, _ => by
    rw [Node.prune]
    exact .element (rendering.outfit_prune ..) (childrenAlike_pruneAll rendering (space.enter tag) inner)
  | .text value, _ => by
    rw [Node.prune]
    · exact .text value
    · exact nofun

theorem childrenAlike_pruneAll (rendering : Rendering σ ν) (space : Space) : (nodes : List Node) →
    ChildrenAlike rendering.outfit space nodes (Node.pruneAll rendering.schema rendering.dialect space nodes)
  | [] => by
    rw [Node.pruneAll]
    exact .nil
  | node :: rest => by
    have later := childrenAlike_pruneAll rendering space rest
    cases node with
    | element tag properties inner =>
      rw [Node.pruneAll]
      · exact .cons (nodesAlike_prune rendering space _ rfl) later
      all_goals nofun
    | text value =>
      rw [Node.pruneAll]
      · exact .cons (nodesAlike_prune rendering space _ rfl) later
      all_goals nofun
    | _ =>
      rw [Node.pruneAll]
      exact .skip rfl later

end

end Rendering

namespace Renderer

/-- What produces no output has no effect. An element without the silent parts at and below it is rendered by the
same calls in the same order, with the same arguments but for the elements that they are made for, and with the same
result or error, if the builder ignores those elements. -/
theorem render_ignores_silent_parts (renderer : Renderer) {builder : Builder σ ν} {alike : σ → σ → Prop}
    (ignores : builder.IgnoresContext alike) (element : Element) (state : σ) :
    SameEnd (Traced.SameButContext alike)
        (renderer.render (some builder.traced) (some element.toNode) { state })
        (renderer.render (some builder.traced)
          (some (element.toNode.prune renderer.schema (builder.detect state).1 renderer.options.space)) { state }) ∧
      SameEnd alike (renderer.render (some builder) (some element.toNode) state)
        (renderer.render (some builder)
          (some (element.toNode.prune renderer.schema (builder.detect state).1 renderer.options.space)) state) :=
  renderer.render_alike ignores rfl rfl state
    (Rendering.nodesAlike_prune (renderer.rendering builder (builder.detect state).1) _ element.toNode rfl)

/-- A script answers by the names of the calls, whatever they are made for. -/
theorem scriptBuilder_ignoresContext (script : Script) : script.builder.IgnoresContext Eq where
  refl _ := rfl
  create := by
    rintro call call' tally _ same rfl
    simp only [Script.builder, same.name]
    split
    · exact .error _ rfl
    · exact .ok _ rfl

/-- A paragraph with a flag that is not set, an absent title, a comment, and an element in a root. -/
def quietParagraph : Element where
  tag := "p"
  properties := .ofList [("title", .null), ("hidden", .text ""), ("data-x", .text "a")]
  children := [.comment "b", .text "c", .root [.element "b" ∅ []]]

theorem prune_quietParagraph : quietParagraph.toNode.prune .standard .attributesDom .html =
    .element "p" (.ofList [("data-x", .text "a")]) [.text "c"] := by
  have hidden : Schema.standard.find .html "hidden" = ⟨.flag, "hidden", "hidden", true⟩ :=
    find_of_listed (by decide +kernel) (by decide)
  have custom : "data-x".toList = customMark ++ ['x'] := by decide
  have plain : (Schema.standard.find .html "data-x").boolean = false := by
    rw [(find_customMark custom).1.traits]
  have space : Space.html.enter "p" = .html := by decide
  have absent : Attributes.isSilent .standard .attributesDom .html ("title", .null) = true := rfl
  have unset : Attributes.isSilent .standard .attributesDom .html ("hidden", .text "") = true := by
    rw [Attributes.isSilent, hidden]
    decide
  have kept : Attributes.isSilent .standard .attributesDom .html ("data-x", .text "a") = false := by
    rw [Attributes.isSilent, plain]
    decide
  rw [Element.toNode, Node.prune, show quietParagraph.tag = "p" from rfl, space]
  refine congrArg₂ (Node.element "p") (OrderedMap.ext ?_) ?_
  · simp [quietParagraph, OrderedMap.entries_filter, absent, unset, kept]
  · simp [quietParagraph, Node.pruneAll, Node.prune]

theorem render_ignores_silent_parts_paragraph :
    SameEnd (Traced.SameButContext Eq)
        (({} : Renderer).render (some paragraphBuilder.traced) (some quietParagraph.toNode) { state := {} })
        (({} : Renderer).render (some paragraphBuilder.traced)
          (some (.element "p" (.ofList [("data-x", .text "a")]) [.text "c"])) { state := {} }) ∧
      SameEnd Eq (({} : Renderer).render (some paragraphBuilder) (some quietParagraph.toNode) {})
        (({} : Renderer).render (some paragraphBuilder)
          (some (.element "p" (.ofList [("data-x", .text "a")]) [.text "c"])) {}) := by
  have detected : (paragraphBuilder.detect {}).1 = .attributesDom := by decide
  have ignores : paragraphBuilder.IgnoresContext Eq := scriptBuilder_ignoresContext _
  have same := render_ignores_silent_parts {} ignores quietParagraph {}
  rw [detected] at same
  rw [← prune_quietParagraph]
  exact same

end Renderer

end Hyperscript
