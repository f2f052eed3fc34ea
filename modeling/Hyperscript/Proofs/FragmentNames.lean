import Hyperscript.Proofs.CallsMade
import Hyperscript.Proofs.DataNames
import Hyperscript.Proofs.DialectPlacement
import Hyperscript.Proofs.FragmentSpaces

namespace Hyperscript

open Info

variable {σ ν : Type}

namespace Attributes

/-- The plain dialect rejects nothing and drops what is absent. Each other property has its attribute name for
its key. -/
theorem addAll_plain (space : Space) (attributes : Attributes) (properties : List (String × PropertyValue)) :
    addAll .standard .plain space attributes properties =
      .ok ((properties.filter fun property => !property.2.isAbsent).foldl (fun map property =>
        map.insert (Schema.standard.find space property.1).attributeName
          (ofPropertyValue (Schema.standard.find space property.1) property.2)) attributes) := by
  induction properties generalizing attributes with
  | nil => rfl
  | cons property rest ih =>
    obtain ⟨name, value⟩ := property
    have dropping : isDropped .plain (Schema.standard.find space name) value = value.isAbsent := by
      simp [isDropped, Dialect.explicitBooleans]
    cases absent : value.isAbsent with
    | true =>
      rw [addAll, add_of_isDropped (dropping.trans absent), List.filter_cons_of_neg (by simp [absent])]
      exact ih attributes
    | false =>
      rw [addAll_cons_of_passed rfl (dropping.trans absent) (passed_plain _ value), ofInfo_plain,
        List.filter_cons_of_pos (by simp [absent])]
      exact ih _

end Attributes

namespace Rendering

/-- In the plain dialect an element is called by its tag, with the attributes for its properties. -/
theorem shape_plain {rendering : Rendering σ ν} (dialect : rendering.dialect = .plain)
    (schema : rendering.schema = .standard) {space : Space} {element : Element} {attributes : Attributes}
    (added : Attributes.ofProperties .standard .plain space element.properties = .ok attributes) :
    rendering.shape space element = .ok (element.tag, attributes) := by
  simp only [shape, dialect, schema, added]
  rfl

end Rendering

namespace Fragment

/-- The name under which an attribute of a fragment is passed on in the plain dialect: that of its property. -/
def passedName (space : Space) (name : String) : String :=
  (Schema.standard.find space (Schema.standard.find space name).propertyName).attributeName

/-- The value under which an attribute of a fragment is passed on. -/
def passedValue (space : Space) (pair : String × String) : Value :=
  Attributes.ofPropertyValue (Schema.standard.find space (Schema.standard.find space pair.1).propertyName)
    (typedValue (Schema.standard.find space pair.1) pair.2)

/-- Whether an attribute leaves a trace. Only what is read as not a number leaves none. -/
def isPresent (space : Space) (pair : String × String) : Bool :=
  !(typedValue (Schema.standard.find space pair.1) pair.2).isAbsent

namespace Conversion

/-- The attributes have pairwise different properties. -/
def PropertiesApart (conversion : Conversion) : Prop :=
  (conversion.attributes.map fun pair => (Schema.standard.find conversion.space pair.1).propertyName).Nodup

/-- The attributes as they are passed on. -/
def passed (conversion : Conversion) : Attributes :=
  .ofList ((conversion.attributes.filter (isPresent conversion.space)).map
    fun pair => (passedName conversion.space pair.1, passedValue conversion.space pair))

theorem ofProperties_plain {conversion : Conversion} (apart : conversion.PropertiesApart) :
    Attributes.ofProperties .standard .plain conversion.space conversion.element.properties =
      .ok conversion.passed := by
  have entries : conversion.element.properties.entries = conversion.attributes.map fun pair =>
      ((Schema.standard.find conversion.space pair.1).propertyName,
        typedValue (Schema.standard.find conversion.space pair.1) pair.2) := by
    refine OrderedMap.entries_ofList ?_
    rw [List.map_map]
    exact apart
  rw [Attributes.ofProperties, Attributes.addAll_plain, entries, List.filter_map, List.foldl_map, passed,
    OrderedMap.ofList, List.foldl_map]
  rfl

end Conversion

/-- A call for an element that was converted: it has the tag and the attributes as they are passed on. -/
def CallsConverted (visit : Visit) (entry : Entry ν) : Prop :=
  ∀ conversion : Conversion, visit.element = conversion.element → visit.space = conversion.space →
    conversion.PropertiesApart → entry.call.name = conversion.tag ∧ entry.call.attributes = conversion.passed

theorem entryFor_callsConverted {rendering : Rendering σ ν} (dialect : rendering.dialect = .plain)
    (schema : rendering.schema = .standard) (noKeys : rendering.keyText = none) (built : Place → Option ν)
    (visit : Visit) : CallsConverted visit (rendering.entryFor built visit) := by
  intro conversion element space apart
  have added := conversion.ofProperties_plain apart
  rw [← element, ← space] at added
  obtain ⟨name, attributes, _⟩ := Rendering.entryFor_of_shape (Rendering.shape_plain dialect schema added) built
  rw [name, attributes, element, Rendering.keyed, noKeys]
  exact ⟨rfl, rfl⟩

/-- In the plain dialect the attributes of a fragment are passed on under the attribute names of their properties.
That is the attribute name of the attribute itself, unless the attribute is a custom one. A custom attribute
keeps its name if its mark is in small letters and what follows is such that raising the letters after the dashes
can be undone; `data-type` does not in HTML, where its property is that of `datatype`. -/
theorem render_passes_names (builder : Builder σ ν) (markups : List Markup) (start : Traced σ ν)
    (plain : (builder.traced.detect start).1 = .plain) :
    (∀ space name, passedName space name = (Schema.standard.find space name).attributeName ↔
      ∀ rest, dataRest? name.toList = some ('-' :: rest) →
        name = "data-" ++ String.ofList rest ∧ KeepsName space rest) ∧
    ∃ content visits entries, Renderer.rootElement (some (tree markups)) = .ok content ∧
      (∀ visit ∈ Event.created (content.walk .html),
        (∃ place, IsConversionOf markups place visit) ∨
          content = wrapper markups ∧ visit.place = []) ∧
      visits <+: Event.created (content.walk .html) ∧
      (∀ result finish, Renderer.render {} (some builder.traced) (some (tree markups)) start = .ok result finish →
        visits = Event.created (content.walk .html)) ∧
      (Traced.final (Renderer.render {} (some builder.traced) (some (tree markups)) start)).calls =
        (builder.traced.detect start).2.calls ++ entries ∧
      List.Forall₂ CallsConverted visits entries := by
  refine ⟨attributeName_propertyName_eq_iff, ?_⟩
  obtain ⟨content, found, places⟩ := rootElement_tree markups
  obtain ⟨visits, built, initial, _, calls, all⟩ := Renderer.renderElement_calls {} builder content start
  rw [Renderer.render_of_ok found]
  refine ⟨content, visits, _, found, ?_, initial, all, calls, ?_⟩
  · intro visit member
    rcases places with ⟨markup, _, _, converted⟩ | ⟨same, converted⟩
    · exact Or.inl ⟨_, converted visit member⟩
    · by_cases top : visit.place = []
      · exact Or.inr ⟨same, top⟩
      · exact Or.inl ⟨_, converted visit member top⟩
  · rw [List.forall₂_map_right_iff, List.forall₂_same]
    intro visit _
    refine entryFor_callsConverted plain rfl ?_ built visit
    simp only [Renderer.rendering, plain]
    rfl

theorem render_passes_names_paragraph :
    (Script.numbering.traced.detect { state := {} }).1 = .plain ∧
    passedName .html "data-a-b" = (Schema.standard.find .html "data-a-b").attributeName ∧
    ∃ content visits entries, Renderer.rootElement (some (tree [.element "p" [("data-a-b", "1")] []])) = .ok content ∧
      visits <+: Event.created (content.walk .html) ∧
      (Traced.final (Renderer.render {} (some Script.numbering.traced)
        (some (tree [.element "p" [("data-a-b", "1")] []])) { state := {} })).calls =
        (Script.numbering.traced.detect { state := {} }).2.calls ++ entries ∧
      List.Forall₂ CallsConverted visits entries := by
  have plain : (Script.numbering.traced.detect { state := {} }).1 = .plain := rfl
  obtain ⟨names, content, visits, entries, found, _, initial, _, calls, converted⟩ :=
    render_passes_names Script.numbering [.element "p" [("data-a-b", "1")] []] { state := {} } plain
  refine ⟨plain, (names .html "data-a-b").mpr fun rest read => ?_, content, visits, entries, found, initial, calls,
    converted⟩
  obtain rfl : ['a', '-', 'b'] = rest := by
    have here : dataRest? "data-a-b".toList = some ['-', 'a', '-', 'b'] := by decide +kernel
    exact (List.cons.inj (Option.some.inj (here.symm.trans read))).2
  refine ⟨rfl, ⟨'a', _, rfl, by decide, Or.inl (by decide)⟩, by simp [Text.isUpperLetter], ?_⟩
  rintro ⟨_, same⟩
  revert same
  decide +kernel

/-- In HTML the property of `data-type` is the one that the table has for `datatype`. -/
theorem passedName_dataType :
    (Schema.standard.find .html "data-type").attributeName = "data-type" ∧
      passedName .html "data-type" = "datatype" ∧
      ¬ ∀ space name, passedName space name = (Schema.standard.find space name).attributeName := by
  have read : dataRest? "data-type".toList = some ['-', 't', 'y', 'p', 'e'] := by decide +kernel
  have property : dataProperty ['t', 'y', 'p', 'e'] = "dataType" := by decide +kernel
  have custom : Schema.standard.find .html "data-type" =
      { propertyName := "dataType", attributeName := "data-type", defined := true } := by
    rw [find_standard, standardFind_of_dashed read, property]
  have listed : Schema.standard.find .html "dataType" = ⟨.text, "dataType", "datatype", true⟩ :=
    find_of_listed (by decide +kernel) (by decide)
  have name : (Schema.standard.find .html "data-type").attributeName = "data-type" := by rw [custom]
  have passed : passedName .html "data-type" = "datatype" := by rw [passedName, custom, listed]
  refine ⟨name, passed, fun kept => ?_⟩
  have same : "datatype" = "data-type" := passed.symm.trans ((kept .html "data-type").trans name)
  exact absurd same (by decide)

end Fragment

end Hyperscript
