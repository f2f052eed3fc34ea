import Hyperscript.Proofs.FragmentNames
import Hyperscript.Proofs.TokenLists

namespace Hyperscript

open Info

variable {σ ν : Type}

namespace OrderedMap

variable {α : Type}

theorem get?_foldl_insert_of_ne {pairs : List (String × α)} {key : String} (other : ∀ pair ∈ pairs, pair.1 ≠ key)
    (map : OrderedMap α) :
    (pairs.foldl (fun map pair => map.insert pair.1 pair.2) map).get? key = map.get? key := by
  induction pairs generalizing map with
  | nil => rfl
  | cons pair rest ih =>
    rw [List.forall_mem_cons] at other
    rw [List.foldl_cons, ih other.2, get?_insert, if_neg (Ne.symm other.1)]

/-- The last pair of a key counts. -/
theorem get?_ofList_of_last (before : List (String × α)) {after : List (String × α)} {key : String}
    (last : ∀ pair ∈ after, pair.1 ≠ key) (value : α) :
    (ofList (before ++ (key, value) :: after)).get? key = some value := by
  rw [ofList, List.foldl_append, List.foldl_cons, get?_foldl_insert_of_ne last, get?_insert, if_pos rfl]

end OrderedMap

namespace Fragment

/-- Text that is read as a number, but as the one that is none. -/
def ReadsAsNaN (info : Info) (raw : String) : Prop :=
  info.boolean = false ∧ info.commaSeparated = false ∧ info.spaceSeparated = false ∧ info.number = true ∧
    Number.ofChars? (Text.trim raw.toList) = some .nan

/-- Whether a value says what the text of an attribute says: that a flag is set, the items of a list, a number, or
the text as it stands. -/
def KeepsMeaning (info : Info) (raw : String) (value : Value) : Prop :=
  if info.boolean then value = .bool true
  else if info.commaSeparated then ∃ text, value = .text text ∧ TokenList.parseCommas text = TokenList.parseCommas raw
  else if info.spaceSeparated then ∃ text, value = .text text ∧ TokenList.parseSpaces text = TokenList.parseSpaces raw
  else
    match (if info.number then Number.ofChars? (Text.trim raw.toList) else none) with
    | some number => value = .number number
    | none => value = .text raw

/-- Only numbers that are none are dropped of what a fragment is read to. -/
theorem typedValue_isAbsent_iff (info : Info) (raw : String) :
    (typedValue info raw).isAbsent = true ↔ ReadsAsNaN info raw := by
  unfold typedValue ReadsAsNaN
  cases info.boolean <;> cases info.commaSeparated <;> cases info.spaceSeparated <;> cases info.number <;>
    cases Number.ofChars? (Text.trim raw.toList) <;> simp [PropertyValue.isAbsent]

/-- Reading a text for its property and passing the value on keeps what the text says, if the property that the
value is passed on for joins lists in the same way. -/
theorem keepsMeaning_ofPropertyValue {info passing : Info} (same : passing.commaSeparated = info.commaSeparated)
    (raw : String) : KeepsMeaning info raw (Attributes.ofPropertyValue passing (typedValue info raw)) := by
  unfold KeepsMeaning typedValue
  split
  · rfl
  · by_cases commas : info.commaSeparated = true
    · simp only [if_pos commas, Attributes.ofPropertyValue, same]
      exact ⟨_, rfl, TokenList.parseCommas_printCommas_parseCommas raw⟩
    · simp only [if_neg commas]
      split
      · simp only [Attributes.ofPropertyValue, same, if_neg commas]
        exact ⟨_, rfl, TokenList.parseSpaces_printSpaces_parseSpaces raw⟩
      · by_cases number : info.number = true
        · simp only [if_pos number]
          cases Number.ofChars? (Text.trim raw.toList) <;> rfl
        · simp only [if_neg number]
          rfl

/-- A property that asks for more than text is in the table, and its name finds it there again. -/
theorem passedValue_keepsMeaning (space : Space) (pair : String × String) :
    KeepsMeaning (Schema.standard.find space pair.1) pair.2 (passedValue space pair) := by
  have cases : Schema.standard.find space pair.1 ∈ table space ∨ (Schema.standard.find space pair.1).Ordinary :=
    standardFind_cases space pair.1
  rcases cases with member | ordinary
  · have again : Schema.standard.find space (Schema.standard.find space pair.1).propertyName =
        Schema.standard.find space pair.1 := find_of_known (known?_propertyName member)
    exact keepsMeaning_ofPropertyValue (congrArg (·.commaSeparated) again) pair.2
  · simp only [KeepsMeaning, passedValue, typedValue, ordinary.traits, Bool.false_eq_true, if_false]
    rfl

theorem passedName_of_known {space : Space} {name : String} {row : Info} (listed : known? space name = some row) :
    Schema.standard.find space name = row ∧ passedName space name = row.attributeName := by
  have found := find_of_known listed
  have again := find_of_known (known?_propertyName (known?_eq_some_iff.mp listed).1)
  rw [passedName, found, again]
  exact ⟨rfl, rfl⟩

theorem passedName_of_unknown {space : Space} {name : String} (unlisted : known? space name = none)
    (noData : dataRest? name.toList = none) :
    Schema.standard.find space name = unknown name ∧ passedName space name = name := by
  have found : Schema.standard.find space name = unknown name := by
    simp only [Schema.standard, Schema.standardFind, unlisted, noData]
  rw [passedName, found]
  exact ⟨rfl, congrArg Info.attributeName found⟩

/-- Attributes with different properties are passed on under one name only if one of them is custom. -/
theorem propertyName_of_passedName {space : Space} {name other : String} (noData : dataRest? name.toList = none)
    (noData' : dataRest? other.toList = none) (same : passedName space name = passedName space other) :
    (Schema.standard.find space name).propertyName = (Schema.standard.find space other).propertyName := by
  cases listed : known? space name with
  | some row =>
    obtain ⟨found, named⟩ := passedName_of_known listed
    have row_found := known?_attributeName (known?_eq_some_iff.mp listed).1
    cases listed' : known? space other with
    | some row' =>
      obtain ⟨found', named'⟩ := passedName_of_known listed'
      rw [← named, same, named', known?_attributeName (known?_eq_some_iff.mp listed').1] at row_found
      rw [found, found', Option.some.inj row_found]
    | none =>
      rw [← named, same, (passedName_of_unknown listed' noData').2, listed'] at row_found
      cases row_found
  | none =>
    obtain ⟨found, named⟩ := passedName_of_unknown listed noData
    cases listed' : known? space other with
    | some row' =>
      have row_found := known?_attributeName (known?_eq_some_iff.mp listed').1
      rw [← (passedName_of_known listed').2, ← same, named, listed] at row_found
      cases row_found
    | none =>
      obtain ⟨found', named'⟩ := passedName_of_unknown listed' noData'
      rw [found, found', ← named, same, named']

/-- What becomes of an attribute that stands between others. Its entry says what its text says, unless a later
attribute takes its name. What is read as not a number leaves no entry of its own. -/
structure KeepsAttribute (space : Space) (before : List (String × String)) (pair : String × String)
    (after : List (String × String)) (attributes : Attributes) : Prop where
  kept : ¬ ReadsAsNaN (Schema.standard.find space pair.1) pair.2 →
    (∀ later ∈ after, passedName space later.1 = passedName space pair.1 →
      ReadsAsNaN (Schema.standard.find space later.1) later.2) →
    ∃ value, attributes.get? (passedName space pair.1) = some value ∧
      KeepsMeaning (Schema.standard.find space pair.1) pair.2 value
  lost : ReadsAsNaN (Schema.standard.find space pair.1) pair.2 →
    (∀ other ∈ before ++ after, passedName space other.1 = passedName space pair.1 →
      ReadsAsNaN (Schema.standard.find space other.1) other.2) →
    attributes.get? (passedName space pair.1) = none

theorem isPresent_iff (space : Space) (pair : String × String) :
    isPresent space pair = true ↔ ¬ ReadsAsNaN (Schema.standard.find space pair.1) pair.2 := by
  rw [isPresent, Bool.not_eq_true', ← typedValue_isAbsent_iff, Bool.not_eq_true]

theorem Conversion.keepsAttribute {conversion : Conversion} {before after : List (String × String)}
    {pair : String × String} (split : conversion.attributes = before ++ pair :: after) :
    KeepsAttribute conversion.space before pair after conversion.passed where
  kept present last := by
    have listed := (isPresent_iff conversion.space pair).mpr present
    rw [passed, split, List.filter_append, List.filter_cons_of_pos listed, List.map_append, List.map_cons]
    refine ⟨_, OrderedMap.get?_ofList_of_last _ ?_ _, passedValue_keepsMeaning conversion.space pair⟩
    intro entry member same
    obtain ⟨later, found, rfl⟩ := List.mem_map.mp member
    obtain ⟨there, present'⟩ := List.mem_filter.mp found
    exact (isPresent_iff conversion.space later).mp present' (last later there same)
  lost absent none := by
    have unlisted : ¬ isPresent conversion.space pair = true := fun present =>
      (isPresent_iff conversion.space pair).mp present absent
    rw [passed, split, List.filter_append, List.filter_cons_of_neg unlisted, ← List.filter_append]
    refine OrderedMap.get?_foldl_insert_of_ne ?_ ∅
    intro entry member same
    obtain ⟨other, found, rfl⟩ := List.mem_map.mp member
    obtain ⟨there, present'⟩ := List.mem_filter.mp found
    exact (isPresent_iff conversion.space other).mp present' (none other there same)

/-- A call for an element that was converted, with what has become of each of its attributes. -/
def CarriesAttributes (visit : Visit) (entry : Entry ν) : Prop :=
  ∀ conversion : Conversion, visit.element = conversion.element → visit.space = conversion.space →
    conversion.PropertiesApart → entry.call.name = conversion.tag ∧
      ∀ before pair after, conversion.attributes = before ++ pair :: after →
        KeepsAttribute conversion.space before pair after entry.call.attributes

/-- In the plain dialect and with the options as they are unless set, an element that was converted is called with
its attributes, and each says what its text says: but for those that ask for a number and are read as not a number,
which are gone, and for those whose name a later attribute takes. Only custom attributes share a name with others
that have another property. -/
theorem render_keeps_attributes (builder : Builder σ ν) {tree : Option Node} {content : Element}
    (found : Renderer.rootElement tree = .ok content) (start : Traced σ ν)
    (plain : (builder.traced.detect start).1 = .plain) :
    (∀ space name other, dataRest? name.toList = none → dataRest? other.toList = none →
      passedName space name = passedName space other →
      (Schema.standard.find space name).propertyName = (Schema.standard.find space other).propertyName) ∧
    ∃ visits entries, visits <+: Event.created (content.walk .html) ∧
      (∀ result finish, Renderer.render {} (some builder.traced) tree start = .ok result finish →
        visits = Event.created (content.walk .html)) ∧
      (Traced.final (Renderer.render {} (some builder.traced) tree start)).calls =
        (builder.traced.detect start).2.calls ++ entries ∧
      List.Forall₂ CarriesAttributes visits entries := by
  refine ⟨fun _ _ _ => propertyName_of_passedName, ?_⟩
  obtain ⟨visits, built, initial, _, calls, all⟩ := Renderer.renderElement_calls {} builder content start
  rw [Renderer.render_of_ok found]
  refine ⟨visits, _, initial, all, calls, ?_⟩
  rw [List.forall₂_map_right_iff, List.forall₂_same]
  intro visit _ conversion element space apart
  have noKeys : (Renderer.rendering {} builder.traced (builder.traced.detect start).1).keyText = none := by
    simp only [Renderer.rendering, plain]
    rfl
  obtain ⟨name, attributes⟩ := entryFor_callsConverted plain rfl noKeys built visit conversion element space apart
  refine ⟨name, fun before pair after split => ?_⟩
  rw [attributes]
  exact conversion.keepsAttribute split

/-- A paragraph with a list of classes and a number that is none. -/
def oddParagraph : Conversion where
  space := .html
  tag := "p"
  attributes := [("class", " a  b"), ("tabindex", "nan")]
  children := []

theorem oddParagraph_find : Schema.standard.find .html "class" = classRow ∧
    Schema.standard.find .html "className" = classRow ∧
    Schema.standard.find .html "tabindex" = ⟨.numeric, "tabIndex", "tabindex", true⟩ := by
  exact ⟨find_of_common (by decide) .html (by decide), find_of_common (by decide) .html (by decide),
    find_of_listed (by decide +kernel) (by decide)⟩

theorem oddParagraph_propertiesApart : oddParagraph.PropertiesApart := by
  simp only [Conversion.PropertiesApart, oddParagraph, List.map_cons, List.map_nil, oddParagraph_find]
  decide

theorem render_keeps_attributes_paragraph :
    (Script.numbering.traced.detect { state := {} }).1 = .plain ∧ oddParagraph.PropertiesApart ∧
    ∃ visits entries, visits <+: Event.created (oddParagraph.element.walk .html) ∧
      (Traced.final (Renderer.render {} (some Script.numbering.traced) (some oddParagraph.element.toNode)
        { state := {} })).calls = (Script.numbering.traced.detect { state := {} }).2.calls ++ entries ∧
      List.Forall₂ CarriesAttributes visits entries := by
  have plain : (Script.numbering.traced.detect { state := {} }).1 = .plain := rfl
  have found : Renderer.rootElement (some oddParagraph.element.toNode) = .ok oddParagraph.element := rfl
  obtain ⟨_, visits, entries, initial, _, calls, carried⟩ :=
    render_keeps_attributes Script.numbering found { state := {} } plain
  exact ⟨plain, oddParagraph_propertiesApart, visits, entries, initial, calls, carried⟩

theorem oddParagraph_passed : oddParagraph.passed = .ofList [("class", .text "a b")] := by
  obtain ⟨classes, className, tabIndex⟩ := oddParagraph_find
  have present : isPresent .html ("class", " a  b") = true := by
    rw [isPresent, classes]
    rfl
  have absent : isPresent .html ("tabindex", "nan") = false := by
    rw [isPresent, tabIndex]
    decide
  have name : passedName .html "class" = "class" := by
    rw [passedName, classes, show classRow.propertyName = "className" from rfl, className]
    rfl
  have value : passedValue .html ("class", " a  b") = .text "a b" := by
    rw [passedValue, classes, show classRow.propertyName = "className" from rfl, className]
    rfl
  have some : oddParagraph.attributes.filter (isPresent oddParagraph.space) = [("class", " a  b")] := by
    simp [oddParagraph, present, absent]
  rw [Conversion.passed, some, List.map_singleton, show oddParagraph.space = .html from rfl, name, value]

/-- The text for no number is kept by that number only. -/
theorem keepsMeaning_nan (value : Value) :
    KeepsMeaning (Schema.standard.find .html "tabindex") "nan" value ↔ value = .number .nan := by
  rw [oddParagraph_find.2.2, KeepsMeaning, show Number.ofChars? (Text.trim "nan".toList) = some .nan by decide]
  exact Iff.rfl

/-- The number that is none is read as a number, so it is not kept as text, and then it is dropped for being none. -/
theorem oddParagraph_loses_tabindex : oddParagraph.PropertiesApart ∧
    (Renderer.rendering {} Script.numbering .plain).shape .html oddParagraph.element =
      .ok ("p", .ofList [("class", .text "a b")]) ∧
    ¬ ∀ conversion : Conversion, conversion.PropertiesApart → ∃ attributes,
      (Renderer.rendering {} Script.numbering .plain).shape conversion.space conversion.element =
        .ok (conversion.tag, attributes) ∧
      ∀ pair ∈ conversion.attributes, ∃ key value, attributes.get? key = some value ∧
        KeepsMeaning (Schema.standard.find conversion.space pair.1) pair.2 value := by
  have shaped : (Renderer.rendering {} Script.numbering .plain).shape .html oddParagraph.element =
      .ok ("p", .ofList [("class", .text "a b")]) := by
    rw [← oddParagraph_passed]
    exact Rendering.shape_plain rfl rfl (oddParagraph.ofProperties_plain oddParagraph_propertiesApart)
  refine ⟨oddParagraph_propertiesApart, shaped, fun kept => ?_⟩
  obtain ⟨attributes, same, entries⟩ := kept oddParagraph oddParagraph_propertiesApart
  obtain ⟨_, rfl⟩ := Prod.mk.inj (Except.ok.inj (shaped.symm.trans same))
  have odd := entries ("tabindex", "nan") (.tail _ (.head _))
  simp only [show oddParagraph.space = .html from rfl, keepsMeaning_nan] at odd
  obtain ⟨key, _, found, rfl⟩ := odd
  rw [OrderedMap.get?, OrderedMap.entries_ofList (by decide), OrderedMap.lookup_entry] at found
  split at found <;> cases found

end Fragment

end Hyperscript
