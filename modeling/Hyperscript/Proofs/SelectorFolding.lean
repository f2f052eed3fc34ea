import Hyperscript.Proofs.CallsMade
import Hyperscript.Proofs.DialectPlacement
import Hyperscript.Proofs.HeldValues
import Hyperscript.Proofs.TokenLists
import Hyperscript.Script

namespace Hyperscript

open Info

variable {σ ν : Type}

namespace OrderedMap

variable {α : Type}

theorem ne_of_get?_eq_none {map : OrderedMap α} {key : String} (absent : map.get? key = none) :
    ∀ entry ∈ map.entries, entry.1 ≠ key := by
  intro entry member same
  have other := List.lookup_eq_none_iff.mp absent entry member
  simp [same] at other

theorem erase_of_get?_eq_none {map : OrderedMap α} {key : String} (absent : map.get? key = none) :
    map.erase key = map := by
  have all := List.filter_eq_self.mpr fun entry member => decide_eq_true (ne_of_get?_eq_none absent entry member)
  exact ext ((entries_erase map key).trans all)

theorem isEmpty_erase_iff {map : OrderedMap α} {key : String} :
    (map.erase key).isEmpty = true ↔ ∀ other ∈ map.keys, other = key := by
  simp [isEmpty, entries_erase, ← map_fst_entries, List.isEmpty_iff]

theorem eq_empty_of_isEmpty {map : OrderedMap α} (empty : map.isEmpty = true) : map = ∅ :=
  ext (List.isEmpty_iff.mp empty)

theorem mem_keys_of_get? {map : OrderedMap α} {key : String} {value : α}
    (found : map.get? key = some value) : key ∈ map.keys := by
  by_contra absent
  have none : map.get? key = none := List.lookup_eq_none_iff.mpr fun entry member =>
    by simpa using fun same : key = entry.1 => absent (same ▸ mem_keys_of_mem member)
  rw [none] at found
  cases found

end OrderedMap

namespace Attributes

variable {dialect : Dialect} {space : Space}

/-- Whether a property leaves its value in the slot of another name. -/
def reaches (dialect : Dialect) (space : Space) (key : String) (property : String × PropertyValue) : Bool :=
  isKept .standard dialect space property &&
    slotOf .standard dialect space property.1 = slotOf .standard dialect space key

/-- A slot holds what the last of the properties that reach it leaves there. -/
theorem held_addAll {key : String} {value : String × PropertyValue → Value}
    {properties : List (String × PropertyValue)}
    (passes : ∀ property ∈ properties, reaches dialect space key property = true →
      passed dialect (Schema.standard.find space property.1) property.2 = .ok (value property))
    {attributes final : Attributes} (added : addAll .standard dialect space attributes properties = .ok final) :
    held final (slotOf .standard dialect space key) =
      (((properties.filter (reaches dialect space key)).getLast?).map value).or
        (held attributes (slotOf .standard dialect space key)) := by
  induction properties generalizing attributes with
  | nil =>
    cases added
    rfl
  | cons property rest ih =>
    rw [List.forall_mem_cons] at passes
    obtain ⟨reached, first, later⟩ := addAll_cons_ok added
    rw [ih passes.2 later]
    rcases add_ok_cases first with ⟨dropped, unchanged⟩ | ⟨placed, kept, shows, here⟩
    · have out : reaches dialect space key property = false := by simp [reaches, dropped]
      rw [List.filter_cons_of_neg (by simp [out]), unchanged]
    · have found : held reached (slotOf .standard dialect space key) = _ :=
        (congrArg (held · _) here).trans (held_place attributes outerKey_ne placed)
      by_cases same : slotOf .standard dialect space property.1 = slotOf .standard dialect space key
      · have reached : reaches dialect space key property = true := by simp [reaches, kept, same]
        obtain rfl : placed = value property := Except.ok.inj (shows.symm.trans (passes.1 reached))
        rw [found, if_pos same.symm, List.filter_cons_of_pos reached, List.getLast?_cons]
        cases (rest.filter (reaches dialect space key)).getLast? <;> rfl
      · have out : reaches dialect space key property = false := by simp [reaches, same]
        rw [found, if_neg (Ne.symm same), List.filter_cons_of_neg (by simp [out])]

/-- In the selector dialect the slot of a property is named as its attribute. -/
theorem slotOf_selectorDom (space : Space) (name : String) :
    slotOf .standard .selectorDom space name =
      if (Schema.standard.find space name).staysFlat .selectorDom then
        .flat (Schema.standard.find space name).attributeName
      else .nested Selector.nestedName (Schema.standard.find space name).attributeName := by
  cases flat : (Schema.standard.find space name).staysFlat .selectorDom with
  | true => exact ofInfo_of_staysFlat rfl flat .standard
  | false => exact ofInfo_of_not_staysFlat rfl flat .standard

/-- Two names have one place if and only if they have one attribute. -/
theorem slotOf_eq_iff (space : Space) (name other : String) :
    slotOf .standard .selectorDom space name = slotOf .standard .selectorDom space other ↔
      (Schema.standard.find space name).attributeName = (Schema.standard.find space other).attributeName := by
  constructor
  · intro same
    rw [slotOf_selectorDom, slotOf_selectorDom] at same
    split at same <;> split at same <;> first | cases same | simpa using same
  · intro same
    have tells : Tells .standard .selectorDom space Selector.nestedName := standard_tells rfl space
    have first := tells.slot name
    rw [same] at first
    exact first.symm.trans (tells.slot other)

theorem find_id (space : Space) : Schema.standard.find space "id" = idRow :=
  find_of_common (by decide) space (by decide)

theorem find_class (space : Space) : Schema.standard.find space "class" = classRow :=
  find_of_common (by decide) space (by decide)

theorem attributeName_id (space : Space) : (Schema.standard.find space "id").attributeName = "id" := by
  rw [find_id]
  rfl

theorem attributeName_class (space : Space) : (Schema.standard.find space "class").attributeName = "class" := by
  rw [find_class]
  rfl

theorem slotOf_id (space : Space) :
    slotOf .standard .selectorDom space "id" = .nested Selector.nestedName "id" := by
  rw [slotOf, find_id]
  rfl

theorem slotOf_class (space : Space) : slotOf .standard .selectorDom space "class" = .flat "class" := by
  rw [slotOf, find_class]
  rfl

theorem attributeName_of_flat {space : Space} {name key : String}
    (placed : slotOf .standard .selectorDom space name = .flat key) :
    (Schema.standard.find space name).attributeName = key := by
  rw [slotOf_selectorDom] at placed
  split at placed
  · exact Slot.flat.inj placed
  · cases placed

theorem attributeName_of_nested {space : Space} {name map key : String}
    (placed : slotOf .standard .selectorDom space name = .nested map key) :
    (Schema.standard.find space name).attributeName = key := by
  rw [slotOf_selectorDom] at placed
  split at placed
  · cases placed
  · exact (Slot.nested.inj placed).2

/-- No name puts an id into the flat map. -/
theorem slotOf_ne_flat_id (space : Space) (name : String) : slotOf .standard .selectorDom space name ≠ .flat "id" := by
  intro placed
  have same := (slotOf_eq_iff space name "id").mpr ((attributeName_of_flat placed).trans (attributeName_id space).symm)
  rw [placed, slotOf_id] at same
  cases same

/-- No name puts a class list into a nested map. -/
theorem slotOf_ne_nested_class (space : Space) (name map : String) :
    slotOf .standard .selectorDom space name ≠ .nested map "class" := by
  intro placed
  have same :=
    (slotOf_eq_iff space name "class").mpr ((attributeName_of_nested placed).trans (attributeName_class space).symm)
  rw [placed, slotOf_class] at same
  cases same

/-- Two properties with one attribute name have the same traits. -/
theorem traits_of_attributeName {space : Space} {name other : String}
    (same : (Schema.standard.find space name).attributeName = (Schema.standard.find space other).attributeName) :
    (Schema.standard.find space name).toTraits = (Schema.standard.find space other).toTraits := by
  have back : ∀ name, (Schema.standard.find space (Schema.standard.find space name).attributeName).toTraits =
      (Schema.standard.find space name).toTraits := by
    intro name
    rcases standardFind_attributeName space name with found | ⟨ordinary, ordinary', _⟩
    · exact congrArg Info.toTraits found
    · exact ordinary'.traits.trans ordinary.traits.symm
  rw [← back name, same, back other]

/-- The selector dialect passes styles as texts, so it rejects none. -/
theorem exists_ofProperties (space : Space) (properties : Properties) :
    ∃ whole, ofProperties .standard .selectorDom space properties = .ok whole := by
  cases added : ofProperties .standard .selectorDom space properties with
  | ok whole => exact ⟨whole, rfl⟩
  | error fault => exact absurd ((addAll_error_iff properties.entries ∅).mp added).1 (by decide)

end Attributes

namespace PropertyValue

/-- The text of a value, a list with its items joined by spaces. -/
def spaced : PropertyValue → String
  | .null => ""
  | .text value => value
  | .number value => value.toText
  | .bool value => if value then "true" else "false"
  | .list tokens => TokenList.printSpaces tokens

/-- The words of a value. Each item of a list may hold several, or none. -/
def spacedWords : PropertyValue → List String
  | .list tokens => tokens.flatMap fun token => TokenList.parseSpaces token.toText
  | value => TokenList.parseSpaces value.spaced

theorem parseSpaces_spaced (value : PropertyValue) : TokenList.parseSpaces value.spaced = value.spacedWords := by
  cases value with
  | list tokens => exact TokenList.parseSpaces_printSpaces tokens
  | _ => rfl

end PropertyValue

namespace Selector

open Attributes

/-- The last value kept for an attribute, under whatever name. -/
def lastValue? (space : Space) (key : String) (properties : Properties) : Option PropertyValue :=
  ((properties.entries.filter fun property => isKept .standard .selectorDom space property &&
    (Schema.standard.find space property.1).attributeName = key).getLast?).map (·.2)

def idText : Option PropertyValue → String
  | some value => if value.spaced = "" then "" else "#" ++ value.spaced
  | none => ""

def classText : Option PropertyValue → String
  | some value => String.join (value.spacedWords.map ("." ++ ·))
  | none => ""

/-- What is left of all attributes without id and class: nothing but these two is gone, and the nested map only
where nothing else was in it. -/
structure LeavesRest (whole left : Attributes) : Prop where
  before : whole.get? "attrs" ≠ none → whole.get? "attrs" = some (.map (inner whole "attrs"))
  flatFree : left.get? "id" = none ∧ left.get? "class" = none
  nestedFree : (inner left "attrs").get? "id" = none ∧ (inner left "attrs").get? "class" = none
  absent : left.get? "attrs" = none ↔ ∀ key ∈ (inner whole "attrs").keys, key = "id"
  present : left.get? "attrs" ≠ none → left.get? "attrs" = some (.map (inner left "attrs"))
  flat : left.entries.filter (fun entry => entry.1 ≠ "attrs") =
    whole.entries.filter fun entry => entry.1 ≠ "attrs" ∧ entry.1 ≠ "id" ∧ entry.1 ≠ "class"
  nested : (inner left "attrs").entries =
    (inner whole "attrs").entries.filter fun entry => entry.1 ≠ "id" ∧ entry.1 ≠ "class"
  order : left.keys.Sublist whole.keys

/-- An element's name and attributes in the selector dialect, but for the key. -/
def FoldsSelector (space : Space) (element : Element) (shaped : String × Attributes) : Prop :=
  ∃ whole, ofProperties .standard .selectorDom space element.properties = .ok whole ∧
    shaped.1 = element.tag ++ idText (lastValue? space "id" element.properties) ++
      classText (lastValue? space "class" element.properties) ∧
    LeavesRest whole shaped.2

/-- Attributes as properties give them: the id is in the nested map and the class is not, and the nested map is
there if and only if something is in it. -/
structure Foldable (whole : Attributes) : Prop where
  flatId : whole.get? "id" = none
  nestedClass : (inner whole nestedName).get? "class" = none
  holder : whole.get? nestedName =
    if (inner whole nestedName).isEmpty then none else some (.map (inner whole nestedName))

/-- The attributes with `entries` in the nested map, which goes if there are none. -/
def refill (attributes entries : Attributes) : Attributes :=
  if entries.isEmpty then attributes.erase nestedName else attributes.insert nestedName (.map entries)

/-- The nested map is put back if something is left in it, and dropped if not. -/
theorem get?_refill (attributes entries : Attributes) (key : String) :
    (refill attributes entries).get? key =
      if key = nestedName then (if entries.isEmpty then none else some (.map entries))
      else attributes.get? key := by
  unfold refill
  split <;> simp only [OrderedMap.get?_erase, OrderedMap.get?_insert]

theorem inner_refill (attributes entries : Attributes) : inner (refill attributes entries) nestedName = entries := by
  rw [Attributes.inner, get?_refill, if_pos rfl]
  by_cases empty : entries.isEmpty = true
  · rw [if_pos empty]
    exact (OrderedMap.eq_empty_of_isEmpty empty).symm
  · rw [if_neg empty]

/-- The id is taken from the nested map, which goes if it held nothing else. -/
theorem take_id {whole : Attributes} (foldable : Foldable whole) : take whole "id" =
    ((inner whole nestedName).get? "id", refill whole ((inner whole nestedName).erase "id")) := by
  have holder := foldable.holder
  simp only [take, foldable.flatId]
  by_cases empty : (inner whole nestedName).isEmpty = true
  · rw [if_pos empty] at holder
    have nothing := OrderedMap.eq_empty_of_isEmpty empty
    rw [holder, nothing]
    exact congrArg (Prod.mk _) (OrderedMap.erase_of_get?_eq_none holder).symm
  · rw [if_neg empty] at holder
    rw [holder]
    rfl

/-- The class list is taken from the flat map. -/
theorem take_class {attributes entries : Attributes} (absent : entries.get? "class" = none) :
    take (refill attributes entries) "class" =
      (attributes.get? "class", (refill attributes entries).erase "class") := by
  have apart : "class" ≠ nestedName := by decide
  have found := get?_refill attributes entries "class"
  have holder := get?_refill attributes entries nestedName
  rw [if_neg apart] at found
  rw [if_pos rfl] at holder
  unfold take
  cases here : attributes.get? "class" with
  | some value => simp only [found, here]
  | none =>
    rw [here] at found
    simp only [found, holder, OrderedMap.erase_of_get?_eq_none found]
    by_cases empty : entries.isEmpty = true
    · rw [if_pos empty]
    · simp only [if_neg empty, absent, OrderedMap.erase_of_get?_eq_none absent]
      rw [refill, if_neg empty, OrderedMap.insert_insert]

/-- What is folded into the name, and what is left. -/
theorem fold_eq {whole : Attributes} (foldable : Foldable whole) (name : String) : fold name whole =
    (name ++ idPart ((inner whole nestedName).get? "id") ++ classPart (whole.get? "class"),
      (refill whole ((inner whole nestedName).erase "id")).erase "class") := by
  have absent : ((inner whole nestedName).erase "id").get? "class" = none := by
    rw [OrderedMap.get?_erase, foldable.nestedClass]
    split <;> rfl
  simp only [fold, take_id foldable, take_class absent]

theorem refill_flat (attributes entries : Attributes) :
    (refill attributes entries).entries.filter (fun entry => entry.1 ≠ nestedName) =
      attributes.entries.filter fun entry => entry.1 ≠ nestedName := by
  unfold refill
  split
  · rw [OrderedMap.entries_erase, List.filter_filter]
    simp only [Bool.and_self]
  · rw [OrderedMap.entries_insert]
    exact (OrderedMap.filter_insertEntry (fun key => key ≠ nestedName) ..).trans (if_neg (by simp))

theorem refill_keys {attributes entries : Attributes}
    (there : entries.isEmpty = false → nestedName ∈ attributes.keys) :
    (refill attributes entries).keys.Sublist attributes.keys := by
  unfold refill
  split
  · exact attributes.keys_erase_sublist nestedName
  · next some =>
    rw [OrderedMap.keys_insert, if_pos (there (by simpa using some))]

/-- What is not moved into the name stays as it was. -/
theorem leavesRest {whole : Attributes} (foldable : Foldable whole) :
    LeavesRest whole ((refill whole ((inner whole nestedName).erase "id")).erase "class") := by
  have apart : nestedName ≠ "class" := by decide
  have apart' : "id" ≠ nestedName := by decide
  have holder : ((refill whole ((inner whole nestedName).erase "id")).erase "class").get? nestedName =
      if ((inner whole nestedName).erase "id").isEmpty then none
      else some (.map ((inner whole nestedName).erase "id")) := by
    rw [OrderedMap.get?_erase, if_neg apart, get?_refill, if_pos rfl]
  have within : inner ((refill whole ((inner whole nestedName).erase "id")).erase "class") nestedName =
      (inner whole nestedName).erase "id" := by
    rw [Attributes.inner, OrderedMap.get?_erase, if_neg apart]
    exact inner_refill whole _
  have left : ((inner whole nestedName).erase "id").get? "class" = none := by
    rw [OrderedMap.get?_erase, foldable.nestedClass]
    split <;> rfl
  constructor
  case before =>
    intro there
    have whole := foldable.holder
    split at whole
    · exact absurd whole there
    · exact whole
  case flatFree =>
    constructor
    · rw [OrderedMap.get?_erase, get?_refill, if_neg apart', foldable.flatId]
      split <;> rfl
    · rw [OrderedMap.get?_erase, if_pos rfl]
  case nestedFree =>
    constructor
    · exact (congrArg (OrderedMap.get? · "id") within).trans (by rw [OrderedMap.get?_erase, if_pos rfl])
    · exact (congrArg (OrderedMap.get? · "class") within).trans left
  case absent =>
    refine Iff.trans ?_ OrderedMap.isEmpty_erase_iff
    rw [show "attrs" = nestedName from rfl, holder]
    split
    · next empty => exact iff_of_true rfl empty
    · next some => exact iff_of_false (Option.some_ne_none _) some
  case present =>
    intro there
    rw [show "attrs" = nestedName from rfl] at there ⊢
    rw [within, holder]
    rw [holder] at there
    split at there
    · exact absurd rfl there
    · next some => rw [if_neg some]
  case flat =>
    have noId := OrderedMap.ne_of_get?_eq_none foldable.flatId
    rw [OrderedMap.entries_erase, List.filter_comm, show "attrs" = nestedName from rfl, refill_flat, List.filter_filter]
    refine List.filter_congr fun entry member => ?_
    simp [noId entry member, Bool.and_comm]
  case nested =>
    rw [show "attrs" = nestedName from rfl, within, OrderedMap.entries_erase]
    have noClass := OrderedMap.ne_of_get?_eq_none foldable.nestedClass
    refine List.filter_congr fun entry member => ?_
    simp [noClass entry member]
  case order =>
    have there : ((inner whole nestedName).erase "id").isEmpty = false → nestedName ∈ whole.keys := by
      intro some
      have holder := foldable.holder
      split at holder
      · next empty =>
        rw [OrderedMap.eq_empty_of_isEmpty empty] at some
        cases some
      · exact OrderedMap.mem_keys_of_get? holder
    exact (OrderedMap.keys_erase_sublist _ "class").trans (refill_keys there)

/-- The text of an attribute is that of the last value kept for it, if it is no flag and no list with commas. -/
theorem text_of_lastValue? {space : Space} {key : String} {row : Info}
    (found : Schema.standard.find space key = row) (named : row.attributeName = key) (noFlag : row.boolean = false)
    (noCommas : row.commaSeparated = false) {properties : Properties} {whole : Attributes}
    (added : ofProperties .standard .selectorDom space properties = .ok whole) :
    (held whole (slotOf .standard .selectorDom space key)).bind Value.toText? =
      (lastValue? space key properties).map PropertyValue.spaced := by
  have traits : ∀ property, reaches .selectorDom space key property = true →
      (Schema.standard.find space property.1).toTraits = row.toTraits := by
    intro property reached
    simp only [reaches, Bool.and_eq_true, decide_eq_true_eq] at reached
    rw [traits_of_attributeName ((slotOf_eq_iff space property.1 key).mp reached.2), found]
  have passes : ∀ property ∈ properties.entries, reaches .selectorDom space key property = true →
      passed .selectorDom (Schema.standard.find space property.1) property.2 =
        .ok (ofPropertyValue (Schema.standard.find space property.1) property.2) := by
    intro property _ reached
    simp only [passed, traits property reached, noFlag, Dialect.objectStyle]
    cases ofPropertyValue (Schema.standard.find space property.1) property.2 <;> simp
  have same : properties.entries.filter (reaches .selectorDom space key) =
      properties.entries.filter fun property => isKept .standard .selectorDom space property &&
        (Schema.standard.find space property.1).attributeName = key := by
    refine List.filter_congr fun property _ => ?_
    simp only [reaches, slotOf_eq_iff, found, named]
  have texts : ∀ property, reaches .selectorDom space key property = true →
      (ofPropertyValue (Schema.standard.find space property.1) property.2).toText? = some property.2.spaced := by
    intro property reached
    cases given : property.2 with
    | list tokens => simp [ofPropertyValue, Value.toText?, traits property reached, noCommas, PropertyValue.spaced]
    | _ => rfl
  rw [held_addAll passes added, held_empty, Option.or_none, lastValue?, ← same]
  cases last : (properties.entries.filter (reaches .selectorDom space key)).getLast? with
  | none => rfl
  | some property =>
    have reached := (List.mem_filter.mp (List.mem_of_getLast? last)).2
    exact texts property reached

theorem idPart_eq_idText {found : Option Value} {value : Option PropertyValue}
    (same : found.bind Value.toText? = value.map PropertyValue.spaced) : idPart found = idText value := by
  unfold idPart
  rw [same]
  cases value <;> rfl

theorem classPart_eq_classText {found : Option Value} {value : Option PropertyValue}
    (same : found.bind Value.toText? = value.map PropertyValue.spaced) : classPart found = classText value := by
  unfold classPart
  rw [same]
  cases value with
  | none => rfl
  | some value =>
    refine String.toList_inj.mp ?_
    simp only [Option.map_some, classText, ← value.parseSpaces_spaced, TokenList.parseSpaces, List.map_map,
      String.toList_join, List.flatMap_map, String.toList_ofList]
    refine List.flatMap_congr fun word _ => ?_
    simp [String.toList_append]

/-- No id is in the flat map and no class in the nested one, and no other attribute takes the place of the nested
map. -/
theorem foldable_ofProperties {space : Space} {properties : Properties} {whole : Attributes}
    (added : ofProperties .standard .selectorDom space properties = .ok whole) : Foldable whole := by
  have tells : Tells .standard .selectorDom space nestedName := standard_tells rfl space
  have noId : ∀ before name value, held before (.flat "id") = none →
      held (place before (slotOf .standard .selectorDom space name) value) (.flat "id") = none := by
    intro before name value absent
    have outer : (slotOf .standard .selectorDom space name).isFlat ≠ (Slot.flat "id").isFlat →
        (slotOf .standard .selectorDom space name).outerKey ≠ (Slot.flat "id").outerKey := by
      rw [slotOf_selectorDom]
      split
      · exact fun kinds => absurd rfl kinds
      · exact fun _ => show nestedName ≠ "id" by decide
    rw [held_place before outer, if_neg (Ne.symm (slotOf_ne_flat_id space name)), absent]
  have noClass : ∀ before name value, held before (.nested nestedName "class") = none →
      held (place before (slotOf .standard .selectorDom space name) value) (.nested nestedName "class") = none := by
    intro before name value absent
    have outer : (slotOf .standard .selectorDom space name).isFlat ≠ (Slot.nested nestedName "class").isFlat →
        (slotOf .standard .selectorDom space name).outerKey ≠ (Slot.nested nestedName "class").outerKey := by
      cases placed : slotOf .standard .selectorDom space name with
      | flat key => exact fun _ => tells.other name key placed
      | nested => exact fun kinds => absurd rfl kinds
    rw [held_place before outer, if_neg (Ne.symm (slotOf_ne_nested_class space name nestedName)), absent]
  obtain ⟨_, _, same⟩ := Corresponds.empty.add tells rfl added
  exact ⟨addAll_keeps noId rfl added, addAll_keeps noClass rfl added, same.holder⟩

end Selector

namespace Rendering

theorem shape_selectorDom {rendering : Rendering σ ν} (dialect : rendering.dialect = .selectorDom)
    (schema : rendering.schema = .standard) (space : Space) (element : Element) :
    ∃ shaped, rendering.shape space element = .ok shaped ∧ Selector.FoldsSelector space element shaped := by
  obtain ⟨whole, added⟩ := Attributes.exists_ofProperties space element.properties
  have foldable := Selector.foldable_ofProperties added
  have shaped : rendering.shape space element = .ok (Selector.fold element.tag whole) := by
    simp only [shape, dialect, schema, added]
    rfl
  refine ⟨_, shaped, whole, added, ?_, ?_⟩
  · have id := Selector.text_of_lastValue? (Attributes.find_id space) rfl rfl rfl added
    have classes := Selector.text_of_lastValue? (Attributes.find_class space) rfl rfl rfl added
    rw [Attributes.slotOf_id] at id
    rw [Attributes.slotOf_class] at classes
    rw [Selector.fold_eq foldable, ← Selector.idPart_eq_idText id, ← Selector.classPart_eq_classText classes]
    rfl
  · rw [Selector.fold_eq foldable]
    exact Selector.leavesRest foldable

end Rendering

/-- A call for a visited element: its name is the element's tag with the selector, and its attributes are the rest,
with a key if keys are generated. -/
def CarriesSelector (rendering : Rendering σ ν) (visit : Visit) (entry : Entry ν) : Prop :=
  ∃ left, Selector.FoldsSelector visit.space visit.element (entry.call.name, left) ∧
    entry.call.attributes = rendering.keyed visit.number left

namespace Renderer

/-- The selector dialect moves exactly id and classes into the name. Every element can be shaped, and every call of
a render is shaped in this way: behind the tag stand the last id that is kept, unless its text is empty, and the
words of the last class list that is kept, item by item. All other attributes stay where they are, with their values
and in their order, and the nested map stays unless the id was all that it held. -/
theorem render_folds_selector (renderer : Renderer) (standard : renderer.schema = .standard) (builder : Builder σ ν)
    {tree : Option Node} {element : Element} (found : rootElement tree = .ok element) (start : Traced σ ν)
    (selector : (builder.traced.detect start).1 = .selectorDom) :
    (∀ space below, ∃ shaped, (renderer.rendering builder.traced .selectorDom).shape space below = .ok shaped ∧
      Selector.FoldsSelector space below shaped) ∧
    ∃ visits entries, visits <+: Event.created (element.walk renderer.options.space) ∧
      (∀ result finish, renderer.render (some builder.traced) tree start = .ok result finish →
        visits = Event.created (element.walk renderer.options.space)) ∧
      (Traced.final (renderer.render (some builder.traced) tree start)).calls =
        (builder.traced.detect start).2.calls ++ entries ∧
      List.Forall₂ (CarriesSelector (renderer.rendering builder.traced .selectorDom)) visits entries := by
  have folds : ∀ space below, ∃ shaped,
      (renderer.rendering builder.traced .selectorDom).shape space below = .ok shaped ∧
        Selector.FoldsSelector space below shaped := Rendering.shape_selectorDom rfl standard
  obtain ⟨visits, built, initial, _, calls, all⟩ := renderer.renderElement_calls builder element start
  rw [render_of_ok found]
  refine ⟨folds, visits, _, initial, all, calls, ?_⟩
  rw [List.forall₂_map_right_iff, List.forall₂_same, selector]
  intro visit _
  obtain ⟨⟨name, left⟩, shaped, folded⟩ := folds visit.space visit.element
  obtain ⟨named, attributes, _⟩ := Rendering.entryFor_of_shape shaped built
  exact ⟨left, by rw [named]; exact folded, attributes⟩

/-- A heading with two classes in one item of a list, and an empty item. -/
def heading : Element where
  tag := "h1"
  properties := .ofList [("ID", .text "x"), ("CLASS", .list [.text "a b", .text ""]), ("data-x", .bool true)]
  children := []

/-- The id is found in spite of its capitals, and the empty item of the class list adds no dot. -/
theorem heading_selector : Selector.idText (Selector.lastValue? .html "id" heading.properties) = "#x" ∧
    Selector.classText (Selector.lastValue? .html "class" heading.properties) = ".a.b" := by
  have upperId : Schema.standard.find .html "ID" = idRow := find_of_common (by decide) .html (by decide)
  have upperClass : Schema.standard.find .html "CLASS" = classRow := find_of_common (by decide) .html (by decide)
  have custom : "data-x".toList = customMark ++ ['x'] := by decide
  have data : (Schema.standard.find .html "data-x").attributeName = "data-x" := (find_customMark custom).2
  have id : Selector.lastValue? .html "id" heading.properties = some (.text "x") := by
    simp [Selector.lastValue?, heading, Attributes.isKept, Attributes.isDropped, PropertyValue.isAbsent,
      upperId, upperClass, data, idRow, classRow, Traits.text]
  have classes : Selector.lastValue? .html "class" heading.properties = some (.list [.text "a b", .text ""]) := by
    simp [Selector.lastValue?, heading, Attributes.isKept, Attributes.isDropped, PropertyValue.isAbsent,
      upperId, upperClass, data, idRow, classRow, Traits.words]
  rw [id, classes]
  decide

theorem render_folds_selector_heading :
    rootElement (some heading.toNode) = .ok heading ∧
    (((Script.imitate {} .selectorDom).builder.traced.detect { state := {} }).1 = .selectorDom) ∧
    (∃ shaped,
        (Renderer.rendering {} (Script.imitate {} .selectorDom).builder.traced .selectorDom).shape .html heading =
          .ok shaped ∧ shaped.1 = "h1#x.a.b" ∧ Selector.FoldsSelector .html heading shaped) ∧
    ∃ visits entries, visits <+: Event.created (heading.walk .html) ∧
      (Traced.final (Renderer.render {} (some (Script.imitate {} .selectorDom).builder.traced) (some heading.toNode)
        { state := {} })).calls =
        ((Script.imitate {} .selectorDom).builder.traced.detect { state := {} }).2.calls ++ entries ∧
      List.Forall₂ (CarriesSelector
        (Renderer.rendering {} (Script.imitate {} .selectorDom).builder.traced .selectorDom)) visits entries := by
  have selector : ((Script.imitate {} .selectorDom).builder.traced.detect { state := {} }).1 = .selectorDom := rfl
  obtain ⟨folds, visits, entries, initial, _, calls, carried⟩ := render_folds_selector {} rfl
    (Script.imitate {} .selectorDom).builder (show rootElement (some heading.toNode) = .ok heading from rfl)
    { state := {} } selector
  obtain ⟨shaped, same, folded⟩ := folds .html heading
  have name : shaped.1 = "h1#x.a.b" := by
    obtain ⟨_, _, name, _⟩ := folded
    rw [name, heading_selector.1, heading_selector.2]
    decide
  exact ⟨rfl, selector, ⟨shaped, same, name, folded⟩, visits, entries, initial, calls, carried⟩

end Renderer

end Hyperscript
