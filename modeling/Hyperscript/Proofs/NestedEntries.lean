import Hyperscript.Proofs.HeldValues

namespace Hyperscript.Attributes

variable {schema : Schema} {dialect : Dialect} {space : Space} {map : String}

/-- Whether a property is kept and has the name of the nested map for its key in the flat one. -/
def takesMapName (schema : Schema) (dialect : Dialect) (space : Space) (map : String)
    (property : String × PropertyValue) : Bool :=
  isKept schema dialect space property && slotOf schema dialect space property.1 = .flat map

theorem slotOf_of_nested (nests : dialect.nestedMap? = some map) {name : String}
    (nested : (slotOf schema dialect space name).isFlat = false) :
    slotOf schema dialect space name = .nested map (schema.find space name).attributeName := by
  cases placed : slotOf schema dialect space name with
  | flat key =>
    rw [placed] at nested
    cases nested
  | nested map' key =>
    obtain ⟨there, rfl⟩ := ofInfo_eq_nested placed
    obtain rfl : map' = map := Option.some.inj (there.symm.trans nests)
    rfl

/-- Only what has the slot of an entry and what takes the name of the map touch the entry. -/
theorem touches_nested_iff {slot : Slot} {key : String} :
    slot.Touches (.nested map key) ↔ slot = .nested map key ∨ slot = .flat map := by
  cases slot with
  | flat other => simp [Slot.Touches, Slot.isFlat, Slot.outerKey]
  | nested map' other => simp [Slot.Touches, Slot.isFlat]

/-- Text, numbers, booleans and styles are no maps, so nothing is in the nested map where one of them has its name. -/
theorem inner_insert_leaf (attributes : Attributes) {value : Value} (leaf : value.map? = none) :
    inner (attributes.insert map value) map = ∅ := by
  rw [inner, OrderedMap.get?_insert, if_pos rfl]
  cases value with
  | map => cases leaf
  | _ => rfl

/-- One more property empties the nested map if it takes the map's name, and else leaves all entries of the map but
its own. -/
theorem inner_add (map : String) {property : String × PropertyValue} {attributes reached : Attributes}
    (added : add schema dialect space attributes property.1 property.2 = .ok reached) :
    if takesMapName schema dialect space map property then inner reached map = ∅
    else ∀ key, (isKept schema dialect space property = true →
        slotOf schema dialect space property.1 ≠ .nested map key) →
      (inner reached map).get? key = (inner attributes map).get? key := by
  cases takes : takesMapName schema dialect space map property with
  | true =>
    simp only [takesMapName, Bool.and_eq_true, decide_eq_true_eq] at takes
    rcases add_ok_cases added with ⟨dropped, _⟩ | ⟨value, _, shows, placed⟩
    · rw [takes.1] at dropped
      cases dropped
    · rw [if_pos rfl, placed, takes.2]
      exact inner_insert_leaf attributes (passed_leaf shows)
  | false =>
    rw [if_neg Bool.false_ne_true]
    intro key other
    have apart : isKept schema dialect space property = true →
        ¬ (slotOf schema dialect space property.1).Touches (.nested map key) := by
      intro kept touches
      rcases touches_nested_iff.mp touches with same | same
      · exact other kept same
      · simp [takesMapName, kept, same] at takes
    exact held_add apart added

/-- During a run an entry that is not written again stays as it is, or goes with the nested map when a property
takes the map's name. -/
theorem inner_addAll {key : String} {properties : List (String × PropertyValue)}
    (apart : ∀ property ∈ properties, isKept schema dialect space property = true →
      slotOf schema dialect space property.1 ≠ .nested map key) {attributes final : Attributes}
    (added : addAll schema dialect space attributes properties = .ok final) :
    (inner final map).get? key =
      if properties.any (takesMapName schema dialect space map) then none else (inner attributes map).get? key := by
  induction properties generalizing attributes with
  | nil =>
    cases added
    rfl
  | cons property rest ih =>
    rw [List.forall_mem_cons] at apart
    obtain ⟨reached, first, later⟩ := addAll_cons_ok added
    have step := inner_add map first
    rw [ih apart.2 later, List.any_cons]
    cases takes : takesMapName schema dialect space map property with
    | true =>
      rw [takes, if_pos rfl] at step
      rw [step, Bool.true_or, if_pos rfl]
      split <;> rfl
    | false =>
      rw [takes, if_neg Bool.false_ne_true] at step
      rw [Bool.false_or, step key apart.1]

/-- No property of the standard schema takes the name of the nested map. -/
theorem takesMapName_standard (nests : dialect.nestedMap? = some map) (property : String × PropertyValue) :
    takesMapName .standard dialect space map property = false := by
  have other : slotOf .standard dialect space property.1 ≠ .flat map :=
    fun placed => (standard_tells nests space).other property.1 map placed rfl
  simp [takesMapName, other]

/-- Entries of the nested map are lost to one thing only, whatever the schema: a kept property whose key in the flat
map is the name of the nested one takes the whole map away. All other properties leave the entries of others alone,
and so each kept property that belongs into the map is found there in the end, with its value, if no later one has
its attribute name and none takes the map's name. None of the standard schema does. -/
theorem nested_entries_lost_to_map_name (nests : dialect.nestedMap? = some map) (schema : Schema) (space : Space) :
    (∀ attributes name value reached, add schema dialect space attributes name value = .ok reached →
      if takesMapName schema dialect space map (name, value) then inner reached map = ∅
      else ∀ key, (isKept schema dialect space (name, value) = true →
          slotOf schema dialect space name ≠ .nested map key) →
        (inner reached map).get? key = (inner attributes map).get? key) ∧
    (∀ attributes before property after final,
      addAll schema dialect space attributes (before ++ property :: after) = .ok final →
      isKept schema dialect space property = true → (slotOf schema dialect space property.1).isFlat = false →
      (∀ later ∈ after, isKept schema dialect space later = true →
        slotOf schema dialect space later.1 ≠ slotOf schema dialect space property.1) →
      ∃ value, passed dialect (schema.find space property.1) property.2 = .ok value ∧
        (inner final map).get? (schema.find space property.1).attributeName =
          if after.any (takesMapName schema dialect space map) then none else some value) ∧
    ∀ property, takesMapName .standard dialect space map property = false := by
  refine ⟨fun attributes name value reached added => inner_add map added, ?_, takesMapName_standard nests⟩
  intro attributes before property after final added kept nested apart
  obtain ⟨reached, value, shows, here, later⟩ := exists_held_of_kept kept added
  have slot := slotOf_of_nested nests nested
  rw [slot] at apart here
  refine ⟨value, shows, ?_⟩
  rw [inner_addAll apart later]
  split
  · rfl
  · exact here

/-- A schema with a property that is set on the element object and has the name of a nested map. -/
def clashingSchema : Schema :=
  Schema.standard.override
    [("title", .unknown "title"), ("attrs", { Info.unknown "attrs" with mustUseProperty := true })] []

theorem nested_entries_lost_to_map_name_title :
    Dialect.nestedMap? .selectorDom = some "attrs" ∧ ∃ final,
      addAll clashingSchema .selectorDom .html ∅ [("attrs", .text "x"), ("title", .text "t")] = .ok final ∧
      isKept clashingSchema .selectorDom .html ("title", .text "t") = true ∧
      (slotOf clashingSchema .selectorDom .html "title").isFlat = false ∧
      (inner final "attrs").get? "title" = some (.text "t") := by
  have added : addAll clashingSchema .selectorDom .html ∅ [("attrs", .text "x"), ("title", .text "t")] =
      .ok (.ofList [("attrs", .map (.ofList [("title", .text "t")]))]) := rfl
  have kept : isKept clashingSchema .selectorDom .html ("title", .text "t") = true := rfl
  have nested : (slotOf clashingSchema .selectorDom .html "title").isFlat = false := rfl
  have nests : Dialect.nestedMap? .selectorDom = some "attrs" := rfl
  obtain ⟨_, found, _⟩ := nested_entries_lost_to_map_name nests clashingSchema .html
  obtain ⟨value, shows, held⟩ :=
    found ∅ [("attrs", .text "x")] ("title", .text "t") [] _ added kept nested (List.forall_mem_nil _)
  obtain rfl : .text "t" = value := Except.ok.inj shows
  exact ⟨nests, _, added, kept, nested, held⟩

/-- The same two properties the other way round: the map is there first, and the property that takes its name
takes all that was in it. -/
theorem flat_entry_replaces_nested_map :
    isKept clashingSchema .selectorDom .html ("title", .text "t") = true ∧
    slotOf clashingSchema .selectorDom .html "title" = .nested "attrs" "title" ∧
    slotOf clashingSchema .selectorDom .html "attrs" = .flat "attrs" ∧ ∃ final,
      addAll clashingSchema .selectorDom .html ∅ [("title", .text "t"), ("attrs", .text "x")] = .ok final ∧
      final.get? "attrs" = some (.text "x") ∧ (inner final "attrs").get? "title" = none :=
  ⟨rfl, rfl, rfl, .ofList [("attrs", .text "x")], rfl, rfl, rfl⟩

end Hyperscript.Attributes
