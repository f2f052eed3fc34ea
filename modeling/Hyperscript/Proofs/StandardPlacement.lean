import Hyperscript.Proofs.Placement
import Hyperscript.Proofs.StandardNames

namespace Hyperscript

open Info

/-- Whether a property stays in the flat map where others go into a nested one. -/
def Info.staysFlat (dialect : Dialect) (info : Info) : Bool :=
  info.isClassOrStyle || (info.mustUseProperty && dialect ≠ .retainedFramework)

namespace Attributes

variable {dialect : Dialect} {space : Space} {map : String}

/-- Every dialect with a nested map tells set flags by their presence. -/
theorem explicitBooleans_of_nestedMap? (nests : dialect.nestedMap? = some map) :
    dialect.explicitBooleans = true := by
  cases dialect <;> first | rfl | cases nests

theorem nestedMap?_of_nests (nests : dialect.nestedMap? = some map) (info : Info) :
    Slot.nestedMap? dialect info = if info.staysFlat dialect then none else some map := by
  unfold Slot.nestedMap? staysFlat
  cases info.isClassOrStyle
  · simp only [Bool.false_or, nests]
    rfl
  · rfl

theorem ofInfo_of_staysFlat (nests : dialect.nestedMap? = some map) {info : Info}
    (flat : info.staysFlat dialect = true) (schema : Schema) :
    Slot.ofInfo schema dialect info = .flat (Slot.flatKey schema dialect info) := by
  rw [Slot.ofInfo, nestedMap?_of_nests nests, if_pos flat]

theorem ofInfo_of_not_staysFlat (nests : dialect.nestedMap? = some map) {info : Info}
    (nested : info.staysFlat dialect = false) (schema : Schema) :
    Slot.ofInfo schema dialect info = .nested map info.attributeName := by
  rw [Slot.ofInfo, nestedMap?_of_nests nests, nested]
  rfl

theorem ofInfo_eq_flat (nests : dialect.nestedMap? = some map) {schema : Schema} {info : Info} {key : String}
    (found : Slot.ofInfo schema dialect info = .flat key) :
    info.staysFlat dialect = true ∧ Slot.flatKey schema dialect info = key := by
  cases flat : info.staysFlat dialect with
  | true =>
    rw [ofInfo_of_staysFlat nests flat] at found
    exact ⟨rfl, Slot.flat.inj found⟩
  | false =>
    rw [ofInfo_of_not_staysFlat nests flat] at found
    cases found

theorem ofInfo_isFlat (nests : dialect.nestedMap? = some map) (info : Info) (schema : Schema) :
    (Slot.ofInfo schema dialect info).isFlat = info.staysFlat dialect := by
  cases flat : info.staysFlat dialect with
  | true => rw [ofInfo_of_staysFlat nests flat]; rfl
  | false => rw [ofInfo_of_not_staysFlat nests flat]; rfl

/-- What has no traits and is neither the class list nor the style goes into the nested map. -/
theorem ordinary_not_staysFlat {info : Info} (ordinary : info.Ordinary) : info.staysFlat dialect = false := by
  rw [staysFlat, ordinary.place, ordinary.traits]
  rfl

theorem shown_ordinary {info : Info} (ordinary : info.Ordinary) (value : Value) :
    shown dialect info value = .ok value := by
  have style : info.propertyName ≠ "style" := by
    have place := ordinary.place
    simp only [isClassOrStyle, Bool.or_eq_false_iff, decide_eq_false_iff_not] at place
    exact place.2
  simp only [shown, ordinary.traits, Bool.false_and, Bool.false_eq_true, if_false]
  cases value <;> simp [style]

/-- What stays in the flat map is a row of the table, and it is found under its key there. -/
theorem find_flatKey (nests : dialect.nestedMap? = some map) {row : Info} (member : row ∈ table space) :
    Schema.standardFind space (Slot.flatKey .standard dialect row) = row := by
  cases dialect with
  | attributesDom => exact standardFind_of_known (known?_propertyName member)
  | selectorDom => exact standardFind_of_known (known?_attributeName member)
  | retainedFramework => exact standardFind_of_known (known?_attributeName member)
  | plain => cases nests
  | retainedDom => cases nests

/-- Only names that the table lists stay in the flat map. -/
theorem mem_table_of_staysFlat {name : String} (flat : (Schema.standardFind space name).staysFlat dialect = true) :
    Schema.standardFind space name ∈ table space := by
  rcases standardFind_cases space name with member | ordinary
  · exact member
  · rw [ordinary_not_staysFlat ordinary] at flat
    cases flat

/-- The nested map has one of two names, and a flat key is one of the two names of its property. -/
theorem flatKey_cases (nests : dialect.nestedMap? = some map) (schema : Schema) (info : Info) :
    (map = "attributes" ∨ map = "attrs") ∧ (Slot.flatKey schema dialect info = info.propertyName ∨
      Slot.flatKey schema dialect info = info.attributeName) := by
  cases dialect <;> cases nests
  · exact ⟨Or.inl rfl, Or.inl rfl⟩
  · exact ⟨Or.inr rfl, Or.inr rfl⟩
  · exact ⟨Or.inr rfl, Or.inr rfl⟩

/-- Few rows of the table stay in the flat map. -/
theorem listed_of_staysFlat {row : Info} (member : row ∈ table space) (flat : row.staysFlat dialect = true) :
    row ∈ [classRow, styleRow] ++ stateRows := by
  simp only [staysFlat, Bool.or_eq_true, Bool.and_eq_true] at flat
  rcases flat with named | state
  · rcases eq_of_isClassOrStyle member named with rfl | rfl <;> simp
  · exact List.mem_append_right _ (mem_stateRows member state.1)

/-- No key of the flat map is the name of the nested one. -/
theorem flatKey_ne (nests : dialect.nestedMap? = some map) {row : Info} (member : row ∈ table space)
    (flat : row.staysFlat dialect = true) : Slot.flatKey .standard dialect row ≠ map := by
  have listed := listed_of_staysFlat member flat
  have apart : ∀ row ∈ [classRow, styleRow] ++ stateRows, ∀ map ∈ ["attributes", "attrs"],
      row.propertyName ≠ map ∧ row.attributeName ≠ map := by decide +kernel
  obtain ⟨maps, keys⟩ := flatKey_cases nests .standard row
  obtain ⟨property, name⟩ := apart row listed map (by simpa using maps)
  rcases keys with same | same
  · rw [same]
    exact property
  · rw [same]
    exact name

/-- In the standard tables the place of a name tells its attribute. -/
theorem standard_tells (nests : dialect.nestedMap? = some map) (space : Space) :
    Tells .standard dialect space map where
  slot name := by
    rcases standardFind_attributeName space name with same | ⟨ordinary, ordinary', same⟩
    · exact congrArg _ same
    · simp only [Schema.standard]
      rw [ofInfo_of_not_staysFlat nests (ordinary_not_staysFlat ordinary),
        ofInfo_of_not_staysFlat nests (ordinary_not_staysFlat ordinary'), same]
  shown name value := by
    rcases standardFind_attributeName space name with same | ⟨ordinary, ordinary', _⟩
    · exact congrArg (fun info => shown dialect info value) same
    · simp only [Schema.standard, shown_ordinary ordinary, shown_ordinary ordinary']
  attributeName name := find_attributeName space name
  flat name other key first second := by
    obtain ⟨flat, rfl⟩ := ofInfo_eq_flat nests first
    obtain ⟨flat', same⟩ := ofInfo_eq_flat nests second
    have found := find_flatKey nests (mem_table_of_staysFlat flat)
    have found' := find_flatKey nests (mem_table_of_staysFlat flat')
    exact congrArg Info.attributeName (found.symm.trans ((congrArg _ same.symm).trans found'))
  other name key found := by
    obtain ⟨flat, rfl⟩ := ofInfo_eq_flat nests found
    exact flatKey_ne nests (mem_table_of_staysFlat flat) flat

end Attributes

end Hyperscript
