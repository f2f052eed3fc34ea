import Hyperscript.Proofs.StandardTable

namespace Hyperscript

open Text

namespace Info

/-- Nothing is special about the property: it has no traits, and no place of its own in any dialect. -/
structure Ordinary (info : Info) : Prop where
  traits : info.toTraits = {}
  place : info.isClassOrStyle = false

theorem isClassOrStyle_of_unlisted {space : Space} {name : String} (unlisted : known? space name = none) :
    name ≠ "className" ∧ name ≠ "style" := by
  have other : ∀ row ∈ commonRows, name ≠ row.propertyName := by
    rintro row common rfl
    rw [known?_of_common common] at unlisted
    cases unlisted
  exact ⟨other classRow (by decide), other styleRow (by decide)⟩

theorem Ordinary.of_unlisted {space : Space} {name : String} {info : Info} (unlisted : known? space name = none)
    (traits : info.toTraits = {}) (same : info.propertyName = name) : info.Ordinary := by
  obtain ⟨first, second⟩ := isClassOrStyle_of_unlisted unlisted
  exact ⟨traits, by simp [isClassOrStyle, same, first, second]⟩

theorem data_append_ne {rest : List Char} {letters : String} {c : Char} (starts : letters.toList.head? = some c)
    (other : c ≠ 'd') : "data" ++ String.ofList rest ≠ letters := by
  rintro rfl
  simp only [String.toList_append] at starts
  exact other (Option.some.inj starts).symm

theorem ordinary_dataProperty {info : Info} {rest : List Char} (traits : info.toTraits = {})
    (same : info.propertyName = dataProperty rest) : info.Ordinary := by
  refine ⟨traits, ?_⟩
  have first : dataProperty rest ≠ "className" := data_append_ne (c := 'c') (by decide) (by decide)
  have second : dataProperty rest ≠ "style" := data_append_ne (c := 's') (by decide) (by decide)
  simp [isClassOrStyle, same, first, second]

/-- A custom name has no traits in either spelling. -/
theorem ordinary_ofDataName {space : Space} {name : String} (unlisted : known? space name = none)
    (rest : List Char) : (ofDataName name rest).Ordinary := by
  unfold ofDataName
  split
  · exact ordinary_dataProperty rfl rfl
  · split
    · exact .of_unlisted unlisted rfl rfl
    · exact .of_unlisted unlisted rfl rfl

/-- A property is in the table or ordinary. -/
theorem standardFind_cases (space : Space) (name : String) :
    Schema.standardFind space name ∈ table space ∨ (Schema.standardFind space name).Ordinary := by
  unfold Schema.standardFind
  cases listed : known? space name with
  | some row => exact Or.inl (known?_eq_some_iff.mp listed).1
  | none =>
    right
    cases dataRest? name.toList with
    | some rest => exact ordinary_ofDataName listed rest
    | none => exact .of_unlisted listed rfl rfl

/-- What the table lists is found in the table, custom name or not. -/
theorem standardFind_of_known {space : Space} {name : String} {row : Info} (listed : known? space name = some row) :
    Schema.standardFind space name = row := by
  simp only [Schema.standardFind, listed]

/-- A custom attribute keeps the attribute name that it is given with a dash. -/
theorem standardFind_customMark {space : Space} {name : String} {rest : List Char}
    (custom : name.toList = customMark ++ rest) :
    (Schema.standardFind space name).Ordinary ∧ (Schema.standardFind space name).attributeName = name := by
  have unlisted : known? space name = none := by
    refine known?_of_customMark ⟨rest.map foldLetter, ?_⟩
    rw [foldCase, custom, List.map_append]
    rfl
  simp only [Schema.standardFind, unlisted]
  cases read : dataRest? name.toList with
  | none => exact ⟨.of_unlisted unlisted rfl rfl, rfl⟩
  | some after =>
    refine ⟨ordinary_ofDataName unlisted after, ?_⟩
    have split : after = '-' :: rest := by
      simp only [dataRest?, Option.ite_none_right_eq_some, Option.some.injEq] at read
      rw [← read.2, custom]
      rfl
    rw [split]
    rfl

theorem exists_leadingDash (text : List Char) : ∃ rest, leadingDash text = '-' :: rest := by
  unfold leadingDash
  split
  · exact ⟨_, rfl⟩
  · exact ⟨_, rfl⟩

/-- The attribute of a custom name has the mark of custom attributes. -/
theorem exists_dataAttribute (rest : List Char) : ∃ more, (dataAttribute rest).toList = customMark ++ more := by
  obtain ⟨more, same⟩ := exists_leadingDash (dashBeforeCapitals rest)
  refine ⟨more, ?_⟩
  rw [dataAttribute, String.toList_append, String.toList_ofList, String.toList_ofList, same]
  rfl

/-- The attribute name of a property finds the same property, but for some custom attributes, whose
attribute name finds another spelling of the property name. -/
theorem standardFind_attributeName (space : Space) (name : String) :
    Schema.standardFind space (Schema.standardFind space name).attributeName = Schema.standardFind space name ∨
      (Schema.standardFind space name).Ordinary ∧
        (Schema.standardFind space (Schema.standardFind space name).attributeName).Ordinary ∧
        (Schema.standardFind space (Schema.standardFind space name).attributeName).attributeName =
          (Schema.standardFind space name).attributeName := by
  cases listed : known? space name with
  | some row =>
    left
    rw [standardFind_of_known listed]
    exact standardFind_of_known (known?_attributeName (known?_eq_some_iff.mp listed).1)
  | none =>
    cases read : dataRest? name.toList with
    | none =>
      left
      have found : Schema.standardFind space name = unknown name := by simp only [Schema.standardFind, listed, read]
      rw [found]
      exact found
    | some rest =>
      have found : Schema.standardFind space name = ofDataName name rest := by
        simp only [Schema.standardFind, listed, read]
      have ordinary := ordinary_ofDataName listed rest
      rw [found]
      unfold ofDataName at found ordinary ⊢
      split at found
      · exact Or.inl found
      · next other =>
        split at found
        · next dashed =>
          left
          simp only [if_pos dashed]
          exact found
        · next plain =>
          right
          simp only [if_neg plain] at ordinary ⊢
          obtain ⟨more, custom⟩ := exists_dataAttribute rest
          exact ⟨ordinary, standardFind_customMark custom⟩

theorem find_standard (space : Space) (name : String) :
    Schema.standard.find space name = Schema.standardFind space name := rfl

theorem find_of_known {space : Space} {name : String} {row : Info} (listed : known? space name = some row) :
    Schema.standard.find space name = row :=
  standardFind_of_known listed

/-- Each row of a table is found under its names, in any letter case. -/
theorem find_of_listed {space : Space} {name : String} {row : Info} (listed : row ∈ table space)
    (answers : row.Answers name) : Schema.standard.find space name = row :=
  find_of_known (known?_eq_some_iff.mpr ⟨listed, answers⟩)

theorem find_of_common {row : Info} (common : row ∈ commonRows) (space : Space) {name : String}
    (answers : row.Answers name) : Schema.standard.find space name = row :=
  find_of_listed (mem_table_of_common common space) answers

/-- A name with the mark of custom attributes has no traits and is its own attribute. -/
theorem find_customMark {space : Space} {name : String} {rest : List Char}
    (custom : name.toList = customMark ++ rest) :
    (Schema.standard.find space name).Ordinary ∧ (Schema.standard.find space name).attributeName = name :=
  standardFind_customMark custom

/-- The attribute name of a property is that of itself. -/
theorem find_attributeName (space : Space) (name : String) :
    (Schema.standard.find space (Schema.standard.find space name).attributeName).attributeName =
      (Schema.standard.find space name).attributeName := by
  rcases standardFind_attributeName space name with same | ⟨_, _, same⟩
  · exact congrArg Info.attributeName same
  · exact same

end Info

end Hyperscript
