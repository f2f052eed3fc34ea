import Hyperscript.Proofs.DataNames
import Hyperscript.Proofs.HeldValues

namespace Hyperscript

open Text

namespace Info

/-- The name of a custom attribute whose mark is not in small letters, as in `DATA-id`. -/
def HasRaisedMark (name : String) : Prop :=
  ∃ rest, dataRest? name.toList = some ('-' :: rest) ∧ name ≠ "data-" ++ String.ofList rest

/-- What the table does not know has its name for its attribute name, or gets an attribute name with the mark of
custom attributes. -/
theorem attributeName_of_unlisted {space : Space} {name : String} (unlisted : known? space name = none) :
    (Schema.standardFind space name).attributeName = name ∨
      ∃ more, (Schema.standardFind space name).attributeName.toList = customMark ++ more := by
  simp only [Schema.standardFind, unlisted]
  cases dataRest? name.toList with
  | none => exact Or.inl rfl
  | some rest =>
    simp only [ofDataName]
    split
    · exact Or.inl rfl
    · split
      · exact Or.inl rfl
      · exact Or.inr (exists_dataAttribute _)

/-- Renaming changes no letter but in its case. -/
theorem foldCase_rename (property : String) :
    foldCase ((Schema.standardRenames.lookup property).getD property) = foldCase property := by
  have pairs : ∀ pair ∈ Schema.standardRenames, foldCase pair.2 = foldCase pair.1 := by decide +kernel
  cases found : Schema.standardRenames.lookup property with
  | none => rfl
  | some other =>
    obtain ⟨before, after, split, _⟩ := List.lookup_eq_some_iff.mp found
    exact pairs (property, other) (by rw [split]; simp)

/-- No name with a dash is renamed. -/
theorem rename_of_dash {property : String} (dash : '-' ∈ property.toList) :
    Schema.standardRenames.lookup property = none := by
  have pairs : ∀ pair ∈ Schema.standardRenames, '-' ∉ pair.1.toList := by decide +kernel
  refine List.lookup_eq_none_iff.mpr fun pair member => ?_
  have other : property ≠ pair.1 := by
    rintro rfl
    exact pairs pair member dash
  simpa using other

end Info

namespace Attributes

open Info

/-- The key of a property in the retained dialect. -/
def retainedKey (space : Space) (name : String) : String :=
  Slot.flatKey .standard .retainedDom (Schema.standard.find space name)

theorem slotOf_retainedDom (space : Space) (name : String) :
    slotOf .standard .retainedDom space name = .flat (retainedKey space name) :=
  ofInfo_of_flatDialect rfl .standard _

theorem keepsAttributeName_of_customMark {info : Info} {more : List Char}
    (custom : info.attributeName.toList = customMark ++ more) : Slot.keepsAttributeName info = true := by
  have marked : "data-".toList <+: info.attributeName.toList := ⟨more, custom.symm⟩
  rw [Slot.keepsAttributeName, List.isPrefixOf_iff_prefix.mpr marked, Bool.true_or]

theorem flatKey_of_keepsAttributeName {info : Info} (keeps : Slot.keepsAttributeName info = true) :
    Slot.flatKey .standard .retainedDom info = info.attributeName := by
  simp only [Slot.flatKey, keeps, Bool.or_true, if_true]

/-- A key is the attribute name, or the property name in the letters that retained trees expect. -/
theorem flatKey_retainedDom (info : Info) :
    Slot.flatKey .standard .retainedDom info = info.attributeName ∨
      Slot.flatKey .standard .retainedDom info =
        (Schema.standardRenames.lookup info.propertyName).getD info.propertyName := by
  simp only [Slot.flatKey]
  split
  · exact Or.inl rfl
  · exact Or.inr rfl

/-- What the table does not know has its attribute name for its key, unless its mark is raised. -/
theorem retainedKey_of_unlisted {space : Space} {name : String} (unlisted : known? space name = none)
    (small : ¬ HasRaisedMark name) : retainedKey space name = (Schema.standard.find space name).attributeName := by
  rw [retainedKey, find_standard]
  simp only [Schema.standardFind, unlisted]
  cases read : dataRest? name.toList with
  | none => rfl
  | some rest =>
    obtain ⟨mark, split, _, some, _⟩ := dataRest?_eq_some_iff.mp read
    obtain ⟨c, more, rfl⟩ := List.exists_cons_of_ne_nil some
    by_cases dash : c = '-'
    · subst dash
      have spelled : name = "data-" ++ String.ofList more := by
        by_contra other
        exact small ⟨more, read, other⟩
      have custom : name.toList = customMark ++ more := by
        rw [spelled, toList_dataDash]
        rfl
      exact flatKey_of_keepsAttributeName (keepsAttributeName_of_customMark custom)
    · simp only [ofDataName_of_ne name dash]
      by_cases dashed : hasDashedLetter (c :: more) = true
      · rw [if_pos dashed]
        have member : '-' ∈ name.toList := by
          rw [split]
          exact List.mem_append_right _ (mem_of_hasDashedLetter dashed)
        rcases flatKey_retainedDom { propertyName := name, attributeName := name, defined := true } with same | same
        · exact same
        · rw [same, rename_of_dash member]
          rfl
      · rw [if_neg dashed]
        obtain ⟨after, custom⟩ := exists_dataAttribute (c :: more)
        exact flatKey_of_keepsAttributeName (keepsAttributeName_of_customMark custom)

/-- The key of a property finds the attribute of the property. -/
theorem attributeName_retainedKey {space : Space} {name : String} (small : ¬ HasRaisedMark name) :
    (Schema.standard.find space (retainedKey space name)).attributeName =
      (Schema.standard.find space name).attributeName := by
  cases listed : known? space name with
  | none => rw [retainedKey_of_unlisted listed small, find_attributeName]
  | some row =>
    have found : Schema.standard.find space name = row := find_of_known listed
    rcases flatKey_retainedDom row with same | same
    · rw [retainedKey, found, same, ← found, find_attributeName]
    · -- The letters of the key are those of the property, so the key finds the same row.
      have answers : row.Answers (Slot.flatKey .standard .retainedDom row) := by
        rw [same]
        exact Or.inl (foldCase_rename row.propertyName).symm
      have again := find_of_known (known?_eq_some_iff.mpr ⟨(known?_eq_some_iff.mp listed).1, answers⟩)
      rw [retainedKey, found, again]

/-- Properties of one attribute have one key. -/
theorem retainedKey_of_attributeName {space : Space} {name other : String}
    (same : (Schema.standard.find space name).attributeName = (Schema.standard.find space other).attributeName) :
    retainedKey space name = retainedKey space other := by
  by_cases keeps : Slot.keepsAttributeName (Schema.standard.find space name) = true
  · have keeps' : Slot.keepsAttributeName (Schema.standard.find space other) = true := by
      rwa [Slot.keepsAttributeName, same] at keeps
    rw [retainedKey, retainedKey, flatKey_of_keepsAttributeName keeps, flatKey_of_keepsAttributeName keeps', same]
  · have again : ∀ name, ¬ Slot.keepsAttributeName (Schema.standard.find space name) = true →
        Schema.standard.find space (Schema.standard.find space name).attributeName =
          Schema.standard.find space name := by
      intro name plain
      cases listed : known? space name with
      | some row =>
        rw [find_of_known listed]
        exact find_of_known (known?_attributeName (known?_eq_some_iff.mp listed).1)
      | none =>
        rcases attributeName_of_unlisted listed with unchanged | ⟨more, custom⟩
        · exact congrArg _ unchanged
        · exact absurd (keepsAttributeName_of_customMark custom) plain
    have keeps' : ¬ Slot.keepsAttributeName (Schema.standard.find space other) = true := by
      rwa [Slot.keepsAttributeName, same] at keeps
    rw [retainedKey, retainedKey, ← again name keeps, ← again other keeps', same]

/-- Four letters and a dash in front of a name with a mark are those of the mark. -/
theorem eq_mark_of_prefix {letters mark rest : List Char} (long : letters.length = mark.length)
    (starts : letters ++ ['-'] <+: mark ++ '-' :: rest) : letters = mark := by
  obtain ⟨after, same⟩ := starts
  rw [List.append_assoc] at same
  exact (List.append_inj same long).1

/-- A raised mark is not met as the beginning of a custom attribute, so the property name is the key. -/
theorem retainedKey_of_raisedMark (space : Space) {name : String} {rest : List Char}
    (read : dataRest? name.toList = some ('-' :: rest)) (raised : name ≠ "data-" ++ String.ofList rest) :
    retainedKey space name =
      (Schema.standardRenames.lookup (dataProperty rest)).getD (dataProperty rest) := by
  obtain ⟨mark, split, folds, _⟩ := dataRest?_eq_some_iff.mp read
  have four : mark.length = 4 := by
    rw [← List.length_map Char.toLower, folds]
    rfl
  have noData : ("data-".toList).isPrefixOf name.toList = false := by
    by_contra starts
    rw [Bool.not_eq_false, List.isPrefixOf_iff_prefix, split] at starts
    have small : dataMark = mark := eq_mark_of_prefix four.symm starts
    refine raised (String.toList_inj.mp ?_)
    rw [split, toList_dataDash, small]
  have noAria : ("aria-".toList).isPrefixOf name.toList = false := by
    by_contra starts
    rw [Bool.not_eq_false, List.isPrefixOf_iff_prefix, split] at starts
    have other : ['a', 'r', 'i', 'a'] = mark := eq_mark_of_prefix four.symm starts
    rw [← other] at folds
    exact absurd folds (by decide)
  rw [retainedKey, find_standard, standardFind_of_dashed read]
  simp only [Slot.flatKey, Slot.keepsAttributeName, noData, noAria, Bool.not_true, Bool.or_self, Bool.false_eq_true,
    if_false]
  rfl

/-- A raised mark can be written in more than one way. -/
theorem exists_other_mark (mark : List Char) :
    ∃ other, other ≠ mark ∧ other ≠ dataMark ∧ other.map Char.toLower = dataMark := by
  by_cases all : mark = "DATA".toList
  · exact ⟨"Data".toList, by rw [all]; decide, by decide, by decide⟩
  · exact ⟨"DATA".toList, Ne.symm all, by decide, by decide⟩

/-- With every custom attribute whose mark is raised there is another one that has its key. -/
theorem exists_same_retainedKey (space : Space) {name : String} (raised : HasRaisedMark name) :
    ∃ other, HasRaisedMark other ∧ retainedKey space other = retainedKey space name ∧
      (Schema.standard.find space other).attributeName ≠ (Schema.standard.find space name).attributeName := by
  obtain ⟨rest, read, marked⟩ := raised
  obtain ⟨mark, split, folds, some, chars⟩ := dataRest?_eq_some_iff.mp read
  obtain ⟨mark', apart, big, folds'⟩ := exists_other_mark mark
  have letters : (String.ofList (mark' ++ '-' :: rest)).toList = mark' ++ '-' :: rest := String.toList_ofList
  have read' : dataRest? (String.ofList (mark' ++ '-' :: rest)).toList = .some ('-' :: rest) :=
    dataRest?_eq_some_iff.mpr ⟨mark', letters, folds', some, chars⟩
  have marked' : String.ofList (mark' ++ '-' :: rest) ≠ "data-" ++ String.ofList rest := by
    intro same
    have whole := congrArg String.toList same
    rw [letters, toList_dataDash] at whole
    exact big (List.append_cancel_right whole)
  refine ⟨_, ⟨rest, read', marked'⟩, ?_, ?_⟩
  · rw [retainedKey_of_raisedMark space read' marked', retainedKey_of_raisedMark space read marked]
  · rw [find_standard, find_standard, standardFind_of_dashed read', standardFind_of_dashed read]
    intro same
    have whole := congrArg String.toList same
    rw [letters, split] at whole
    exact apart (List.append_cancel_right whole)

/-- The keys of the retained dialect tell attributes apart, but for custom attributes whose mark is not in small
letters. Properties of one attribute always have one key, and properties with one key have one attribute if neither
has a raised mark, so that a property is overwritten by none but those of its own attribute. With each raised mark
there is another name of the same key and another attribute. -/
theorem retained_keys_tell_attributes (space : Space) :
    (∀ name, slotOf .standard .retainedDom space name = .flat (retainedKey space name)) ∧
    (∀ name other,
      (Schema.standard.find space name).attributeName = (Schema.standard.find space other).attributeName →
      retainedKey space name = retainedKey space other) ∧
    (∀ name other, ¬ HasRaisedMark name → ¬ HasRaisedMark other →
      (retainedKey space name = retainedKey space other ↔
        (Schema.standard.find space name).attributeName = (Schema.standard.find space other).attributeName)) ∧
    (∀ before property after final, (∀ given ∈ property :: after, ¬ HasRaisedMark given.1) →
      addAll .standard .retainedDom space ∅ (before ++ property :: after) = .ok final →
      isKept .standard .retainedDom space property = true →
      (∀ later ∈ after, isKept .standard .retainedDom space later = true →
        (Schema.standard.find space later.1).attributeName ≠ (Schema.standard.find space property.1).attributeName) →
      ∃ value, passed .retainedDom (Schema.standard.find space property.1) property.2 = .ok value ∧
        final.get? (retainedKey space property.1) = some value) ∧
    ∀ name, HasRaisedMark name → ∃ other, HasRaisedMark other ∧ retainedKey space other = retainedKey space name ∧
      (Schema.standard.find space other).attributeName ≠ (Schema.standard.find space name).attributeName := by
  have tells : ∀ name other, ¬ HasRaisedMark name → ¬ HasRaisedMark other →
      retainedKey space name = retainedKey space other →
      (Schema.standard.find space name).attributeName = (Schema.standard.find space other).attributeName := by
    intro name other small small' same
    rw [← attributeName_retainedKey small, ← attributeName_retainedKey small', same]
  refine ⟨slotOf_retainedDom space, fun name other => retainedKey_of_attributeName, fun name other small small' =>
    ⟨tells name other small small', retainedKey_of_attributeName⟩, ?_, fun name => exists_same_retainedKey space⟩
  intro before property after final small added kept apart
  obtain ⟨mine, others⟩ := List.forall_mem_cons.mp small
  obtain ⟨reached, value, shows, here, later⟩ := exists_held_of_kept kept added
  have untouched : ∀ other ∈ after, isKept .standard .retainedDom space other = true →
      ¬ (slotOf .standard .retainedDom space other.1).Touches (slotOf .standard .retainedDom space property.1) := by
    intro other member kept'
    rw [slotOf_retainedDom, slotOf_retainedDom]
    rintro (same | ⟨kinds, _⟩)
    · exact apart other member kept' (tells _ _ (others other member) mine (Slot.flat.inj same))
    · exact kinds rfl
  rw [← held_addAll_of_apart untouched later, slotOf_retainedDom] at here
  exact ⟨value, shows, here⟩

theorem retained_keys_tell_attributes_class :
    ¬ HasRaisedMark "data-a" ∧ ¬ HasRaisedMark "class" ∧
    retainedKey .html "class" ≠ retainedKey .html "data-a" ∧ ∃ final,
      addAll .standard .retainedDom .html ∅ [("data-a", .text "x"), ("class", .text "y")] = .ok final ∧
      isKept .standard .retainedDom .html ("data-a", .text "x") = true ∧
      (Schema.standard.find .html "class").attributeName ≠ (Schema.standard.find .html "data-a").attributeName ∧
      final.get? (retainedKey .html "data-a") = some (.text "x") := by
  have read : dataRest? "data-a".toList = some ['-', 'a'] := by decide +kernel
  have unread : dataRest? "class".toList = none := by decide +kernel
  have raised : dataProperty ['a'] = "dataA" := by decide +kernel
  have custom : Schema.standard.find .html "data-a" =
      { propertyName := "dataA", attributeName := "data-a", defined := true } := by
    rw [find_standard, standardFind_of_dashed read, raised]
  have listed : Schema.standard.find .html "class" = classRow := find_of_common (by decide) .html (by decide)
  have small : ¬ HasRaisedMark "data-a" := by
    rintro ⟨rest, same, other⟩
    obtain rfl : ['a'] = rest := (List.cons.inj (Option.some.inj (read.symm.trans same))).2
    exact other (by decide +kernel)
  have small' : ¬ HasRaisedMark "class" := by
    rintro ⟨rest, same, _⟩
    rw [unread] at same
    cases same
  have kept : isKept .standard .retainedDom .html ("data-a", .text "x") = true := by
    rw [isKept, custom]
    rfl
  have added : addAll .standard .retainedDom .html ∅ [("data-a", .text "x"), ("class", .text "y")] =
      .ok (.ofList [("data-a", .text "x"), ("className", .text "y")]) := by
    rw [addAll_cons_of_passed custom rfl rfl, addAll_cons_of_passed listed rfl rfl]
    rfl
  have apart : (Schema.standard.find .html "class").attributeName ≠
      (Schema.standard.find .html "data-a").attributeName := by
    rw [custom, listed]
    decide
  obtain ⟨_, _, keys, found, _⟩ := retained_keys_tell_attributes .html
  obtain ⟨value, shows, held⟩ := found [] ("data-a", .text "x") [("class", .text "y")] _
    (by simp [small, small']) added kept (by simp [apart])
  rw [custom] at shows
  obtain rfl : .text "x" = value := Except.ok.inj shows
  exact ⟨small, small', (keys "class" "data-a" small' small).not.mpr apart, _, added, kept, apart, held⟩

/-- Two custom attributes with raised marks have one key, so the second one takes the place of the first. -/
theorem raised_marks_share_key :
    (Schema.standard.find .html "DATA-a").attributeName = "DATA-a" ∧
    (Schema.standard.find .html "Data-a").attributeName = "Data-a" ∧
    slotOf .standard .retainedDom .html "DATA-a" = slotOf .standard .retainedDom .html "Data-a" ∧
    addAll .standard .retainedDom .html ∅ [("DATA-a", .text "x"), ("Data-a", .text "y")] =
      .ok (.ofList [("dataA", .text "y")]) := by
  have raised : dataProperty ['a'] = "dataA" := by decide +kernel
  have custom : ∀ name, dataRest? name.toList = some ['-', 'a'] → Schema.standard.find .html name =
      { propertyName := "dataA", attributeName := name, defined := true } := by
    intro name read
    rw [find_standard, standardFind_of_dashed read, raised]
  have first := custom "DATA-a" (by decide +kernel)
  have second := custom "Data-a" (by decide +kernel)
  refine ⟨?_, ?_, ?_, ?_⟩
  · rw [first]
  · rw [second]
  · rw [slotOf, slotOf, first, second]
    rfl
  · rw [addAll_cons_of_passed first rfl rfl, addAll_cons_of_passed second rfl rfl]
    rfl

end Attributes

end Hyperscript
