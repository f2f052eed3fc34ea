import Hyperscript.Proofs.LetterCase
import Hyperscript.Proofs.StandardNames

namespace Hyperscript.Info

open Text

/-- What has to hold of what follows `data-` in the name of a custom attribute, so that the property of the
attribute gives the name back: no capitals, and a beginning that is no dash and that is either a lower-case
ASCII letter or without an upper-case form. The property must not be one that HTML has in its table. -/
structure KeepsName (space : Space) (rest : List Char) : Prop where
  starts : ∃ c more, rest = c :: more ∧ c ≠ '-' ∧ (isLowerLetter c = true ∨ upperChar c = [c])
  small : ∀ c ∈ rest, isUpperLetter c = false
  free : ¬ (space = .html ∧ foldCase (dataProperty rest) = "datatype".toList)

theorem foldLetter_of_toLower {c d : Char} (same : c.toLower = d) (other : d ≠ '\u212a') : foldLetter c = d := by
  rw [foldLetter, if_neg, same]
  rintro rfl
  exact other same.symm

theorem dataRest?_eq_some_iff {name rest : List Char} : dataRest? name = some rest ↔
    ∃ mark, name = mark ++ rest ∧ mark.map Char.toLower = dataMark ∧ rest ≠ [] ∧
      ∀ c ∈ rest, isDataChar c = true := by
  simp only [dataRest?, Option.ite_none_right_eq_some, Option.some.injEq, Bool.and_eq_true, decide_eq_true_eq,
    Bool.not_eq_true', List.isEmpty_eq_false_iff, List.all_eq_true]
  constructor
  · rintro ⟨⟨⟨mark, some⟩, chars⟩, rfl⟩
    exact ⟨name.take 4, (List.take_append_drop 4 name).symm, mark, some, chars⟩
  · rintro ⟨mark, rfl, folds, some, chars⟩
    have length : mark.length = 4 := by
      rw [← List.length_map Char.toLower, folds]
      rfl
    rw [List.take_left' length, List.drop_left' length]
    exact ⟨⟨⟨folds, some⟩, chars⟩, rfl⟩

theorem map_foldLetter_of_toLower {mark : List Char} (folds : mark.map Char.toLower = dataMark) :
    mark.map foldLetter = dataMark := by
  have ascii : ∀ d ∈ dataMark, d ≠ '\u212a' := by simp [dataMark]
  rw [← folds]
  refine List.map_congr_left fun c member => foldLetter_of_toLower rfl (ascii c.toLower ?_)
  rw [← folds]
  exact List.mem_map_of_mem member

/-- A custom attribute is in no table. -/
theorem known?_of_dataRest? {space : Space} {name : String} {rest : List Char}
    (read : dataRest? name.toList = some ('-' :: rest)) : known? space name = none := by
  obtain ⟨mark, split, folds, _⟩ := dataRest?_eq_some_iff.mp read
  refine known?_of_customMark ⟨rest.map foldLetter, ?_⟩
  rw [foldCase, split, List.map_append, map_foldLetter_of_toLower folds]
  rfl

theorem standardFind_of_dashed {space : Space} {name : String} {rest : List Char}
    (read : dataRest? name.toList = some ('-' :: rest)) : Schema.standardFind space name =
      { propertyName := dataProperty rest, attributeName := name, defined := true } := by
  simp only [Schema.standardFind, known?_of_dataRest? read, read]
  rfl

theorem toList_data (rest : List Char) : ("data" ++ String.ofList rest).toList = dataMark ++ rest := by
  rw [String.toList_append, String.toList_ofList, String.toList_ofList]
  rfl

theorem toList_dataProperty (rest : List Char) :
    (dataProperty rest).toList = dataMark ++ raiseFirst (raiseAfterDash rest) :=
  toList_data _

theorem known?_dataProperty {space : Space} {rest : List Char} (some : raiseFirst (raiseAfterDash rest) ≠ []) :
    known? space (dataProperty rest) = none ↔
      ¬ (space = .html ∧ foldCase (dataProperty rest) = "datatype".toList) := by
  have folds : foldCase (dataProperty rest) = dataMark ++ (raiseFirst (raiseAfterDash rest)).map foldLetter := by
    rw [foldCase, toList_dataProperty, List.map_append]
    rfl
  refine known?_of_dataMark ⟨_, folds.symm⟩ ?_
  rw [folds]
  intro same
  have nothing := List.append_right_eq_self.mp same
  exact some (List.map_eq_nil_iff.mp nothing)

theorem toList_dataDash (rest : List Char) : ("data-" ++ String.ofList rest).toList = dataMark ++ '-' :: rest := by
  rw [String.toList_append, String.toList_ofList, String.toList_ofList]
  rfl

theorem ofDataName_of_ne (name : String) {c : Char} (other : c ≠ '-') (rest : List Char) :
    ofDataName name (c :: rest) =
      if hasDashedLetter (c :: rest) then { propertyName := name, attributeName := name, defined := true }
      else { propertyName := name, attributeName := dataAttribute (c :: rest), defined := true } := by
  unfold ofDataName
  split
  · next same => exact absurd (List.cons.inj same).1 other
  · rfl

/-- Unless it is in the table, the property of a custom attribute is an attribute of its own name, or it has an
attribute with a dash before each capital and after `data`. -/
theorem attributeName_dataProperty {space : Space} {rest : List Char}
    (free : known? space (dataProperty rest) = none) :
    (Schema.standardFind space (dataProperty rest)).attributeName = dataProperty rest ∨
      (Schema.standardFind space (dataProperty rest)).attributeName =
          dataAttribute (raiseFirst (raiseAfterDash rest)) ∧
        ∃ c more, raiseFirst (raiseAfterDash rest) = c :: more ∧ c ≠ '-' := by
  simp only [Schema.standardFind, free]
  cases read : dataRest? (dataProperty rest).toList with
  | none => exact Or.inl rfl
  | some body =>
    obtain ⟨mark, split, folds, some, _⟩ := dataRest?_eq_some_iff.mp read
    rw [toList_dataProperty] at split
    have length : mark.length = dataMark.length := by rw [← folds, List.length_map]
    obtain ⟨_, same⟩ := List.append_inj split length.symm
    rw [same]
    obtain ⟨c, more, rfl⟩ := List.exists_cons_of_ne_nil some
    by_cases dash : c = '-'
    · subst dash
      exact Or.inl rfl
    · cases dashed : hasDashedLetter (c :: more) with
      | true => exact Or.inl (by simp [ofDataName_of_ne _ dash, dashed])
      | false => exact Or.inr ⟨by simp [ofDataName_of_ne _ dash, dashed], c, more, rfl, dash⟩

theorem isDataChar_of_isUpperLetter {c : Char} (upper : isUpperLetter c = true) : isDataChar c = true :=
  forall_upperLetter (isDataChar · = true) (by decide +kernel) upper

theorem isDataChar_raiseAfterDash {text : List Char} (chars : ∀ c ∈ text, isDataChar c = true) :
    ∀ c ∈ raiseAfterDash text, isDataChar c = true := by
  fun_induction raiseAfterDash text with
  | case1 => exact chars
  | case2 => exact chars
  | case3 c next rest dashed ih =>
    simp only [Bool.and_eq_true] at dashed
    simp only [List.forall_mem_cons] at chars ⊢
    exact ⟨isDataChar_of_isUpperLetter (isUpperLetter_toUpper dashed.2), ih chars.2.2⟩
  | case4 c next rest _ ih =>
    rw [List.forall_mem_cons] at chars ⊢
    exact ⟨chars.1, ih chars.2⟩

/-- Raising takes the dash away or leaves the text no longer than it was. -/
theorem raiseFirst_raiseAfterDash_ne (rest : List Char) : raiseFirst (raiseAfterDash rest) ≠ '-' :: rest := by
  intro same
  cases raised : raiseAfterDash rest with
  | nil =>
    rw [raised] at same
    cases same
  | cons c more =>
    rw [raised, raiseFirst] at same
    rcases upperChar_cases c with form | ⟨first, others, form, _, dash⟩
    · rw [form, List.singleton_append] at same
      have shorter := raiseAfterDash_length rest
      rw [raised, ← (List.cons.inj same).2] at shorter
      simp only [List.length_cons] at shorter
      omega
    · rw [form] at same
      exact dash (List.cons.inj same).1

theorem leadingDash_of_ne {c : Char} (other : c ≠ '-') (rest : List Char) :
    leadingDash (c :: rest) = '-' :: c :: rest := by
  unfold leadingDash
  split
  · next same => exact absurd (List.cons.inj same).1 other
  · rfl

/-- A text that does not begin with a dash comes back only if its first character has a single character for its
upper-case form, which is a capital or the character itself, and if no capitals are in it. -/
theorem plain_of_leadingDash {c : Char} {more : List Char} (dash : c ≠ '-')
    (same : leadingDash (dashBeforeCapitals (upperChar c) ++ dashBeforeCapitals more) = '-' :: c :: more) :
    (isLowerLetter c = true ∨ upperChar c = [c]) ∧ isUpperLetter c = false ∧ dashBeforeCapitals more = more := by
  rcases upperChar_cases c with form | ⟨first, others, form, other, noDash⟩
  · rw [form, dashBeforeCapitals_cons] at same
    cases upper : isUpperLetter c with
    | true =>
      rw [if_pos upper] at same
      have same : c.toLower = c := (List.cons.inj (List.cons.inj same).2).1
      have plain := isUpperLetter_of_isLowerLetter (isLowerLetter_toLower upper)
      rw [same, upper] at plain
      cases plain
    | false =>
      rw [upper, if_neg Bool.false_ne_true, List.append_assoc, List.singleton_append, leadingDash_of_ne dash] at same
      exact ⟨Or.inr form, rfl, (List.cons.inj (List.cons.inj same).2).2⟩
  · rw [form, dashBeforeCapitals_cons] at same
    cases upper : isUpperLetter first with
    | true =>
      rw [if_pos upper] at same
      obtain ⟨small, rest⟩ := List.cons.inj (List.cons.inj same).2
      have lower : isLowerLetter c = true := small ▸ isLowerLetter_toLower upper
      rw [upperChar_of_isLowerLetter lower] at form
      rw [← (List.cons.inj form).2] at rest
      exact ⟨Or.inl lower, isUpperLetter_of_isLowerLetter lower, rest⟩
    | false =>
      rw [upper, if_neg Bool.false_ne_true, List.append_assoc, List.singleton_append,
        leadingDash_of_ne noDash] at same
      exact absurd (List.cons.inj (List.cons.inj same).2).1 other

/-- A text that comes back from raising begins as it has to and has no capitals. -/
theorem keepsName_of_leadingDash {rest : List Char} {first : Char} {others : List Char}
    (begins : raiseFirst (raiseAfterDash rest) = first :: others) (plain : first ≠ '-')
    (same : leadingDash (dashBeforeCapitals (raiseFirst (raiseAfterDash rest))) = '-' :: rest) :
    (∃ c more, rest = c :: more ∧ c ≠ '-' ∧ (isLowerLetter c = true ∨ upperChar c = [c])) ∧
      ∀ c ∈ rest, isUpperLetter c = false := by
  cases rest with
  | nil => cases begins
  | cons c more =>
    by_cases dash : c = '-'
    · subst dash
      rcases raiseAfterDash_dash more with ⟨next, later, rfl, lower, raised⟩ | raised
      · -- A second dash is lost with the first.
        have upper := isUpperLetter_toUpper lower
        rw [raised, raiseFirst, upperChar_of_isUpperLetter upper, List.singleton_append, dashBeforeCapitals_cons,
          if_pos upper, toLower_toUpper lower] at same
        have dash : next = '-' := (List.cons.inj (List.cons.inj same).2).1
        rw [dash] at lower
        cases lower
      · rw [raised] at begins
        exact absurd (List.cons.inj begins).1.symm plain
    · rw [raiseAfterDash_cons dash, raiseFirst, dashBeforeCapitals_append,
        dashBeforeCapitals_raiseAfterDash] at same
      obtain ⟨starts, small, others⟩ := plain_of_leadingDash dash same
      exact ⟨⟨c, more, rfl, dash, starts⟩,
        List.forall_mem_cons.mpr ⟨small, dashBeforeCapitals_eq_self_iff.mp others⟩⟩

/-- A first character that keeps a name has one character for its upper-case form, and a dash and the character
itself are made of that one. -/
theorem exists_raised_first {c : Char} (dash : c ≠ '-') (starts : isLowerLetter c = true ∨ upperChar c = [c])
    (plain : isUpperLetter c = false) (char : isDataChar c = true) :
    ∃ first, upperChar c = [first] ∧ first ≠ '-' ∧ isDataChar first = true ∧
      ∀ text, leadingDash (dashBeforeCapitals (first :: text)) = '-' :: c :: dashBeforeCapitals text := by
  rcases starts with lower | form
  · have upper := isUpperLetter_toUpper lower
    refine ⟨c.toUpper, upperChar_of_isLowerLetter lower, ?_, isDataChar_of_isUpperLetter upper, fun text => ?_⟩
    · intro same
      rw [same] at upper
      cases upper
    · rw [dashBeforeCapitals_cons, if_pos upper, toLower_toUpper lower]
      rfl
  · refine ⟨c, form, dash, char, fun text => ?_⟩
    rw [dashBeforeCapitals_cons, plain, if_neg Bool.false_ne_true, List.singleton_append, leadingDash_of_ne dash]

/-- What is raised without loss is given back: the property finds the names that the attribute finds. -/
theorem standardFind_of_keepsName {space : Space} {rest : List Char} (keeps : KeepsName space rest)
    (chars : ∀ c ∈ rest, isDataChar c = true) : Schema.standardFind space (dataProperty rest) =
      { propertyName := dataProperty rest, attributeName := "data-" ++ String.ofList rest, defined := true } := by
  obtain ⟨c, more, rfl, dash, starts⟩ := keeps.starts
  obtain ⟨plain, others⟩ := List.forall_mem_cons.mp keeps.small
  obtain ⟨first, form, noDash, char, back⟩ := exists_raised_first dash starts plain (chars c (List.mem_cons_self ..))
  have body : raiseFirst (raiseAfterDash (c :: more)) = first :: raiseAfterDash more := by
    rw [raiseAfterDash_cons dash, raiseFirst, form]
    rfl
  have free : known? space (dataProperty (c :: more)) = none :=
    (known?_dataProperty (by rw [body]; exact List.cons_ne_nil _ _)).mpr keeps.free
  have read : dataRest? (dataProperty (c :: more)).toList = some (first :: raiseAfterDash more) := by
    refine dataRest?_eq_some_iff.mpr ⟨dataMark, ?_, rfl, List.cons_ne_nil _ _, ?_⟩
    · rw [toList_dataProperty, body]
    · exact List.forall_mem_cons.mpr
        ⟨char, isDataChar_raiseAfterDash fun d member => chars d (List.mem_cons_of_mem _ member)⟩
  have dashed : hasDashedLetter (first :: raiseAfterDash more) = false := by
    have whole := hasDashedLetter_raiseAfterDash (c :: more)
    rwa [raiseAfterDash_cons dash, hasDashedLetter_cons dash, ← hasDashedLetter_cons noDash] at whole
  have spelled : dataAttribute (first :: raiseAfterDash more) = "data-" ++ String.ofList (c :: more) := by
    rw [dataAttribute, back, dashBeforeCapitals_raiseAfterDash, dashBeforeCapitals_eq_self_iff.mpr others,
      ← String.toList_inj, toList_dataDash, String.toList_append, String.toList_ofList, String.toList_ofList]
    rfl
  simp only [Schema.standardFind, free, read, ofDataName_of_ne _ noDash, dashed, Bool.false_eq_true, if_false,
    spelled]

/-- The property of a custom attribute gives the name of the attribute back in the cases described, and in no
others. -/
theorem attributeName_dataProperty_eq_iff {space : Space} {name : String} {rest : List Char}
    (read : dataRest? name.toList = some ('-' :: rest)) :
    (Schema.standardFind space (dataProperty rest)).attributeName = name ↔
      name = "data-" ++ String.ofList rest ∧ KeepsName space rest := by
  obtain ⟨mark, split, folds, _, chars⟩ := dataRest?_eq_some_iff.mp read
  have length : dataMark.length = mark.length := by rw [← folds, List.length_map]
  constructor
  · intro same
    cases listed : known? space (dataProperty rest) with
    | some row =>
      rw [standardFind_of_known listed] at same
      have found := known?_attributeName (known?_eq_some_iff.mp listed).1
      rw [same, known?_of_dataRest? read] at found
      cases found
    | none =>
      rcases attributeName_dataProperty listed with other | ⟨given, first, others, begins, plain⟩
      · rw [← same, other, toList_dataProperty] at split
        exact absurd (List.append_inj split length).2 (raiseFirst_raiseAfterDash_ne rest)
      · have letters : dataMark ++ leadingDash (dashBeforeCapitals (raiseFirst (raiseAfterDash rest))) =
            mark ++ '-' :: rest := by
          rw [← split, ← same, given, dataAttribute, String.toList_append, String.toList_ofList,
            String.toList_ofList]
          rfl
        obtain ⟨sameMark, sameRest⟩ := List.append_inj letters length
        obtain ⟨starts, small⟩ := keepsName_of_leadingDash begins plain sameRest
        refine ⟨?_, starts, small, (known?_dataProperty (by rw [begins]; exact List.cons_ne_nil _ _)).mp listed⟩
        rw [← String.toList_inj, toList_dataDash, split, sameMark]
  · rintro ⟨spelled, keeps⟩
    rw [standardFind_of_keepsName keeps (List.forall_mem_cons.mp chars).2, spelled]

/-- The property of a name has the attribute name of that name, unless the name is that of a custom attribute
and is not kept. -/
theorem attributeName_propertyName_eq_iff (space : Space) (name : String) :
    (Schema.standardFind space (Schema.standardFind space name).propertyName).attributeName =
        (Schema.standardFind space name).attributeName ↔
      ∀ rest, dataRest? name.toList = some ('-' :: rest) →
        name = "data-" ++ String.ofList rest ∧ KeepsName space rest := by
  by_cases custom : ∃ rest, dataRest? name.toList = some ('-' :: rest)
  · obtain ⟨rest, read⟩ := custom
    rw [standardFind_of_dashed read, attributeName_dataProperty_eq_iff read, read]
    constructor
    · rintro keeps other ⟨rfl⟩
      exact keeps
    · exact fun keeps => keeps rest rfl
  · refine iff_of_true ?_ fun rest read => absurd ⟨rest, read⟩ custom
    cases listed : known? space name with
    | some row =>
      rw [standardFind_of_known listed, standardFind_of_known (known?_propertyName (known?_eq_some_iff.mp listed).1)]
    | none =>
      have same : (Schema.standardFind space name).propertyName = name := by
        simp only [Schema.standardFind, listed]
        cases read : dataRest? name.toList with
        | none => rfl
        | some rest =>
          simp only [ofDataName]
          split
          · next dashed => exact absurd ⟨_, read⟩ custom
          · split <;> rfl
      rw [same]

end Hyperscript.Info
