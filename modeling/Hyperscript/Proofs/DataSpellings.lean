import Hyperscript.Proofs.DataNames

namespace Hyperscript.Info

open Text

/-- The characters of the attribute names of custom data, as long as these are written in ASCII. -/
def isAttributeChar (c : Char) : Bool :=
  isLowerLetter c || c.isDigit || c = '_' || c = '.' || c = ':' || c = '-'

/-- The characters of the property names of custom data: capitals may be among them. -/
def isPropertyChar (c : Char) : Bool :=
  isUpperLetter c || isAttributeChar c

/-- What follows `data-` in an attribute name: no capitals, and no further dash in front. -/
structure SpellsAttribute (rest : List Char) : Prop where
  starts : ∃ c more, rest = c :: more ∧ c ≠ '-'
  chars : ∀ c ∈ rest, isAttributeChar c = true

/-- What follows `data` in a property name: neither a small letter nor a dash comes first. -/
structure SpellsProperty (rest : List Char) : Prop where
  starts : ∃ c more, rest = c :: more ∧ c ≠ '-' ∧ isLowerLetter c = false
  chars : ∀ c ∈ rest, isPropertyChar c = true

/-- What is said of the characters of property names is checked for each ASCII character. -/
theorem forall_propertyChar (holds : Char → Prop)
    (each : ∀ n : Fin 0x80, isPropertyChar (Char.ofNat n) = true → holds (Char.ofNat n)) {c : Char}
    (char : isPropertyChar c = true) : holds c := by
  have ascii : c.toNat < 0x80 := by
    simp only [isPropertyChar, isAttributeChar, isUpperLetter, isLowerLetter, Char.isDigit, Bool.or_eq_true,
      Bool.and_eq_true, decide_eq_true_eq] at char
    rcases char with ⟨_, last⟩ | ((((⟨_, last⟩ | ⟨_, last⟩) | rfl) | rfl) | rfl) | rfl
    · exact Nat.lt_of_le_of_lt last (by decide)
    · exact Nat.lt_of_le_of_lt last (by decide)
    · exact Nat.lt_of_le_of_lt last (by decide)
    all_goals decide
  have here := each ⟨c.toNat, ascii⟩
  rw [Char.ofNat_toNat] at here
  exact here char

theorem isDataChar_of_isPropertyChar {c : Char} (char : isPropertyChar c = true) : isDataChar c = true :=
  forall_propertyChar (isDataChar · = true) (by decide +kernel) char

theorem isPropertyChar_of_isAttributeChar {c : Char} (char : isAttributeChar c = true) :
    isPropertyChar c = true := by
  rw [isPropertyChar, char, Bool.or_true]

theorem isUpperLetter_of_isAttributeChar {c : Char} (char : isAttributeChar c = true) : isUpperLetter c = false :=
  forall_propertyChar (fun c => isAttributeChar c = true → isUpperLetter c = false) (by decide +kernel)
    (isPropertyChar_of_isAttributeChar char) char

theorem upperChar_of_isPropertyChar {c : Char} (char : isPropertyChar c = true) (small : isLowerLetter c = false) :
    upperChar c = [c] := by
  have before : isLowerLetter c = false → c.toNat < 0x61 :=
    forall_propertyChar (fun c => isLowerLetter c = false → c.toNat < 0x61) (by decide +kernel) char
  exact upperChar_of_lt (before small)

/-- The attribute of a custom name is spelled with the characters of the name. -/
theorem isDataChar_dashBeforeCapitals {text : List Char} (chars : ∀ c ∈ text, isDataChar c = true) :
    ∀ c ∈ dashBeforeCapitals text, isDataChar c = true := by
  intro d member
  obtain ⟨c, listed, here⟩ := List.mem_flatMap.mp member
  split at here
  · next upper =>
    rcases List.mem_cons.mp here with rfl | last
    · decide
    · rw [List.mem_singleton.mp last]
      exact forall_upperLetter (isDataChar ·.toLower = true) (by decide +kernel) upper
  · rw [List.mem_singleton.mp here]
    exact chars c listed

theorem mem_of_mem_leadingDash {text : List Char} {c : Char} (member : c ∈ leadingDash text) :
    c = '-' ∨ c ∈ text := by
  unfold leadingDash at member
  split at member
  · exact Or.inr member
  · exact List.mem_cons.mp member

/-- The names of custom data whose property is not in the table keep what follows `data-`. -/
theorem SpellsAttribute.keepsName {space : Space} {rest : List Char} (spells : SpellsAttribute rest)
    (free : known? space (dataProperty rest) = none) : KeepsName space rest := by
  obtain ⟨c, more, rfl, dash⟩ := spells.starts
  have starts : isLowerLetter c = true ∨ upperChar c = [c] := by
    cases small : isLowerLetter c with
    | true => exact Or.inl rfl
    | false =>
      have char := isPropertyChar_of_isAttributeChar (spells.chars c (List.mem_cons_self ..))
      exact Or.inr (upperChar_of_isPropertyChar char small)
  have some : raiseFirst (raiseAfterDash (c :: more)) ≠ [] := by
    rw [raiseAfterDash_cons dash, raiseFirst]
    intro nothing
    rcases upperChar_cases c with form | ⟨first, others, form, _⟩ <;> simp [form] at nothing
  exact ⟨⟨c, more, rfl, dash, starts⟩, fun d member => isUpperLetter_of_isAttributeChar (spells.chars d member),
    (known?_dataProperty some).mp free⟩

theorem SpellsAttribute.dataRest?_eq {rest : List Char} (spells : SpellsAttribute rest) :
    dataRest? ("data-" ++ String.ofList rest).toList = some ('-' :: rest) := by
  refine dataRest?_eq_some_iff.mpr ⟨dataMark, toList_dataDash rest, rfl, List.cons_ne_nil _ _, ?_⟩
  refine List.forall_mem_cons.mpr ⟨by decide, fun c member => ?_⟩
  exact isDataChar_of_isPropertyChar (isPropertyChar_of_isAttributeChar (spells.chars c member))

/-- Without a dash before a small letter, the attribute name of a property name gives the property name back. -/
theorem SpellsProperty.exists_body {rest : List Char} (spells : SpellsProperty rest)
    (plain : hasDashedLetter rest = false) : ∃ body, leadingDash (dashBeforeCapitals rest) = '-' :: body ∧
      raiseFirst (raiseAfterDash body) = rest := by
  obtain ⟨c, more, rfl, dash, small⟩ := spells.starts
  rw [hasDashedLetter_cons dash] at plain
  rw [dashBeforeCapitals_cons]
  cases upper : isUpperLetter c with
  | true =>
    have lower := isLowerLetter_toLower upper
    have other : c.toLower ≠ '-' := by
      intro same
      rw [same] at lower
      cases lower
    refine ⟨c.toLower :: dashBeforeCapitals more, rfl, ?_⟩
    rw [raiseAfterDash_cons other, raiseAfterDash_dashBeforeCapitals plain, raiseFirst,
      upperChar_of_isLowerLetter lower, toUpper_toLower upper]
    rfl
  | false =>
    have form := upperChar_of_isPropertyChar (spells.chars c (List.mem_cons_self ..)) small
    refine ⟨c :: dashBeforeCapitals more, leadingDash_of_ne dash _, ?_⟩
    rw [raiseAfterDash_cons dash, raiseAfterDash_dashBeforeCapitals plain, raiseFirst, form]
    rfl

/-- A property spelling has the attribute with a dash before each of its capitals. -/
theorem SpellsProperty.standardFind_eq {space : Space} {rest : List Char} (spells : SpellsProperty rest)
    (free : known? space ("data" ++ String.ofList rest) = none) :
    Schema.standardFind space ("data" ++ String.ofList rest) =
      { propertyName := "data" ++ String.ofList rest
        attributeName := if hasDashedLetter rest then "data" ++ String.ofList rest else dataAttribute rest
        defined := true } := by
  obtain ⟨c, more, rfl, dash, _⟩ := spells.starts
  have read : dataRest? ("data" ++ String.ofList (c :: more)).toList = some (c :: more) := by
    refine dataRest?_eq_some_iff.mpr ⟨dataMark, toList_data _, rfl, List.cons_ne_nil _ _, fun d member => ?_⟩
    exact isDataChar_of_isPropertyChar (spells.chars d member)
  simp only [Schema.standardFind, free, read, ofDataName_of_ne _ dash]
  split <;> rfl

/-- A property name gives the names that its attribute name finds. -/
theorem SpellsProperty.standardFind_dataAttribute (space : Space) {rest : List Char} (spells : SpellsProperty rest)
    (plain : hasDashedLetter rest = false) : Schema.standardFind space (dataAttribute rest) =
      { propertyName := "data" ++ String.ofList rest, attributeName := dataAttribute rest, defined := true } := by
  obtain ⟨body, spelled, raised⟩ := spells.exists_body plain
  have chars : ∀ c ∈ '-' :: body, isDataChar c = true := by
    intro c member
    rw [← spelled] at member
    rcases mem_of_mem_leadingDash member with rfl | inner
    · decide
    · exact isDataChar_dashBeforeCapitals (fun d listed => isDataChar_of_isPropertyChar (spells.chars d listed)) c inner
  have read : dataRest? (dataAttribute rest).toList = some ('-' :: body) := by
    refine dataRest?_eq_some_iff.mpr ⟨dataMark, ?_, rfl, List.cons_ne_nil _ _, chars⟩
    rw [dataAttribute, toList_data, spelled]
  rw [standardFind_of_dashed read, dataProperty, raised]

/-- The two spellings of custom data are inverse where the table has neither. The property of an attribute name in
small letters finds all that the attribute name finds, and so does the attribute of a property name, which stays as
it is if it has dashed letters. -/
theorem data_spellings_inverse (space : Space) :
    (∀ rest, SpellsAttribute rest →
      known? space (Schema.standard.find space ("data-" ++ String.ofList rest)).propertyName = none →
      Schema.standard.find space (Schema.standard.find space ("data-" ++ String.ofList rest)).propertyName =
          Schema.standard.find space ("data-" ++ String.ofList rest) ∧
        (Schema.standard.find space ("data-" ++ String.ofList rest)).attributeName =
          "data-" ++ String.ofList rest) ∧
    ∀ rest, SpellsProperty rest → known? space ("data" ++ String.ofList rest) = none →
      Schema.standard.find space (Schema.standard.find space ("data" ++ String.ofList rest)).attributeName =
          Schema.standard.find space ("data" ++ String.ofList rest) ∧
        (Schema.standard.find space ("data" ++ String.ofList rest)).propertyName = "data" ++ String.ofList rest := by
  simp only [find_standard]
  constructor
  · intro rest spells free
    rw [standardFind_of_dashed spells.dataRest?_eq] at free ⊢
    have chars : ∀ c ∈ rest, isDataChar c = true := fun c member =>
      isDataChar_of_isPropertyChar (isPropertyChar_of_isAttributeChar (spells.chars c member))
    exact ⟨standardFind_of_keepsName (spells.keepsName free) chars, rfl⟩
  · intro rest spells free
    have found := spells.standardFind_eq free
    rw [found]
    refine ⟨?_, rfl⟩
    cases dashed : hasDashedLetter rest with
    | true =>
      rw [dashed] at found
      exact found
    | false => exact spells.standardFind_dataAttribute space dashed

theorem data_spellings_inverse_html :
    SpellsAttribute "a--b-1".toList ∧ SpellsProperty "A-B-1".toList ∧ known? .html "dataA-B-1" = none ∧
    Schema.standard.find .html "dataA-B-1" = Schema.standard.find .html "data-a--b-1" ∧
    (Schema.standard.find .html "data-a--b-1").attributeName = "data-a--b-1" ∧
    Schema.standard.find .html (Schema.standard.find .html "dataA-B-1").attributeName =
      Schema.standard.find .html "dataA-B-1" := by
  have small : SpellsAttribute "a--b-1".toList := ⟨⟨'a', _, rfl, by decide⟩, List.all_eq_true.mp (by decide)⟩
  have capital : SpellsProperty "A-B-1".toList := ⟨⟨'A', _, rfl, by decide, rfl⟩, List.all_eq_true.mp (by decide)⟩
  have free : known? .html "dataA-B-1" = none := by
    have starts : dataMark <+: foldCase "dataA-B-1" := ⟨"a-b-1".toList, by decide⟩
    exact (known?_of_dataMark starts (by decide)).mpr fun same => absurd same.2 (by decide)
  have found : (Schema.standard.find .html "data-a--b-1").propertyName = "dataA-B-1" := by
    have read : dataRest? "data-a--b-1".toList = some ('-' :: "a--b-1".toList) := by decide +kernel
    have raised : dataProperty "a--b-1".toList = "dataA-B-1" := by decide +kernel
    rw [find_standard, standardFind_of_dashed read, raised]
  have first : "data-" ++ String.ofList "a--b-1".toList = "data-a--b-1" := by decide +kernel
  have second : "data" ++ String.ofList "A-B-1".toList = "dataA-B-1" := by decide +kernel
  have there := (data_spellings_inverse .html).1 "a--b-1".toList small
  have back := (data_spellings_inverse .html).2 "A-B-1".toList capital
  rw [first, found] at there
  rw [second] at back
  exact ⟨small, capital, free, (there free).1, (there free).2, (back free).1⟩

end Hyperscript.Info
