import Mathlib.Data.List.Basic
import Hyperscript.Text.Dashed
import Hyperscript.Text.UpperCase

namespace Hyperscript.Text

/-- What holds one by one of the letters from `first` on holds of each of them. -/
theorem forall_letterFrom {holds : Char → Prop} {first : Nat} (each : ∀ n : Fin 26, holds (Char.ofNat (first + n)))
    {c : Char} (low : first ≤ c.toNat) (high : c.toNat ≤ first + 25) : holds c := by
  have same := each ⟨c.toNat - first, by omega⟩
  rwa [show first + (c.toNat - first) = c.toNat by omega, Char.ofNat_toNat] at same

theorem forall_lowerLetter (holds : Char → Prop) (each : ∀ n : Fin 26, holds (Char.ofNat (0x61 + n)))
    {c : Char} (lower : isLowerLetter c = true) : holds c := by
  simp only [isLowerLetter, Bool.and_eq_true, decide_eq_true_eq] at lower
  exact forall_letterFrom each lower.1 lower.2

theorem forall_upperLetter (holds : Char → Prop) (each : ∀ n : Fin 26, holds (Char.ofNat (0x41 + n)))
    {c : Char} (upper : isUpperLetter c = true) : holds c := by
  simp only [isUpperLetter, Bool.and_eq_true, decide_eq_true_eq] at upper
  exact forall_letterFrom each upper.1 upper.2

theorem isUpperLetter_toUpper {c : Char} (lower : isLowerLetter c = true) : isUpperLetter c.toUpper = true :=
  forall_lowerLetter (isUpperLetter ·.toUpper = true) (by decide +kernel) lower

theorem isUpperLetter_of_isLowerLetter {c : Char} (lower : isLowerLetter c = true) : isUpperLetter c = false :=
  forall_lowerLetter (isUpperLetter · = false) (by decide +kernel) lower

theorem toLower_toUpper {c : Char} (lower : isLowerLetter c = true) : c.toUpper.toLower = c :=
  forall_lowerLetter (fun c => c.toUpper.toLower = c) (by decide +kernel) lower

theorem isLowerLetter_toLower {c : Char} (upper : isUpperLetter c = true) : isLowerLetter c.toLower = true :=
  forall_upperLetter (isLowerLetter ·.toLower = true) (by decide +kernel) upper

theorem upperChar_of_isLowerLetter {c : Char} (lower : isLowerLetter c = true) : upperChar c = [c.toUpper] :=
  forall_lowerLetter (fun c => upperChar c = [c.toUpper]) (by decide +kernel) lower

theorem upperChar_of_isUpperLetter {c : Char} (upper : isUpperLetter c = true) : upperChar c = [c] :=
  forall_upperLetter (fun c => upperChar c = [c]) (by decide +kernel) upper

theorem toUpper_toLower {c : Char} (upper : isUpperLetter c = true) : c.toLower.toUpper = c :=
  forall_upperLetter (fun c => c.toLower.toUpper = c) (by decide +kernel) upper

/-- No character before the small letters has another upper-case form. -/
theorem upperChar_of_lt {c : Char} (below : c.toNat < 0x61) : upperChar c = [c] := by
  have expansions : ∀ entry ∈ upperExpansions, 0x61 ≤ entry.1 := by decide +kernel
  have runs : ∀ run ∈ upperRuns, 0x61 ≤ run.first := by decide +kernel
  have unexpanded : upperExpansions.lookup c.toNat = none := by
    refine List.lookup_eq_none_iff.mpr fun entry member => ?_
    have first := expansions entry member
    simpa using (by omega : c.toNat ≠ entry.1)
  have outside : upperRuns.find? (·.has c.toNat) = none := by
    refine List.find?_eq_none.mpr fun run member => ?_
    have first := runs run member
    simp only [CaseRun.has, Bool.and_eq_true, decide_eq_true_eq]
    omega
  simp only [upperChar, unexpanded, outside]

theorem toNat_ofNat_ne {point other : Nat} (apart : point ≠ other) (positive : 0 < other) :
    (Char.ofNat point).toNat ≠ other := by
  by_cases valid : point.isValidChar
  · rw [Char.ofNat, dif_pos valid]
    exact apart
  · rw [Char.ofNat, dif_neg valid]
    exact Nat.ne_of_lt positive

/-- A character is its own upper-case form, or the form begins with another character, and not with a dash. -/
theorem upperChar_cases (c : Char) :
    upperChar c = [c] ∨ ∃ first rest, upperChar c = first :: rest ∧ first ≠ c ∧ first ≠ '-' := by
  have expansions : ∀ entry ∈ upperExpansions, 0 < entry.1 ∧
      ∃ point ∈ entry.2.head?, point ≠ entry.1 ∧ point ≠ 0x2D := by decide +kernel
  have runs : ∀ run ∈ upperRuns, 0 < run.first ∧ run.distance ≠ 0 ∧ 0x2D < run.first + run.distance := by
    decide +kernel
  unfold upperChar
  cases expanded : upperExpansions.lookup c.toNat with
  | some points =>
    right
    obtain ⟨before, after, split, _⟩ := List.lookup_eq_some_iff.mp expanded
    obtain ⟨positive, point, head, other, dash⟩ := expansions (c.toNat, points) (by rw [split]; simp)
    obtain ⟨rest, rfl⟩ : ∃ rest, points = point :: rest := by
      cases points with
      | nil => cases head
      | cons first rest => exact ⟨rest, by rw [Option.some.inj head]⟩
    refine ⟨Char.ofNat point, rest.map Char.ofNat, rfl, ?_, ?_⟩
    · exact fun same => toNat_ofNat_ne other positive (congrArg Char.toNat same)
    · exact fun same => toNat_ofNat_ne dash (by decide) (congrArg Char.toNat same)
  | none =>
    cases found : upperRuns.find? (·.has c.toNat) with
    | none => exact Or.inl rfl
    | some run =>
      right
      obtain ⟨positive, distance, dash⟩ := runs run (List.mem_of_find?_eq_some found)
      have has := List.find?_some found
      simp only [CaseRun.has, Bool.and_eq_true, decide_eq_true_eq] at has
      refine ⟨_, [], rfl, ?_, ?_⟩
      · exact fun same => toNat_ofNat_ne (by omega) (by omega) (congrArg Char.toNat same)
      · have point : (c.toNat + run.distance).toNat ≠ 0x2D := by omega
        exact fun same => toNat_ofNat_ne point (by decide) (congrArg Char.toNat same)

theorem raiseAfterDash_cons {c : Char} (plain : c ≠ '-') (rest : List Char) :
    raiseAfterDash (c :: rest) = c :: raiseAfterDash rest := by
  cases rest with
  | nil => rfl
  | cons next rest => simp [raiseAfterDash, plain]

/-- A dash goes if a small letter is behind it, which is raised, and it stays if not. -/
theorem raiseAfterDash_dash (rest : List Char) :
    (∃ next more, rest = next :: more ∧ isLowerLetter next = true ∧
      raiseAfterDash ('-' :: rest) = next.toUpper :: raiseAfterDash more) ∨
      raiseAfterDash ('-' :: rest) = '-' :: raiseAfterDash rest := by
  cases rest with
  | nil => exact Or.inr rfl
  | cons next more =>
    cases lower : isLowerLetter next with
    | true => exact Or.inl ⟨next, more, rfl, lower, by simp [raiseAfterDash, lower]⟩
    | false => exact Or.inr (by simp [raiseAfterDash, lower])

theorem raiseAfterDash_length (text : List Char) : (raiseAfterDash text).length ≤ text.length := by
  fun_induction raiseAfterDash text with
  | case1 => simp
  | case2 => simp
  | case3 c next rest _ ih => simp only [List.length_cons]; omega
  | case4 c next rest _ ih => simpa using ih

/-- Nothing begins with a lower-case letter after raising unless it did so before. -/
theorem eq_of_raiseAfterDash {c first : Char} {rest more : List Char}
    (raised : raiseAfterDash (c :: rest) = first :: more) (lower : isLowerLetter first = true) : first = c := by
  by_cases dash : c = '-'
  · subst dash
    rcases raiseAfterDash_dash rest with ⟨next, later, _, small, same⟩ | same
    · rw [same] at raised
      obtain ⟨rfl, _⟩ := List.cons.inj raised
      have upper := isUpperLetter_toUpper small
      rw [isUpperLetter_of_isLowerLetter lower] at upper
      cases upper
    · rw [same] at raised
      exact (List.cons.inj raised).1.symm
  · rw [raiseAfterDash_cons dash] at raised
    exact (List.cons.inj raised).1.symm

/-- Raising leaves no dash before a lower-case letter. -/
theorem hasDashedLetter_raiseAfterDash (text : List Char) : hasDashedLetter (raiseAfterDash text) = false := by
  fun_induction raiseAfterDash text with
  | case1 => rfl
  | case2 => rfl
  | case3 c next rest dashed ih =>
    simp only [Bool.and_eq_true] at dashed
    have upper := isUpperLetter_toUpper dashed.2
    cases raised : raiseAfterDash rest with
    | nil => rfl
    | cons first more =>
      have other : next.toUpper ≠ '-' := by
        rintro dash
        rw [dash] at upper
        cases upper
      rw [raised] at ih
      simp [hasDashedLetter, other, ih]
  | case4 c next rest plain ih =>
    cases raised : raiseAfterDash (next :: rest) with
    | nil => rfl
    | cons first more =>
      rw [raised] at ih
      simp only [hasDashedLetter, ih, Bool.or_false, Bool.and_eq_false_imp, decide_eq_true_eq]
      rintro rfl
      cases lower : isLowerLetter first with
      | false => rfl
      | true =>
        obtain rfl := eq_of_raiseAfterDash raised lower
        simp [lower] at plain

theorem hasDashedLetter_cons {c : Char} (plain : c ≠ '-') (rest : List Char) :
    hasDashedLetter (c :: rest) = hasDashedLetter rest := by
  cases rest with
  | nil => rfl
  | cons next rest => simp [hasDashedLetter, plain]

/-- There is no dashed letter without a dash. -/
theorem mem_of_hasDashedLetter {text : List Char} (dashed : hasDashedLetter text = true) : '-' ∈ text := by
  fun_induction hasDashedLetter text with
  | case1 c next rest ih =>
    simp only [Bool.or_eq_true, Bool.and_eq_true, decide_eq_true_eq] at dashed
    rcases dashed with ⟨rfl, _⟩ | later
    · exact List.mem_cons_self ..
    · exact List.mem_cons_of_mem _ (ih later)
  | case2 => cases dashed

theorem dashBeforeCapitals_cons (c : Char) (rest : List Char) : dashBeforeCapitals (c :: rest) =
    (if isUpperLetter c then ['-', c.toLower] else [c]) ++ dashBeforeCapitals rest :=
  List.flatMap_cons

theorem dashBeforeCapitals_append (text more : List Char) :
    dashBeforeCapitals (text ++ more) = dashBeforeCapitals text ++ dashBeforeCapitals more :=
  List.flatMap_append

/-- Raising is undone by the dash before each capital. -/
theorem dashBeforeCapitals_raiseAfterDash (text : List Char) :
    dashBeforeCapitals (raiseAfterDash text) = dashBeforeCapitals text := by
  fun_induction raiseAfterDash text with
  | case1 => rfl
  | case2 => rfl
  | case3 c next rest dashed ih =>
    simp only [Bool.and_eq_true, decide_eq_true_eq] at dashed
    obtain ⟨rfl, lower⟩ := dashed
    have plain := isUpperLetter_of_isLowerLetter lower
    have upper := isUpperLetter_toUpper lower
    have dash : isUpperLetter '-' = false := by decide
    simp only [dashBeforeCapitals_cons, ih, upper, toLower_toUpper lower, plain, dash, if_true,
      Bool.false_eq_true, if_false, List.cons_append, List.nil_append]
  | case4 c next rest _ ih => rw [dashBeforeCapitals_cons, ih, dashBeforeCapitals_cons c]

/-- A small letter in front after the dashes was there before. -/
theorem eq_of_dashBeforeCapitals {c first : Char} {rest more : List Char}
    (begins : dashBeforeCapitals (c :: rest) = first :: more) (lower : isLowerLetter first = true) : first = c := by
  rw [dashBeforeCapitals_cons] at begins
  split at begins
  · obtain ⟨rfl, _⟩ := List.cons.inj begins
    cases lower
  · exact (List.cons.inj begins).1.symm

/-- The dash before each capital is undone by raising, unless some dash stood before a small letter. -/
theorem raiseAfterDash_dashBeforeCapitals {text : List Char} (plain : hasDashedLetter text = false) :
    raiseAfterDash (dashBeforeCapitals text) = text := by
  induction text with
  | nil => rfl
  | cons c rest ih =>
    have later : hasDashedLetter rest = false := by
      cases rest with
      | nil => rfl
      | cons next rest =>
        simp only [hasDashedLetter, Bool.or_eq_false_iff] at plain
        exact plain.2
    rw [dashBeforeCapitals_cons]
    cases upper : isUpperLetter c with
    | true =>
      have lower := isLowerLetter_toLower upper
      have raised : raiseAfterDash ('-' :: c.toLower :: dashBeforeCapitals rest) =
          c.toLower.toUpper :: raiseAfterDash (dashBeforeCapitals rest) := by
        simp only [raiseAfterDash, lower, decide_true, Bool.and_self, if_true]
      rw [if_pos rfl, List.cons_append, List.singleton_append, raised, toUpper_toLower upper, ih later]
    | false =>
      rw [if_neg Bool.false_ne_true, List.singleton_append]
      by_cases dash : c = '-'
      · subst dash
        -- A dash stays a dash, as no small letter comes to stand behind it.
        rcases raiseAfterDash_dash (dashBeforeCapitals rest) with ⟨next, more, begins, lower, _⟩ | kept
        · cases rest with
          | nil => cases begins
          | cons d rest =>
            obtain rfl := eq_of_dashBeforeCapitals begins lower
            simp [hasDashedLetter, lower] at plain
        · rw [kept, ih later]
      · rw [raiseAfterDash_cons dash, ih later]

theorem length_dashBeforeCapitals (text : List Char) : text.length ≤ (dashBeforeCapitals text).length := by
  induction text with
  | nil => exact Nat.le_refl 0
  | cons c rest ih =>
    rw [dashBeforeCapitals_cons]
    split <;> simp only [List.length_append, List.length_cons, List.length_nil] <;> omega

/-- A text is as it would be with dashes if and only if it has no capitals. -/
theorem dashBeforeCapitals_eq_self_iff {text : List Char} :
    dashBeforeCapitals text = text ↔ ∀ c ∈ text, isUpperLetter c = false := by
  induction text with
  | nil => simp [dashBeforeCapitals]
  | cons c rest ih =>
    rw [dashBeforeCapitals_cons, List.forall_mem_cons]
    cases upper : isUpperLetter c with
    | false => simp [ih]
    | true =>
      refine iff_of_false (fun same => ?_) (by simp)
      have longer := length_dashBeforeCapitals rest
      have length := congrArg List.length same
      simp only [if_true, List.length_append, List.length_cons, List.length_nil] at length
      omega

end Hyperscript.Text
