import Hyperscript.Proofs.LetterCase
import Hyperscript.Proofs.StyleComposition

namespace Hyperscript.Style

open Text

/-- A name without ASCII capitals, as the names of style properties are written. -/
def IsLowerCase (name : String) : Prop :=
  ∀ c ∈ name.toList, isUpperLetter c = false

instance (name : String) : Decidable (IsLowerCase name) :=
  List.decidableBAll _ _

/-- The first name is the second one with a dash before its Microsoft marker. -/
def DashesMarker (name bare : String) : Prop :=
  ∃ rest, name = "-ms-" ++ rest ∧ bare = "ms-" ++ rest

theorem lowerMicrosoft_cases (chars : List Char) :
    (∃ rest, chars = '-' :: 'm' :: 's' :: '-' :: rest ∧ lowerMicrosoft chars = 'm' :: 's' :: '-' :: rest) ∨
      lowerMicrosoft chars = chars := by
  unfold lowerMicrosoft
  split
  · next rest => exact Or.inl ⟨rest, rfl, rfl⟩
  · exact Or.inr rfl

theorem mem_of_mem_lowerMicrosoft {c : Char} {chars : List Char} (member : c ∈ lowerMicrosoft chars) : c ∈ chars := by
  rcases lowerMicrosoft_cases chars with ⟨rest, rfl, lowered⟩ | kept
  · rw [lowered] at member
    exact List.mem_cons_of_mem _ member
  · rwa [kept] at member

/-- Lowering the marker merges nothing but the marker with and without its dash. -/
theorem lowerMicrosoft_eq_iff {chars other : List Char} :
    lowerMicrosoft chars = lowerMicrosoft other ↔ chars = other ∨
      (∃ rest, chars = '-' :: 'm' :: 's' :: '-' :: rest ∧ other = 'm' :: 's' :: '-' :: rest) ∨
      ∃ rest, other = '-' :: 'm' :: 's' :: '-' :: rest ∧ chars = 'm' :: 's' :: '-' :: rest := by
  constructor
  · intro same
    rcases lowerMicrosoft_cases chars with ⟨rest, rfl, lowered⟩ | kept <;>
      rcases lowerMicrosoft_cases other with ⟨rest', rfl, lowered'⟩ | kept'
    · rw [lowered, lowered'] at same
      cases same
      exact Or.inl rfl
    · rw [lowered, kept'] at same
      exact Or.inr (Or.inl ⟨rest, rfl, same.symm⟩)
    · rw [kept, lowered'] at same
      exact Or.inr (Or.inr ⟨rest', rfl, same⟩)
    · rw [kept, kept'] at same
      exact Or.inl same
  · rintro (rfl | ⟨rest, rfl, rfl⟩ | ⟨rest, rfl, rfl⟩)
    all_goals rfl

/-- Without capitals raising merges nothing, as the dash before each capital brings the text back. -/
theorem raiseAfterDash_eq_iff {text other : List Char} (small : ∀ c ∈ text, isUpperLetter c = false)
    (small' : ∀ c ∈ other, isUpperLetter c = false) : raiseAfterDash text = raiseAfterDash other ↔ text = other := by
  constructor
  · intro same
    calc
      text = dashBeforeCapitals text := (dashBeforeCapitals_eq_self_iff.mpr small).symm
      _ = dashBeforeCapitals (raiseAfterDash text) := (dashBeforeCapitals_raiseAfterDash text).symm
      _ = dashBeforeCapitals (raiseAfterDash other) := by rw [same]
      _ = dashBeforeCapitals other := dashBeforeCapitals_raiseAfterDash other
      _ = other := dashBeforeCapitals_eq_self_iff.mpr small'
  · exact congrArg raiseAfterDash

theorem toList_camelCase (name : String) : (camelCase name).toList = raiseAfterDash (lowerMicrosoft name.toList) :=
  String.toList_ofList

theorem dashesMarker_iff {name bare : String} : DashesMarker name bare ↔ ∃ rest,
    name.toList = '-' :: 'm' :: 's' :: '-' :: rest ∧ bare.toList = 'm' :: 's' :: '-' :: rest := by
  have dashed : "-ms-".toList = ['-', 'm', 's', '-'] := rfl
  have plain : "ms-".toList = ['m', 's', '-'] := rfl
  constructor
  · rintro ⟨rest, rfl, rfl⟩
    exact ⟨rest.toList, by simp [dashed], by simp [plain]⟩
  · rintro ⟨rest, here, there⟩
    refine ⟨String.ofList rest, String.toList_inj.mp ?_, String.toList_inj.mp ?_⟩
    · simp [here, dashed]
    · simp [there, plain]

/-- Names without capitals share a key only if they differ in the dash before the marker. -/
theorem camelCase_eq_iff {name other : String} (small : IsLowerCase name) (small' : IsLowerCase other) :
    camelCase name = camelCase other ↔ name = other ∨ DashesMarker name other ∨ DashesMarker other name := by
  have lowered : ∀ c ∈ lowerMicrosoft name.toList, isUpperLetter c = false :=
    fun c member => small c (mem_of_mem_lowerMicrosoft member)
  have lowered' : ∀ c ∈ lowerMicrosoft other.toList, isUpperLetter c = false :=
    fun c member => small' c (mem_of_mem_lowerMicrosoft member)
  rw [← String.toList_inj, toList_camelCase, toList_camelCase, raiseAfterDash_eq_iff lowered lowered',
    lowerMicrosoft_eq_iff, String.toList_inj, dashesMarker_iff, dashesMarker_iff]

/-- A key has no dash before a small letter, so the marker does not begin it, and no letter of it is raised. -/
theorem camelCase_camelCase (name : String) : camelCase (camelCase name) = camelCase name := by
  have plain : hasDashedLetter (camelCase name).toList = false := by
    rw [toList_camelCase]
    exact hasDashedLetter_raiseAfterDash _
  have unmarked : lowerMicrosoft (camelCase name).toList = (camelCase name).toList := by
    rcases lowerMicrosoft_cases (camelCase name).toList with ⟨rest, marked, _⟩ | kept
    · rw [marked] at plain
      cases plain
    · exact kept
  rw [← String.toList_inj, toList_camelCase, unmarked, raiseAfterDash_of_not_hasDashedLetter plain]

/-- The value under the key of a declaration is its own, or that of a later declaration with this key. -/
theorem IsStyleOf.get?_camelCase {before after : List Declaration} {declaration : Declaration}
    {style : OrderedMap String} (same : IsStyleOf (before ++ declaration :: after) style)
    (apart : ∀ later ∈ after, camelCase later.name ≠ camelCase declaration.name) :
    style.get? (camelCase declaration.name) = some declaration.value := by
  have none : after.filter (fun later => camelCase later.name = camelCase declaration.name) = [] :=
    List.filter_eq_nil_iff.mpr fun later member => by simpa using apart later member
  rw [same.values, List.filter_append, List.filter_cons_of_pos (by simp), none, List.getLast?_concat]
  rfl

/-- Style names without capitals are merged in one case alone. Two of them have one key if and only if they are the
same or differ in the dash before the Microsoft marker, a key is its own key, and a declaration loses its value in a
style only to a later one whose name is the same or differs in that dash. -/
theorem camelCase_merges_marker_dash :
    (∀ name other, IsLowerCase name → IsLowerCase other →
      (camelCase name = camelCase other ↔ name = other ∨ DashesMarker name other ∨ DashesMarker other name)) ∧
    (∀ name, camelCase (camelCase name) = camelCase name) ∧
    ∀ text declarations, parseDeclarations text = .ok declarations →
      (∀ declaration ∈ declarations, IsLowerCase declaration.name) →
      ∃ style, parseStyle text = .ok style ∧ ∀ before declaration after,
        declarations = before ++ declaration :: after →
        style.get? (camelCase declaration.name) ≠ some declaration.value →
        ∃ later ∈ after, later.name = declaration.name ∨ DashesMarker later.name declaration.name ∨
          DashesMarker declaration.name later.name := by
  refine ⟨fun name other => camelCase_eq_iff, camelCase_camelCase, fun text declarations read small => ?_⟩
  refine ⟨_, parseStyle_eq_ok read, ?_⟩
  rintro before declaration after rfl lost
  have same := isStyleOf_foldl (before ++ declaration :: after)
  have shared : ∃ later ∈ after, camelCase later.name = camelCase declaration.name := by
    by_contra apart
    exact lost (same.get?_camelCase fun later member merged => apart ⟨later, member, merged⟩)
  obtain ⟨later, member, merged⟩ := shared
  refine ⟨later, member, (camelCase_eq_iff (small later ?_) (small declaration ?_)).mp merged⟩
  · exact List.mem_append_right _ (List.mem_cons_of_mem _ member)
  · exact List.mem_append_right _ (List.mem_cons_self ..)

/-- The filter of the Microsoft marker is lost where its bare name follows, and another filter is not. -/
theorem camelCase_merges_marker_dash_filter :
    (IsLowerCase "-ms-filter" ∧ IsLowerCase "ms-filter" ∧ camelCase "-ms-filter" = camelCase "ms-filter") ∧
    camelCase (camelCase "-ms-filter") = camelCase "-ms-filter" ∧
    parseDeclarations "-ms-filter:a;filter:b;ms-filter:c" =
      .ok [⟨"-ms-filter", "a"⟩, ⟨"filter", "b"⟩, ⟨"ms-filter", "c"⟩] ∧
    ∃ style, parseStyle "-ms-filter:a;filter:b;ms-filter:c" = .ok style ∧
      style.get? (camelCase "-ms-filter") ≠ some "a" ∧ style.get? (camelCase "filter") = some "b" ∧
      ∃ later ∈ [(⟨"filter", "b"⟩ : Declaration), ⟨"ms-filter", "c"⟩],
        later.name = "-ms-filter" ∨ DashesMarker later.name "-ms-filter" ∨ DashesMarker "-ms-filter" later.name := by
  obtain ⟨merges, again, keeps⟩ := camelCase_merges_marker_dash
  have small : IsLowerCase "-ms-filter" := by decide
  have small' : IsLowerCase "ms-filter" := by decide
  have twins : DashesMarker "-ms-filter" "ms-filter" := ⟨"filter", rfl, rfl⟩
  have read : parseDeclarations "-ms-filter:a;filter:b;ms-filter:c" =
      .ok [⟨"-ms-filter", "a"⟩, ⟨"filter", "b"⟩, ⟨"ms-filter", "c"⟩] := by decide +kernel
  obtain ⟨style, styled, lost⟩ := keeps _ _ read (by decide)
  have made : parseStyle "-ms-filter:a;filter:b;ms-filter:c" = .ok (.ofList [("msFilter", "c"), ("filter", "b")]) := by
    decide +kernel
  obtain rfl : style = .ofList [("msFilter", "c"), ("filter", "b")] := Except.ok.inj (styled.symm.trans made)
  have gone : OrderedMap.get? (.ofList [("msFilter", "c"), ("filter", "b")]) (camelCase "-ms-filter") ≠ some "a" := by
    decide
  have kept : OrderedMap.get? (.ofList [("msFilter", "c"), ("filter", "b")]) (camelCase "filter") = some "b" := by
    decide
  exact ⟨⟨small, small', (merges _ _ small small').mpr (Or.inr (Or.inl twins))⟩, again _, read, _, made, gone, kept,
    lost [] ⟨"-ms-filter", "a"⟩ _ rfl gone⟩

end Hyperscript.Style
