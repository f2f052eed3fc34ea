import Hyperscript.Proofs.PropertyOrder

namespace Hyperscript

/-- Whether placing something in one slot may change what the other holds: they are one slot, or one of them is in
the map whose place the other takes. -/
def Slot.Touches (slot other : Slot) : Prop :=
  slot = other ∨ slot.isFlat ≠ other.isFlat ∧ slot.outerKey = other.outerKey

namespace Attributes

variable {schema : Schema} {dialect : Dialect} {space : Space}

/-- What is found in a slot. -/
def held (attributes : Attributes) : Slot → Option Value
  | .flat key => attributes.get? key
  | .nested map key => (inner attributes map).get? key

theorem held_empty (slot : Slot) : held ∅ slot = none := by
  cases slot <;> rfl

/-- What is placed in a slot is found there, and all else is found as before, unless one slot is in the map that
the other one replaces. -/
theorem held_place (attributes : Attributes) {slot other : Slot}
    (outer : slot.isFlat ≠ other.isFlat → slot.outerKey ≠ other.outerKey) (value : Value) :
    held (place attributes slot value) other = if other = slot then some value else held attributes other := by
  cases slot with
  | flat key =>
    cases other with
    | flat key' => simp only [held, place, OrderedMap.get?_insert, Slot.flat.injEq]
    | nested map' key' =>
      have apart : key ≠ map' := outer (Ne.symm Bool.false_ne_true)
      simp only [held, place, inner_insert_of_ne attributes apart, reduceCtorEq, if_false]
  | nested map key =>
    cases other with
    | flat key' =>
      have apart : map ≠ key' := outer Bool.false_ne_true
      simp only [held, place, OrderedMap.get?_insert, if_neg (Ne.symm apart), reduceCtorEq, if_false]
    | nested map' key' =>
      by_cases maps : map = map'
      · subst maps
        simp only [held, place, inner_insert_self, OrderedMap.get?_insert, Slot.nested.injEq, true_and]
      · simp only [held, place, inner_insert_of_ne attributes maps, Slot.nested.injEq, Ne.symm maps, false_and,
          if_false]

theorem held_place_self (attributes : Attributes) (slot : Slot) (value : Value) :
    held (place attributes slot value) slot = some value := by
  rw [held_place attributes (fun kinds => absurd rfl kinds), if_pos rfl]

theorem held_place_of_not_touches (attributes : Attributes) {slot other : Slot} (apart : ¬ slot.Touches other)
    (value : Value) : held (place attributes slot value) other = held attributes other := by
  have outer : slot.isFlat ≠ other.isFlat → slot.outerKey ≠ other.outerKey :=
    fun kinds same => apart (Or.inr ⟨kinds, same⟩)
  rw [held_place attributes outer, if_neg fun same => apart (Or.inl same.symm)]

/-- A property that is added is dropped, or its value is placed in its slot. -/
theorem add_ok_cases {property : String × PropertyValue} {attributes reached : Attributes}
    (added : add schema dialect space attributes property.1 property.2 = .ok reached) :
    isKept schema dialect space property = false ∧ reached = attributes ∨
      ∃ value, isKept schema dialect space property = true ∧
        passed dialect (schema.find space property.1) property.2 = .ok value ∧
        reached = place attributes (slotOf schema dialect space property.1) value := by
  cases dropped : isDropped dialect (schema.find space property.1) property.2 with
  | true =>
    rw [add_of_isDropped dropped] at added
    exact Or.inl ⟨by simp [isKept, dropped], (Except.ok.inj added).symm⟩
  | false =>
    rw [add_of_not_isDropped dropped] at added
    cases shows : passed dialect (schema.find space property.1) property.2 with
    | error fault =>
      rw [shows] at added
      cases added
    | ok value =>
      rw [shows] at added
      exact Or.inr ⟨value, by simp [isKept, dropped], rfl, (Except.ok.inj added).symm⟩

theorem addAll_cons_ok {property : String × PropertyValue} {rest : List (String × PropertyValue)}
    {attributes final : Attributes} (added : addAll schema dialect space attributes (property :: rest) = .ok final) :
    ∃ reached, add schema dialect space attributes property.1 property.2 = .ok reached ∧
      addAll schema dialect space reached rest = .ok final := by
  rw [addAll] at added
  split at added
  · next reached first => exact ⟨reached, first, added⟩
  · cases added

theorem addAll_append_ok {before after : List (String × PropertyValue)} {attributes final : Attributes}
    (added : addAll schema dialect space attributes (before ++ after) = .ok final) :
    ∃ reached, addAll schema dialect space attributes before = .ok reached ∧
      addAll schema dialect space reached after = .ok final := by
  induction before generalizing attributes with
  | nil => exact ⟨attributes, rfl, added⟩
  | cons property rest ih =>
    obtain ⟨reached, first, later⟩ := addAll_cons_ok added
    obtain ⟨between, whole, last⟩ := ih later
    refine ⟨between, ?_, last⟩
    rw [addAll, first]
    exact whole

/-- A property that is dropped or placed elsewhere changes nothing in a slot. -/
theorem held_add {property : String × PropertyValue} {slot : Slot}
    (apart : isKept schema dialect space property = true → ¬ (slotOf schema dialect space property.1).Touches slot)
    {attributes reached : Attributes}
    (added : add schema dialect space attributes property.1 property.2 = .ok reached) :
    held reached slot = held attributes slot := by
  rcases add_ok_cases added with ⟨_, same⟩ | ⟨value, kept, _, placed⟩
  · rw [same]
  · rw [placed, held_place_of_not_touches attributes (apart kept)]

theorem held_addAll_of_apart {properties : List (String × PropertyValue)} {slot : Slot}
    (apart : ∀ property ∈ properties, isKept schema dialect space property = true →
      ¬ (slotOf schema dialect space property.1).Touches slot) {attributes final : Attributes}
    (added : addAll schema dialect space attributes properties = .ok final) :
    held final slot = held attributes slot := by
  induction properties generalizing attributes with
  | nil =>
    cases added
    rfl
  | cons property rest ih =>
    rw [List.forall_mem_cons] at apart
    obtain ⟨reached, first, later⟩ := addAll_cons_ok added
    rw [ih apart.2 later, held_add apart.1 first]

/-- A kept property leaves its value in its slot, whatever was there before. -/
theorem exists_held_of_kept {before after : List (String × PropertyValue)} {property : String × PropertyValue}
    (kept : isKept schema dialect space property = true) {attributes final : Attributes}
    (added : addAll schema dialect space attributes (before ++ property :: after) = .ok final) :
    ∃ reached value, passed dialect (schema.find space property.1) property.2 = .ok value ∧
      held reached (slotOf schema dialect space property.1) = some value ∧
      addAll schema dialect space reached after = .ok final := by
  obtain ⟨between, _, rest⟩ := addAll_append_ok added
  obtain ⟨reached, here, later⟩ := addAll_cons_ok rest
  rcases add_ok_cases here with ⟨dropped, _⟩ | ⟨value, _, shows, placed⟩
  · rw [kept] at dropped
    cases dropped
  · refine ⟨reached, value, shows, ?_, later⟩
    rw [placed, held_place_self]

end Attributes

end Hyperscript
