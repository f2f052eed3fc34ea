import Hyperscript.Proofs.Placement
import Hyperscript.Selector

namespace Hyperscript

/-- Equal values, where nested maps count as equal if they have the same keys with equal values, in whatever
order. -/
inductive Value.Same : Value → Value → Prop
  | leaf {value : Value} (leaf : value.map? = none) : Same value value
  | map {entries entries' : OrderedMap Value}
      (absent : ∀ key, entries.get? key = none ↔ entries'.get? key = none)
      (found : ∀ key value value', entries.get? key = some value → entries'.get? key = some value' →
        Same value value') : Same (.map entries) (.map entries')

/-- Equal attributes, in whatever order: under each key nothing in both, or equal values. -/
structure Attributes.Same (attributes attributes' : Attributes) : Prop where
  found : ∀ key, Option.Rel Value.Same (attributes.get? key) (attributes'.get? key)

namespace Value

theorem rel_none_iff {found found' : Option Value} (related : Option.Rel Value.Same found found') :
    found = none ↔ found' = none := by
  cases related with
  | none => exact Iff.rfl
  | some => exact iff_of_false nofun nofun

/-- Nested maps are the same if they are so as attributes. -/
theorem same_map_iff {entries entries' : OrderedMap Value} :
    Value.Same (.map entries) (.map entries') ↔ Attributes.Same entries entries' := by
  constructor
  · intro same
    cases same with
    | leaf leaf => cases leaf
    | map absent found =>
      refine ⟨fun key => ?_⟩
      cases here : entries.get? key with
      | none =>
        rw [(absent key).mp here]
        exact .none
      | some value =>
        cases there : entries'.get? key with
        | none => rw [(absent key).mpr there] at here; cases here
        | some value' => exact .some (found key value value' here there)
  · intro same
    refine .map (fun key => rel_none_iff (same.found key)) ?_
    intro key value value' here there
    have related := same.found key
    rw [here, there] at related
    cases related with
    | some related => exact related

theorem Same.symm {value value' : Value} (same : value.Same value') : value'.Same value := by
  induction same with
  | leaf leaf => exact .leaf leaf
  | map absent _ ih =>
    exact .map (fun key => (absent key).symm)
      fun key value value' here there => ih key value' value there here

theorem Same.trans {value value' value'' : Value} (first : value.Same value') (second : value'.Same value'') :
    value.Same value'' := by
  induction first generalizing value'' with
  | leaf => exact second
  | @map entries entries' absent found ih =>
    cases second with
    | leaf leaf => cases leaf
    | @map _ entries'' absent' found' =>
      refine .map (fun key => (absent key).trans (absent' key)) ?_
      intro key value last here there
      cases between : entries'.get? key with
      | none => rw [(absent key).mpr between] at here; cases here
      | some middle => exact ih key value middle here between (found' key middle last between there)

/-- Only nested maps have an order, and they have no text. -/
theorem Same.toText? {value value' : Value} (same : value.Same value') : value.toText? = value'.toText? := by
  cases same <;> rfl

end Value

namespace OrderedMap

theorem isEmpty_iff {α : Type} {map : OrderedMap α} : map.isEmpty = true ↔ ∀ key, map.get? key = none := by
  simp only [isEmpty, get?]
  cases map.entries with
  | nil => exact iff_of_true rfl fun _ => rfl
  | cons entry rest =>
    refine iff_of_false Bool.false_ne_true fun absent => ?_
    have here := absent entry.1
    rw [lookup_entry, if_pos rfl] at here
    cases here

end OrderedMap

namespace Attributes

theorem Same.empty : Attributes.Same ∅ ∅ :=
  ⟨fun _ => .none⟩

theorem Same.symm {attributes attributes' : Attributes} (same : Attributes.Same attributes attributes') :
    Attributes.Same attributes' attributes :=
  Value.same_map_iff.mp (Value.same_map_iff.mpr same).symm

theorem Same.trans {first second third : Attributes} (same : Attributes.Same first second)
    (same' : Attributes.Same second third) : Attributes.Same first third :=
  Value.same_map_iff.mp ((Value.same_map_iff.mpr same).trans (Value.same_map_iff.mpr same'))

/-- The same values under a key keep attributes the same. -/
theorem Same.insert {attributes attributes' : Attributes} (same : Attributes.Same attributes attributes')
    (key : String) {value value' : Value} (equal : value.Same value') :
    Attributes.Same (attributes.insert key value) (attributes'.insert key value') := by
  refine ⟨fun other => ?_⟩
  rw [OrderedMap.get?_insert, OrderedMap.get?_insert]
  split
  · exact .some equal
  · exact same.found other

theorem Same.erase {attributes attributes' : Attributes} (same : Attributes.Same attributes attributes')
    (key : String) : Attributes.Same (attributes.erase key) (attributes'.erase key) := by
  refine ⟨fun other => ?_⟩
  rw [OrderedMap.get?_erase, OrderedMap.get?_erase]
  split
  · exact .none
  · exact same.found other

theorem Same.isEmpty {attributes attributes' : Attributes} (same : Attributes.Same attributes attributes') :
    attributes.isEmpty = attributes'.isEmpty := by
  rw [Bool.eq_iff_iff, OrderedMap.isEmpty_iff, OrderedMap.isEmpty_iff]
  exact forall_congr' fun key => Value.rel_none_iff (same.found key)

/-- The nested maps of a name are equal where the maps around them are. -/
theorem Same.inner {attributes attributes' : Attributes} (same : Attributes.Same attributes attributes')
    (map : String) : Attributes.Same (inner attributes map) (inner attributes' map) := by
  have related := same.found map
  unfold Attributes.inner
  revert related
  generalize attributes.get? map = found
  generalize attributes'.get? map = found'
  intro related
  cases related with
  | none => exact .empty
  | @some held _ equal =>
    cases equal with
    | leaf leaf => cases held <;> first | exact .empty | cases leaf
    | map absent found => exact Value.same_map_iff.mp (.map absent found)

/-- A value in one slot keeps attributes the same. -/
theorem Same.place {attributes attributes' : Attributes} (same : Attributes.Same attributes attributes')
    (slot : Slot) {value : Value} (leaf : value.map? = none) :
    Attributes.Same (place attributes slot value) (place attributes' slot value) := by
  cases slot with
  | flat key => exact same.insert key (.leaf leaf)
  | nested map key =>
    exact same.insert map (Value.same_map_iff.mpr ((same.inner map).insert key (.leaf leaf)))

/-- Different keys may be set in either order. -/
theorem Same.insert_comm {attributes attributes' : Attributes} (same : Attributes.Same attributes attributes')
    {key other : String} (apart : key ≠ other) {value value' held held' : Value} (equal : value.Same value')
    (equal' : held.Same held') : Attributes.Same ((attributes.insert key value).insert other held)
      ((attributes'.insert other held').insert key value') := by
  refine ⟨fun name => ?_⟩
  simp only [OrderedMap.get?_insert]
  by_cases here : name = key
  · rw [if_pos here, if_pos here, if_neg (here ▸ apart)]
    exact .some equal
  · rw [if_neg here, if_neg here]
    split
    · exact .some equal'
    · exact same.found name

/-- An entry that is set twice holds what was set last. -/
theorem Same.insert_insert {attributes attributes' : Attributes} (same : Attributes.Same attributes attributes')
    (key : String) {first first' value value' : Value} (equal : value.Same value') :
    Attributes.Same ((attributes.insert key first).insert key value)
      ((attributes'.insert key first').insert key value') := by
  refine ⟨fun name => ?_⟩
  simp only [OrderedMap.get?_insert]
  split
  · exact .some equal
  · exact same.found name

/-- Two properties may be placed in either order if their slots differ, unless one takes the place of the
nested map that the other goes to. -/
theorem Same.place_comm {attributes attributes' : Attributes} (same : Attributes.Same attributes attributes')
    {slot other : Slot} (apart : slot ≠ other)
    (outer : slot.isFlat ≠ other.isFlat → slot.outerKey ≠ other.outerKey) {value held : Value}
    (leaf : value.map? = none) (leaf' : held.map? = none) :
    Attributes.Same (Attributes.place (Attributes.place attributes slot value) other held)
      (Attributes.place (Attributes.place attributes' other held) slot value) := by
  cases slot with
  | flat key =>
    cases other with
    | flat key' =>
      have keys : key ≠ key' := fun equal => apart (congrArg Slot.flat equal)
      exact same.insert_comm keys (.leaf leaf) (.leaf leaf')
    | nested map' key' =>
      have keys : key ≠ map' := outer (Ne.symm Bool.false_ne_true)
      simp only [Attributes.place]
      rw [inner_insert_of_ne attributes keys]
      exact same.insert_comm keys (.leaf leaf) (Value.same_map_iff.mpr ((same.inner map').insert key' (.leaf leaf')))
  | nested map key =>
    cases other with
    | flat key' =>
      have keys : key' ≠ map := (outer Bool.false_ne_true).symm
      simp only [Attributes.place]
      rw [inner_insert_of_ne attributes' keys]
      exact same.insert_comm keys.symm (Value.same_map_iff.mpr ((same.inner map).insert key (.leaf leaf)))
        (.leaf leaf')
    | nested map' key' =>
      simp only [Attributes.place]
      by_cases maps : map = map'
      · subst maps
        have keys : key ≠ key' := fun equal => apart (congrArg (Slot.nested map) equal)
        rw [inner_insert_self, inner_insert_self]
        exact same.insert_insert map
          (Value.same_map_iff.mpr ((same.inner map).insert_comm keys (.leaf leaf) (.leaf leaf')))
      · rw [inner_insert_of_ne attributes maps, inner_insert_of_ne attributes' (Ne.symm maps)]
        exact same.insert_comm maps (Value.same_map_iff.mpr ((same.inner map).insert key (.leaf leaf)))
          (Value.same_map_iff.mpr ((same.inner map').insert key' (.leaf leaf')))

end Attributes

namespace Selector

/-- What is taken out is equal, and so is what is left. -/
theorem take_same {attributes attributes' : Attributes} (same : Attributes.Same attributes attributes')
    (key : String) : Option.Rel Value.Same (take attributes key).1 (take attributes' key).1 ∧
      Attributes.Same (take attributes key).2 (take attributes' key).2 := by
  have here := same.found key
  have nested := same.found nestedName
  have erased := same.erase key
  unfold take
  revert here nested
  generalize attributes.get? key = found
  generalize attributes'.get? key = found'
  generalize attributes.get? nestedName = holder
  generalize attributes'.get? nestedName = holder'
  intro here nested
  cases here with
  | some equal => exact ⟨.some equal, erased⟩
  | none =>
    cases nested with
    | none => exact ⟨.none, same⟩
    | @some held _ equal =>
      cases equal with
      | leaf leaf => cases held <;> first | exact ⟨.none, same⟩ | cases leaf
      | map absent found =>
        have entries := Value.same_map_iff.mp (.map absent found)
        refine ⟨entries.found key, ?_⟩
        simp only [(entries.erase key).isEmpty]
        split
        · exact same.erase nestedName
        · exact same.insert nestedName (Value.same_map_iff.mpr (entries.erase key))

theorem toText?_of_rel {found found' : Option Value} (related : Option.Rel Value.Same found found') :
    found.bind Value.toText? = found'.bind Value.toText? := by
  cases related with
  | none => rfl
  | some equal => exact equal.toText?

/-- Folding gives the same name and leaves equal attributes. -/
theorem fold_same {attributes attributes' : Attributes} (same : Attributes.Same attributes attributes')
    (name : String) : (fold name attributes).1 = (fold name attributes').1 ∧
      Attributes.Same (fold name attributes).2 (fold name attributes').2 := by
  obtain ⟨id, left⟩ := take_same same "id"
  obtain ⟨classes, left⟩ := take_same left "class"
  refine ⟨?_, left⟩
  simp only [fold, idPart, classPart, toText?_of_rel id, toText?_of_rel classes]

end Selector

end Hyperscript
