import Hyperscript.Proofs.StandardPlacement
import Hyperscript.Proofs.StyleFaults

namespace Hyperscript

open Info

namespace Attributes

variable {dialect : Dialect} {space : Space} {map : String}

/-- Whether a property is no flag, or a true one. -/
def isNoFalseFlag (schema : Schema) (space : Space) (property : String × PropertyValue) : Bool :=
  !((schema.find space property.1).boolean && !property.2.isTruthy)

theorem ofInfo_plain (schema : Schema) (info : Info) :
    Slot.ofInfo schema .plain info = .flat info.attributeName :=
  ofInfo_of_flatDialect rfl schema info

/-- What a dialect adds, the plain one adds as well, if it gets no false flags. -/
theorem Corresponds.add {schema : Schema} {plain placed : Attributes} (tells : Tells schema dialect space map)
    (nests : dialect.nestedMap? = some map) (same : Corresponds schema dialect space map plain placed)
    {properties : List (String × PropertyValue)} {final : Attributes}
    (added : addAll schema dialect space placed properties = .ok final) :
    ∃ plainFinal, addAll schema .plain space plain (properties.filter (isNoFalseFlag schema space)) =
        .ok plainFinal ∧ Corresponds schema dialect space map plainFinal final := by
  induction properties generalizing plain placed with
  | nil =>
    cases added
    exact ⟨plain, rfl, same⟩
  | cons property rest ih =>
    obtain ⟨name, value⟩ := property
    have explicit := explicitBooleans_of_nestedMap? nests
    cases dropped : isDropped dialect (schema.find space name) value with
    | true =>
      rw [addAll, add_of_isDropped dropped] at added
      cases flag : isNoFalseFlag schema space (name, value) with
      | false =>
        rw [List.filter_cons_of_neg (by simp [flag])]
        exact ih same added
      | true =>
        have absent : isDropped .plain (schema.find space name) value = true := by
          simp only [isNoFalseFlag, Bool.not_eq_true'] at flag
          simp only [isDropped, explicit, Bool.true_and, flag, Bool.or_false] at dropped
          simp only [isDropped, dropped, Bool.true_or]
        rw [List.filter_cons_of_pos flag, addAll, add_of_isDropped absent]
        exact ih same added
    | false =>
      have flag : isNoFalseFlag schema space (name, value) = true := by
        simp only [isDropped, explicit, Bool.true_and, Bool.or_eq_false_iff] at dropped
        simp only [isNoFalseFlag, dropped.2, Bool.not_false]
      have present : isDropped .plain (schema.find space name) value = false := by
        simp only [isDropped, Bool.or_eq_false_iff] at dropped
        simp only [isDropped, dropped.1, Dialect.explicitBooleans, Bool.false_and, Bool.or_self]
      cases shows : passed dialect (schema.find space name) value with
      | error fault =>
        rw [addAll, add_of_not_isDropped dropped, shows] at added
        cases added
      | ok value' =>
        rw [addAll_cons_of_passed rfl dropped shows] at added
        rw [List.filter_cons_of_pos flag, addAll_cons_of_passed rfl present (passed_plain _ value), ofInfo_plain]
        rw [passed_eq_shown] at shows
        exact ih (same.insert tells nests name shows) added

/-- What placing one property keeps, adding properties keeps. -/
theorem addAll_keeps {schema : Schema} {holds : Attributes → Prop}
    (step : ∀ attributes name value, holds attributes →
      holds (place attributes (slotOf schema dialect space name) value))
    {attributes final : Attributes} (before : holds attributes) {properties : List (String × PropertyValue)}
    (added : addAll schema dialect space attributes properties = .ok final) : holds final := by
  induction properties generalizing attributes with
  | nil =>
    cases added
    exact before
  | cons property rest ih =>
    obtain ⟨name, value⟩ := property
    cases dropped : isDropped dialect (schema.find space name) value with
    | true =>
      rw [addAll, add_of_isDropped dropped] at added
      exact ih before added
    | false =>
      rw [addAll, add_of_not_isDropped dropped] at added
      cases shows : passed dialect (schema.find space name) value with
      | error fault =>
        rw [shows] at added
        cases added
      | ok passedValue =>
        rw [shows] at added
        exact ih (step attributes name passedValue before) added

theorem map_eq_of_forall₂ {α β γ : Type} {related : α → β → Prop} {f : α → γ} {g : β → γ}
    (each : ∀ a b, related a b → f a = g b) {first : List α} {second : List β}
    (same : List.Forall₂ related first second) : first.map f = second.map g := by
  induction same with
  | nil => rfl
  | cons here _ ih => rw [List.map_cons, List.map_cons, each _ _ here, ih]

theorem Corresponds.inner_keys {schema : Schema} {plain placed : Attributes}
    (same : Corresponds schema dialect space map plain placed) : (inner placed map).keys =
      (plain.entries.filter fun entry => !(slotOf schema dialect space entry.1).isFlat).map (·.1) := by
  rw [← OrderedMap.map_fst_entries]
  exact (map_eq_of_forall₂ (fun _ _ related => related.1.symm) same.nested).symm

theorem forall_mem_of_forall₂ {α β : Type} {related : α → β → Prop} {holds : β → Prop}
    (each : ∀ a b, related a b → holds b) {first : List α} {second : List β}
    (same : List.Forall₂ related first second) : ∀ b ∈ second, holds b := by
  induction same with
  | nil => exact nofun
  | cons here _ ih => exact List.forall_mem_cons.mpr ⟨each _ _ here, ih⟩

theorem find_of_slotOf (nests : dialect.nestedMap? = some map) {name key : String}
    (found : slotOf .standard dialect space name = .flat key) :
    Schema.standard.find space key = Schema.standard.find space name ∧
      (Schema.standard.find space key).staysFlat dialect = true := by
  obtain ⟨flat, rfl⟩ := ofInfo_eq_flat nests found
  have same := find_flatKey nests (mem_table_of_staysFlat flat)
  exact ⟨same, (congrArg _ same).trans flat⟩

/-- The keys of the flat map are those of the attributes that stay there. -/
theorem Corresponds.flat_keys (nests : dialect.nestedMap? = some map) {plain placed : Attributes}
    (same : Corresponds .standard dialect space map plain placed) :
    (placed.keys.filter (· ≠ map)).map (fun key => (Schema.standard.find space key).attributeName) =
      (plain.entries.filter fun entry => (slotOf .standard dialect space entry.1).isFlat).map (·.1) := by
  have canonical : ∀ entry ∈ plain.entries.filter fun entry => (slotOf .standard dialect space entry.1).isFlat,
      (Schema.standard.find space entry.1).attributeName = entry.1 := by
    intro entry member
    exact same.canonical entry.1 (OrderedMap.mem_keys_of_mem (List.mem_filter.mp member).1)
  have both := (List.forall₂_and_left _ _).mpr ⟨canonical, same.flat⟩
  rw [← OrderedMap.map_fst_entries, List.filter_map, List.map_map]
  refine (map_eq_of_forall₂ ?_ both).symm
  intro entry entry' related
  have found := (find_of_slotOf nests related.2.1).1
  exact ((congrArg Info.attributeName found).trans related.1).symm

/-- The dialects with a nested map differ from the plain one in placement only. Each attribute of the plain
dialect is there once, in the flat map if it is a class, a style or to be set on the element object, and in
the nested map if it is none of these, with the value that the dialect shows for it and in the order of its
group. No attribute takes the place of the nested map, which is there if and only if something is in it. -/
theorem dialects_differ_in_placement (nests : dialect.nestedMap? = some map)
    {properties : List (String × PropertyValue)} {placed : Attributes}
    (added : addAll .standard dialect space ∅ properties = .ok placed) :
    ∃ plain, addAll .standard .plain space ∅ (properties.filter (isNoFalseFlag .standard space)) = .ok plain ∧
      plain.keys.Nodup ∧ placed.keys.Nodup ∧ (inner placed map).keys.Nodup ∧
      (∀ key ∈ placed.keys, key ≠ map → (Schema.standard.find space key).staysFlat dialect = true) ∧
      (∀ key ∈ (inner placed map).keys, (Schema.standard.find space key).staysFlat dialect = false) ∧
      ((placed.keys.filter (· ≠ map)).map (fun key => (Schema.standard.find space key).attributeName) ++
        (inner placed map).keys).Perm plain.keys ∧
      Corresponds .standard dialect space map plain placed := by
  obtain ⟨plain, plainly, same⟩ := Corresponds.empty.add (standard_tells nests space) nests added
  refine ⟨plain, plainly, plain.distinct, placed.distinct, (inner placed map).distinct, ?_, ?_, ?_, same⟩
  · intro key member other
    have flat := forall_mem_of_forall₂ (fun entry entry' related => (find_of_slotOf nests related.1).2) same.flat
    rw [← OrderedMap.map_fst_entries] at member
    obtain ⟨entry, listed, rfl⟩ := List.mem_map.mp member
    exact flat entry (List.mem_filter.mpr ⟨listed, by simpa using other⟩)
  · intro key member
    rw [same.inner_keys] at member
    obtain ⟨entry, listed, rfl⟩ := List.mem_map.mp member
    have nested := (List.mem_filter.mp listed).2
    rw [slotOf, ofInfo_isFlat nests] at nested
    simpa using nested
  · rw [same.flat_keys nests, same.inner_keys, ← List.map_append, ← plain.map_fst_entries]
    exact (List.filter_append_perm _ plain.entries).map _

theorem dialects_differ_in_placement_class :
    addAll .standard .attributesDom .html ∅ [("CLASS", .text "a"), ("abbr", .text "b"), ("className", .text "c")] =
        .ok (.ofList [("className", .text "c"), ("attributes", .map (.ofList [("abbr", .text "b")]))]) ∧
      addAll .standard .plain .html ∅
        ([("CLASS", .text "a"), ("abbr", .text "b"), ("className", .text "c")].filter
          (isNoFalseFlag .standard .html)) = .ok (.ofList [("class", .text "c"), ("abbr", .text "b")]) ∧
      Corresponds .standard .attributesDom .html "attributes" (.ofList [("class", .text "c"), ("abbr", .text "b")])
        (.ofList [("className", .text "c"), ("attributes", .map (.ofList [("abbr", .text "b")]))]) := by
  have upper : Schema.standard.find .html "CLASS" = classRow := find_of_common (by decide) .html (by decide)
  have lower : Schema.standard.find .html "className" = classRow := find_of_common (by decide) .html (by decide)
  have other : Schema.standard.find .html "abbr" = ⟨.text, "abbr", "abbr", true⟩ :=
    find_of_listed (by decide +kernel) (by decide)
  have added : addAll .standard .attributesDom .html ∅
      [("CLASS", .text "a"), ("abbr", .text "b"), ("className", .text "c")] =
        .ok (.ofList [("className", .text "c"), ("attributes", .map (.ofList [("abbr", .text "b")]))]) := by
    rw [addAll_cons_of_passed upper rfl rfl, addAll_cons_of_passed other rfl rfl, addAll_cons_of_passed lower rfl rfl]
    rfl
  have all : [("CLASS", PropertyValue.text "a"), ("abbr", .text "b"), ("className", .text "c")].filter
      (isNoFalseFlag .standard .html) = [("CLASS", .text "a"), ("abbr", .text "b"), ("className", .text "c")] := by
    simp [isNoFalseFlag, upper, lower, other, classRow, Traits.words, Traits.text]
  have plainly : addAll .standard .plain .html ∅
      [("CLASS", .text "a"), ("abbr", .text "b"), ("className", .text "c")] =
        .ok (.ofList [("class", .text "c"), ("abbr", .text "b")]) := by
    rw [addAll_cons_of_passed upper rfl rfl, addAll_cons_of_passed other rfl rfl, addAll_cons_of_passed lower rfl rfl]
    rfl
  obtain ⟨plain, found, _, _, _, _, _, _, same⟩ := dialects_differ_in_placement rfl added
  rw [all] at found
  obtain rfl := Except.ok.inj (plainly.symm.trans found)
  exact ⟨added, by rw [all, plainly], same⟩

end Attributes

end Hyperscript
