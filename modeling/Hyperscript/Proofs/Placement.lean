import Mathlib.Data.List.Forall2
import Hyperscript.Attributes

namespace Hyperscript

namespace Slot

def isFlat : Slot → Bool
  | .flat _ => true
  | .nested .. => false

/-- The key that a slot takes in the flat map. -/
def outerKey : Slot → String
  | .flat key => key
  | .nested map _ => map

end Slot

namespace Attributes

/-- The value that a dialect shows where the plain one shows `value`: a flag as an empty text in the selector
dialect, a style as an object where styles are objects, and anything else as it is. -/
def shown (dialect : Dialect) (info : Info) (value : Value) : Except Style.Error Value :=
  match (if info.boolean && dialect = .selectorDom then .text "" else value) with
  | .text text =>
    if info.propertyName = "style" && dialect.objectStyle then
      match Style.parseStyle text with
      | .ok declarations => .ok (.style declarations)
      | .error fault => .error fault
    else .ok (.text text)
  | value => .ok value

theorem passed_eq_shown (dialect : Dialect) (info : Info) (value : PropertyValue) :
    passed dialect info value = shown dialect info (ofPropertyValue info value) := rfl

theorem passed_plain (info : Info) (value : PropertyValue) :
    passed .plain info value = .ok (ofPropertyValue info value) := by
  simp only [passed, Dialect.objectStyle]
  cases ofPropertyValue info value <;> simp

/-- What `map`, the nested map of a dialect, needs to know of a schema: an attribute name decides where and
how its properties are placed, and the keys of the flat map tell the attributes apart. -/
structure Tells (schema : Schema) (dialect : Dialect) (space : Space) (map : String) : Prop where
  slot : ∀ name, Slot.ofInfo schema dialect (schema.find space (schema.find space name).attributeName) =
    Slot.ofInfo schema dialect (schema.find space name)
  shown : ∀ name value, shown dialect (schema.find space (schema.find space name).attributeName) value =
    shown dialect (schema.find space name) value
  attributeName : ∀ name, (schema.find space (schema.find space name).attributeName).attributeName =
    (schema.find space name).attributeName
  flat : ∀ name other key, Slot.ofInfo schema dialect (schema.find space name) = .flat key →
    Slot.ofInfo schema dialect (schema.find space other) = .flat key →
    (schema.find space name).attributeName = (schema.find space other).attributeName
  other : ∀ name key, Slot.ofInfo schema dialect (schema.find space name) = .flat key → key ≠ map

def slotOf (schema : Schema) (dialect : Dialect) (space : Space) (name : String) : Slot :=
  Slot.ofInfo schema dialect (schema.find space name)

/-- The attributes of the plain dialect and those of a dialect with the nested map `map` are the same ones,
each where its dialect places it and in the same order. -/
structure Corresponds (schema : Schema) (dialect : Dialect) (space : Space) (map : String)
    (plain placed : Attributes) : Prop where
  canonical : ∀ key ∈ plain.keys, (schema.find space key).attributeName = key
  flat : List.Forall₂ (fun entry entry' => slotOf schema dialect space entry.1 = .flat entry'.1 ∧
      shown dialect (schema.find space entry.1) entry.2 = .ok entry'.2)
    (plain.entries.filter fun entry => (slotOf schema dialect space entry.1).isFlat)
    (placed.entries.filter fun entry => entry.1 ≠ map)
  nested : List.Forall₂ (fun entry entry' => entry'.1 = entry.1 ∧
      shown dialect (schema.find space entry.1) entry.2 = .ok entry'.2)
    (plain.entries.filter fun entry => !(slotOf schema dialect space entry.1).isFlat)
    (inner placed map).entries
  holder : placed.get? map = if (inner placed map).isEmpty then none else some (.map (inner placed map))
  order : placed.keys = (plain.keys.map fun key => (slotOf schema dialect space key).outerKey).eraseDups

/-- Setting an entry in both of two related lists keeps them related if the two keys are met together. -/
theorem forall₂_insertEntry {α β : Type} {related : String × α → String × β → Prop} {key key' : String}
    {value : α} {value' : β} {entries : List (String × α)} {entries' : List (String × β)}
    (same : List.Forall₂ related entries entries')
    (keys : ∀ entry ∈ entries, ∀ entry', related entry entry' → (entry.1 = key ↔ entry'.1 = key'))
    (new : related (key, value) (key', value')) :
    List.Forall₂ related (OrderedMap.insertEntry key value entries)
      (OrderedMap.insertEntry key' value' entries') := by
  induction same with
  | nil => exact .cons new .nil
  | @cons entry entry' rest rest' here later ih =>
    rw [List.forall_mem_cons] at keys
    have together := keys.1 entry' here
    by_cases found : entry.1 = key
    · rw [OrderedMap.insertEntry, OrderedMap.insertEntry, if_pos found, if_pos (together.mp found)]
      exact .cons new later
    · rw [OrderedMap.insertEntry, OrderedMap.insertEntry, if_neg found, if_neg fun other => found (together.mpr other)]
      exact .cons here (ih keys.2)

/-- Only the map of the dialect is nested, and what goes into it is keyed by attributes. -/
theorem ofInfo_eq_nested {schema : Schema} {dialect : Dialect} {info : Info} {map key : String}
    (found : Slot.ofInfo schema dialect info = .nested map key) :
    dialect.nestedMap? = some map ∧ key = info.attributeName := by
  unfold Slot.ofInfo at found
  split at found
  · next there =>
    cases found
    unfold Slot.nestedMap? at there
    split at there
    · cases there
    · split at there
      · cases there
      · exact ⟨there, rfl⟩
  · cases found

/-- Without a nested map every property is placed in the flat one. -/
theorem ofInfo_of_flatDialect {dialect : Dialect} (flat : dialect.nestedMap? = none) (schema : Schema) (info : Info) :
    Slot.ofInfo schema dialect info = .flat (Slot.flatKey schema dialect info) := by
  cases placed : Slot.ofInfo schema dialect info with
  | nested map key =>
    rw [(ofInfo_eq_nested placed).1] at flat
    cases flat
  | flat key =>
    unfold Slot.ofInfo at placed
    split at placed
    · cases placed
    · exact placed.symm

/-- A property sets one key of the flat map: its own, or that of the nested map. -/
theorem keys_place (attributes : Attributes) (slot : Slot) (value : Value) :
    (place attributes slot value).keys =
      if slot.outerKey ∈ attributes.keys then attributes.keys else attributes.keys ++ [slot.outerKey] := by
  cases slot with
  | flat key => exact attributes.keys_insert key value
  | nested map key => exact attributes.keys_insert map _

theorem inner_insert_self (attributes entries : Attributes) (map : String) :
    inner (attributes.insert map (.map entries)) map = entries := by
  simp only [inner, OrderedMap.get?_insert, if_true]

theorem inner_insert_of_ne (attributes : Attributes) {map key : String} (other : key ≠ map) (value : Value) :
    inner (attributes.insert key value) map = inner attributes map := by
  simp only [inner, OrderedMap.get?_insert, if_neg (Ne.symm other)]

theorem insert_isEmpty {α : Type} (map : OrderedMap α) (key : String) (value : α) :
    (map.insert key value).isEmpty = false := by
  rw [OrderedMap.isEmpty, OrderedMap.entries_insert]
  cases map.entries with
  | nil => rfl
  | cons entry rest =>
    rw [OrderedMap.insertEntry]
    split <;> rfl

/-- A further key counts if it has not been met. -/
theorem eraseDups_append_singleton (keys : List String) (key : String) :
    (keys ++ [key]).eraseDups = if key ∈ keys.eraseDups then keys.eraseDups else keys.eraseDups ++ [key] := by
  rw [List.eraseDups_append]
  by_cases listed : key ∈ keys
  · simp [List.mem_eraseDups, listed, List.removeAll]
  · simp [List.mem_eraseDups, listed, List.removeAll, List.eraseDups_cons]

namespace Corresponds

variable {schema : Schema} {dialect : Dialect} {space : Space} {map : String} {plain placed : Attributes}

theorem empty : Corresponds schema dialect space map ∅ ∅ where
  canonical := nofun
  flat := .nil
  nested := .nil
  holder := rfl
  order := rfl

theorem insert_canonical (same : Corresponds schema dialect space map plain placed)
    (tells : Tells schema dialect space map) (name : String) (value : Value) :
    ∀ key ∈ (plain.insert (schema.find space name).attributeName value).keys,
      (schema.find space key).attributeName = key := by
  intro key member
  rw [OrderedMap.keys_insert] at member
  split at member
  · exact same.canonical key member
  · rcases List.mem_append.mp member with old | new
    · exact same.canonical key old
    · rw [List.mem_singleton.mp new]
      exact tells.attributeName name

theorem place_keys (same : Corresponds schema dialect space map plain placed)
    (tells : Tells schema dialect space map) (name : String) (value value' : Value) :
    (place placed (slotOf schema dialect space name) value').keys =
      ((plain.insert (schema.find space name).attributeName value).keys.map
        fun key => (slotOf schema dialect space key).outerKey).eraseDups := by
  have slot : slotOf schema dialect space (schema.find space name).attributeName = slotOf schema dialect space name :=
    tells.slot name
  rw [keys_place, OrderedMap.keys_insert, same.order]
  by_cases listed : (schema.find space name).attributeName ∈ plain.keys
  · rw [if_pos listed, if_pos]
    rw [List.mem_eraseDups]
    exact List.mem_map.mpr ⟨_, listed, congrArg Slot.outerKey slot⟩
  · rw [if_neg listed, List.map_append, List.map_singleton, eraseDups_append_singleton, slot]

/-- A flat attribute finds its entry in the flat map, or is the last one in both. -/
theorem insert_flat (same : Corresponds schema dialect space map plain placed)
    (tells : Tells schema dialect space map) {name key : String} {value value' : Value}
    (placing : slotOf schema dialect space name = .flat key)
    (shows : shown dialect (schema.find space (schema.find space name).attributeName) value = .ok value') :
    Corresponds schema dialect space map (plain.insert (schema.find space name).attributeName value)
      (place placed (.flat key) value') := by
  have slot : slotOf schema dialect space (schema.find space name).attributeName = .flat key :=
    (tells.slot name).trans placing
  have other : key ≠ map := tells.other name key placing
  refine ⟨same.insert_canonical tells name value, ?_, ?_, ?_, placing ▸ same.place_keys tells name value value'⟩
  · have left : (slotOf schema dialect space (schema.find space name).attributeName).isFlat = true := by
      rw [slot]
      rfl
    have right : decide (key ≠ map) = true := by simpa using other
    rw [place, OrderedMap.entries_insert, OrderedMap.entries_insert,
      OrderedMap.filter_insertEntry fun key => (slotOf schema dialect space key).isFlat, if_pos left,
      OrderedMap.filter_insertEntry fun key => decide (key ≠ map), if_pos right]
    refine forall₂_insertEntry same.flat ?_ ⟨slot, shows⟩
    intro entry member entry' related
    have listed : entry.1 ∈ plain.keys := OrderedMap.mem_keys_of_mem (List.mem_filter.mp member).1
    constructor
    · intro found
      have there := related.1
      rw [found, slot] at there
      exact (Slot.flat.inj there).symm
    · intro found
      rw [← same.canonical entry.1 listed]
      exact tells.flat entry.1 name key (found ▸ related.1) placing
  · have left : ¬ (!(slotOf schema dialect space (schema.find space name).attributeName).isFlat) = true := by
      rw [slot]
      exact Bool.false_ne_true
    rw [OrderedMap.entries_insert, OrderedMap.filter_insertEntry fun key => !(slotOf schema dialect space key).isFlat,
      if_neg left, place, inner_insert_of_ne placed other]
    exact same.nested
  · rw [place, inner_insert_of_ne placed other, OrderedMap.get?_insert, if_neg (Ne.symm other)]
    exact same.holder

/-- A nested attribute leaves the flat ones alone and goes to its entry in the nested map. -/
theorem insert_nested (same : Corresponds schema dialect space map plain placed)
    (tells : Tells schema dialect space map) {name : String} {value value' : Value}
    (placing : slotOf schema dialect space name = .nested map (schema.find space name).attributeName)
    (shows : shown dialect (schema.find space (schema.find space name).attributeName) value = .ok value') :
    Corresponds schema dialect space map (plain.insert (schema.find space name).attributeName value)
      (place placed (.nested map (schema.find space name).attributeName) value') := by
  have slot : slotOf schema dialect space (schema.find space name).attributeName =
      .nested map (schema.find space name).attributeName := (tells.slot name).trans placing
  refine ⟨same.insert_canonical tells name value, ?_, ?_, ?_, placing ▸ same.place_keys tells name value value'⟩
  · have left : ¬ (slotOf schema dialect space (schema.find space name).attributeName).isFlat = true := by
      rw [slot]
      exact Bool.false_ne_true
    have right : ¬ decide (map ≠ map) = true := by simp
    rw [place, OrderedMap.entries_insert, OrderedMap.entries_insert,
      OrderedMap.filter_insertEntry fun key => (slotOf schema dialect space key).isFlat, if_neg left,
      OrderedMap.filter_insertEntry fun key => decide (key ≠ map), if_neg right]
    exact same.flat
  · have left : (!(slotOf schema dialect space (schema.find space name).attributeName).isFlat) = true := by
      rw [slot]
      rfl
    rw [place, inner_insert_self, OrderedMap.entries_insert, OrderedMap.entries_insert,
      OrderedMap.filter_insertEntry fun key => !(slotOf schema dialect space key).isFlat, if_pos left]
    refine forall₂_insertEntry same.nested ?_ ⟨rfl, shows⟩
    intro entry _ entry' related
    rw [related.1]
  · rw [place, inner_insert_self, OrderedMap.get?_insert, if_pos rfl, insert_isEmpty]
    rfl

/-- One more property keeps the attributes of the two dialects together. -/
theorem insert (same : Corresponds schema dialect space map plain placed)
    (tells : Tells schema dialect space map) (nests : dialect.nestedMap? = some map) (name : String)
    {value value' : Value} (shows : shown dialect (schema.find space name) value = .ok value') :
    Corresponds schema dialect space map (plain.insert (schema.find space name).attributeName value)
      (place placed (Slot.ofInfo schema dialect (schema.find space name)) value') := by
  rw [← tells.shown] at shows
  cases placing : Slot.ofInfo schema dialect (schema.find space name) with
  | flat key => exact same.insert_flat tells placing shows
  | nested map' key =>
    obtain ⟨there, rfl⟩ := ofInfo_eq_nested placing
    obtain rfl : map' = map := Option.some.inj (there.symm.trans nests)
    exact same.insert_nested tells placing shows

end Corresponds

end Attributes

end Hyperscript
