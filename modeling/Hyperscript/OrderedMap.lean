namespace Hyperscript

/-- A value for each of the keys, in their order. -/
inductive ValuesAt (α : Type) : List String → Type
  | nil : ValuesAt α []
  | cons {key : String} {keys : List String} (value : α) (rest : ValuesAt α keys) : ValuesAt α (key :: keys)

/-- Values under text keys, in the order in which the keys first arrived. No key occurs twice. The keys are kept
apart from the values, so that they can be known to differ where the values are such maps themselves. -/
structure OrderedMap (α : Type) where
  keys : List String
  values : ValuesAt α keys
  distinct : keys.Nodup

namespace ValuesAt

variable {α : Type}

def entries : {keys : List String} → ValuesAt α keys → List (String × α)
  | _, .nil => []
  | key :: _, .cons value rest => (key, value) :: rest.entries

def ofEntries : (entries : List (String × α)) → ValuesAt α (entries.map (·.1))
  | [] => .nil
  | entry :: rest => .cons entry.2 (ofEntries rest)

theorem map_fst_entries {keys : List String} (values : ValuesAt α keys) : values.entries.map (·.1) = keys := by
  induction values with
  | nil => rfl
  | cons value rest ih => rw [entries, List.map_cons, ih]

theorem entries_ofEntries (pairs : List (String × α)) : (ofEntries pairs).entries = pairs := by
  induction pairs with
  | nil => rfl
  | cons pair rest ih => exact congrArg (pair :: ·) ih

/-- Keys and values are told from the entries. -/
theorem entries_inj {keys : List String} {values values' : ValuesAt α keys}
    (same : values.entries = values'.entries) : values = values' := by
  induction values with
  | nil =>
    cases values'
    rfl
  | cons value rest ih =>
    cases values' with
    | cons value' rest' =>
      obtain ⟨first, later⟩ := List.cons.inj same
      rw [(Prod.mk.inj first).2, ih later]

end ValuesAt

namespace OrderedMap

variable {α β : Type}

def entries (map : OrderedMap α) : List (String × α) :=
  map.values.entries

/-- The map with the given entries. -/
def ofEntries (entries : List (String × α)) (distinct : (entries.map (·.1)).Nodup) : OrderedMap α :=
  ⟨entries.map (·.1), .ofEntries entries, distinct⟩

@[simp] theorem entries_ofEntries (pairs : List (String × α)) (distinct : (pairs.map (·.1)).Nodup) :
    (ofEntries pairs distinct).entries = pairs :=
  ValuesAt.entries_ofEntries pairs

theorem map_fst_entries (map : OrderedMap α) : map.entries.map (·.1) = map.keys :=
  map.values.map_fst_entries

theorem nodup_entries (map : OrderedMap α) : (map.entries.map (·.1)).Nodup :=
  map.map_fst_entries ▸ map.distinct

theorem mem_keys_of_mem {map : OrderedMap α} {entry : String × α} (member : entry ∈ map.entries) :
    entry.1 ∈ map.keys :=
  map.map_fst_entries ▸ List.mem_map_of_mem member

/-- A map is what it has for entries. -/
theorem ext {map map' : OrderedMap α} (same : map.entries = map'.entries) : map = map' := by
  have names : map.keys = map'.keys := by rw [← map_fst_entries, same, map_fst_entries]
  obtain ⟨keys, values, _⟩ := map
  obtain ⟨keys', values', _⟩ := map'
  obtain rfl : keys = keys' := names
  obtain rfl : values = values' := ValuesAt.entries_inj same
  rfl

instance [DecidableEq α] : DecidableEq (OrderedMap α) := fun map map' =>
  decidable_of_iff (map.entries = map'.entries) ⟨ext, congrArg entries⟩

instance [Repr α] : Repr (OrderedMap α) :=
  ⟨fun map precedence => reprPrec map.entries precedence⟩

def empty : OrderedMap α := ofEntries [] List.nodup_nil

instance : EmptyCollection (OrderedMap α) := ⟨empty⟩

instance : Inhabited (OrderedMap α) := ⟨empty⟩

def size (map : OrderedMap α) : Nat :=
  map.entries.length

def isEmpty (map : OrderedMap α) : Bool :=
  map.entries.isEmpty

def get? (map : OrderedMap α) (key : String) : Option α :=
  map.entries.lookup key

/-- The entries with `key` set: in its old place if it was there, else at the end. -/
def insertEntry (key : String) (value : α) : List (String × α) → List (String × α)
  | [] => [(key, value)]
  | (other, old) :: rest =>
    if other = key then (key, value) :: rest else (other, old) :: insertEntry key value rest

/-- A key that is new goes behind the others, and one that is there keeps its place. -/
theorem keys_insertEntry (key : String) (value : α) (entries : List (String × α)) :
    (insertEntry key value entries).map (·.1) =
      if key ∈ entries.map (·.1) then entries.map (·.1) else entries.map (·.1) ++ [key] := by
  induction entries with
  | nil => simp [insertEntry]
  | cons entry rest ih =>
    obtain ⟨name, old⟩ := entry
    by_cases found : name = key
    · subst found
      simp [insertEntry]
    · have other : key ≠ name := fun same => found same.symm
      simp only [insertEntry, if_neg found, List.map_cons, ih, List.mem_cons, other, false_or]
      split <;> simp

theorem nodup_insertEntry {entries : List (String × α)} (distinct : (entries.map (·.1)).Nodup) (key : String)
    (value : α) : ((insertEntry key value entries).map (·.1)).Nodup := by
  rw [keys_insertEntry]
  split
  · exact distinct
  · next absent =>
    refine List.nodup_append.mpr ⟨distinct, List.nodup_cons.mpr ⟨List.not_mem_nil, List.nodup_nil⟩, ?_⟩
    intro name member last equal
    rw [List.mem_singleton] at equal
    intro same
    exact absent (equal ▸ same ▸ member)

/-- Set `key`. A key that is present keeps its place and takes the new value. -/
def insert (map : OrderedMap α) (key : String) (value : α) : OrderedMap α :=
  ofEntries (insertEntry key value map.entries) (nodup_insertEntry map.nodup_entries key value)

/-- The entries that `keeps` holds of, in their order. -/
def filter (keeps : String × α → Bool) (map : OrderedMap α) : OrderedMap α :=
  ofEntries (map.entries.filter keeps) (map.nodup_entries.sublist (List.filter_sublist.map _))

/-- Drop `key`. The other entries keep their order. -/
def erase (map : OrderedMap α) (key : String) : OrderedMap α :=
  map.filter fun entry => entry.1 ≠ key

/-- Each value changed in its place. -/
def mapValues (change : α → β) (map : OrderedMap α) : OrderedMap β :=
  ofEntries (map.entries.map fun entry => (entry.1, change entry.2)) (by
    rw [List.map_map]
    exact map.nodup_entries)

/-- Insert the pairs one by one. -/
def ofList (pairs : List (String × α)) : OrderedMap α :=
  pairs.foldl (fun map pair => map.insert pair.1 pair.2) ∅

/-- The entries in the order of their keys, character by character. -/
def sortKeys (map : OrderedMap α) : OrderedMap α :=
  ofEntries (map.entries.mergeSort fun entry other => entry.1 ≤ other.1)
    (((List.mergeSort_perm map.entries _).map _).nodup_iff.mpr map.nodup_entries)

theorem entries_insert (map : OrderedMap α) (key : String) (value : α) :
    (map.insert key value).entries = insertEntry key value map.entries :=
  entries_ofEntries ..

theorem entries_filter (keeps : String × α → Bool) (map : OrderedMap α) :
    (map.filter keeps).entries = map.entries.filter keeps :=
  entries_ofEntries ..

theorem entries_erase (map : OrderedMap α) (key : String) :
    (map.erase key).entries = map.entries.filter fun entry => entry.1 ≠ key :=
  entries_filter ..

theorem keys_erase_sublist (map : OrderedMap α) (key : String) : (map.erase key).keys.Sublist map.keys := by
  rw [← map_fst_entries, ← map_fst_entries, entries_erase]
  exact List.filter_sublist.map _

theorem entries_mapValues (change : α → β) (map : OrderedMap α) :
    (map.mapValues change).entries = map.entries.map fun entry => (entry.1, change entry.2) :=
  entries_ofEntries ..

theorem lookup_entry (key name : String) (value : α) (rest : List (String × α)) :
    ((name, value) :: rest).lookup key = if key = name then some value else rest.lookup key := by
  rw [List.lookup_cons]
  by_cases same : key = name
  · simp [same]
  · simp [same, beq_false_of_ne same]

theorem lookup_insertEntry (key other : String) (value : α) (entries : List (String × α)) :
    (insertEntry key value entries).lookup other =
      if other = key then some value else entries.lookup other := by
  induction entries with
  | nil => rw [insertEntry, lookup_entry]
  | cons entry rest ih =>
    obtain ⟨name, old⟩ := entry
    by_cases found : name = key
    · subst found
      by_cases same : other = name <;> simp [insertEntry, lookup_entry, same]
    · rw [insertEntry, if_neg found, lookup_entry, lookup_entry, ih]
      by_cases same : other = name
      · subst same
        simp [found]
      · simp [same]

/-- The value written is found under its key, and all else is found as before. -/
theorem get?_insert (map : OrderedMap α) (key other : String) (value : α) :
    (map.insert key value).get? other = if other = key then some value else map.get? other := by
  rw [get?, entries_insert]
  exact lookup_insertEntry key other value map.entries

/-- A new key goes to the end, and a present one moves nothing. -/
theorem keys_insert (map : OrderedMap α) (key : String) (value : α) :
    (map.insert key value).keys = if key ∈ map.keys then map.keys else map.keys ++ [key] := by
  rw [← map_fst_entries, entries_insert, keys_insertEntry, map_fst_entries]

theorem insertEntry_insertEntry (key : String) (value later : α) (entries : List (String × α)) :
    insertEntry key later (insertEntry key value entries) = insertEntry key later entries := by
  induction entries with
  | nil => simp [insertEntry]
  | cons entry rest ih =>
    by_cases found : entry.1 = key
    · simp [insertEntry, found]
    · simp only [insertEntry, if_neg found]
      rw [ih]

/-- Of two values written one after the other under a key the second one counts. -/
theorem insert_insert (map : OrderedMap α) (key : String) (value later : α) :
    (map.insert key value).insert key later = map.insert key later := by
  apply ext
  rw [entries_insert, entries_insert, entries_insert, insertEntry_insertEntry]

/-- Under a new key a value goes to the end. -/
theorem insertEntry_of_not_mem {key : String} {entries : List (String × α)} (new : key ∉ entries.map (·.1))
    (value : α) : insertEntry key value entries = entries ++ [(key, value)] := by
  induction entries with
  | nil => rfl
  | cons entry rest ih =>
    simp only [List.map_cons, List.mem_cons, not_or] at new
    rw [insertEntry, if_neg fun same => new.1 same.symm, ih new.2]
    rfl

/-- Pairs whose keys differ from each other and from those of the map go behind its entries as they are. -/
theorem foldl_insert_of_nodup {pairs : List (String × α)} {map : OrderedMap α}
    (nodup : (map.keys ++ pairs.map (·.1)).Nodup) :
    (pairs.foldl (fun map pair => map.insert pair.1 pair.2) map).entries = map.entries ++ pairs := by
  induction pairs generalizing map with
  | nil => simp
  | cons pair rest ih =>
    obtain ⟨key, value⟩ := pair
    have new : key ∉ map.keys := fun member =>
      (List.nodup_append.mp nodup).2.2 key member key (List.mem_cons_self ..) rfl
    have keys : (map.insert key value).keys = map.keys ++ [key] := by rw [keys_insert, if_neg new]
    rw [← map_fst_entries] at new
    rw [List.foldl_cons, ih (by rw [keys, List.append_assoc]; exact nodup), entries_insert,
      insertEntry_of_not_mem new, List.append_assoc]
    rfl

/-- Pairs with different keys are the entries of their map. -/
@[simp] theorem entries_ofList {pairs : List (String × α)} (nodup : (pairs.map (·.1)).Nodup) :
    (ofList pairs).entries = pairs :=
  foldl_insert_of_nodup nodup

theorem ofList_entries (map : OrderedMap α) : ofList map.entries = map :=
  ext (entries_ofList map.nodup_entries)

/-- Entries picked by their keys change with the whole if the key is picked, and stay as they are if not. -/
theorem filter_insertEntry (picks : String → Bool) (key : String) (value : α) (entries : List (String × α)) :
    (insertEntry key value entries).filter (fun entry => picks entry.1) =
      if picks key then insertEntry key value (entries.filter fun entry => picks entry.1)
      else entries.filter fun entry => picks entry.1 := by
  induction entries with
  | nil => cases pick : picks key <;> simp [insertEntry, pick]
  | cons entry rest ih =>
    obtain ⟨name, old⟩ := entry
    by_cases found : name = key
    · subst found
      cases pick : picks name <;> simp [insertEntry, pick]
    · rw [insertEntry, if_neg found, List.filter_cons, List.filter_cons, ih]
      cases picks name <;> cases picks key <;> simp [insertEntry, found]

/-- Nothing is found under the dropped key, and all else is found as before. -/
theorem get?_erase (map : OrderedMap α) (key other : String) :
    (map.erase key).get? other = if other = key then none else map.get? other := by
  rw [get?, entries_erase, get?]
  induction map.entries with
  | nil => simp
  | cons entry rest ih =>
    obtain ⟨name, value⟩ := entry
    rw [lookup_entry]
    by_cases dropped : name = key
    · subst dropped
      rw [List.filter_cons_of_neg (by simp), ih]
      by_cases same : other = name <;> simp [same]
    · rw [List.filter_cons_of_pos (by simpa using dropped), lookup_entry, ih]
      by_cases same : other = name
      · subst same
        simp [dropped]
      · simp [same]

end OrderedMap

end Hyperscript
