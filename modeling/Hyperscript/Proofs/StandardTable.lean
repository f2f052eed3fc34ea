import Hyperscript.Property.Schema

namespace Hyperscript

theorem toList_of_eq_ofList {name : String} {letters : List Char} (same : name = String.ofList letters) :
    name.toList = letters := by
  rw [same, String.toList_ofList]

namespace Info

/-- The row has `name` as its property or its attribute, in any letter case. -/
def Answers (info : Info) (name : String) : Prop :=
  foldCase info.propertyName = foldCase name ∨ foldCase info.attributeName = foldCase name

instance (info : Info) (name : String) : Decidable (info.Answers name) :=
  inferInstanceAs (Decidable (foldCase info.propertyName = foldCase name ∨ foldCase info.attributeName = foldCase name))

def folded (info : Info) : List Char × List Char :=
  (foldCase info.propertyName, foldCase info.attributeName)

/-- Letters as one number. Different numbers come from different letters. -/
def code (letters : List Char) : Nat :=
  letters.foldl (fun number c => number * 0x200000 + c.toNat) 0

def share (names others : Nat × Nat) : Bool :=
  names.1.beq others.1 || names.1.beq others.2 || names.2.beq others.1 || names.2.beq others.2

def noneShare : List (Nat × Nat) → Bool
  | [] => true
  | names :: rest => rest.all (fun others => !share names others) && noneShare rest

/-- What begins the name of every custom attribute. -/
def customMark : List Char := ['d', 'a', 't', 'a', '-']

/-- No two rows have a name in common, and none has the name of a custom attribute. -/
def isSound (names : List (List Char × List Char)) : Bool :=
  noneShare (names.map fun pair => (code pair.1, code pair.2)) &&
    names.all fun pair => !customMark.isPrefixOf pair.1 && !customMark.isPrefixOf pair.2

/-- What begins the names of custom data, and a few others. -/
def dataMark : List Char := ['d', 'a', 't', 'a']

def startsWithData (names : List Char × List Char) : Bool :=
  dataMark.isPrefixOf names.1 || dataMark.isPrefixOf names.2

def dataNames : Space → List (List Char × List Char)
  | .html => [("data".toList, "data".toList), ("datatype".toList, "datatype".toList)]
  | .svg => []

/-- Whether a row has one of its names in these letters. -/
def hasName (letters : List Char) (names : List Char × List Char) : Bool :=
  names.1 == letters || names.2 == letters

set_option maxRecDepth 4000 in
/-- The facts about the whole table that are found by going through it. -/
theorem folded_table (space : Space) : isSound ((table space).map folded) = true ∧
    ((table space).map folded).filter startsWithData = dataNames space ∧
    ((table space).map folded).any (hasName ['k', 'e', 'y']) = false := by
  cases space with
  | html =>
    simp (disch := exact rfl) only [table, foreignRows, ariaRows, htmlRows, named, paired, List.map_cons,
      List.map_nil, List.cons_append, List.nil_append, folded, foldCase, ariaSpelling, lowerSpelling,
      String.toList_append, toList_of_eq_ofList]
    decide +kernel
  | svg =>
    simp (disch := exact rfl) only [table, foreignRows, ariaRows, svgRows, named, paired, List.map_cons,
      List.map_nil, List.cons_append, List.nil_append, folded, foldCase, ariaSpelling, id,
      String.toList_append, toList_of_eq_ofList]
    decide +kernel

theorem isSound_table (space : Space) : isSound ((table space).map folded) = true :=
  (folded_table space).1

/-- The check of a list of codes finds every two rows that share a name. -/
theorem not_share_of_noneShare {names : List (Nat × Nat)} (sound : noneShare names = true) :
    names.Pairwise fun first later => share first later = false := by
  induction names with
  | nil => exact .nil
  | cons names rest ih =>
    simp only [noneShare, Bool.and_eq_true, List.all_eq_true, Bool.not_eq_true'] at sound
    exact .cons sound.1 (ih sound.2)

/-- Two rows that answer to one name share a code. -/
theorem share_of_answers {row other : Info} {name : String} (first : row.Answers name)
    (second : other.Answers name) : share (code row.folded.1, code row.folded.2)
      (code other.folded.1, code other.folded.2) = true := by
  simp only [share, Bool.or_eq_true, Nat.beq_eq, folded]
  rcases first with first | first <;> rcases second with second | second <;> simp [first, second]

theorem find?_of_apart {α : Type} {passes : α → Bool} {l : List α} {a : α}
    (apart : l.Pairwise fun first later => ¬ (passes first = true ∧ passes later = true)) (member : a ∈ l)
    (found : passes a = true) : l.find? passes = some a := by
  induction l with
  | nil => cases member
  | cons first rest ih =>
    rw [List.pairwise_cons] at apart
    rcases List.mem_cons.mp member with rfl | later
    · exact List.find?_cons_of_pos found
    · rw [List.find?_cons_of_neg fun here => apart.1 a later ⟨here, found⟩, ih apart.2 later]

theorem answers_iff {row : Info} {name : String} : row.Answers name ↔
    (foldCase row.propertyName = foldCase name || foldCase row.attributeName = foldCase name) = true := by
  simp [Answers]

/-- A name is that of at most one row, so a row is found under each of its names. -/
theorem known?_eq_some_iff {space : Space} {name : String} {row : Info} :
    known? space name = some row ↔ row ∈ table space ∧ row.Answers name := by
  constructor
  · intro found
    have passes := List.find?_some (show (table space).find? _ = some row from found)
    exact ⟨List.mem_of_find?_eq_some found, answers_iff.mpr passes⟩
  · rintro ⟨member, answers⟩
    have sound := isSound_table space
    simp only [isSound, Bool.and_eq_true] at sound
    have apart := not_share_of_noneShare sound.1
    rw [List.map_map, List.pairwise_map] at apart
    refine find?_of_apart (apart.imp ?_) member (answers_iff.mp answers)
    rintro first later alone ⟨here, there⟩
    have shared := share_of_answers (answers_iff.mpr here) (answers_iff.mpr there)
    simp only [Function.comp_apply] at alone
    rw [shared] at alone
    cases alone

/-- Every row is found under its property name. -/
theorem known?_propertyName {space : Space} {row : Info} (member : row ∈ table space) :
    known? space row.propertyName = some row :=
  known?_eq_some_iff.mpr ⟨member, Or.inl rfl⟩

/-- Every row is found under its attribute name. -/
theorem known?_attributeName {space : Space} {row : Info} (member : row ∈ table space) :
    known? space row.attributeName = some row :=
  known?_eq_some_iff.mpr ⟨member, Or.inr rfl⟩

/-- The name of a custom attribute is in no table. -/
theorem known?_of_customMark {space : Space} {name : String} (custom : customMark <+: foldCase name) :
    known? space name = none := by
  cases found : known? space name with
  | none => rfl
  | some row =>
    obtain ⟨member, answers⟩ := known?_eq_some_iff.mp found
    have sound := isSound_table space
    simp only [isSound, Bool.and_eq_true, List.all_eq_true, List.mem_map, Bool.not_eq_true'] at sound
    have free := sound.2 row.folded ⟨row, member, rfl⟩
    rw [← List.isPrefixOf_iff_prefix] at custom
    rcases answers with same | same <;> simp [folded, same, custom] at free

/-- The name of generated keys is in no table. -/
theorem known?_key (space : Space) : known? space "key" = none := by
  cases found : known? space "key" with
  | none => rfl
  | some row =>
    obtain ⟨member, answers⟩ := known?_eq_some_iff.mp found
    have free := List.any_eq_false.mp (folded_table space).2.2 row.folded (List.mem_map_of_mem member)
    have letters : foldCase "key" = ['k', 'e', 'y'] := by decide
    rcases answers with same | same <;> simp [hasName, folded, same, letters] at free

/-- Of the names that begin with `data` and go on, the table has one, and for HTML only. -/
theorem known?_of_dataMark {space : Space} {name : String} (data : dataMark <+: foldCase name)
    (longer : foldCase name ≠ dataMark) :
    known? space name = none ↔ ¬ (space = .html ∧ foldCase name = "datatype".toList) := by
  have listed := (folded_table space).2.1
  constructor
  · rintro unlisted ⟨rfl, same⟩
    have member : ("datatype".toList, "datatype".toList) ∈ ((table .html).map folded).filter startsWithData := by
      rw [listed]
      exact .tail _ (.head _)
    obtain ⟨row, here, names⟩ := List.mem_map.mp (List.mem_filter.mp member).1
    have answers : row.Answers name := Or.inl ((congrArg Prod.fst names).trans same.symm)
    rw [known?_eq_some_iff.mpr ⟨here, answers⟩] at unlisted
    cases unlisted
  · intro other
    cases found : known? space name with
    | none => rfl
    | some row =>
      obtain ⟨here, answers⟩ := known?_eq_some_iff.mp found
      have named : foldCase name = row.folded.1 ∨ foldCase name = row.folded.2 := answers.imp Eq.symm Eq.symm
      have starts : startsWithData row.folded = true := by
        simp only [startsWithData, Bool.or_eq_true, List.isPrefixOf_iff_prefix]
        rcases named with same | same
        · exact Or.inl (same ▸ data)
        · exact Or.inr (same ▸ data)
      have member : row.folded ∈ dataNames space := by
        rw [← listed]
        exact List.mem_filter.mpr ⟨List.mem_map_of_mem here, starts⟩
      cases space with
      | svg => cases member
      | html =>
        -- Each of the two rows has the same letters for both its names.
        simp only [dataNames, List.mem_cons, List.not_mem_nil, or_false] at member
        rcases member with names | names
        · rw [names, or_self] at named
          exact absurd named longer
        · rw [names, or_self] at named
          exact absurd ⟨rfl, named⟩ other

def idRow : Info :=
  { toTraits := .text, propertyName := "id", attributeName := "id", defined := true }

def classRow : Info :=
  { toTraits := .words, propertyName := "className", attributeName := "class", defined := true }

def styleRow : Info :=
  { toTraits := .text, propertyName := "style", attributeName := "style", defined := true }

/-- The rows of the names that selectors and dialects treat apart. Both tables have them. -/
def commonRows : List Info :=
  [idRow, classRow, styleRow]

/-- The rows of what has to be set on the element object. -/
def stateRows : List Info :=
  named lowerSpelling .state ["checked", "multiple", "muted", "selected"]

theorem mem_table_of_common {row : Info} (common : row ∈ commonRows) (space : Space) : row ∈ table space := by
  have listed : ∀ row ∈ commonRows, row ∈ table space := by
    cases space <;> decide +kernel
  exact listed row common

/-- A row that is common to both tables is found in each under its property name. -/
theorem known?_of_common {row : Info} (common : row ∈ commonRows) (space : Space) :
    known? space row.propertyName = some row :=
  known?_propertyName (mem_table_of_common common space)

theorem mem_stateRows {space : Space} {row : Info} (member : row ∈ table space)
    (state : row.mustUseProperty = true) : row ∈ stateRows := by
  have listed : row ∈ (table space).filter fun row => row.mustUseProperty := List.mem_filter.mpr ⟨member, state⟩
  cases space with
  | html => exact listed
  | svg => cases listed

/-- Only the rows of the class list and of the style are treated apart. -/
theorem eq_of_isClassOrStyle {space : Space} {row : Info} (member : row ∈ table space)
    (named : row.isClassOrStyle = true) : row = classRow ∨ row = styleRow := by
  have found := known?_propertyName member
  have sole : ∀ other ∈ commonRows, row.propertyName = other.propertyName → row = other := by
    intro other common name
    rw [name] at found
    exact Option.some.inj (found.symm.trans (known?_of_common common space))
  simp only [isClassOrStyle, Bool.or_eq_true, decide_eq_true_eq] at named
  exact named.imp (sole classRow (by decide)) (sole styleRow (by decide))

end Info

end Hyperscript
