import Hyperscript.Attributes

namespace Hyperscript.Attributes

/-- The text of a property that holds a text or a list. -/
def textOf? (info : Info) : PropertyValue → Option String
  | .text value => some value
  | .list tokens =>
    some (if info.commaSeparated then TokenList.printCommas tokens else TokenList.printSpaces tokens)
  | _ => none

/-- A property that is kept, is a style, and has a text that is no declaration list. -/
def IsRejectedStyle (schema : Schema) (dialect : Dialect) (space : Space)
    (property : String × PropertyValue) (fault : Style.Error) : Prop :=
  isDropped dialect (schema.find space property.1) property.2 = false ∧
    (schema.find space property.1).propertyName = "style" ∧
    ∃ text, textOf? (schema.find space property.1) property.2 = some text ∧
      Style.parseStyle text = .error fault

/-- The fault of the first rejected style among some properties. Only the dialects that pass styles as
objects reject any. -/
def IsFirstFault (schema : Schema) (dialect : Dialect) (space : Space)
    (properties : List (String × PropertyValue)) (fault : Style.Error) : Prop :=
  dialect.objectStyle = true ∧ ∃ before property after,
    properties = before ++ property :: after ∧
    (∀ earlier ∈ before, ∀ other, ¬ IsRejectedStyle schema dialect space earlier other) ∧
    IsRejectedStyle schema dialect space property fault

/-- What has a text is passed on as that text. -/
theorem ofPropertyValue_of_textOf? {info : Info} {value : PropertyValue} {text : String}
    (found : textOf? info value = some text) : ofPropertyValue info value = .text text := by
  cases value <;> simp_all [textOf?, ofPropertyValue]

theorem textOf?_of_ofPropertyValue {dialect : Dialect} {info : Info} {value : PropertyValue} {text : String}
    (kept : isDropped dialect info value = false) (same : ofPropertyValue info value = .text text) :
    textOf? info value = some text := by
  cases value <;> simp_all [textOf?, ofPropertyValue, isDropped, PropertyValue.isAbsent]

/-- Flags are passed as empty texts in one dialect only, and that one leaves styles alone. -/
theorem passed_of_objectStyle {dialect : Dialect} (object : dialect.objectStyle = true) (info : Info)
    (value : PropertyValue) :
    passed dialect info value =
      match ofPropertyValue info value with
      | .text text =>
        if info.propertyName = "style" then
          match Style.parseStyle text with
          | .ok declarations => .ok (.style declarations)
          | .error fault => .error fault
        else .ok (.text text)
      | value => .ok value := by
  have other : dialect ≠ .selectorDom := by rintro rfl; simp [Dialect.objectStyle] at object
  cases found : ofPropertyValue info value with
  | text text => cases read : Style.parseStyle text <;> simp [passed, other, object, found, read]
  | _ => simp [passed, other, found]

/-- Only a dialect that wants styles as objects can refuse a value. -/
theorem passed_of_not_objectStyle {dialect : Dialect} (plain : dialect.objectStyle = false) (info : Info)
    (value : PropertyValue) : ∃ passedValue, passed dialect info value = .ok passedValue := by
  unfold passed
  simp only [plain, Bool.and_false, Bool.false_eq_true, if_false]
  split <;> exact ⟨_, rfl⟩

/-- A kept value is refused if it is a style whose text cannot be read, with the fault of the reading. -/
theorem passed_error_iff {dialect : Dialect} {info : Info} {value : PropertyValue} {fault : Style.Error}
    (kept : isDropped dialect info value = false) :
    passed dialect info value = .error fault ↔ dialect.objectStyle = true ∧ info.propertyName = "style" ∧
      ∃ text, textOf? info value = some text ∧ Style.parseStyle text = .error fault := by
  cases object : dialect.objectStyle with
  | false =>
    obtain ⟨passedValue, found⟩ := passed_of_not_objectStyle object info value
    simp [found]
  | true =>
    rw [passed_of_objectStyle object]
    constructor
    · intro failed
      split at failed
      · next text same =>
        split at failed
        · next named =>
          refine ⟨rfl, named, text, textOf?_of_ofPropertyValue kept same, ?_⟩
          split at failed
          · cases failed
          · next rejected => rw [rejected, Except.error.inj failed]
        · cases failed
      · cases failed
    · rintro ⟨_, named, text, found, rejected⟩
      simp only [ofPropertyValue_of_textOf? found, named, if_true, rejected]

theorem add_of_isDropped {schema : Schema} {dialect : Dialect} {space : Space} {name : String}
    {value : PropertyValue} (dropped : isDropped dialect (schema.find space name) value = true)
    (attributes : Attributes) : add schema dialect space attributes name value = .ok attributes := by
  simp only [add, dropped, if_true]

theorem add_of_not_isDropped {schema : Schema} {dialect : Dialect} {space : Space} {name : String}
    {value : PropertyValue} (kept : isDropped dialect (schema.find space name) value = false)
    (attributes : Attributes) :
    add schema dialect space attributes name value =
      match passed dialect (schema.find space name) value with
      | .ok passedValue =>
        .ok (place attributes (.ofInfo schema dialect (schema.find space name)) passedValue)
      | .error fault => .error fault := by
  cases found : passed dialect (schema.find space name) value <;> simp [add, kept, found]

theorem addAll_cons_of_passed {schema : Schema} {dialect : Dialect} {space : Space} {attributes : Attributes}
    {name : String} {info : Info} {value : PropertyValue} {passedValue : Value}
    {rest : List (String × PropertyValue)} (found : schema.find space name = info)
    (kept : isDropped dialect info value = false) (shows : passed dialect info value = .ok passedValue) :
    addAll schema dialect space attributes ((name, value) :: rest) =
      addAll schema dialect space (place attributes (.ofInfo schema dialect info) passedValue) rest := by
  subst found
  rw [addAll, add_of_not_isDropped kept, shows]

/-- Adding a property fails if it is a rejected style, whatever was there before. -/
theorem add_error_iff {schema : Schema} {dialect : Dialect} {space : Space} {attributes : Attributes}
    {name : String} {value : PropertyValue} {fault : Style.Error} :
    add schema dialect space attributes name value = .error fault ↔
      dialect.objectStyle = true ∧ IsRejectedStyle schema dialect space (name, value) fault := by
  unfold IsRejectedStyle
  cases kept : isDropped dialect (schema.find space name) value with
  | true => simp [add_of_isDropped kept]
  | false =>
    rw [add_of_not_isDropped kept]
    simp only [true_and]
    rw [← passed_error_iff kept]
    split <;> simp_all

/-- A property that passes does not decide which fault is the first. -/
theorem isFirstFault_cons_of_passes {schema : Schema} {dialect : Dialect} {space : Space}
    {property : String × PropertyValue} {rest : List (String × PropertyValue)} {fault : Style.Error}
    (passes : dialect.objectStyle = true → ∀ other, ¬ IsRejectedStyle schema dialect space property other) :
    IsFirstFault schema dialect space (property :: rest) fault ↔
      IsFirstFault schema dialect space rest fault := by
  constructor
  · rintro ⟨object, before, culprit, after, split, earlier, rejected⟩
    cases before with
    | nil =>
      cases split
      exact absurd rejected (passes object fault)
    | cons previous before =>
      cases split
      exact ⟨object, before, culprit, after, rfl,
        fun other member => earlier other (List.mem_cons_of_mem _ member), rejected⟩
  · rintro ⟨object, before, culprit, after, split, earlier, rejected⟩
    refine ⟨object, property :: before, culprit, after, by rw [split]; rfl, ?_, rejected⟩
    intro previous member
    rcases List.mem_cons.mp member with rfl | member
    · exact passes object
    · exact earlier previous member

theorem isFirstFault_cons_of_rejected {schema : Schema} {dialect : Dialect} {space : Space}
    {property : String × PropertyValue} {rest : List (String × PropertyValue)} {fault other : Style.Error}
    (object : dialect.objectStyle = true) (rejected : IsRejectedStyle schema dialect space property other) :
    IsFirstFault schema dialect space (property :: rest) fault ↔
      IsRejectedStyle schema dialect space property fault := by
  constructor
  · rintro ⟨_, before, culprit, after, split, earlier, found⟩
    cases before with
    | nil =>
      cases split
      exact found
    | cons previous before =>
      cases split
      exact absurd rejected (earlier _ (List.mem_cons_self ..) other)
  · intro found
    exact ⟨object, [], property, rest, rfl, List.forall_mem_nil _, found⟩

/-- Adding properties fails with the fault of the first rejected style, whatever was there before. -/
theorem addAll_error_iff {schema : Schema} {dialect : Dialect} {space : Space} {fault : Style.Error}
    (properties : List (String × PropertyValue)) (attributes : Attributes) :
    addAll schema dialect space attributes properties = .error fault ↔
      IsFirstFault schema dialect space properties fault := by
  induction properties generalizing attributes with
  | nil => simp [addAll, IsFirstFault]
  | cons property rest ih =>
    obtain ⟨name, value⟩ := property
    cases added : add schema dialect space attributes name value with
    | ok reached =>
      have passes : dialect.objectStyle = true →
          ∀ other, ¬ IsRejectedStyle schema dialect space (name, value) other := by
        intro object other rejected
        rw [add_error_iff.mpr ⟨object, rejected⟩] at added
        cases added
      simp only [addAll, added]
      rw [ih, isFirstFault_cons_of_passes passes]
    | error other =>
      obtain ⟨object, rejected⟩ := add_error_iff.mp added
      have same : add schema dialect space attributes name value = .error fault ↔ _ := add_error_iff
      simp only [addAll, added]
      rw [isFirstFault_cons_of_rejected object rejected, ← added, same]
      exact and_iff_right object

end Hyperscript.Attributes
