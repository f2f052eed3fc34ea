import Hyperscript.Proofs.EventRun
import Hyperscript.Proofs.SameAttributes
import Hyperscript.Proofs.StandardPlacement

namespace Hyperscript

open Info

/-- The same error, or related results. -/
inductive SameOutcome {ε α : Type} (related : α → α → Prop) : Except ε α → Except ε α → Prop
  | ok {result result' : α} (same : related result result') : SameOutcome related (.ok result) (.ok result')
  | error (error : ε) : SameOutcome related (.error error) (.error error)

theorem SameOutcome.trans {ε α : Type} {related : α → α → Prop} {first second third : Except ε α}
    (same : SameOutcome related first second) (same' : SameOutcome related second third)
    (trans : ∀ {a b c}, related a b → related b c → related a c) : SameOutcome related first third := by
  cases same with
  | error => exact same'
  | ok here =>
    cases same' with
    | ok there => exact .ok (trans here there)

namespace Attributes

variable {schema : Schema} {dialect : Dialect} {space : Space}

/-- Whether a property leaves a trace. -/
def isKept (schema : Schema) (dialect : Dialect) (space : Space) (property : String × PropertyValue) : Bool :=
  !isDropped dialect (schema.find space property.1) property.2

/-- Two properties that do not both leave a trace under the same key of the same map. -/
def Apart (schema : Schema) (dialect : Dialect) (space : Space) (property other : String × PropertyValue) : Prop :=
  isKept schema dialect space property = true → isKept schema dialect space other = true →
    slotOf schema dialect space property.1 ≠ slotOf schema dialect space other.1

theorem Apart.symm {property other : String × PropertyValue} (apart : Apart schema dialect space property other) :
    Apart schema dialect space other property :=
  fun kept kept' => (apart kept' kept).symm

theorem passed_leaf {info : Info} {value : PropertyValue} {passedValue : Value}
    (shows : passed dialect info value = .ok passedValue) : passedValue.map? = none := by
  have leaf : (if info.boolean && dialect = .selectorDom then .text "" else ofPropertyValue info value).map? =
      none := by
    split
    · rfl
    · cases value <;> rfl
  rw [passed_eq_shown, shown] at shows
  revert leaf
  generalize (if info.boolean && dialect = .selectorDom then Value.text "" else ofPropertyValue info value) =
    whole at shows
  intro leaf
  split at shows
  · split at shows
    · split at shows
      · cases shows
        rfl
      · cases shows
    · cases shows
      rfl
  · cases shows
    exact leaf

/-- What adding a property does, whatever was there before. -/
inductive Adds (schema : Schema) (dialect : Dialect) (space : Space) (property : String × PropertyValue) : Prop
  | nothing (adds : ∀ attributes, add schema dialect space attributes property.1 property.2 = .ok attributes)
  | entry (kept : isKept schema dialect space property = true) (value : Value) (leaf : value.map? = none)
    (adds : ∀ attributes, add schema dialect space attributes property.1 property.2 =
      .ok (place attributes (slotOf schema dialect space property.1) value))
  | fault (fault : Style.Error) (rejected : IsRejectedStyle schema dialect space property fault)
    (adds : ∀ attributes, add schema dialect space attributes property.1 property.2 = .error fault)

theorem adds (schema : Schema) (dialect : Dialect) (space : Space) (property : String × PropertyValue) :
    Adds schema dialect space property := by
  cases dropped : isDropped dialect (schema.find space property.1) property.2 with
  | true => exact .nothing (add_of_isDropped dropped)
  | false =>
    have kept : isKept schema dialect space property = true := by simp [isKept, dropped]
    cases shows : passed dialect (schema.find space property.1) property.2 with
    | ok value =>
      refine .entry kept value (passed_leaf shows) fun attributes => ?_
      rw [add_of_not_isDropped dropped, shows]
      rfl
    | error fault =>
      have failed : ∀ attributes, add schema dialect space attributes property.1 property.2 = .error fault := by
        intro attributes
        rw [add_of_not_isDropped dropped, shows]
      exact .fault fault (add_error_iff.mp (failed ∅)).2 failed

/-- A property added in front of both keeps two outcomes alike. -/
theorem addAll_cons_same {attributes attributes' : Attributes} (same : Attributes.Same attributes attributes')
    (property : String × PropertyValue) {rest rest' : List (String × PropertyValue)}
    (later : ∀ {reached reached' : Attributes}, Attributes.Same reached reached' → SameOutcome Attributes.Same
      (addAll schema dialect space reached rest) (addAll schema dialect space reached' rest')) :
    SameOutcome Attributes.Same (addAll schema dialect space attributes (property :: rest))
      (addAll schema dialect space attributes' (property :: rest')) := by
  rw [addAll, addAll]
  cases adds schema dialect space property with
  | nothing adds =>
    rw [adds, adds]
    exact later same
  | entry _ value leaf adds =>
    rw [adds, adds]
    exact later (same.place _ leaf)
  | fault fault _ adds =>
    rw [adds, adds]
    exact .error fault

theorem addAll_same {attributes attributes' : Attributes} (same : Attributes.Same attributes attributes')
    (properties : List (String × PropertyValue)) :
    SameOutcome Attributes.Same (addAll schema dialect space attributes properties)
      (addAll schema dialect space attributes' properties) := by
  induction properties generalizing attributes attributes' with
  | nil => exact .ok same
  | cons property rest ih => exact addAll_cons_same same property ih

theorem outerKey_ne {name other : String} (kinds : (slotOf .standard dialect space name).isFlat ≠
      (slotOf .standard dialect space other).isFlat) :
    (slotOf .standard dialect space name).outerKey ≠ (slotOf .standard dialect space other).outerKey := by
  cases first : slotOf .standard dialect space name with
  | flat key =>
    cases second : slotOf .standard dialect space other with
    | flat => rw [first, second] at kinds; exact absurd rfl kinds
    | nested map => exact (standard_tells (ofInfo_eq_nested second).1 space).other name key first
  | nested map =>
    cases second : slotOf .standard dialect space other with
    | flat key => exact ((standard_tells (ofInfo_eq_nested first).1 space).other other key second).symm
    | nested => rw [first, second] at kinds; exact absurd rfl kinds

/-- Only the style property is rejected, so two rejected properties are spellings of one. -/
theorem slotOf_of_isRejectedStyle {property : String × PropertyValue} {fault : Style.Error}
    (rejected : IsRejectedStyle .standard dialect space property fault) :
    slotOf .standard dialect space property.1 = Slot.ofInfo .standard dialect styleRow := by
  have named : (Schema.standardFind space property.1).propertyName = "style" := rejected.2.1
  have found : Schema.standardFind space property.1 = styleRow := by
    rcases standardFind_cases space property.1 with member | ordinary
    · rcases eq_of_isClassOrStyle member (by simp [isClassOrStyle, named]) with same | same
      · rw [same] at named
        exact absurd named (by decide)
      · exact same
    · have place := ordinary.place
      simp [isClassOrStyle, named] at place
  exact congrArg (Slot.ofInfo .standard dialect) found

/-- Two neighbours may be added in either order. At most one of them is rejected, and if one is, its fault is
the outcome in both orders. -/
theorem addAll_swap {attributes attributes' : Attributes} (same : Attributes.Same attributes attributes')
    {property other : String × PropertyValue} (apart : Apart .standard dialect space property other)
    (rest : List (String × PropertyValue)) :
    SameOutcome Attributes.Same (addAll .standard dialect space attributes (property :: other :: rest))
      (addAll .standard dialect space attributes' (other :: property :: rest)) := by
  simp only [addAll]
  cases adds .standard dialect space property with
  | nothing first =>
    cases adds .standard dialect space other with
    | nothing second =>
      simp only [first, second]
      exact addAll_same same rest
    | entry _ value leaf second =>
      simp only [first, second]
      exact addAll_same (same.place _ leaf) rest
    | fault fault _ second =>
      simp only [first, second]
      exact .error fault
  | entry kept value leaf first =>
    cases adds .standard dialect space other with
    | nothing second =>
      simp only [first, second]
      exact addAll_same (same.place _ leaf) rest
    | entry kept' value' leaf' second =>
      simp only [first, second]
      exact addAll_same (same.place_comm (apart kept kept') outerKey_ne leaf leaf') rest
    | fault fault _ second =>
      simp only [first, second]
      exact .error fault
  | fault fault rejected first =>
    cases adds .standard dialect space other with
    | nothing second =>
      simp only [first, second]
      exact .error fault
    | entry _ value leaf second =>
      simp only [first, second]
      exact .error fault
    | fault _ rejected' _ =>
      refine absurd ?_ (apart (by simp [isKept, rejected.1]) (by simp [isKept, rejected'.1]))
      rw [slotOf_of_isRejectedStyle rejected, slotOf_of_isRejectedStyle rejected']

/-- The order of properties does not matter, neither for the attributes nor for a fault. -/
theorem addAll_perm {properties properties' : List (String × PropertyValue)} (perm : properties.Perm properties')
    (apart : properties.Pairwise (Apart .standard dialect space)) {attributes attributes' : Attributes}
    (same : Attributes.Same attributes attributes') :
    SameOutcome Attributes.Same (addAll .standard dialect space attributes properties)
      (addAll .standard dialect space attributes' properties') := by
  induction perm generalizing attributes attributes' with
  | nil => exact .ok same
  | cons property _ ih =>
    exact addAll_cons_same same property (ih (List.pairwise_cons.mp apart).2)
  | swap property other rest =>
    exact addAll_swap same ((List.pairwise_cons.mp apart).1 property (List.mem_cons_self ..)) rest
  | trans first _ ih ih' =>
    have between := (first.pairwise_iff Apart.symm).mp apart
    exact (ih apart same).trans (ih' between (same.symm.trans same)) Attributes.Same.trans

end Attributes

namespace Rendering

variable {σ ν : Type}

/-- The same name with equal attributes. -/
def SameShape (shaped shaped' : String × Attributes) : Prop :=
  shaped.1 = shaped'.1 ∧ Attributes.Same shaped.2 shaped'.2

/-- Elements that differ in the order of their properties are given the same name and equal attributes, or
the same fault. -/
theorem shape_perm {rendering : Rendering σ ν} (standard : rendering.schema = .standard) (space : Space)
    {element element' : Element} (tag : element.tag = element'.tag)
    (perm : element.properties.entries.Perm element'.properties.entries)
    (apart : element.properties.entries.Pairwise (Attributes.Apart .standard rendering.dialect space)) :
    SameOutcome SameShape (rendering.shape space element) (rendering.shape space element') := by
  have added := Attributes.addAll_perm perm apart .empty
  unfold shape Attributes.ofProperties
  rw [standard, tag]
  revert added
  generalize Attributes.addAll .standard rendering.dialect space ∅ element.properties.entries = outcome
  generalize Attributes.addAll .standard rendering.dialect space ∅ element'.properties.entries = outcome'
  intro added
  cases added with
  | error fault => exact .error fault
  | @ok attributes attributes' same =>
    have spaced : Attributes.Same
        (if rendering.dialect.namesSpace && space ≠ .html then attributes.insert "namespace" (.text space.uri)
          else attributes)
        (if rendering.dialect.namesSpace && space ≠ .html then attributes'.insert "namespace" (.text space.uri)
          else attributes') := by
      split
      · exact same.insert "namespace" (.leaf rfl)
      · exact same
    refine .ok ?_
    split
    · exact Selector.fold_same spaced _
    · exact ⟨rfl, spaced⟩

theorem keyed_same (rendering : Rendering σ ν) (number : Nat) {attributes attributes' : Attributes}
    (same : Attributes.Same attributes attributes') :
    Attributes.Same (rendering.keyed number attributes) (rendering.keyed number attributes') := by
  unfold keyed
  split
  · exact same
  · exact same.insert "key" (.leaf rfl)

end Rendering

end Hyperscript
