import Hyperscript.Proofs.TokenLists

namespace Hyperscript

namespace Number

/-- The characters that numbers are printed with. -/
def isPrinted (c : Char) : Bool :=
  c.isDigit || ['-', '.', 'N', 'a', 'i', 'n', 'f'].contains c

/-- What holds of the ten digits and of seven more characters holds of all that numbers are printed with. -/
theorem holds_of_isPrinted (holds : Char → Bool) (digits : ∀ n : Fin 10, holds (Char.ofNat (0x30 + n)) = true)
    (others : ['-', '.', 'N', 'a', 'i', 'n', 'f'].all holds = true) {c : Char} (printed : isPrinted c = true) :
    holds c = true := by
  rcases Bool.or_eq_true_iff.mp printed with digit | other
  · simp only [Char.isDigit, Bool.and_eq_true, decide_eq_true_eq] at digit
    have first : 0x30 ≤ c.toNat := digit.1
    have last : c.toNat ≤ 0x39 := digit.2
    have same := digits ⟨c.toNat - 0x30, by omega⟩
    rwa [show 0x30 + (c.toNat - 0x30) = c.toNat by omega, Char.ofNat_toNat] at same
  · exact List.all_eq_true.mp others c (List.contains_iff_mem.mp other)

/-- No comma is printed in a number, so numbers can be items. -/
theorem ne_comma_of_isPrinted {c : Char} (printed : isPrinted c = true) : c ≠ ',' :=
  bne_iff_ne.mp (holds_of_isPrinted (· != ',') (by decide) rfl printed)

theorem isBlank_of_isPrinted {c : Char} (printed : isPrinted c = true) : Text.isBlank c = false := by
  have kept := holds_of_isPrinted (!Text.isBlank ·) (by decide) rfl printed
  rwa [Bool.not_eq_true'] at kept

theorem isPrinted_toDigits {n : Nat} : ∀ c ∈ Nat.toDigits 10 n, isPrinted c = true := by
  intro c member
  rw [isPrinted, Nat.isDigit_of_mem_toDigits (by decide) (by decide) member, Bool.true_or]

theorem isPrinted_zeros {count : Nat} : ∀ c ∈ List.replicate count '0', isPrinted c = true := by
  intro c member
  rw [List.eq_of_mem_replicate member]
  rfl

theorem isPrinted_sign {negative : Bool} : ∀ c ∈ sign negative, isPrinted c = true := by
  cases negative <;> exact List.all_eq_true.mp rfl

/-- A decimal is digits, zeros to fill up, and a point. -/
theorem isPrinted_decimal (decimal : Decimal) : ∀ c ∈ decimal.toChars, isPrinted c = true := by
  unfold Decimal.toChars
  split
  · exact List.forall_mem_append.mpr ⟨isPrinted_toDigits, isPrinted_zeros⟩
  · have padded : ∀ count, ∀ c ∈ List.replicate count '0' ++ Nat.toDigits 10 decimal.digits, isPrinted c = true :=
      fun count => List.forall_mem_append.mpr ⟨isPrinted_zeros, isPrinted_toDigits⟩
    refine List.forall_mem_append.mpr ⟨?_, List.forall_mem_cons.mpr ⟨rfl, ?_⟩⟩
    · exact fun c whole => padded _ c (List.mem_of_mem_take whole)
    · exact fun c places => padded _ c (List.mem_of_mem_drop places)

/-- A number is printed with these characters only, whichever it is. -/
theorem isPrinted_toChars (number : Number) : ∀ c ∈ number.toChars, isPrinted c = true := by
  cases number with
  | nan => exact List.all_eq_true.mp rfl
  | infinite negative => exact List.forall_mem_append.mpr ⟨isPrinted_sign, List.all_eq_true.mp rfl⟩
  | finite negative significand exponent canonical =>
    rw [toChars]
    split
    · exact List.forall_mem_append.mpr ⟨isPrinted_sign, List.all_eq_true.mp rfl⟩
    · exact List.forall_mem_append.mpr ⟨isPrinted_sign, isPrinted_decimal _⟩

end Number

namespace TokenList

open Style Text

/-- A text that can be an item of a comma-separated list: no comma in it and no blank at its ends. It may be empty. -/
structure IsItem (text : String) : Prop where
  no_comma : ',' ∉ text.toList
  trimmed : Trimmed text.toList

/-- Each number is an item when it is written down. -/
theorem isItem_number (value : Number) : IsItem value.toText := by
  have printed : ∀ c ∈ value.toText.toList, Number.isPrinted c = true := by
    rw [Number.toText, String.toList_ofList]
    exact value.isPrinted_toChars
  refine ⟨fun comma => Number.ne_comma_of_isPrinted (printed ',' comma) rfl, fun c first => ?_, fun c last => ?_⟩
  · exact Number.isBlank_of_isPrinted (printed c (List.mem_of_mem_head? first))
  · exact Number.isBlank_of_isPrinted (printed c (List.mem_of_getLast? last))

/-- Comma-separated lists of items are read as they were written, wherever items are empty and whatever numbers are
among them, and reading what is printed again for a text gives what was read first. -/
theorem commaLists_round_trip :
    (∀ tokens : List Token, (∀ text, .text text ∈ tokens → IsItem text) →
      parseCommas (printCommas tokens) = tokens.map Token.toText) ∧
    ∀ value, parseCommas (printCommas ((parseCommas value).map .text)) = parseCommas value := by
  refine ⟨fun tokens items => parseCommas_printCommas fun token member => ?_, parseCommas_printCommas_parseCommas⟩
  have item : IsItem token.toText := by
    cases token with
    | text text => exact items text member
    | number value => exact isItem_number value
  exact ⟨item.no_comma, item.trimmed⟩

/-- Items with gaps before and behind them. The number is -1.5. -/
def gappedItems : List Token :=
  [.text "", .number (.finite true 6755399441055744 (-52) (by decide)), .text "a b", .text ""]

theorem commaLists_round_trip_gaps :
    (∀ text, Token.text text ∈ gappedItems → IsItem text) ∧
    parseCommas (printCommas gappedItems) = ["", "-1.5", "a b", ""] ∧
    parseCommas (printCommas ((parseCommas " ,-1.5,, a b ,").map .text)) = parseCommas " ,-1.5,, a b ," := by
  have items : ∀ text, Token.text text ∈ gappedItems → IsItem text := by
    intro text member
    simp only [gappedItems, List.mem_cons, Token.text.injEq, reduceCtorEq, List.not_mem_nil, false_or, or_false]
      at member
    rcases member with rfl | rfl | rfl
    all_goals exact ⟨by decide, by decide⟩
  have texts : gappedItems.map Token.toText = ["", "-1.5", "a b", ""] := by decide +kernel
  exact ⟨items, texts ▸ commaLists_round_trip.1 _ items, commaLists_round_trip.2 _⟩

end TokenList

end Hyperscript
