import Mathlib.Data.List.Infix
import Mathlib.Data.List.TakeWhile
import Hyperscript.Style.Declarations

namespace Hyperscript.Style

open Text

/-- There is no blank at either end. -/
structure Trimmed (chars : List Char) : Prop where
  start : ∀ c ∈ chars.head?, isBlank c = false
  stop : ∀ c ∈ chars.getLast?, isBlank c = false

/-- A name that can be written down and read again. What a colon, a semicolon or a comment would end or break is
left out, and so is a brace in front, which would end the list. -/
structure PrintableName (chars : List Char) : Prop where
  nonempty : chars ≠ []
  trimmed : Trimmed chars
  no_colon : ':' ∉ chars
  no_semicolon : ';' ∉ chars
  no_comment : ¬ ['/', '*'] <:+: chars
  no_brace : '\x7d' ∉ chars.head?

/-- Whether a value may go on like this inside the given quote, if any, and the given number of open
parentheses: all are closed in the end, and no delimiter and no comment stands outside them. A backslash
in quotes takes the next character with it; a parenthesis that closes nothing is content. -/
def mayGoOn : Option Char → Nat → List Char → Bool
  | none, depth, [] => depth = 0
  | some _, _, [] => false
  | some quote, depth, '\\' :: _ :: rest => mayGoOn (some quote) depth rest
  | some quote, depth, c :: rest => mayGoOn (if c = quote then none else some quote) depth rest
  | none, depth, c :: rest =>
    if isQuote c then mayGoOn (some c) depth rest
    else if depth = 0 && (c = ';' || c = '\x7d' || (c = '/' && rest.head? = some '*')) then false
    else mayGoOn none (if c = '(' then depth + 1 else if c = ')' then depth - 1 else depth) rest

/-- A value that can be written down and read again. -/
structure PrintableValue (chars : List Char) : Prop where
  trimmed : Trimmed chars
  closed : mayGoOn none 0 chars = true

theorem all_not_blank_iff (c? : Option Char) :
    (c?.all fun c => !isBlank c) = true ↔ ∀ c ∈ c?, isBlank c = false := by
  cases c? <;> simp

instance (chars : List Char) : Decidable (Trimmed chars) :=
  decidable_of_iff ((chars.head?.all fun c => !isBlank c) = true ∧ (chars.getLast?.all fun c => !isBlank c) = true)
    ⟨fun found => ⟨(all_not_blank_iff _).mp found.1, (all_not_blank_iff _).mp found.2⟩,
      fun trimmed => ⟨(all_not_blank_iff _).mpr trimmed.start, (all_not_blank_iff _).mpr trimmed.stop⟩⟩

instance (chars : List Char) : Decidable (PrintableName chars) :=
  decidable_of_iff (chars ≠ [] ∧ Trimmed chars ∧ ':' ∉ chars ∧ ';' ∉ chars ∧ ¬ ['/', '*'] <:+: chars ∧
      '\x7d' ∉ chars.head?)
    ⟨fun ⟨a, b, c, d, e, f⟩ => ⟨a, b, c, d, e, f⟩, fun ⟨a, b, c, d, e, f⟩ => ⟨a, b, c, d, e, f⟩⟩

instance (chars : List Char) : Decidable (PrintableValue chars) :=
  decidable_of_iff (Trimmed chars ∧ mayGoOn none 0 chars = true)
    ⟨fun found => ⟨found.1, found.2⟩, fun printable => ⟨printable.trimmed, printable.closed⟩⟩

/-- Characters that pass and closed comments, in any order. -/
inductive Trivia (passes : Char → Bool) : List Char → Prop
  | nil : Trivia passes []
  | char {c text} : passes c = true → Trivia passes text → Trivia passes (c :: text)
  | comment {body text} : ¬ ['*', '/'] <:+: body → Trivia passes text →
      Trivia passes ('/' :: '*' :: (body ++ '*' :: '/' :: text))

/-- What may stand around a name and around a value. -/
def Gap : List Char → Prop := Trivia isBlank

/-- What may stand around a declaration. -/
def Filler : List Char → Prop := Trivia fun c => isBlank c || c = ';'

/-- A declaration as a text, with gaps around its name and its value. -/
inductive Spelled (declaration : Declaration) : List Char → Prop
  | mk {a b c d} : Gap a → Gap b → Gap c → Gap d →
      PrintableName declaration.name.toList → PrintableValue declaration.value.toList →
      Spelled declaration (a ++ declaration.name.toList ++ b ++ ':' :: (c ++ declaration.value.toList ++ d))

/-- Declarations as a text, with a semicolon between two of them and filler wherever it may stand. -/
inductive Layout : List Declaration → List Char → Prop
  | empty {tail} : Filler tail → Layout [] tail
  | last {declaration lead spelling tail} : Filler lead → Spelled declaration spelling → Filler tail →
      Layout [declaration] (lead ++ spelling ++ tail)
  | more {declaration rest lead spelling between later} : Filler lead → Spelled declaration spelling →
      Filler between → Layout rest later →
      Layout (declaration :: rest) (lead ++ spelling ++ between ++ ';' :: later)

/-- The plain spelling of some declarations, with nothing around their parts. -/
def print : List Declaration → List Char
  | [] => []
  | [only] => only.name.toList ++ ':' :: only.value.toList
  | declaration :: rest => declaration.name.toList ++ ':' :: declaration.value.toList ++ ';' :: print rest

theorem forall_mem_none {α : Type} {holds : α → Prop} : ∀ a ∈ (none : Option α), holds a := nofun

theorem ne_of_isBlank {c solid : Char} (blank : isBlank c = true) (other : isBlank solid = false) : c ≠ solid := by
  rintro rfl
  rw [blank] at other
  cases other

theorem isQuote_of_isBlank {c : Char} (blank : isBlank c = true) : ¬ isQuote c = true := by
  simp only [isQuote, Bool.or_eq_true, decide_eq_true_eq, not_or]
  exact ⟨ne_of_isBlank blank (by decide), ne_of_isBlank blank (by decide)⟩

/-- Blanks in front are dropped, and nothing more. -/
theorem dropWhile_blanks {blanks rest : List Char} (blank : ∀ c ∈ blanks, isBlank c = true)
    (start : ∀ c ∈ rest.head?, isBlank c = false) : (blanks ++ rest).dropWhile isBlank = rest := by
  rw [List.dropWhile_append_of_pos blank]
  cases rest with
  | nil => rfl
  | cons c rest => rw [List.dropWhile_cons_of_neg (by simp [start c rfl])]

/-- Trimming takes away what was put around a trimmed text, if that was blank. -/
theorem Trimmed.trim_eq {before chars after : List Char} (trimmed : Trimmed chars)
    (first : ∀ c ∈ before, isBlank c = true) (last : ∀ c ∈ after, isBlank c = true) :
    trim (before ++ chars ++ after) = chars := by
  have reversed : ∀ c ∈ after.reverse, isBlank c = true := fun c member => last c (List.mem_reverse.mp member)
  have right : trimRight (chars ++ after) = chars := by
    rw [trimRight, List.reverse_append, dropWhile_blanks reversed, List.reverse_reverse]
    rw [List.head?_reverse]
    exact trimmed.stop
  cases chars with
  | nil =>
    have blank : ∀ c ∈ before ++ after, isBlank c = true := fun c member =>
      (List.mem_append.mp member).elim (first c) (last c)
    rw [List.append_nil, trim, trimLeft, List.dropWhile_eq_nil_iff.mpr blank]
    rfl
  | cons c rest =>
    have left : trimLeft (before ++ (c :: rest ++ after)) = c :: rest ++ after :=
      dropWhile_blanks first trimmed.start
    rw [List.append_assoc, trim, left, right]

/-- A text is its trimmed part with blanks on both sides. -/
theorem exists_trim (chars : List Char) : ∃ before after, (∀ c ∈ before, isBlank c = true) ∧
    (∀ c ∈ after, isBlank c = true) ∧ chars = before ++ trim chars ++ after := by
  refine ⟨chars.takeWhile isBlank, ((trimLeft chars).reverse.takeWhile isBlank).reverse, ?_, ?_, ?_⟩
  · exact fun c member => List.mem_takeWhile_imp member
  · exact fun c member => List.mem_takeWhile_imp (List.mem_reverse.mp member)
  · have split := congrArg List.reverse
      (@List.takeWhile_append_dropWhile _ isBlank (trimLeft chars).reverse)
    rw [List.reverse_append, List.reverse_reverse] at split
    rw [List.append_assoc, trim, trimRight, split, trimLeft, List.takeWhile_append_dropWhile]

/-- Trimming leaves no blank at either end. -/
theorem trimmed_trim (chars : List Char) : Trimmed (trim chars) := by
  constructor
  · intro c first
    obtain ⟨rest, same⟩ : ∃ rest, trim chars = c :: rest := List.head?_eq_some_iff.mp first
    have upper : trim chars <+: trimLeft chars := by
      rw [trim, trimRight, ← List.reverse_suffix, List.reverse_reverse]
      exact List.dropWhile_suffix _
    rw [same] at upper
    obtain ⟨more, whole⟩ := upper
    have start := List.head?_dropWhile_not isBlank chars
    rw [← trimLeft, ← whole] at start
    simpa using start
  · intro c last
    rw [trim, trimRight, List.getLast?_reverse] at last
    have start := List.head?_dropWhile_not isBlank (trimLeft chars).reverse
    rw [Option.mem_def.mp last] at start
    simpa using start

end Hyperscript.Style
