import Hyperscript.Proofs.StyleWritten

namespace Hyperscript.Style

/-- Where a reader stands in a value, told from what it has passed: outside quotes with so many parentheses
open, behind a slash that may begin a comment, in a comment, in one behind an asterisk, in a quoted string,
or in one behind a backslash. -/
inductive Scope
  | content (depth : Nat)
  | slash
  | comment
  | star
  | quoted (quote : Char) (depth : Nat)
  | escaped (quote : Char) (depth : Nat)
  deriving DecidableEq, Repr

namespace Scope

/-- A closing parenthesis that closes nothing is content, and comments are known outside parentheses only. -/
def ofContent (depth : Nat) (c : Char) : Scope :=
  if isQuote c then .quoted c depth
  else if c = '(' then .content (depth + 1)
  else if c = ')' then .content (depth - 1)
  else if depth = 0 ∧ c = '/' then .slash
  else .content depth

def next : Scope → Char → Scope
  | .content depth, c => ofContent depth c
  | .slash, c => if c = '*' then .comment else ofContent 0 c
  | .comment, c => if c = '*' then .star else .comment
  | .star, c => if c = '/' then .content 0 else if c = '*' then .star else .comment
  | .quoted quote depth, c =>
    if c = '\\' then .escaped quote depth else if c = quote then .content depth else .quoted quote depth
  | .escaped quote depth, _ => .quoted quote depth

def run (scope : Scope) (text : List Char) : Scope :=
  text.foldl next scope

/-- Neither in quotes nor in a comment. -/
def IsContent : Scope → Prop
  | .content _ | .slash => True
  | _ => False

/-- Outside all quotes, parentheses and comments. -/
def IsOutside : Scope → Prop
  | .content depth => depth = 0
  | .slash => True
  | _ => False

/-- The number of open parentheses. -/
def depth : Scope → Nat
  | .content depth | .quoted _ depth | .escaped _ depth => depth
  | _ => 0

/-- `holds` of each character of a text and of where the reader stands in front of it. -/
def Along (holds : Scope → Char → Prop) : Scope → List Char → Prop
  | _, [] => True
  | scope, c :: rest => holds scope c ∧ Along holds (scope.next c) rest

/-- A character that would end a value stands in quotes, in parentheses or in a comment. -/
def Guards (scope : Scope) (c : Char) : Prop :=
  scope.IsOutside → c ≠ ';' ∧ c ≠ '\x7d'

variable {holds weaker : Scope → Char → Prop} {scope : Scope} {text first second : List Char}

/-- Where a reader stands depends on what it has passed, piece by piece. -/
theorem run_append (scope : Scope) (first second : List Char) :
    scope.run (first ++ second) = (scope.run first).run second :=
  List.foldl_append

theorem along_append : Along holds scope (first ++ second) ↔
    Along holds scope first ∧ Along holds (scope.run first) second := by
  induction first generalizing scope with
  | nil => simp [Along, run]
  | cons c first ih => simp only [List.cons_append, Along, ih, and_assoc]; rfl

/-- What holds along a text may be weakened at each place. -/
theorem Along.imp (along : Along holds scope text) (implies : ∀ scope c, holds scope c → weaker scope c) :
    Along weaker scope text := by
  induction text generalizing scope with
  | nil => trivial
  | cons c text ih => exact ⟨implies _ _ along.1, ih along.2⟩

theorem isOutside_slash : slash.IsOutside ↔ (content 0).IsOutside :=
  iff_of_true trivial rfl

/-- A slash that no asterisk follows was content. -/
theorem next_slash {c : Char} (other : c ≠ '*') : slash.next c = (content 0).next c :=
  if_neg other

/-- Outside quotes and comments the scanner's open parentheses are those of the reader. -/
theorem next_content {nesting : Nesting} {c : Char} (plain : ¬ isQuote c = true)
    (apart : nesting = [] → c ≠ '/') (text : List Char) :
    (content nesting.length).next c = content (nesting.after c text).length := by
  have other : ¬ (nesting.length = 0 ∧ c = '/') := fun both => apart (List.length_eq_zero_iff.mp both.1) both.2
  rw [next, ofContent, if_neg plain, if_neg other, nesting.length_after]
  split
  · rfl
  · split <;> rfl

end Scope

open Scope

/-- Up to its closing quote a reader stands in the string, and behind it where it stood in front. -/
theorem closeQuote?_scope {quote : Char} {text inside after : List Char} (named : isQuote quote = true)
    (closed : closeQuote? quote text = some (inside, after)) (depth : Nat) : text = inside ++ after ∧
      (quoted quote depth).run inside = content depth ∧
      Along (fun scope _ => scope = quoted quote depth ∨ scope = escaped quote depth) (quoted quote depth) inside := by
  have other : quote ≠ '\\' := by rintro rfl; exact absurd named (by decide)
  fun_induction closeQuote? quote text generalizing inside with
  | case1 => cases closed
  | case2 next text ih =>
    simp only [Option.map_eq_some_iff, Prod.mk.injEq, Prod.exists] at closed
    obtain ⟨inner, _, found, rfl, rfl⟩ := closed
    obtain ⟨rfl, ends, along⟩ := ih found
    exact ⟨rfl, ends, Or.inl rfl, Or.inr rfl, along⟩
  | case3 text =>
    cases closed
    have ends : (quoted quote depth).next quote = content depth := by rw [Scope.next, if_neg other, if_pos rfl]
    exact ⟨rfl, ends, Or.inl rfl, trivial⟩
  | case4 c text plain different ih =>
    simp only [Option.map_eq_some_iff, Prod.mk.injEq, Prod.exists] at closed
    obtain ⟨inner, after, found, rfl, rfl⟩ := closed
    obtain ⟨rfl, ends, along⟩ := ih found
    have stays : (quoted quote depth).next c = quoted quote depth := by
      rw [Scope.next, if_neg, if_neg different]
      intro escape
      cases whole : inner ++ after with
      | nil => rw [whole] at found; cases found
      | cons d others => exact plain d others escape whole
    refine ⟨rfl, ?_, Or.inl rfl, ?_⟩
    · rw [run, List.foldl_cons, stays]; exact ends
    · rw [stays]; exact along

/-- A quote begins a string that nothing closes: each quote of its kind behind it stands behind a backslash. -/
def LeavesStringOpen (text : List Char) : Prop :=
  ∃ quote after, text = quote :: after ∧ isQuote quote = true ∧
    Along (fun scope c => c = quote → scope = escaped quote 0) (quoted quote 0) after

/-- A string that is not closed has no quote of its kind that is not behind a backslash. -/
theorem closeQuote?_none {quote : Char} {text : List Char} (named : isQuote quote = true)
    (unclosed : closeQuote? quote text = none) :
    Along (fun scope c => c = quote → scope = escaped quote 0) (quoted quote 0) text := by
  have other : quote ≠ '\\' := by rintro rfl; exact absurd named (by decide)
  fun_induction closeQuote? quote text with
  | case1 => trivial
  | case2 next text ih =>
    exact ⟨fun same => absurd same.symm other, fun _ => rfl, ih (Option.map_eq_none_iff.mp unclosed)⟩
  | case3 => cases unclosed
  | case4 c text plain different ih =>
    refine ⟨fun same => absurd same different, ?_⟩
    by_cases escape : c = '\\'
    · cases text with
      | nil => trivial
      | cons d others => exact absurd rfl (plain d others escape)
    · rw [Scope.next, if_neg escape, if_neg different]
      exact ih (Option.map_eq_none_iff.mp unclosed)

theorem closeComment?_scope {text after : List Char} (closed : closeComment? text = some after) :
    ∃ inside, text = inside ++ after ∧ Scope.comment.run inside = content 0 ∧
      Along (fun scope _ => scope = .comment ∨ scope = .star) .comment inside := by
  fun_induction closeComment? text with
  | case1 =>
    cases closed
    exact ⟨['*', '/'], rfl, rfl, Or.inl rfl, Or.inr rfl, trivial⟩
  | case2 c text other ih =>
    obtain ⟨inside, rfl, ends, along⟩ := ih closed
    refine ⟨c :: inside, rfl, ?_⟩
    by_cases asterisk : c = '*'
    · subst asterisk
      cases inside with
      | nil => cases ends
      | cons d inside =>
        -- An asterisk that the next character does not make a closer is forgotten.
        have slash : d ≠ '/' := fun same => other (inside ++ after) rfl (by rw [same]; rfl)
        have same : Scope.star.next d = Scope.comment.next d := if_neg slash
        exact ⟨by rw [← ends]; exact congrArg (run · inside) same, Or.inl rfl, Or.inr rfl, same ▸ along.2⟩
    · have same : Scope.comment.next c = .comment := if_neg asterisk
      exact ⟨by rw [← ends]; exact congrArg (run · inside) same, Or.inl rfl, same.symm ▸ along⟩
  | case3 => cases closed

/-- Up to its closer a reader stands in the comment, and behind it outside. -/
theorem comment_scope {text after : List Char} (closed : Style.comment text = .closed after) :
    ∃ body, text = '/' :: '*' :: body ++ after ∧ (content 0).run ('/' :: '*' :: body) = content 0 ∧
      Along (fun scope _ => scope = .comment ∨ scope = .star) .comment body := by
  unfold Style.comment at closed
  split at closed
  · split at closed
    · next found =>
      cases closed
      obtain ⟨body, rfl, ends, along⟩ := closeComment?_scope found
      exact ⟨body, rfl, ends, along⟩
    · cases closed
  · cases closed

/-- Where a reader stands behind a text that it has taken for content: no delimiter in it stood outside. -/
structure Passes (goal : Scope → Prop) (depth : Nat) (written : List Char) : Prop where
  reached : goal ((content depth).run written)
  guarded : Along Guards (content depth) written

variable {goal : Scope → Prop} {depth : Nat} {written : List Char}

theorem Passes.nil (holds : goal (content depth)) : Passes goal depth [] :=
  ⟨holds, trivial⟩

/-- A slash that opens no comment makes no difference. -/
theorem Passes.behind_slash (free : goal slash ↔ goal (content 0)) (apart : written.head? ≠ some '*')
    (passes : Passes goal 0 written) : goal (slash.run written) ∧ Along Guards slash written := by
  obtain ⟨reached, guarded⟩ := passes
  cases written with
  | nil => exact ⟨free.mpr reached, trivial⟩
  | cons c written =>
    have same : slash.next c = (content 0).next c := next_slash fun star => apart (by rw [star]; rfl)
    refine ⟨?_, fun _ => guarded.1 rfl, same ▸ guarded.2⟩
    rw [run, List.foldl_cons, same]
    exact reached

/-- One more character of content in front. A slash may be the last thing outside, so what follows it decides
whether it was content. -/
theorem Passes.cons (free : goal slash ↔ goal (content 0)) {nesting : Nesting} {c : Char} {text rest : List Char}
    (quoted : ¬ isQuote c = true)
    (plain : nesting = [] → (c ≠ ';' ∧ c ≠ '\x7d') ∧ Style.comment (c :: text) = .absent)
    (whole : text = written ++ rest) (passes : Passes goal (nesting.after c text).length written) :
    Passes goal nesting.length (c :: written) := by
  have guard : Guards (content nesting.length) c := fun outside => (plain (List.length_eq_zero_iff.mp outside)).1
  by_cases slashed : nesting = [] ∧ c = '/'
  · obtain ⟨rfl, rfl⟩ := slashed
    have apart : written.head? ≠ some '*' := by
      intro star
      obtain ⟨later, rfl⟩ := List.head?_eq_some_iff.mp star
      exact head?_ne_of_comment_absent (plain rfl).2 (by rw [whole]; rfl)
    obtain ⟨reached, guarded⟩ := passes.behind_slash free apart
    exact ⟨reached, guard, guarded⟩
  · have step := next_content quoted (fun outside same => slashed ⟨outside, same⟩) text
    refine ⟨?_, guard, step ▸ passes.guarded⟩
    rw [run, List.foldl_cons, step]
    exact passes.reached

/-- A whole string in front: no delimiter in it stands outside. -/
theorem Passes.string {quote : Char} {text inside after : List Char} (named : isQuote quote = true)
    (closed : closeQuote? quote text = some (inside, after)) (passes : Passes goal depth written) :
    Passes goal depth (quote :: inside ++ written) := by
  obtain ⟨_, ends, along⟩ := closeQuote?_scope named closed depth
  have opens : (content depth).next quote = quoted quote depth := if_pos named
  have inert : Guards (content depth) quote := by
    rintro - 
    simp only [isQuote, Bool.or_eq_true, decide_eq_true_eq] at named
    rcases named with rfl | rfl <;> decide
  constructor
  · rw [List.cons_append, run, List.foldl_cons, opens, ← run, run_append, ends]
    exact passes.reached
  · refine ⟨inert, opens.symm ▸ along_append.mpr ⟨along.imp ?_, ends.symm ▸ passes.guarded⟩⟩
    rintro _ c (rfl | rfl) outside <;> exact outside.elim

/-- A whole comment in front: no delimiter in it stands outside either. -/
theorem Passes.comment {text after : List Char} (closed : Style.comment text = .closed after)
    (passes : Passes goal 0 written) : ∃ inside, text = inside ++ after ∧ Passes goal 0 (inside ++ written) := by
  obtain ⟨body, whole, ends, along⟩ := comment_scope closed
  have guarded : Along Guards (content 0) ('/' :: '*' :: body) := by
    refine ⟨fun _ => by decide, fun _ => by decide, along.imp ?_⟩
    rintro _ c (rfl | rfl) outside <;> exact outside.elim
  refine ⟨'/' :: '*' :: body, whole, ?_, along_append.mpr ⟨guarded, ends.symm ▸ passes.guarded⟩⟩
  rw [run_append, ends]
  exact passes.reached

/-- What is read of a value leaves nothing open, and it ends before a delimiter or with the text. -/
theorem valueChars_written {nesting : Nesting} {text chars rest : List Char}
    (found : valueChars nesting text = .ok (chars, rest)) :
    ∃ written, text = written ++ rest ∧ Passes IsOutside nesting.length written ∧ Ends rest := by
  fun_induction valueChars nesting text generalizing chars with
  | case1 => cases found
  | case2 nesting outside =>
    cases found
    rw [List.getLast?_eq_none_iff] at outside
    exact ⟨[], rfl, .nil (by rw [outside]; rfl), forall_mem_none⟩
  | case3 => cases found
  | case4 nesting c text quoted inside after closed ih =>
    obtain ⟨inner, read, rfl⟩ := prepend_ok found
    obtain ⟨written, rfl, passes, ends⟩ := ih read
    obtain ⟨rfl, _⟩ := closeQuote?_scope quoted closed 0
    exact ⟨c :: inside ++ written, by simp, passes.string quoted closed, ends⟩
  | case5 nesting c text quoted outside delimiter =>
    cases found
    refine ⟨[], rfl, .nil (by rw [List.isEmpty_iff.mp outside]; rfl), ?_⟩
    rintro _ ⟨rfl⟩
    simpa using delimiter
  | case6 nesting c text quoted outside plain absent ih =>
    obtain ⟨inner, read, rfl⟩ := prepend_ok found
    obtain ⟨written, whole, passes, ends⟩ := ih read
    have content : (c ≠ ';' ∧ c ≠ '\x7d') ∧ Style.comment (c :: text) = .absent := ⟨by simpa using plain, absent⟩
    exact ⟨c :: written, by rw [whole]; rfl, .cons isOutside_slash quoted (fun _ => content) whole passes, ends⟩
  | case7 => cases found
  | case8 nesting c text quoted outside plain after closed ih =>
    obtain ⟨written, rfl, passes, ends⟩ := ih found
    obtain rfl := List.isEmpty_iff.mp outside
    obtain ⟨inside, whole, both⟩ := passes.comment closed
    exact ⟨inside ++ written, by simp [whole], both, ends⟩
  | case9 nesting c text quoted inside ih =>
    obtain ⟨inner, read, rfl⟩ := prepend_ok found
    obtain ⟨written, whole, passes, ends⟩ := ih read
    exact ⟨c :: written, by rw [whole]; rfl,
      .cons isOutside_slash quoted (fun outside => absurd outside (by simpa using inside)) whole passes, ends⟩

end Hyperscript.Style
