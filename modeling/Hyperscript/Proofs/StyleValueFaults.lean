import Hyperscript.Proofs.StyleScope

namespace Hyperscript.Style

open Scope

variable {depth : Nat}

/-- Parentheses are open all along a text and at its end, where no quote is. -/
structure StaysOpen (depth : Nat) (text : List Char) : Prop where
  along : Along (fun scope _ => 0 < scope.depth) (content depth) text
  ends : ∃ reached, (content depth).run text = content (reached + 1)

/-- What is wrong with a value from here on. -/
def Blames : FaultKind → List Char → Prop
  | .unterminatedComment, rest => LeavesCommentOpen rest
  | .unterminatedString, rest => LeavesStringOpen rest
  | .unclosedParenthesis, rest => ∃ after, rest = '(' :: after ∧ StaysOpen 1 after
  | _, _ => False

/-- Where a reader stands in front of what is wrong: a string may begin in parentheses, but a comment cannot,
and of the parentheses that stay open the outermost one is to blame. -/
def StandsAt : FaultKind → Scope → Prop
  | .unterminatedString => IsContent
  | _ => IsOutside

/-- A slash alone opens nothing. -/
theorem standsAt_slash (kind : FaultKind) : StandsAt kind slash ↔ StandsAt kind (content 0) := by
  cases kind with
  | unterminatedString => exact Iff.rfl
  | _ => exact iff_of_true trivial rfl

/-- Why a value cannot be read from a text on, and what of the text stands from the offender on. With some
parentheses open from before the text the outermost one of them may be to blame. -/
inductive ValueFault (nesting : Nesting) : List Char → Fault → Prop
  | within {kind written rest} : Passes (StandsAt kind) nesting.length written → Blames kind rest →
      ValueFault nesting (written ++ rest) ⟨kind, rest⟩
  | before {text outermost} : nesting.getLast? = some outermost → StaysOpen nesting.length text →
      ValueFault nesting text ⟨.unclosedParenthesis, outermost⟩

theorem StaysOpen.cons {nesting : Nesting} {c : Char} {text : List Char} (quoted : ¬ isQuote c = true)
    (inside : nesting ≠ []) (stays : StaysOpen (nesting.after c text).length text) :
    StaysOpen nesting.length (c :: text) := by
  have step := next_content quoted (fun outside => absurd outside inside) text
  obtain ⟨along, reached, ends⟩ := stays
  refine ⟨⟨List.length_pos_iff.mpr inside, step ▸ along⟩, reached, ?_⟩
  rw [run, List.foldl_cons, step]
  exact ends

/-- A closed string does not close the parentheses around it. -/
theorem StaysOpen.string {quote : Char} {text inside after : List Char} (named : isQuote quote = true)
    (closed : closeQuote? quote text = some (inside, after)) (positive : 0 < depth) (stays : StaysOpen depth after) :
    StaysOpen depth (quote :: text) := by
  obtain ⟨rfl, ends, along⟩ := closeQuote?_scope named closed depth
  have opens : (content depth).next quote = quoted quote depth := if_pos named
  obtain ⟨later, reached, last⟩ := stays
  refine ⟨⟨positive, opens.symm ▸ along_append.mpr ⟨along.imp ?_, ends.symm ▸ later⟩⟩, reached, ?_⟩
  · rintro _ _ (rfl | rfl) <;> exact positive
  · rw [run, List.foldl_cons, opens, ← run, run_append, ends, last]

/-- The outermost open parenthesis stays the outermost one until it is closed, and then none is open. -/
theorem Nesting.getLast?_after {nesting : Nesting} {c : Char} {text outermost : List Char}
    (last : (nesting.after c text).getLast? = some outermost) :
    nesting.getLast? = some outermost ∨ nesting = [] ∧ c = '(' ∧ outermost = c :: text := by
  unfold Nesting.after at last
  cases nesting with
  | nil =>
    split at last
    · next opening =>
      cases last
      exact Or.inr ⟨rfl, opening, rfl⟩
    · split at last <;> cases last
  | cons inner others =>
    left
    split at last
    · rwa [List.getLast?_cons_cons] at last
    · split at last
      · cases others with
        | nil => cases last
        | cons outer others => rwa [List.getLast?_cons_cons]
      · exact last

theorem ValueFault.cons {nesting : Nesting} {c : Char} {text : List Char} {fault : Fault} (quoted : ¬ isQuote c = true)
    (plain : nesting = [] → (c ≠ ';' ∧ c ≠ '\x7d') ∧ Style.comment (c :: text) = .absent)
    (later : ValueFault (nesting.after c text) text fault) : ValueFault nesting (c :: text) fault := by
  cases later with
  | within passes blames => exact .within (.cons (standsAt_slash _) quoted plain rfl passes) blames
  | before last stays =>
    rcases Nesting.getLast?_after last with above | ⟨rfl, rfl, rfl⟩
    · have inside : nesting ≠ [] := by rintro rfl; cases above
      exact .before above (stays.cons quoted inside)
    · have opens : Blames .unclosedParenthesis ('(' :: text) := ⟨text, rfl, stays⟩
      have here : Passes (StandsAt .unclosedParenthesis) ([] : Nesting).length [] := .nil rfl
      exact .within here opens

/-- A closed string before a fault does not change it. -/
theorem ValueFault.string {nesting : Nesting} {quote : Char} {text inside after : List Char} {fault : Fault}
    (named : isQuote quote = true) (closed : closeQuote? quote text = some (inside, after))
    (later : ValueFault nesting after fault) : ValueFault nesting (quote :: text) fault := by
  obtain ⟨whole, _⟩ := closeQuote?_scope named closed 0
  cases later with
  | within passes blames =>
    have found := ValueFault.within (passes.string named closed) blames
    simpa [whole] using found
  | before last stays =>
    have positive : 0 < nesting.length := List.length_pos_iff.mpr (by rintro rfl; cases last)
    exact .before last (stays.string named closed positive)

/-- A closed comment before a fault does not change it. -/
theorem ValueFault.comment {text after : List Char} {fault : Fault} (closed : Style.comment text = .closed after)
    (later : ValueFault [] after fault) : ValueFault [] text fault := by
  cases later with
  | within passes blames =>
    obtain ⟨inside, rfl, both⟩ := passes.comment closed
    have found : ValueFault [] _ ⟨_, _⟩ := .within both blames
    simpa using found
  | before last => cases last

/-- Whatever keeps a value from being read, the fault names it and lies in front of it. -/
theorem valueChars_failed {nesting : Nesting} {text : List Char} {fault : Fault}
    (failed : valueChars nesting text = .error fault) : ValueFault nesting text fault := by
  fun_induction valueChars nesting text with
  | case1 nesting outermost last =>
    cases failed
    have positive : nesting ≠ [] := by rintro rfl; cases last
    obtain ⟨count, size⟩ := Nat.exists_eq_succ_of_ne_zero fun none => positive (List.length_eq_zero_iff.mp none)
    exact .before last ⟨trivial, count, by rw [size]; rfl⟩
  | case2 => cases failed
  | case3 nesting c text quoted unclosed =>
    cases failed
    have opens : Blames .unterminatedString (c :: text) := ⟨c, text, rfl, quoted, closeQuote?_none quoted unclosed⟩
    have here : Passes (StandsAt .unterminatedString) nesting.length [] := .nil trivial
    exact .within here opens
  | case4 nesting c text quoted inside after closed ih => exact (ih (prepend_error failed)).string quoted closed
  | case5 => cases failed
  | case6 nesting c text quoted outside plain absent ih =>
    exact .cons quoted (fun _ => ⟨by simpa using plain, absent⟩) (ih (prepend_error failed))
  | case7 nesting c text quoted outside plain unterminated =>
    cases failed
    have opens : Blames .unterminatedComment (c :: text) := comment_unterminated unterminated
    obtain rfl := List.isEmpty_iff.mp outside
    have here : Passes (StandsAt .unterminatedComment) ([] : Nesting).length [] := .nil rfl
    exact .within here opens
  | case8 nesting c text quoted outside plain after closed ih =>
    obtain rfl := List.isEmpty_iff.mp outside
    exact (ih failed).comment closed
  | case9 nesting c text quoted inside ih =>
    exact .cons quoted (fun outside => absurd outside (by simpa using inside)) (ih (prepend_error failed))

end Hyperscript.Style
