import Hyperscript.Proofs.StyleLayout
import Hyperscript.Proofs.StyleWritten

namespace Hyperscript.Style

open Text

/-- There is no comment anywhere in a text, not even inside quotes or parentheses. -/
def Uncommented (text : List Char) : Prop :=
  ∀ before body after, text ≠ before ++ '/' :: '*' :: (body ++ '*' :: '/' :: after)

theorem Uncommented.right {first second : List Char} (clear : Uncommented (first ++ second)) :
    Uncommented second := by
  intro before body after same
  refine clear (first ++ before) body after ?_
  rw [same, List.append_assoc]

theorem Uncommented.tail {c : Char} {rest : List Char} (clear : Uncommented (c :: rest)) : Uncommented rest :=
  @Uncommented.right [c] rest clear

theorem Uncommented.left {first second : List Char} (clear : Uncommented (first ++ second)) : Uncommented first := by
  intro before body after same
  refine clear before body (after ++ second) ?_
  simp [same]

theorem uncommented_of_unopened {text : List Char} (clear : ¬ ['/', '*'] <:+: text) : Uncommented text := by
  rintro before body after rfl
  exact clear ⟨before, body ++ '*' :: '/' :: after, by simp⟩

/-- No comment is read in a text without comments. -/
theorem Uncommented.comment_ne_closed {text after : List Char} (clear : Uncommented text) :
    comment text ≠ .closed after := by
  intro closed
  obtain ⟨body, _, whole⟩ := comment_closed closed
  exact clear [] body after whole

/-- Without comments all is kept. -/
theorem Commented.eq_of_uncommented {written kept : List Char} (commented : Commented written kept)
    (clear : Uncommented written) : kept = written ∧ ¬ ['/', '*'] <:+: written := by
  induction commented with
  | nil => exact ⟨rfl, by simp⟩
  | @char c written kept apart _ ih =>
    obtain ⟨rfl, inside⟩ := ih clear.tail
    refine ⟨rfl, fun opens => ?_⟩
    rcases List.infix_cons_iff.mp opens with ⟨later, same⟩ | below
    · cases same
      exact apart rfl rfl
    · exact inside below
  | @comment body written kept => exact absurd rfl (clear [] body written)

theorem gap_of_blank {blanks : List Char} (blank : ∀ c ∈ blanks, isBlank c = true) : Gap blanks := by
  induction blanks with
  | nil => exact .nil
  | cons c blanks ih =>
    rw [List.forall_mem_cons] at blank
    exact .char blank.1 (ih blank.2)

/-- Without comments a name is all that stands before the first colon. -/
theorem nameChars_found {text chars rest : List Char} (clear : Uncommented text)
    (found : nameChars text = .ok (chars, rest)) :
    text = chars ++ ':' :: rest ∧ ':' ∉ chars ∧ ';' ∉ chars ∧ ¬ ['/', '*'] <:+: chars := by
  obtain ⟨written, rfl, commented, colon, semicolon⟩ := nameChars_written found
  obtain ⟨rfl, inside⟩ := commented.eq_of_uncommented clear.left
  exact ⟨rfl, colon, semicolon, inside⟩

/-- A string that is closed leaves the depth of the parentheses as it was. -/
theorem closeQuote?_found {quote : Char} {text inside after : List Char} (named : isQuote quote = true)
    (found : closeQuote? quote text = some (inside, after)) : text = inside ++ after ∧
      ∀ depth chars, mayGoOn none depth chars = true → mayGoOn (some quote) depth (inside ++ chars) = true := by
  fun_induction closeQuote? quote text generalizing inside with
  | case1 => cases found
  | case2 next rest ih =>
    simp only [Option.map_eq_some_iff, Prod.mk.injEq, Prod.exists] at found
    obtain ⟨inner, _, read, rfl, rfl⟩ := found
    obtain ⟨rfl, goesOn⟩ := ih read
    exact ⟨rfl, fun depth chars closed => by simpa only [List.cons_append, mayGoOn] using goesOn depth chars closed⟩
  | case3 rest plain =>
    cases found
    refine ⟨rfl, fun depth chars closed => ?_⟩
    have other : quote ≠ '\\' := by rintro rfl; exact absurd named (by decide)
    rw [List.singleton_append, mayGoOn, if_pos rfl]
    · exact closed
    · exact fun _ _ same => absurd same other
  | case4 c rest plain other ih =>
    simp only [Option.map_eq_some_iff, Prod.mk.injEq, Prod.exists] at found
    obtain ⟨inner, after, read, rfl, rfl⟩ := found
    obtain ⟨rfl, goesOn⟩ := ih read
    refine ⟨rfl, fun depth chars closed => ?_⟩
    rw [List.cons_append, mayGoOn, if_neg other]
    · exact goesOn depth chars closed
    · intro next later escape _
      cases whole : inner ++ after with
      | nil => rw [whole] at read; cases read
      | cons d others => exact plain d others escape whole

/-- A character that the scanner takes as content may stand in a printable value. -/
theorem mayGoOn_content {nesting : Nesting} {c : Char} {chars rest : List Char} (quoted : ¬ isQuote c = true)
    (plain : nesting = [] → (c ≠ ';' ∧ c ≠ '\x7d') ∧ comment (c :: (chars ++ rest)) = .absent)
    (closes : mayGoOn none (nesting.after c (chars ++ rest)).length chars = true) :
    mayGoOn none nesting.length (c :: chars) = true := by
  have opener : nesting = [] → c = '/' → chars.head? ≠ some '*' := by
    rintro outside rfl star
    obtain ⟨later, rfl⟩ := List.head?_eq_some_iff.mp star
    exact head?_ne_of_comment_absent (plain outside).2 rfl
  rw [mayGoOn, if_neg quoted, if_neg, ← nesting.length_after c (chars ++ rest)]
  · exact closes
  · simp only [Bool.and_eq_true, Bool.or_eq_true, decide_eq_true_eq, not_and, not_or, List.length_eq_zero_iff]
    exact fun outside => ⟨(plain outside).1, opener outside⟩

/-- Without comments, what is read of a value closes all it opens, and ends before a delimiter. -/
theorem valueChars_found {nesting : Nesting} {text chars rest : List Char} (clear : Uncommented text)
    (found : valueChars nesting text = .ok (chars, rest)) : text = chars ++ rest ∧
      mayGoOn none nesting.length chars = true ∧ ∀ c ∈ rest.head?, c = ';' ∨ c = '\x7d' := by
  induction size : text.length using Nat.strong_induction_on generalizing nesting text chars with
  | _ length ih =>
    cases text with
    | nil =>
      rw [valueChars] at found
      cases nesting with
      | nil =>
        cases found
        exact ⟨rfl, rfl, forall_mem_none⟩
      | cons outer others =>
        split at found
        · cases found
        · next none => simp at none
    | cons c text =>
      have shorter : text.length < length := by rw [← size, List.length_cons]; omega
      rw [valueChars_cons] at found
      split at found
      · next quoted =>
        split at found
        · cases found
        · next inside after closed =>
          obtain ⟨inner, read, rfl⟩ := prepend_ok found
          obtain ⟨rfl, goesOn⟩ := closeQuote?_found quoted closed
          rw [List.length_append] at shorter
          obtain ⟨rfl, closes, ends⟩ := ih after.length (by omega) clear.tail.right read rfl
          refine ⟨by simp, ?_, ends⟩
          rw [List.cons_append, mayGoOn, if_pos quoted]
          exact goesOn _ _ closes
      · next quoted =>
        split at found
        · next outside =>
          split at found
          · next delimiter =>
            cases found
            refine ⟨rfl, by rw [List.isEmpty_iff.mp outside]; rfl, ?_⟩
            rintro _ ⟨rfl⟩
            simpa using delimiter
          · next plain =>
            split at found
            · next absent =>
              obtain ⟨inner, read, rfl⟩ := prepend_ok found
              obtain ⟨rfl, closes, ends⟩ := ih text.length shorter clear.tail read rfl
              exact ⟨rfl, mayGoOn_content quoted (fun _ => ⟨by simpa using plain, absent⟩) closes, ends⟩
            · cases found
            · next closed => exact absurd closed clear.comment_ne_closed
        · next inside =>
          obtain ⟨inner, read, rfl⟩ := prepend_ok found
          obtain ⟨rfl, closes, ends⟩ := ih text.length shorter clear.tail read rfl
          exact ⟨rfl, mayGoOn_content quoted (fun outside => absurd outside (by simpa using inside)) closes, ends⟩

end Hyperscript.Style
