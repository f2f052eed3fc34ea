import Hyperscript.Proofs.StyleFound
import Hyperscript.Proofs.StyleRun

namespace Hyperscript.Style

open Text

variable {text rest more : List Char}

theorem closeComment?_extend (closed : closeComment? text = some rest) (more : List Char) :
    closeComment? (text ++ more) = some (rest ++ more) := by
  fun_induction closeComment? text with
  | case1 => cases closed; rfl
  | case2 c body other ih =>
    rw [List.cons_append, closeComment?]
    · exact ih closed
    · rintro later rfl same
      cases body with
      | nil => cases closed
      | cons d body =>
        cases same
        exact other body rfl rfl
  | case3 => cases closed

/-- A closed comment stays closed. -/
theorem comment_extend (closed : comment text = .closed rest) (more : List Char) :
    comment (text ++ more) = .closed (rest ++ more) := by
  unfold comment at closed
  split at closed
  · split at closed
    · next found =>
      cases closed
      simp only [List.cons_append, comment, closeComment?_extend found more]
    · cases closed
  · cases closed

/-- Where no comment begins none begins later, unless the text ended in the slash of one. -/
theorem comment_absent_extend {c : Char} (absent : comment (c :: text) = .absent)
    (apart : c :: text = ['/'] → more.head? ≠ some '*') : comment (c :: (text ++ more)) = .absent := by
  refine comment_absent ?_
  rintro rfl
  have inside := head?_ne_of_comment_absent absent
  cases text with
  | nil => exact apart rfl
  | cons d text => exact inside

/-- Filler that was passed is passed again, and the loop goes on where it was. -/
theorem skipTrivia_extend (skipped : skipTrivia text = .ok rest) (more : List Char) :
    skipTrivia (text ++ more) = skipTrivia (rest ++ more) := by
  fun_induction skipTrivia text with
  | case1 => cases skipped; rfl
  | case2 c text passes ih => rw [List.cons_append, skipTrivia_cons, if_pos passes, ih skipped]
  | case3 => cases skipped; rfl
  | case4 => cases skipped
  | case5 c text stays after closed ih =>
    have found : comment (c :: (text ++ more)) = _ := comment_extend closed more
    rw [List.cons_append, skipTrivia_cons, if_neg stays, found]
    exact ih skipped

theorem nameChars_extend {chars : List Char} (found : nameChars text = .ok (chars, rest)) (more : List Char) :
    nameChars (text ++ more) = .ok (chars, rest ++ more) := by
  fun_induction nameChars text generalizing chars with
  | case1 => cases found
  | case2 =>
    cases found
    rw [List.cons_append, nameChars_cons, if_pos rfl]
  | case3 => cases found
  | case4 c text colon semicolon absent ih =>
    obtain ⟨inner, read, rfl⟩ := prepend_ok found
    have apart : c :: text = ['/'] → more.head? ≠ some '*' := by
      rintro ⟨⟩
      rw [nameChars] at read
      cases read
    rw [List.cons_append, nameChars_cons, if_neg colon, if_neg semicolon, comment_absent_extend absent apart, ih read]
    rfl
  | case5 => cases found
  | case6 c text colon semicolon after closed ih =>
    have found' : comment (c :: (text ++ more)) = _ := comment_extend closed more
    rw [List.cons_append, nameChars_cons, if_neg colon, if_neg semicolon, found']
    exact ih found

/-- A name ends with its colon, so it does not change. -/
theorem name_extend {chars : List Char} (found : name text = .ok (chars, rest)) (more : List Char) :
    name (text ++ more) = .ok (chars, rest ++ more) := by
  obtain ⟨raw, read, rfl, some⟩ := name_found found
  simp only [name, nameChars_extend read more, if_neg some]

/-- A closed string stays closed. -/
theorem closeQuote?_extend {quote : Char} {inside : List Char} (named : isQuote quote = true)
    (closed : closeQuote? quote text = some (inside, rest)) (more : List Char) :
    closeQuote? quote (text ++ more) = some (inside, rest ++ more) := by
  fun_induction closeQuote? quote text generalizing inside with
  | case1 => cases closed
  | case2 next text ih =>
    simp only [Option.map_eq_some_iff, Prod.mk.injEq, Prod.exists] at closed
    obtain ⟨inner, _, found, rfl, rfl⟩ := closed
    simp only [List.cons_append, closeQuote?, ih found, Option.map_some]
  | case3 text plain =>
    cases closed
    have other : quote ≠ '\\' := by rintro rfl; exact absurd named (by decide)
    rw [List.cons_append, closeQuote?, if_pos rfl]
    exact fun _ _ same => absurd same other
  | case4 c text plain other ih =>
    simp only [Option.map_eq_some_iff, Prod.mk.injEq, Prod.exists] at closed
    obtain ⟨inner, _, found, rfl, rfl⟩ := closed
    rw [List.cons_append, closeQuote?, if_neg other, ih found]
    · rfl
    · intro next later escape same
      cases text with
      | nil => cases found
      | cons d text => exact plain d text escape rfl

theorem valueChars_of_ends (ends : Ends rest) : valueChars [] rest = .ok ([], rest) := by
  cases rest with
  | nil => rw [valueChars]; rfl
  | cons c rest =>
    rw [valueChars_cons]
    rcases ends c rfl with rfl | rfl <;> rfl

theorem Nesting.length_after_congr {nesting other : Nesting} (same : other.length = nesting.length) (c : Char)
    (text text' : List Char) : (other.after c text').length = (nesting.after c text).length := by
  rw [length_after, length_after, same]

theorem Nesting.isEmpty_congr {nesting other : Nesting} (same : other.length = nesting.length) :
    other.isEmpty = nesting.isEmpty := by
  rw [Bool.eq_iff_iff, List.isEmpty_iff_length_eq_zero, List.isEmpty_iff_length_eq_zero, same]

/-- How a value is read depends on what is passed only, and on how many parentheses were open. -/
theorem valueChars_extend {nesting other : Nesting} {chars : List Char}
    (found : valueChars nesting text = .ok (chars, rest)) (same : other.length = nesting.length)
    (ends : rest = [] → Ends more) : valueChars other (text ++ more) = .ok (chars, rest ++ more) := by
  fun_induction valueChars nesting text generalizing other chars with
  | case1 => cases found
  | case2 nesting outside =>
    cases found
    rw [List.getLast?_eq_none_iff] at outside
    rw [outside, List.length_nil, List.length_eq_zero_iff] at same
    rw [same]
    exact valueChars_of_ends (ends rfl)
  | case3 => cases found
  | case4 nesting c text quoted inside after closed ih =>
    obtain ⟨inner, read, rfl⟩ := prepend_ok found
    rw [List.cons_append, valueChars_cons, if_pos quoted, closeQuote?_extend quoted closed]
    simp only [ih read same]
    rfl
  | case5 nesting c text quoted outside delimiter =>
    cases found
    rw [← Nesting.isEmpty_congr same] at outside
    rw [List.cons_append, valueChars_cons, if_neg quoted, if_pos outside, if_pos delimiter]
  | case6 nesting c text quoted outside plain absent ih =>
    obtain ⟨inner, read, rfl⟩ := prepend_ok found
    rw [← Nesting.isEmpty_congr same] at outside
    have apart : c :: text = ['/'] → more.head? ≠ some '*' := by
      rintro ⟨⟩ star
      obtain rfl : rest = [] := List.length_eq_zero_iff.mp (Nat.le_zero.mp (valueChars_length read))
      rcases ends rfl '*' star with same | same <;> exact absurd same (by decide)
    rw [List.cons_append, valueChars_cons, if_neg quoted, if_pos outside, if_neg plain,
      comment_absent_extend absent apart]
    simp only [ih read (Nesting.length_after_congr same ..)]
    rfl
  | case7 => cases found
  | case8 nesting c text quoted outside plain after closed ih =>
    have closed' : comment (c :: (text ++ more)) = _ := comment_extend closed more
    rw [← Nesting.isEmpty_congr same] at outside
    rw [List.cons_append, valueChars_cons, if_neg quoted, if_pos outside, if_neg plain, closed']
    exact ih found same
  | case9 nesting c text quoted inside ih =>
    obtain ⟨inner, read, rfl⟩ := prepend_ok found
    rw [← Nesting.isEmpty_congr same] at inside
    rw [List.cons_append, valueChars_cons, if_neg quoted, if_neg inside, ih read (Nesting.length_after_congr same ..)]
    rfl

/-- A value that was ended by the end of the text stays as it is only if a delimiter follows. -/
theorem value_extend {content : List Char} (found : value text = .ok (content, rest))
    (ends : rest = [] → Ends more) : value (text ++ more) = .ok (content, rest ++ more) := by
  obtain ⟨raw, read, rfl⟩ := value_found found
  simp only [value, valueChars_extend read rfl ends]

/-- A declaration begins where it began, if no comment opens across the seam. -/
theorem Opens.extend {start : List Char} (opens : Opens text start)
    (apart : start = ['/'] → more.head? ≠ some '*') : Opens (text ++ more) (start ++ more) := by
  obtain ⟨c, first, brace⟩ := opens.begins
  obtain ⟨tail, rfl⟩ := List.head?_eq_some_iff.mp first
  obtain ⟨_, _, _, stays, absent⟩ := skipTrivia_found opens.skipped
  obtain ⟨blank, semicolon⟩ := stays c rfl
  refine ⟨?_, c, rfl, brace⟩
  rw [skipTrivia_extend opens.skipped, List.cons_append, skipTrivia_cons, if_neg (by simp [blank, semicolon]),
    comment_absent_extend absent apart]

theorem Round.extend {start afterName : List Char} {pair : List Char × List Char}
    (round : Round text start afterName rest pair) (ends : rest = [] → Ends more) :
    Round (text ++ more) (start ++ more) (afterName ++ more) (rest ++ more) pair := by
  refine ⟨round.opens.extend ?_, name_extend round.named more, value_extend round.valued ends⟩
  rintro rfl
  have colon := round.named
  rw [name, nameChars, nameChars] at colon
  cases colon

/-- What has been read stays read when the text goes on, if it goes on with a delimiter where a value was
ended by the end of the text. -/
theorem Reaches.extend {left : List Char} {found : List (List Char × List Char)} (reach : Reaches text found left)
    (ends : left = [] → Ends more) : Reaches (text ++ more) found (left ++ more) := by
  induction reach with
  | start => exact .start
  | next _ round ih => exact .next (ih fun nothing => absurd nothing round.opens.ne_nil) (round.extend ends)

end Hyperscript.Style
