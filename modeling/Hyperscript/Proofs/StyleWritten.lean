import Hyperscript.Proofs.StyleReading

namespace Hyperscript.Style

open Text

/-- A text, and what is left of it without its comments. -/
inductive Commented : List Char → List Char → Prop
  | nil : Commented [] []
  | char {c written kept} : (c = '/' → written.head? ≠ some '*') → Commented written kept →
      Commented (c :: written) (c :: kept)
  | comment {body written kept} : ¬ ['*', '/'] <:+: body → Commented written kept →
      Commented ('/' :: '*' :: (body ++ '*' :: '/' :: written)) kept

/-- A comment begins that nothing closes. -/
def LeavesCommentOpen (text : List Char) : Prop :=
  ∃ after, text = '/' :: '*' :: after ∧ ¬ ['*', '/'] <:+: after

/-- A value ends where the text does, or before a delimiter. -/
def Ends (rest : List Char) : Prop :=
  ∀ c ∈ rest.head?, c = ';' ∨ c = '\x7d'

/-- A comment goes up to the first mark that closes one. -/
theorem closeComment?_found {text rest : List Char} (found : closeComment? text = some rest) :
    ∃ body, ¬ ['*', '/'] <:+: body ∧ text = body ++ '*' :: '/' :: rest := by
  fun_induction closeComment? text with
  | case1 =>
    cases found
    exact ⟨[], by simp, rfl⟩
  | case2 c text other ih =>
    obtain ⟨body, inside, rfl⟩ := ih found
    refine ⟨c :: body, fun closes => ?_, rfl⟩
    rcases List.infix_cons_iff.mp closes with ⟨later, same⟩ | below
    · cases same
      exact other (later ++ '*' :: '/' :: rest) rfl (by simp)
    · exact inside below
  | case3 => cases found

theorem closeComment?_none {text : List Char} (unclosed : closeComment? text = none) : ¬ ['*', '/'] <:+: text := by
  fun_induction closeComment? text with
  | case1 => cases unclosed
  | case2 c text other ih =>
    intro closes
    rcases List.infix_cons_iff.mp closes with ⟨later, same⟩ | below
    · cases same
      exact other later rfl rfl
    · exact ih unclosed below
  | case3 => simp

theorem comment_closed {text after : List Char} (closed : comment text = .closed after) :
    ∃ body, ¬ ['*', '/'] <:+: body ∧ text = '/' :: '*' :: (body ++ '*' :: '/' :: after) := by
  unfold comment at closed
  split at closed
  · split at closed
    · next found =>
      cases closed
      obtain ⟨body, inside, rfl⟩ := closeComment?_found found
      exact ⟨body, inside, rfl⟩
    · cases closed
  · cases closed

/-- A comment fails only if it is open to the end of the text. -/
theorem comment_unterminated {text : List Char} (unterminated : comment text = .unterminated) :
    LeavesCommentOpen text := by
  unfold comment at unterminated
  split at unterminated
  · next after =>
    split at unterminated
    · cases unterminated
    · next found => exact ⟨after, rfl, closeComment?_none found⟩
  · cases unterminated

theorem head?_ne_of_comment_absent {text : List Char} (absent : comment ('/' :: text) = .absent) :
    text.head? ≠ some '*' := by
  intro star
  obtain ⟨body, rfl⟩ := List.head?_eq_some_iff.mp star
  simp only [comment] at absent
  split at absent <;> cases absent

theorem prepend_error {chars : List Char} {result : Except Fault (List Char × List Char)} {fault : Fault}
    (failed : prepend chars result = .error fault) : result = .error fault := by
  cases result with
  | error other => exact failed
  | ok => cases failed

/-- What is skipped is filler, and it is all the filler that there is. -/
theorem skipTrivia_found {text rest : List Char} (skipped : skipTrivia text = .ok rest) :
    ∃ lead, Filler lead ∧ text = lead ++ rest ∧ (∀ c ∈ rest.head?, isBlank c = false ∧ c ≠ ';') ∧
      comment rest = .absent := by
  fun_induction skipTrivia text with
  | case1 =>
    cases skipped
    exact ⟨[], .nil, rfl, forall_mem_none, rfl⟩
  | case2 c text passes ih =>
    obtain ⟨lead, filler, rfl, start⟩ := ih skipped
    exact ⟨c :: lead, .char passes filler, rfl, start⟩
  | case3 c text stays absent =>
    cases skipped
    refine ⟨[], .nil, rfl, ?_, absent⟩
    rintro _ ⟨rfl⟩
    simpa using stays
  | case4 => cases skipped
  | case5 c text stays after closed ih =>
    obtain ⟨lead, filler, rfl, start⟩ := ih skipped
    obtain ⟨body, inside, whole⟩ := comment_closed closed
    exact ⟨'/' :: '*' :: (body ++ '*' :: '/' :: lead), .comment inside filler, by simp [whole], start⟩

/-- Skipping fails only at a comment that is left open. -/
theorem skipTrivia_failed {text : List Char} {fault : Fault} (failed : skipTrivia text = .error fault) :
    fault.kind = .unterminatedComment ∧ LeavesCommentOpen fault.rest ∧
      ∃ lead, Filler lead ∧ text = lead ++ fault.rest := by
  fun_induction skipTrivia text with
  | case1 => cases failed
  | case2 c text passes ih =>
    obtain ⟨kind, opens, lead, filler, rfl⟩ := ih failed
    exact ⟨kind, opens, c :: lead, .char passes filler, rfl⟩
  | case3 => cases failed
  | case4 c text stays unterminated =>
    cases failed
    exact ⟨rfl, comment_unterminated unterminated, [], .nil, rfl⟩
  | case5 c text stays after closed ih =>
    obtain ⟨kind, opens, lead, filler, rfl⟩ := ih failed
    obtain ⟨body, inside, whole⟩ := comment_closed closed
    exact ⟨kind, opens, '/' :: '*' :: (body ++ '*' :: '/' :: lead), .comment inside filler, by simp [whole]⟩

/-- A character that is read as one, whatever stands behind the rest of the text. -/
theorem commented_cons {c : Char} {text written kept rest : List Char} (absent : comment (c :: text) = .absent)
    (whole : text = written ++ rest) (commented : Commented written kept) : Commented (c :: written) (c :: kept) := by
  refine .char ?_ commented
  rintro rfl star
  obtain ⟨later, rfl⟩ := List.head?_eq_some_iff.mp star
  exact head?_ne_of_comment_absent absent (by rw [whole]; rfl)

/-- A name is what stands before the first colon outside comments, without its comments. -/
theorem nameChars_written {text chars rest : List Char} (found : nameChars text = .ok (chars, rest)) :
    ∃ written, text = written ++ ':' :: rest ∧ Commented written chars ∧ ':' ∉ chars ∧ ';' ∉ chars := by
  fun_induction nameChars text generalizing chars with
  | case1 => cases found
  | case2 =>
    cases found
    exact ⟨[], rfl, .nil, List.not_mem_nil, List.not_mem_nil⟩
  | case3 => cases found
  | case4 c text colon semicolon absent ih =>
    obtain ⟨inner, read, rfl⟩ := prepend_ok found
    obtain ⟨written, whole, commented, noColon, noSemicolon⟩ := ih read
    exact ⟨c :: written, by rw [whole]; rfl, commented_cons absent whole commented,
      by simp [Ne.symm colon, noColon], by simp [Ne.symm semicolon, noSemicolon]⟩
  | case5 => cases found
  | case6 c text colon semicolon after closed ih =>
    obtain ⟨written, rfl, commented, clean⟩ := ih found
    obtain ⟨body, inside, whole⟩ := comment_closed closed
    exact ⟨'/' :: '*' :: (body ++ '*' :: '/' :: written), by simp [whole], .comment inside commented, clean⟩

/-- A name without a colon ends before a semicolon or with the text, one with an open comment before it. -/
theorem nameChars_failed {text : List Char} {fault : Fault} (failed : nameChars text = .error fault) :
    (∃ written kept, text = written ++ fault.rest ∧ Commented written kept ∧ ':' ∉ kept ∧ ';' ∉ kept) ∧
      (fault.kind = .unterminatedComment ∧ LeavesCommentOpen fault.rest ∨
        fault.kind = .missingColon ∧ ∀ c ∈ fault.rest.head?, c = ';') := by
  fun_induction nameChars text with
  | case1 =>
    cases failed
    exact ⟨⟨[], [], rfl, .nil, List.not_mem_nil, List.not_mem_nil⟩, Or.inr ⟨rfl, forall_mem_none⟩⟩
  | case2 => cases failed
  | case3 text =>
    cases failed
    refine ⟨⟨[], [], rfl, .nil, List.not_mem_nil, List.not_mem_nil⟩, Or.inr ⟨rfl, ?_⟩⟩
    rintro _ ⟨rfl⟩
    rfl
  | case4 c text colon semicolon absent ih =>
    obtain ⟨⟨written, kept, whole, commented, noColon, noSemicolon⟩, kind⟩ := ih (prepend_error failed)
    exact ⟨⟨c :: written, c :: kept, by rw [whole]; rfl, commented_cons absent whole commented,
      by simp [Ne.symm colon, noColon], by simp [Ne.symm semicolon, noSemicolon]⟩, kind⟩
  | case5 c text colon semicolon unterminated =>
    cases failed
    exact ⟨⟨[], [], rfl, .nil, List.not_mem_nil, List.not_mem_nil⟩,
      Or.inl ⟨rfl, comment_unterminated unterminated⟩⟩
  | case6 c text colon semicolon after closed ih =>
    obtain ⟨⟨written, kept, rfl, commented, clean⟩, kind⟩ := ih failed
    obtain ⟨body, inside, whole⟩ := comment_closed closed
    exact ⟨⟨'/' :: '*' :: (body ++ '*' :: '/' :: written), kept, by simp [whole], .comment inside commented, clean⟩,
      kind⟩

end Hyperscript.Style
