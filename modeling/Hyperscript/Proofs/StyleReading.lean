import Hyperscript.Proofs.StyleGrammar

namespace Hyperscript.Style

open Text

/-- One step of the loop over filler, as an equation that does not carry the proof that the loop ends. -/
theorem skipTrivia_cons (c : Char) (rest : List Char) :
    skipTrivia (c :: rest) =
      if isBlank c || c = ';' then skipTrivia rest
      else match comment (c :: rest) with
        | .absent => .ok (c :: rest)
        | .unterminated => .error ⟨.unterminatedComment, c :: rest⟩
        | .closed after => skipTrivia after := by
  rw [skipTrivia]
  cases comment (c :: rest) <;> rfl

theorem nameChars_cons (c : Char) (rest : List Char) :
    nameChars (c :: rest) =
      if c = ':' then .ok ([], rest)
      else if c = ';' then .error ⟨.missingColon, c :: rest⟩
      else match comment (c :: rest) with
        | .absent => prepend [c] (nameChars rest)
        | .unterminated => .error ⟨.unterminatedComment, c :: rest⟩
        | .closed after => nameChars after := by
  rw [nameChars]
  cases comment (c :: rest) <;> rfl

theorem valueChars_cons (nesting : Nesting) (c : Char) (rest : List Char) :
    valueChars nesting (c :: rest) =
      if isQuote c then
        match closeQuote? c rest with
        | none => .error ⟨.unterminatedString, c :: rest⟩
        | some (inside, after) => prepend (c :: inside) (valueChars nesting after)
      else if nesting.isEmpty then
        if c = ';' || c = '\x7d' then .ok ([], c :: rest)
        else match comment (c :: rest) with
          | .absent => prepend [c] (valueChars (nesting.after c rest) rest)
          | .unterminated => .error ⟨.unterminatedComment, c :: rest⟩
          | .closed after => valueChars nesting after
      else prepend [c] (valueChars (nesting.after c rest) rest) := by
  rw [valueChars]
  cases closeQuote? c rest <;> cases comment (c :: rest) <;> rfl

/-- One round of the loop over declarations, with its recursive call in one place. -/
theorem pairs_eq (text : List Char) :
    pairs text =
      match skipTrivia text with
      | .error fault => .error fault
      | .ok [] => .ok ([], [])
      | .ok (c :: rest) =>
        if c = '\x7d' then .ok ([], c :: rest)
        else match name (c :: rest) with
          | .error fault => .error fault
          | .ok (chars, afterName) =>
            match value afterName with
            | .error fault => .error fault
            | .ok (content, afterValue) =>
              (pairs afterValue).map fun found => ((chars, content) :: found.1, found.2) := by
  rw [pairs]
  split <;> simp only [*]
  split
  · rfl
  · split <;> simp only [*]
    split <;> simp only [*]
    cases pairs _ <;> rfl

/-- A comment ends at the first closer behind its opener. -/
theorem closeComment?_body {body : List Char} (inside : ¬ ['*', '/'] <:+: body) (rest : List Char) :
    closeComment? (body ++ '*' :: '/' :: rest) = some rest := by
  induction body with
  | nil => rfl
  | cons c body ih =>
    have tail := ih fun later => inside (later.trans (List.suffix_cons c body).isInfix)
    rw [List.cons_append, closeComment?, tail]
    intro after star same
    subst star
    cases body with
    | nil => cases same
    | cons d body =>
      cases same
      exact inside (List.prefix_append ['*', '/'] body).isInfix

/-- A closed comment is passed as a whole. -/
theorem comment_of_body {body : List Char} (inside : ¬ ['*', '/'] <:+: body) (rest : List Char) :
    comment ('/' :: '*' :: (body ++ '*' :: '/' :: rest)) = .closed rest := by
  simp only [comment, closeComment?_body inside]

/-- Without a slash in front of an asterisk no comment begins. -/
theorem comment_absent {c : Char} {rest : List Char} (other : c = '/' → rest.head? ≠ some '*') :
    comment (c :: rest) = .absent := by
  unfold comment
  split
  · next same =>
    cases same
    exact absurd rfl (other rfl)
  · rfl

theorem head?_append_ne {chars follow : List Char} {c : Char} (inside : chars.head? ≠ some c)
    (behind : follow.head? ≠ some c) : (chars ++ follow).head? ≠ some c := by
  cases chars with
  | nil => exact behind
  | cons => exact inside

/-- A comment that opens in some characters is open in them already, if no asterisk follows them. -/
theorem comment_absent_of_no_comment {c : Char} {chars follow : List Char}
    (inside : ¬ ['/', '*'] <:+: c :: chars) (behind : follow.head? ≠ some '*') :
    comment (c :: (chars ++ follow)) = .absent := by
  refine comment_absent fun same => head?_append_ne (fun next => inside ?_) behind
  obtain ⟨rest, rfl⟩ := List.head?_eq_some_iff.mp next
  rw [same]
  exact (List.prefix_append ['/', '*'] rest).isInfix

theorem prepend_nil (result : Except Fault (List Char × List Char)) : prepend [] result = result := by
  cases result <;> rfl

theorem prepend_prepend (first second : List Char) (result : Except Fault (List Char × List Char)) :
    prepend first (prepend second result) = prepend (first ++ second) result := by
  cases result <;> simp [prepend]

/-- Filler is passed, whatever follows it. -/
theorem skipTrivia_filler {text : List Char} (filler : Filler text) (rest : List Char) :
    skipTrivia (text ++ rest) = skipTrivia rest := by
  induction filler with
  | nil => rfl
  | char passes _ ih => rw [List.cons_append, skipTrivia_cons, if_pos passes, ih]
  | @comment body text inside _ ih =>
    have closed := comment_of_body inside (text ++ rest)
    simp only [List.cons_append, List.append_assoc]
    rw [skipTrivia_cons, if_neg (by decide), closed]
    exact ih

/-- A gap in a name leaves its blanks behind, which are trimmed later, and its comments leave nothing. -/
theorem nameChars_gap {text : List Char} (gap : Gap text) : ∃ blanks, (∀ c ∈ blanks, isBlank c = true) ∧
    ∀ rest, nameChars (text ++ rest) = prepend blanks (nameChars rest) := by
  induction gap with
  | nil => exact ⟨[], nofun, fun rest => (prepend_nil _).symm⟩
  | @char c text passes _ ih =>
    obtain ⟨blanks, blank, read⟩ := ih
    refine ⟨c :: blanks, List.forall_mem_cons.mpr ⟨passes, blank⟩, fun rest => ?_⟩
    have colon : c ≠ ':' := ne_of_isBlank passes (by decide)
    have semicolon : c ≠ ';' := ne_of_isBlank passes (by decide)
    have slash : c ≠ '/' := ne_of_isBlank passes (by decide)
    rw [List.cons_append, nameChars_cons, if_neg colon, if_neg semicolon,
      comment_absent fun same => absurd same slash, read, prepend_prepend]
    rfl
  | @comment body text inside _ ih =>
    obtain ⟨blanks, blank, read⟩ := ih
    refine ⟨blanks, blank, fun rest => ?_⟩
    have closed := comment_of_body inside (text ++ rest)
    simp only [List.cons_append, List.append_assoc]
    rw [nameChars_cons, if_neg (by decide), if_neg (by decide), closed]
    exact read rest

/-- A gap in a value leaves its blanks behind as well. Outside all parentheses comments are known there. -/
theorem valueChars_gap {text : List Char} (gap : Gap text) : ∃ blanks, (∀ c ∈ blanks, isBlank c = true) ∧
    ∀ rest, valueChars [] (text ++ rest) = prepend blanks (valueChars [] rest) := by
  induction gap with
  | nil => exact ⟨[], nofun, fun rest => (prepend_nil _).symm⟩
  | @char c text passes _ ih =>
    obtain ⟨blanks, blank, read⟩ := ih
    refine ⟨c :: blanks, List.forall_mem_cons.mpr ⟨passes, blank⟩, fun rest => ?_⟩
    have delimiter : ¬ (c = ';' || c = '\x7d') = true := by
      simp only [Bool.or_eq_true, decide_eq_true_eq, not_or]
      exact ⟨ne_of_isBlank passes (by decide), ne_of_isBlank passes (by decide)⟩
    have slash : c ≠ '/' := ne_of_isBlank passes (by decide)
    have opening : c ≠ '(' := ne_of_isBlank passes (by decide)
    have closing : c ≠ ')' := ne_of_isBlank passes (by decide)
    rw [List.cons_append, valueChars_cons, if_neg (isQuote_of_isBlank passes), if_pos List.isEmpty_nil,
      if_neg delimiter, comment_absent fun same => absurd same slash, Nesting.after, if_neg opening, if_neg closing]
    simp only [read, prepend_prepend, List.singleton_append]
  | @comment body text inside _ ih =>
    obtain ⟨blanks, blank, read⟩ := ih
    refine ⟨blanks, blank, fun rest => ?_⟩
    have closed := comment_of_body inside (text ++ rest)
    simp only [List.cons_append, List.append_assoc]
    rw [valueChars_cons, if_neg (by decide), if_pos List.isEmpty_nil, if_neg (by decide), closed]
    exact read rest

/-- The characters of a name are read to their end, unless an asterisk behind them makes a comment of their last
slash. -/
theorem nameChars_append {chars follow : List Char} (colon : ':' ∉ chars) (semicolon : ';' ∉ chars)
    (inside : ¬ ['/', '*'] <:+: chars) (behind : follow.head? ≠ some '*') :
    nameChars (chars ++ follow) = prepend chars (nameChars follow) := by
  induction chars with
  | nil => exact (prepend_nil _).symm
  | cons c chars ih =>
    rw [List.mem_cons, not_or] at colon semicolon
    have later : ¬ ['/', '*'] <:+: chars := fun opened => inside (opened.trans (List.suffix_cons c chars).isInfix)
    rw [List.cons_append, nameChars_cons, if_neg (Ne.symm colon.1), if_neg (Ne.symm semicolon.1),
      comment_absent_of_no_comment inside behind]
    simp only [ih colon.2 semicolon.2 later, prepend_prepend, List.singleton_append]

/-- A string that is closed in some characters is closed there, whatever follows them. -/
theorem closeQuote?_append {quote : Char} {depth : Nat} {chars : List Char} (follow : List Char)
    (named : isQuote quote = true) (goesOn : mayGoOn (some quote) depth chars = true) :
    ∃ inside after, chars = inside ++ after ∧ mayGoOn none depth after = true ∧
      closeQuote? quote (chars ++ follow) = some (inside, after ++ follow) := by
  fun_induction closeQuote? quote chars with
  | case1 => simp [mayGoOn] at goesOn
  | case2 next rest ih =>
    rw [mayGoOn] at goesOn
    obtain ⟨inside, after, rfl, later, found⟩ := ih goesOn
    refine ⟨'\\' :: next :: inside, after, rfl, later, ?_⟩
    simp only [List.cons_append, closeQuote?, found, Option.map_some]
  | case3 rest plain =>
    rw [mayGoOn, if_pos rfl] at goesOn
    · refine ⟨[quote], rest, rfl, goesOn, ?_⟩
      have other : quote ≠ '\\' := by rintro rfl; exact absurd named (by decide)
      rw [List.cons_append, closeQuote?, if_pos rfl]
      exact fun _ _ same => absurd same other
    · exact plain
  | case4 c rest plain other ih =>
    rw [mayGoOn, if_neg other] at goesOn
    · obtain ⟨inside, after, rfl, later, found⟩ := ih goesOn
      refine ⟨c :: inside, after, rfl, later, ?_⟩
      rw [List.cons_append, closeQuote?, if_neg other, found]
      · rfl
      · intro next later escape whole
        cases empty : inside ++ after with
        | nil => simp [empty, mayGoOn] at goesOn
        | cons d others => exact plain d others escape empty
    · exact plain

theorem Nesting.length_after (nesting : Nesting) (c : Char) (rest : List Char) :
    (nesting.after c rest).length =
      if c = '(' then nesting.length + 1 else if c = ')' then nesting.length - 1 else nesting.length := by
  unfold Nesting.after
  split
  · rfl
  · split
    · exact List.length_tail
    · rfl

/-- A value is read to its end, whatever follows, and the scanner is then outside all parentheses. -/
theorem valueChars_append {nesting : Nesting} {chars follow : List Char}
    (goesOn : mayGoOn none nesting.length chars = true) (behind : follow.head? ≠ some '*') :
    valueChars nesting (chars ++ follow) = prepend chars (valueChars [] follow) := by
  induction size : chars.length using Nat.strong_induction_on generalizing nesting chars with
  | _ length ih =>
    cases chars with
    | nil =>
      have outside : nesting = [] := by simpa [mayGoOn] using goesOn
      rw [outside, List.nil_append, prepend_nil]
    | cons c rest =>
      rw [List.cons_append, valueChars_cons]
      by_cases quoted : isQuote c = true
      · rw [mayGoOn, if_pos quoted] at goesOn
        obtain ⟨inside, after, rfl, later, found⟩ := closeQuote?_append follow quoted goesOn
        have shorter : after.length < length := by
          rw [← size, List.length_cons, List.length_append]
          omega
        rw [if_pos quoted, found]
        simp only [ih after.length shorter later rfl, prepend_prepend, List.cons_append]
      · rw [mayGoOn, if_neg quoted] at goesOn
        have shorter : rest.length < length := by rw [← size, List.length_cons]; omega
        split at goesOn
        · exact absurd goesOn (by decide)
        · next plain =>
          rw [← nesting.length_after c (rest ++ follow)] at goesOn
          have read := ih rest.length shorter goesOn rfl
          rw [if_neg quoted, read, prepend_prepend]
          split
          · next outside =>
            have depth : nesting.length = 0 := by rw [List.isEmpty_iff.mp outside]; rfl
            simp only [depth, decide_true, Bool.true_and, Bool.or_eq_true, Bool.and_eq_true,
              decide_eq_true_eq, not_or, not_and] at plain
            have absent : comment (c :: (rest ++ follow)) = .absent :=
              comment_absent fun slash => head?_append_ne (plain.2 slash) behind
            rw [if_neg (by simpa using plain.1), absent]
            rfl
          · rfl

end Hyperscript.Style
