import Hyperscript.Proofs.StylePlaces

namespace Hyperscript.Style

namespace Scope

/-- The number of quotes and parentheses that are open. -/
def level : Scope → Nat
  | .content depth => depth
  | .quoted _ depth | .escaped _ depth => depth + 1
  | _ => 0

/-- Whether a character belongs to a comment, as one inside it or as one of those that open it. -/
def inComment : Scope → Char → List Char → Bool
  | .comment, _, _ | .star, _, _ => true
  | .slash, c, rest => c = '*' || (c = '/' && rest.head? = some '*')
  | .content depth, c, rest => depth = 0 && c = '/' && rest.head? = some '*'
  | _, _, _ => false

/-- A text without its comments. -/
def kept : Scope → List Char → List Char
  | _, [] => []
  | scope, c :: rest => if scope.inComment c rest then kept (scope.next c) rest else c :: kept (scope.next c) rest

/-- A place lies in quotes or parentheses that are open there and are closed behind it. -/
def InPair (before after : List Char) : Prop :=
  ∃ inside, inside <+: after ∧ ((content 0).run (before ++ inside)).level < ((content 0).run before).level

theorem IsOutside.level_eq {scope : Scope} (outside : scope.IsOutside) : scope.level = 0 := by
  cases scope with
  | content depth => exact outside
  | slash => rfl
  | comment | star | quoted | escaped => exact outside.elim

/-- Behind what ends outside there is no pair to stand in. -/
theorem IsOutside.not_inPair {before : List Char} (outside : ((content 0).run before).IsOutside)
    (after : List Char) : ¬ InPair before after := by
  rintro ⟨inside, _, closes⟩
  rw [outside.level_eq] at closes
  exact Nat.not_lt_zero _ closes

/-- All of a string is kept. -/
theorem kept_quoted {scope : Scope} {quote : Char} {depth : Nat} {inside : List Char}
    (along : Along (fun scope _ => scope = quoted quote depth ∨ scope = escaped quote depth) scope inside)
    (written : List Char) : scope.kept (inside ++ written) = inside ++ (scope.run inside).kept written := by
  induction inside generalizing scope with
  | nil => rfl
  | cons c inside ih =>
    have plain : scope.inComment c (inside ++ written) = false := by rcases along.1 with rfl | rfl <;> rfl
    rw [List.cons_append, kept, plain, if_neg (by decide), ih along.2]
    rfl

/-- Nothing of a comment is kept. -/
theorem kept_comment {scope : Scope} {inside : List Char}
    (along : Along (fun scope _ => scope = .comment ∨ scope = .star) scope inside) (written : List Char) :
    scope.kept (inside ++ written) = (scope.run inside).kept written := by
  induction inside generalizing scope with
  | nil => rfl
  | cons c inside ih =>
    have within : scope.inComment c (inside ++ written) = true := by rcases along.1 with rfl | rfl <;> rfl
    rw [List.cons_append, kept, if_pos within, ih along.2]
    rfl

theorem inComment_content {depth : Nat} {c : Char} {rest : List Char}
    (apart : depth = 0 → c = '/' → rest.head? ≠ some '*') : (content depth).inComment c rest = false := by
  simpa [inComment] using apart

/-- A slash that opens no comment makes no difference. -/
theorem kept_slash {written : List Char} (apart : written.head? ≠ some '*') :
    slash.kept written = (content 0).kept written := by
  cases written with
  | nil => rfl
  | cons c written =>
    have other : c ≠ '*' := fun star => apart (by rw [star]; rfl)
    have same : slash.inComment c written = (content 0).inComment c written := by simp [inComment, other]
    rw [kept, kept, next_slash other, same]

theorem kept_string {quote : Char} {text inside after : List Char} (named : isQuote quote = true)
    (closed : closeQuote? quote text = some (inside, after)) (depth : Nat) (written : List Char) :
    (content depth).kept (quote :: inside ++ written) = quote :: inside ++ (content depth).kept written := by
  obtain ⟨_, ends, along⟩ := closeQuote?_scope named closed depth
  have opens : (content depth).next quote = quoted quote depth := if_pos named
  have plain : (content depth).inComment quote (inside ++ written) = false := by
    refine inComment_content fun _ slash => ?_
    subst slash
    exact absurd named (by decide)
  rw [List.cons_append, kept, plain, if_neg (by decide), opens, kept_quoted along, ends]
  rfl

theorem kept_closed {text after : List Char} (closed : Style.comment text = .closed after) (written : List Char) :
    ∃ inside, text = inside ++ after ∧ (content 0).kept (inside ++ written) = (content 0).kept written := by
  obtain ⟨body, whole, ends, along⟩ := comment_scope closed
  refine ⟨'/' :: '*' :: body, whole, ?_⟩
  have opens : (content 0).kept ('/' :: '*' :: body ++ written) = Scope.comment.kept (body ++ written) := rfl
  rw [opens, kept_comment along]
  exact congrArg (kept · written) ends

theorem kept_cons {nesting : Nesting} {c : Char} {text written rest : List Char} (quoted : ¬ isQuote c = true)
    (plain : nesting = [] → Style.comment (c :: text) = .absent) (whole : text = written ++ rest) :
    (content nesting.length).kept (c :: written) = c :: (content (nesting.after c text).length).kept written := by
  have apart : nesting = [] → c = '/' → written.head? ≠ some '*' := by
    rintro outside rfl star
    obtain ⟨later, rfl⟩ := List.head?_eq_some_iff.mp star
    exact head?_ne_of_comment_absent (plain outside) (by rw [whole]; rfl)
  have solid : (content nesting.length).inComment c written = false :=
    inComment_content fun outside => apart (List.length_eq_zero_iff.mp outside)
  rw [kept, solid, if_neg (by decide)]
  -- Only behind a slash outside parentheses is the scope not that of the parentheses alone.
  by_cases slashed : nesting = [] ∧ c = '/'
  · obtain ⟨rfl, rfl⟩ := slashed
    exact congrArg _ (kept_slash (apart rfl rfl))
  · rw [next_content quoted (fun outside same => slashed ⟨outside, same⟩) text]

theorem IsOutside.run_colon {scope : Scope} (outside : scope.IsOutside) (text : List Char) :
    scope.run (':' :: text) = (content 0).run text := by
  cases scope with
  | content depth =>
    obtain rfl : depth = 0 := outside
    rfl
  | slash => rfl
  | comment | star | quoted | escaped => exact outside.elim

end Scope

open Text Scope

/-- The characters of a value are those that are written, without the comments. -/
theorem valueChars_kept {nesting : Nesting} {text chars rest : List Char}
    (found : valueChars nesting text = .ok (chars, rest)) :
    ∃ written, text = written ++ rest ∧ (content nesting.length).kept written = chars := by
  fun_induction valueChars nesting text generalizing chars with
  | case1 => cases found
  | case2 =>
    cases found
    exact ⟨[], rfl, rfl⟩
  | case3 => cases found
  | case4 nesting c text quoted inside after closed ih =>
    obtain ⟨inner, read, rfl⟩ := prepend_ok found
    obtain ⟨written, rfl, same⟩ := ih read
    obtain ⟨rfl, _⟩ := closeQuote?_scope quoted closed 0
    exact ⟨c :: inside ++ written, by simp, by rw [kept_string quoted closed, same]⟩
  | case5 =>
    cases found
    exact ⟨[], rfl, rfl⟩
  | case6 nesting c text quoted outside plain absent ih =>
    obtain ⟨inner, read, rfl⟩ := prepend_ok found
    obtain ⟨written, whole, same⟩ := ih read
    exact ⟨c :: written, by rw [whole]; rfl, by rw [kept_cons quoted (fun _ => absent) whole, same]; rfl⟩
  | case7 => cases found
  | case8 nesting c text quoted outside plain after closed ih =>
    obtain ⟨written, rfl, same⟩ := ih found
    obtain rfl := List.isEmpty_iff.mp outside
    obtain ⟨inside, whole, dropped⟩ := kept_closed closed written
    exact ⟨inside ++ written, by simp [whole], dropped.trans same⟩
  | case9 nesting c text quoted inside ih =>
    obtain ⟨inner, read, rfl⟩ := prepend_ok found
    obtain ⟨written, whole, same⟩ := ih read
    have deep : nesting = [] → comment (c :: text) = .absent := fun outside => absurd outside (by simpa using inside)
    exact ⟨c :: written, by rw [whole]; rfl, by rw [kept_cons quoted deep whole, same]; rfl⟩

/-- Where a declaration is read: `start` is what stands from its first character on, `name` and `value` are its
two sides as they are written, and its value ends where `rest` begins. -/
structure Spans (declaration : Declaration) (start name value rest : List Char) : Prop where
  whole : start = name ++ ':' :: (value ++ rest)
  named : ∃ kept, Commented name kept ∧ declaration.name.toList = trim kept
  valued : declaration.value.toList = trim ((content 0).kept value)
  guarded : Along Guards (content 0) value
  ends : Ends rest

/-- A round reads a declaration whose value ends outside strings, parentheses and comments. -/
theorem Round.spans {text start afterName rest : List Char} {pair : List Char × List Char}
    (round : Round text start afterName rest pair) : ∃ name value, afterName = value ++ rest ∧
      Spans (declarationOf pair) start name value rest ∧ ((content 0).run value).IsOutside := by
  obtain ⟨_, named, valued⟩ := round
  obtain ⟨rawName, readName, trimmedName, _⟩ := Style.name_found named
  obtain ⟨rawValue, readValue, trimmedValue⟩ := value_found valued
  obtain ⟨name, whole, commented, _⟩ := nameChars_written readName
  obtain ⟨value, rfl, passes, ends⟩ := valueChars_written readValue
  obtain ⟨written, same, kept⟩ := valueChars_kept readValue
  obtain rfl := List.append_cancel_right same
  refine ⟨name, value, rfl, ⟨whole, ⟨rawName, commented, ?_⟩, ?_, passes.guarded, ends⟩, passes.reached⟩
  · rw [declarationOf, String.toList_ofList, trimmedName]
  · rw [declarationOf, String.toList_ofList, trimmedValue]
    exact congrArg trim kept.symm

/-- A value ends outside the quotes and parentheses that opened in it. The colon before it, and its end, lie
outside those of the name as well if the name leaves none of them open. -/
theorem delimiters_lie_outside_pairs {text : String} {before later : List Declaration} {declaration : Declaration}
    (read : parseDeclarations text = .ok (before ++ declaration :: later)) :
    ∃ found left start name value rest, before = found.map declarationOf ∧ Reaches text.toList found left ∧
      Round left start (value ++ rest) rest (declaration.name.toList, declaration.value.toList) ∧
      Spans declaration start name value rest ∧ ¬ InPair value rest ∧
      (((content 0).run name).IsOutside →
        ¬ InPair name (':' :: (value ++ rest)) ∧ ¬ InPair (name ++ ':' :: value) rest) := by
  obtain ⟨all, after, readAll, listed⟩ := parseDeclarations_eq_ok_iff.mp read
  obtain ⟨_, reachAll, _⟩ := pairs_eq_ok_iff.mp readAll
  obtain ⟨found, others, rfl, earlier, same⟩ := List.map_eq_append_iff.mp listed.symm
  obtain ⟨pair, others, rfl, rfl, _⟩ := List.map_eq_cons_iff.mp same
  obtain ⟨left, start, afterName, rest, reach, round⟩ := reachAll.round
  obtain ⟨name, value, rfl, spans, outside⟩ := round.spans
  refine ⟨found, left, start, name, value, rest, earlier.symm, reach, ?_, spans, outside.not_inPair rest,
    fun closed => ⟨closed.not_inPair _, IsOutside.not_inPair ?_ rest⟩⟩
  · simpa [declarationOf] using round
  · rw [run_append, closed.run_colon]
    exact outside

theorem delimiters_lie_outside_pairs_calc :
    parseDeclarations "width:calc(1;2);content:';:'" =
        .ok ([⟨"width", "calc(1;2)"⟩] ++ (⟨"content", "';:'"⟩ : Declaration) :: []) ∧
      ∃ found left start name value rest, [⟨"width", "calc(1;2)"⟩] = found.map declarationOf ∧
        Reaches "width:calc(1;2);content:';:'".toList found left ∧
        Round left start (value ++ rest) rest ("content".toList, "';:'".toList) ∧
        Spans ⟨"content", "';:'"⟩ start name value rest ∧ ¬ InPair value rest ∧
        (((content 0).run name).IsOutside →
          ¬ InPair name (':' :: (value ++ rest)) ∧ ¬ InPair (name ++ ':' :: value) rest) := by
  have read : parseDeclarations "width:calc(1;2);content:';:'" =
      .ok ([⟨"width", "calc(1;2)"⟩] ++ (⟨"content", "';:'"⟩ : Declaration) :: []) := by decide +kernel
  exact ⟨read, delimiters_lie_outside_pairs read⟩

/-- A name knows no parentheses: the colon that ends this one lies between an opening and a closing one. -/
theorem colon_in_parentheses_ends_name :
    parseDeclarations "a(b:c)d:e" = .ok [⟨"a(b", "c)d:e"⟩] ∧
      Round "a(b:c)d:e".toList "a(b:c)d:e".toList "c)d:e".toList [] ("a(b".toList, "c)d:e".toList) ∧
      InPair "a(b".toList ":c)d:e".toList := by
  refine ⟨by decide +kernel, ⟨⟨by decide +kernel, 'a', rfl, by decide⟩, by decide +kernel, by decide +kernel⟩, ?_⟩
  exact ⟨":c)".toList, ⟨"d:e".toList, rfl⟩, by decide⟩

end Hyperscript.Style
