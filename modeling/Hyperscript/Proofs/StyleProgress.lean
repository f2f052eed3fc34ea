import Hyperscript.Proofs.StyleNesting

namespace Hyperscript.Style

open Text Scope

/-- Read the character at a place. A place that the text does not have is an error. -/
def readAt (text : List Char) (place : Nat) : Except Nat Char :=
  match text[place]? with
  | some c => .ok c
  | none => .error place

theorem readAt_eq {text : List Char} {place : Nat} (inside : place < text.length) :
    readAt text place = .ok text[place] := by
  rw [readAt, List.getElem?_eq_getElem inside]

/-- The place behind the end of a comment, searched for from a place in the comment on. Two characters are read at
each place that has another behind it. -/
def commentEnd (text : List Char) (place : Nat) : Except Nat (Option Nat) :=
  if _ : place + 1 < text.length then do
    let first ← readAt text place
    let second ← readAt text (place + 1)
    if first = '*' ∧ second = '/' then return some (place + 2)
    commentEnd text (place + 1)
  else return none
termination_by text.length - place

theorem closeComment?_cons_cons (first second : Char) (rest : List Char) :
    closeComment? (first :: second :: rest) =
      if first = '*' ∧ second = '/' then some rest else closeComment? (second :: rest) := by
  split
  · next both => rw [both.1, both.2, closeComment?]
  · next apart =>
    rw [closeComment?]
    intro later star slash
    exact apart ⟨star, (List.cons.inj slash).1⟩

theorem closeComment?_of_length_le_one {text : List Char} (short : text.length ≤ 1) : closeComment? text = none := by
  cases text with
  | nil => rw [closeComment?]
  | cons c rest =>
    obtain rfl : rest = [] := List.length_eq_zero_iff.mp (by simpa using short)
    rw [closeComment?, closeComment?]
    intro later _ slash
    cases slash

/-- The search by places finds what the scanner finds, and each character that it reads is there. -/
theorem commentEnd_eq (text : List Char) (place : Nat) :
    commentEnd text place = .ok ((closeComment? (text.drop place)).map fun rest => text.length - rest.length) := by
  rw [commentEnd]
  split
  · next inside =>
    have whole : text.drop place = text[place] :: text[place + 1] :: text.drop (place + 2) := by
      rw [List.drop_eq_getElem_cons (by omega), List.drop_eq_getElem_cons inside]
    rw [readAt_eq (by omega), readAt_eq inside, whole, closeComment?_cons_cons]
    show (if _ then _ else _) = _
    split
    · have behind : text.length - (text.length - (place + 2)) = place + 2 := by omega
      rw [Option.map_some, List.length_drop, behind]
      rfl
    · rw [commentEnd_eq text (place + 1), List.drop_eq_getElem_cons inside]
  · next outside =>
    -- At most one character is left, and two are needed to close a comment.
    have short : (text.drop place).length ≤ 1 := by rw [List.length_drop]; omega
    rw [closeComment?_of_length_le_one short]
    rfl
termination_by text.length - place

/-- `rest` is what is left of the text from a place on, at the latest from its end on. -/
structure LeftAt (text : List Char) (place : Nat) (rest : List Char) : Prop where
  bound : place ≤ text.length
  rest_eq : rest = text.drop place

/-- What is behind some characters is left at the place behind them. -/
theorem leftAt_of_append {text written rest : List Char} {start : Nat} (inside : start ≤ text.length)
    (whole : text.drop start = written ++ rest) : LeftAt text (start + written.length) rest where
  bound := by
    have length := congrArg List.length whole
    rw [List.length_drop, List.length_append] at length
    omega
  rest_eq := by rw [← List.drop_drop, whole, List.drop_left]

/-- Every end of a text is left at some place of it. -/
theorem leftAt_of_suffix {text rest : List Char} (suffix : rest <:+ text) : ∃ place, LeftAt text place rest := by
  obtain ⟨before, rfl⟩ := suffix
  exact ⟨_, leftAt_of_append (Nat.zero_le _) rfl⟩

theorem LeftAt.getElem? {text rest : List Char} {place : Nat} (left : LeftAt text place rest) :
    text[place]? = rest.head? := by
  rw [left.rest_eq, List.head?_drop]

theorem LeftAt.tail {text rest : List Char} {c : Char} {place : Nat} (left : LeftAt text place (c :: rest)) :
    LeftAt text (place + 1) rest := by
  have whole : text.drop place = [c] ++ rest := left.rest_eq.symm
  exact leftAt_of_append left.bound whole

theorem LeftAt.eq_length {text rest : List Char} {place : Nat} (left : LeftAt text place rest) (nothing : rest = []) :
    place = text.length := by
  have length := congrArg List.length (nothing ▸ left.rest_eq)
  rw [List.length_drop, List.length_nil] at length
  have := left.bound
  omega

section Readers

variable {text rest chars : List Char} {start : Nat}

theorem commentEnd_of_opened {body : List Char} (opened : text.drop start = '/' :: '*' :: body) :
    commentEnd text (start + 2) = .ok ((closeComment? body).map fun rest => text.length - rest.length) := by
  rw [commentEnd_eq, ← List.drop_drop, opened]
  rfl

/-- A closed comment is at least four characters long, and its end is found without reading past the text. -/
theorem comment_forward (inside : start ≤ text.length) {after : List Char}
    (closed : comment (text.drop start) = .closed after) :
    ∃ stop, commentEnd text (start + 2) = .ok (some stop) ∧ start + 4 ≤ stop ∧ LeftAt text stop after := by
  obtain ⟨body, clear, whole⟩ := comment_closed closed
  have left : LeftAt text (start + ('/' :: '*' :: (body ++ ['*', '/'])).length) after :=
    leftAt_of_append inside (by simpa using whole)
  refine ⟨_, ?_, ?_, left⟩
  · have stop : text.length - after.length = start + ('/' :: '*' :: (body ++ ['*', '/'])).length := by
      have bound := left.bound
      rw [left.rest_eq, List.length_drop]
      omega
    rw [commentEnd_of_opened whole, closeComment?_body clear, Option.map_some, stop]
  · simp only [List.length_cons, List.length_append, List.length_nil]
    omega

theorem commentEnd_unterminated (unterminated : comment (text.drop start) = .unterminated) :
    commentEnd text (start + 2) = .ok none := by
  unfold comment at unterminated
  split at unterminated
  · next body opened =>
    split at unterminated
    · cases unterminated
    · next unclosed => rw [commentEnd_of_opened opened, unclosed, Option.map_none]
  · cases unterminated

theorem skipTrivia_forward (inside : start ≤ text.length) (skipped : skipTrivia (text.drop start) = .ok rest) :
    ∃ stop, start ≤ stop ∧ LeftAt text stop rest := by
  obtain ⟨lead, _, whole, _⟩ := skipTrivia_found skipped
  exact ⟨start + lead.length, Nat.le_add_right .., leftAt_of_append inside whole⟩

/-- A name has at least one character, and it ends at a colon. -/
theorem name_forward (inside : start ≤ text.length) (named : name (text.drop start) = .ok (chars, rest)) :
    ∃ stop, start < stop ∧ text[stop]? = some ':' ∧ LeftAt text (stop + 1) rest := by
  obtain ⟨raw, found, _, some⟩ := name_found named
  obtain ⟨written, whole, commented, _⟩ := nameChars_written found
  have left := leftAt_of_append inside whole
  refine ⟨start + written.length, ?_, left.getElem?, left.tail⟩
  cases commented with
  | nil => exact absurd rfl some
  | _ => simp

/-- A value may be empty, and it ends at a semicolon, at a brace or with the text. -/
theorem value_forward (inside : start ≤ text.length) (valued : value (text.drop start) = .ok (chars, rest)) :
    ∃ stop, start ≤ stop ∧ (stop = text.length ∨ text[stop]? = some ';' ∨ text[stop]? = some '\x7d') ∧
      LeftAt text stop rest := by
  obtain ⟨written, whole, _, ends⟩ := value_written valued
  have left := leftAt_of_append inside whole
  refine ⟨start + written.length, Nat.le_add_right .., ?_, left⟩
  cases rest with
  | nil => exact Or.inl (left.eq_length rfl)
  | cons c rest =>
    rw [left.getElem?]
    exact Or.inr ((ends c rfl).imp (congrArg some) (congrArg some))

end Readers

theorem trim_sublist (chars : List Char) : (trim chars).Sublist chars := by
  obtain ⟨before, after, _, _, same⟩ := exists_trim chars
  have inner := (List.sublist_append_right before (trim chars)).trans (List.sublist_append_left _ after)
  exact inner.trans (same ▸ List.Sublist.refl _)

/-- Taking comments out keeps the order of all else. -/
theorem Commented.sublist {written kept : List Char} (commented : Commented written kept) : kept.Sublist written := by
  induction commented with
  | nil => exact .slnil
  | char _ _ ih => exact ih.cons_cons _
  | @comment body written kept _ _ ih =>
    have closed : kept.Sublist (body ++ '*' :: '/' :: written) :=
      ((ih.cons '/').cons '*').trans (List.sublist_append_right body _)
    exact (closed.cons '*').cons '/'

theorem Scope.kept_sublist (scope : Scope) (written : List Char) : (scope.kept written).Sublist written := by
  induction written generalizing scope with
  | nil => exact .slnil
  | cons c written ih =>
    rw [kept]
    split
    · exact (ih _).cons c
    · exact (ih _).cons_cons c

theorem nameChars_sublist {text chars rest : List Char} (found : nameChars text = .ok (chars, rest)) :
    (chars ++ ':' :: rest).Sublist text := by
  obtain ⟨written, whole, commented, _⟩ := nameChars_written found
  rw [whole]
  exact commented.sublist.append_right _

theorem valueChars_sublist {nesting : Nesting} {text chars rest : List Char}
    (found : valueChars nesting text = .ok (chars, rest)) : (chars ++ rest).Sublist text := by
  obtain ⟨written, rfl, kept⟩ := valueChars_kept found
  exact (kept ▸ Scope.kept_sublist _ written).append_right rest

/-- A round keeps the order of what it reads: the name, the colon and the value, and what is left. -/
theorem Round.sublist {text start afterName rest : List Char} {pair : List Char × List Char}
    (round : Round text start afterName rest pair) : (pair.1 ++ ':' :: pair.2 ++ rest).Sublist text := by
  obtain ⟨name, found, trimmed, _⟩ := name_found round.named
  obtain ⟨value, read, trimmed'⟩ := value_found round.valued
  have content : (pair.2 ++ rest).Sublist afterName := by
    rw [trimmed']
    exact ((trim_sublist value).append_right rest).trans (valueChars_sublist read)
  have named : (pair.1 ++ ':' :: afterName).Sublist start := by
    rw [trimmed]
    exact ((trim_sublist name).append_right _).trans (nameChars_sublist found)
  have whole : (pair.1 ++ ':' :: (pair.2 ++ rest)).Sublist start :=
    ((content.cons_cons ':').append_left pair.1).trans named
  rw [List.append_assoc, List.cons_append]
  exact whole.trans round.opens.suffix.sublist

/-- A run keeps the order of what it reads. -/
theorem Reaches.sublist {text left : List Char} {found : List (List Char × List Char)}
    (reach : Reaches text found left) :
    ((found.flatMap fun pair => pair.1 ++ ':' :: pair.2) ++ left).Sublist text := by
  induction reach with
  | start => exact List.Sublist.refl _
  | @next found left _ _ rest pair _ round ih =>
    rw [List.flatMap_append, List.flatMap_singleton, List.append_assoc]
    exact (round.sublist.append_left _).trans ih

/-- Every pair brings a colon. -/
theorem length_le_count_colon (found : List (List Char × List Char)) :
    found.length ≤ (found.flatMap fun pair => pair.1 ++ ':' :: pair.2).count ':' := by
  induction found with
  | nil => exact Nat.le_refl 0
  | cons pair found ih =>
    rw [List.flatMap_cons, List.count_append, List.count_append, List.count_cons_self, List.length_cons]
    omega

/-- Each round so far has used up a colon of its own. -/
theorem Reaches.length_add_count_le {text left : List Char} {found : List (List Char × List Char)}
    (reach : Reaches text found left) : found.length + left.count ':' ≤ text.count ':' := by
  have colons := reach.sublist.count_le ':'
  rw [List.count_append] at colons
  have := length_le_count_colon found
  omega

/-- A round that has found its colon is one more than those before, even if its value fails. -/
theorem Reaches.length_lt_of_named {text left start chars rest : List Char} {found : List (List Char × List Char)}
    (reach : Reaches text found left) (opens : Opens left start) (named : name start = .ok (chars, rest)) :
    found.length < text.count ':' := by
  have colons := reach.length_add_count_le
  obtain ⟨written, rfl, _⟩ := opens.name_found named
  have another : 0 < left.count ':' := List.count_pos_iff.mpr (opens.suffix.mem (by simp))
  omega

theorem flatMap_sublist_colons (found : List (List Char × List Char)) :
    (found.flatMap fun pair => pair.1 ++ pair.2).Sublist (found.flatMap fun pair => pair.1 ++ ':' :: pair.2) := by
  induction found with
  | nil => exact .slnil
  | cons pair found ih =>
    rw [List.flatMap_cons, List.flatMap_cons]
    exact ((List.sublist_cons_self ':' pair.2).append_left pair.1).append ih

/-- What is read stands in the text in the same order, with other characters between. -/
theorem Reaches.flatMap_sublist {text left : List Char} {found : List (List Char × List Char)}
    (reach : Reaches text found left) : (found.flatMap fun pair => pair.1 ++ pair.2).Sublist text := by
  have read := (flatMap_sublist_colons found).trans (List.sublist_append_left _ left)
  exact read.trans reach.sublist

/-- A run that has come to its end tells what the loop returns. -/
theorem exists_end (text : List Char) : ∃ found left, Reaches text found left ∧
    ((∃ rest, Stops left rest ∧ pairs text = .ok (found, rest)) ∨
      ∃ fault, Fails left fault ∧ pairs text = .error fault) := by
  obtain ⟨found, left, reach, ⟨rest, stops⟩ | ⟨fault, fails⟩⟩ := exists_reaches text
  · exact ⟨found, left, reach, Or.inl ⟨rest, stops, reach.pairs_of_stops stops⟩⟩
  · exact ⟨found, left, reach, Or.inr ⟨fault, fails, reach.pairs_of_fails fails⟩⟩

/-- The scanner of a text moves forward and stays within it. -/
structure ScansForward (text : List Char) : Prop where
  /-- A comment ends four places behind its beginning or later, and its end is found by reading inside the text. -/
  comments : ∀ start ≤ text.length, ∀ after, comment (text.drop start) = .closed after →
    ∃ stop, commentEnd text (start + 2) = .ok (some stop) ∧ start + 4 ≤ stop ∧ LeftAt text stop after
  /-- That a comment has no end is found by reading inside the text, too. -/
  unterminated : ∀ start ≤ text.length, comment (text.drop start) = .unterminated →
    commentEnd text (start + 2) = .ok none
  trivia : ∀ start ≤ text.length, ∀ rest, skipTrivia (text.drop start) = .ok rest →
    ∃ stop, start ≤ stop ∧ LeftAt text stop rest
  names : ∀ start ≤ text.length, ∀ chars rest, name (text.drop start) = .ok (chars, rest) →
    ∃ stop, start < stop ∧ text[stop]? = some ':' ∧ LeftAt text (stop + 1) rest
  values : ∀ start ≤ text.length, ∀ chars rest, value (text.drop start) = .ok (chars, rest) →
    ∃ stop, start ≤ stop ∧ (stop = text.length ∨ text[stop]? = some ';' ∨ text[stop]? = some '\x7d') ∧
      LeftAt text stop rest
  /-- A round is entered, and a fault is blamed, inside the text or at its end. -/
  entered : ∀ found left, Reaches text found left → ∃ place, LeftAt text place left
  blamed : ∀ fault, pairs text = .error fault → ∃ place, LeftAt text place fault.rest
  /-- There are at most as many rounds as colons. -/
  rounds : ∀ found left, Reaches text found left → found.length ≤ text.count ':'
  /-- A round that fails behind its name counts, too. -/
  named : ∀ found left start chars rest, Reaches text found left → Opens left start →
    name start = .ok (chars, rest) → found.length < text.count ':'
  /-- Every run comes to a round in which it stops or fails. -/
  ends : ∃ found left, Reaches text found left ∧
    ((∃ rest, Stops left rest ∧ pairs text = .ok (found, rest)) ∨
      ∃ fault, Fails left fault ∧ pairs text = .error fault)
  subsequence : ∀ found left, Reaches text found left → (found.flatMap fun pair => pair.1 ++ pair.2).Sublist text

/-- On every text the scanner moves forward from wherever it is called, and it never leaves the text. So its loop ends,
after at most as many rounds as there are colons, and the names and values that it returns are, one after the other, a
subsequence of the text. -/
theorem scanner_moves_forward (text : String) : ScansForward text.toList ∧
    ∀ declarations, parseDeclarations text = .ok declarations →
      declarations.length ≤ text.toList.count ':' ∧
      (declarations.flatMap fun declaration => declaration.name.toList ++ declaration.value.toList).Sublist
        text.toList := by
  refine ⟨?_, fun declarations read => ?_⟩
  · exact {
      comments := fun start inside after closed => comment_forward inside closed
      unterminated := fun start _ unterminated => commentEnd_unterminated unterminated
      trivia := fun start inside rest skipped => skipTrivia_forward inside skipped
      names := fun start inside chars rest named => name_forward inside named
      values := fun start inside chars rest valued => value_forward inside valued
      entered := fun found left reach => leftAt_of_suffix reach.suffix
      blamed := fun fault failed => by
        obtain ⟨before, whole, _⟩ := pairs_offends failed
        exact leftAt_of_suffix ⟨before, whole.symm⟩
      rounds := fun found left reach => (Nat.le_add_right ..).trans reach.length_add_count_le
      named := fun found left start chars rest reach opens named => reach.length_lt_of_named opens named
      ends := exists_end text.toList
      subsequence := fun found left reach => reach.flatMap_sublist }
  · obtain ⟨found, rest, there, rfl⟩ := parseDeclarations_eq_ok_iff.mp read
    obtain ⟨left, reach, _⟩ := pairs_eq_ok_iff.mp there
    refine ⟨?_, ?_⟩
    · rw [List.length_map]
      exact (Nat.le_add_right ..).trans reach.length_add_count_le
    · rw [List.flatMap_map]
      simpa only [declarationOf, String.toList_ofList] using reach.flatMap_sublist

/-- There are two rounds and three colons, one of them in a comment. -/
theorem scanner_moves_forward_commented :
    parseDeclarations "a/*:*/b:'\\';';c:d" = .ok [⟨"ab", "'\\';'"⟩, ⟨"c", "d"⟩] ∧
      [(⟨"ab", "'\\';'"⟩ : Declaration), ⟨"c", "d"⟩].length ≤ "a/*:*/b:'\\';';c:d".toList.count ':' ∧
      ([(⟨"ab", "'\\';'"⟩ : Declaration), ⟨"c", "d"⟩].flatMap fun declaration =>
        declaration.name.toList ++ declaration.value.toList).Sublist "a/*:*/b:'\\';';c:d".toList := by
  have read : parseDeclarations "a/*:*/b:'\\';';c:d" = .ok [⟨"ab", "'\\';'"⟩, ⟨"c", "d"⟩] := by decide +kernel
  exact ⟨read, (scanner_moves_forward "a/*:*/b:'\\';';c:d").2 _ read⟩

end Hyperscript.Style
