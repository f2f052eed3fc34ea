import Hyperscript.Proofs.StyleGrammar
import Hyperscript.TokenList

namespace Hyperscript

namespace Text

open Style

theorem trim_blanks_append {blanks : List Char} (blank : ∀ c ∈ blanks, isBlank c = true) (text : List Char) :
    trim (blanks ++ text) = trim text := by
  obtain ⟨before, after, first, last, same⟩ := exists_trim text
  have front : ∀ c ∈ blanks ++ before, isBlank c = true := fun c member =>
    (List.mem_append.mp member).elim (blank c) (first c)
  have whole := (trimmed_trim text).trim_eq front last
  rwa [List.append_assoc, List.append_assoc, ← List.append_assoc before, ← same] at whole

theorem trim_append_blanks {blanks : List Char} (blank : ∀ c ∈ blanks, isBlank c = true) (text : List Char) :
    trim (text ++ blanks) = trim text := by
  obtain ⟨before, after, first, last, same⟩ := exists_trim text
  have back : ∀ c ∈ after ++ blanks, isBlank c = true := fun c member =>
    (List.mem_append.mp member).elim (last c) (blank c)
  have whole := (trimmed_trim text).trim_eq first back
  rwa [← List.append_assoc, ← same] at whole

theorem trim_trimmed {text : List Char} (trimmed : Trimmed text) : trim text = text := by
  have whole : trim ([] ++ text ++ []) = text := trimmed.trim_eq nofun nofun
  rwa [List.nil_append, List.append_nil] at whole

theorem mem_of_mem_trim {c : Char} {text : List Char} (member : c ∈ trim text) : c ∈ text := by
  obtain ⟨before, after, _, _, same⟩ := exists_trim text
  rw [same]
  exact List.mem_append_left _ (List.mem_append_right _ member)

section Pieces

variable {cut : Char → Bool}

/-- A cut ends one piece and begins the next. -/
theorem pieces_append_cut {c : Char} (cuts : cut c = true) (text more : List Char) :
    pieces cut (text ++ c :: more) = pieces cut text ++ pieces cut more := by
  induction text with
  | nil => simp [pieces, cuts]
  | cons d rest ih =>
    simp only [List.cons_append, pieces, ih]
    split
    · rfl
    · obtain ⟨piece, others, same⟩ := List.exists_cons_of_ne_nil (pieces_ne_nil cut rest)
      rw [same]
      rfl

theorem pieces_of_uncut {text : List Char} (whole : ∀ c ∈ text, cut c = false) : pieces cut text = [text] := by
  induction text with
  | nil => rfl
  | cons c rest ih =>
    rw [List.forall_mem_cons] at whole
    simp only [pieces, whole.1, Bool.false_eq_true, if_false, ih whole.2, List.modifyHead_cons]

theorem pieces_cons_of_uncut {c : Char} (whole : cut c = false) (text : List Char) :
    pieces cut (c :: text) = (pieces cut text).modifyHead (c :: ·) := by
  simp only [pieces, whole, Bool.false_eq_true, if_false]

/-- What follows the last cut belongs to the last piece. -/
theorem pieces_append_uncut {more : List Char} (whole : ∀ c ∈ more, cut c = false) (text : List Char) :
    ∃ front last, pieces cut text = front ++ [last] ∧ pieces cut (text ++ more) = front ++ [last ++ more] := by
  induction text with
  | nil => exact ⟨[], [], rfl, pieces_of_uncut whole⟩
  | cons c rest ih =>
    obtain ⟨front, last, same, longer⟩ := ih
    simp only [List.cons_append, pieces, same, longer]
    split
    · exact ⟨[] :: front, last, rfl, rfl⟩
    · cases front with
      | nil => exact ⟨[], c :: last, rfl, rfl⟩
      | cons piece front => exact ⟨(c :: piece) :: front, last, rfl, rfl⟩

theorem not_cut_of_mem_pieces {text piece : List Char} (member : piece ∈ pieces cut text) :
    ∀ c ∈ piece, cut c = false := by
  induction text generalizing piece with
  | nil =>
    rw [pieces, List.mem_singleton] at member
    rw [member]
    exact List.forall_mem_nil _
  | cons c rest ih =>
    obtain ⟨first, others, same⟩ := List.exists_cons_of_ne_nil (pieces_ne_nil cut rest)
    rw [same, List.forall_mem_cons] at ih
    rw [pieces, same] at member
    split at member
    · rcases List.mem_cons.mp member with rfl | later
      · exact List.forall_mem_nil _
      · exact (List.mem_cons.mp later).elim (fun here => here ▸ ih.1) (ih.2 piece)
    · next uncut =>
      rw [List.modifyHead_cons] at member
      rcases List.mem_cons.mp member with rfl | later
      · exact List.forall_mem_cons.mpr ⟨by simpa using uncut, ih.1⟩
      · exact ih.2 piece later

end Pieces

theorem words_append_blank {c : Char} (blank : isBlank c = true) (text more : List Char) :
    words (text ++ c :: more) = words text ++ words more := by
  rw [words, pieces_append_cut blank, List.filter_append]
  rfl

theorem words_blanks_append {blanks : List Char} (blank : ∀ c ∈ blanks, isBlank c = true) (text : List Char) :
    words (blanks ++ text) = words text := by
  induction blanks with
  | nil => rfl
  | cons c rest ih =>
    rw [List.forall_mem_cons] at blank
    have first : words (c :: (rest ++ text)) = words (rest ++ text) := words_append_blank blank.1 [] (rest ++ text)
    rw [List.cons_append, first, ih blank.2]

theorem words_append_blanks {blanks : List Char} (blank : ∀ c ∈ blanks, isBlank c = true) (text : List Char) :
    words (text ++ blanks) = words text := by
  cases blanks with
  | nil => rw [List.append_nil]
  | cons c rest =>
    rw [List.forall_mem_cons] at blank
    have nothing := words_blanks_append blank.2 []
    rw [List.append_nil] at nothing
    rw [words_append_blank blank.1, nothing]
    exact List.append_nil _

theorem words_trim (text : List Char) : words (trim text) = words text := by
  obtain ⟨before, after, first, last, same⟩ := exists_trim text
  conv_rhs => rw [same, words_append_blanks last, words_blanks_append first]

/-- Joining with blanks keeps the words of each part, whether the part has one word, several or none. -/
theorem words_intercalate (parts : List (List Char)) : words ([' '].intercalate parts) = parts.flatMap words := by
  induction parts with
  | nil => rfl
  | cons part rest ih =>
    cases rest with
    | nil => simp
    | cons next rest =>
      have blank : isBlank ' ' = true := by decide
      rw [List.intercalate_cons_cons, List.append_assoc, List.singleton_append, words_append_blank blank, ih]
      rfl

theorem words_of_mem_words {text word : List Char} (member : word ∈ words text) : words word = [word] := by
  obtain ⟨piece, some⟩ := List.mem_filter.mp member
  rw [words, pieces_of_uncut (not_cut_of_mem_pieces piece)]
  exact List.filter_cons_of_pos some

end Text

namespace TokenList

open Style Text

theorem toList_joinTrimmed (separator : List Char) (items : List (List Char)) :
    (joinTrimmed separator items).toList = trim (separator.intercalate items) :=
  String.toList_ofList

/-- A list joined with spaces is read as the words of its tokens. -/
theorem parseSpaces_printSpaces (tokens : List Token) :
    parseSpaces (printSpaces tokens) = tokens.flatMap fun token => parseSpaces token.toText := by
  rw [parseSpaces, printSpaces, toList_joinTrimmed, words_trim, words_intercalate, List.flatMap_map,
    List.map_flatMap]
  rfl

/-- The words of a text, joined again, are the same words. -/
theorem parseSpaces_printSpaces_parseSpaces (value : String) :
    parseSpaces (printSpaces ((parseSpaces value).map .text)) = parseSpaces value := by
  have single : ∀ word ∈ words value.toList, parseSpaces (String.ofList word) = [String.ofList word] := by
    intro word member
    rw [parseSpaces, String.toList_ofList, words_of_mem_words member]
    rfl
  rw [parseSpaces_printSpaces, List.flatMap_map, parseSpaces, List.flatMap_map]
  exact (List.flatMap_congr single).trans (List.map_eq_flatMap ..).symm

theorem comma_not_blank {c : Char} (blank : isBlank c = true) : decide (c = ',') = false := by
  have other := ne_of_isBlank blank (show isBlank ',' = false by decide)
  simpa using other

/-- The blanks around a text are around its first item and its last. -/
theorem map_trim_pieces_trim (text : List Char) :
    (pieces (· = ',') (trim text)).map trim = (pieces (· = ',') text).map trim := by
  have front : ∀ blanks, (∀ c ∈ blanks, isBlank c = true) → ∀ text,
      (pieces (· = ',') (blanks ++ text)).map trim = (pieces (· = ',') text).map trim := by
    intro blanks blank text
    induction blanks with
    | nil => rfl
    | cons c rest ih =>
      rw [List.forall_mem_cons] at blank
      have here : ∀ c' ∈ [c], isBlank c' = true := List.forall_mem_singleton.mpr blank.1
      obtain ⟨piece, others, same⟩ := List.exists_cons_of_ne_nil (pieces_ne_nil (· = ',') (rest ++ text))
      rw [List.cons_append, pieces_cons_of_uncut (comma_not_blank blank.1), ← ih blank.2, same,
        List.modifyHead_cons, List.map_cons, List.map_cons]
      exact congrArg (· :: _) (trim_blanks_append here piece)
  obtain ⟨before, after, first, last, same⟩ := exists_trim text
  obtain ⟨items, item, short, long⟩ :=
    pieces_append_uncut (fun c member => comma_not_blank (last c member)) (trim text)
  conv_rhs => rw [same, List.append_assoc, front before first, long]
  rw [short, List.map_append, List.map_append, List.map_singleton, List.map_singleton, trim_append_blanks last]

/-- Items without commas and without blanks around them are found again in a list. -/
theorem map_trim_pieces_intercalate {items : List (List Char)} (some : items ≠ [])
    (plain : ∀ item ∈ items, ',' ∉ item ∧ Trimmed item) :
    (pieces (· = ',') ([',', ' '].intercalate items)).map trim = items := by
  induction items with
  | nil => exact absurd rfl some
  | cons item rest ih =>
    rw [List.forall_mem_cons] at plain
    have uncut : ∀ c ∈ item, decide (c = ',') = false := by
      intro c member
      refine decide_eq_false fun same => plain.1.1 ?_
      rwa [← same]
    have trimmed := trim_trimmed plain.1.2
    cases rest with
    | nil => rw [List.intercalate_singleton, pieces_of_uncut uncut, List.map_singleton, trimmed]
    | cons next rest =>
      have blank : ∀ c ∈ [' '], isBlank c = true := by
        intro c member
        obtain rfl := List.mem_singleton.mp member
        rfl
      have later := ih (List.cons_ne_nil _ _) plain.2
      have spaced := map_trim_pieces_trim (' ' :: [',', ' '].intercalate (next :: rest))
      have bare := map_trim_pieces_trim ([',', ' '].intercalate (next :: rest))
      rw [← List.singleton_append, trim_blanks_append blank] at spaced
      rw [List.intercalate_cons_cons, List.append_assoc, List.cons_append, pieces_append_cut (by decide),
        pieces_of_uncut uncut, List.singleton_append, List.map_cons, trimmed, ← spaced, bare, later]

/-- A list joined with commas is read as it was: empty items count, and the one that is added at the end after an
empty item is not read. -/
theorem parseCommas_printCommas {tokens : List Token}
    (plain : ∀ token ∈ tokens, ',' ∉ token.toText.toList ∧ Trimmed token.toText.toList) :
    parseCommas (printCommas tokens) = tokens.map Token.toText := by
  have texts : (tokens.map fun token => token.toText.toList).map String.ofList = tokens.map Token.toText := by
    rw [List.map_map]
    exact List.map_congr_left fun token _ => String.ofList_toList
  rw [← texts, parseCommas, printCommas, toList_joinTrimmed]
  simp only [map_trim_pieces_trim]
  have plain : ∀ item ∈ tokens.map fun token => token.toText.toList, ',' ∉ item ∧ Trimmed item := by
    simpa using plain
  generalize tokens.map (fun token => token.toText.toList) = items at plain
  by_cases none : items = []
  · rw [none]
    rfl
  · by_cases ended : items.getLast? = some []
    · have longer : ∀ item ∈ items ++ [[]], ',' ∉ item ∧ Trimmed item := by
        intro item member
        rcases List.mem_append.mp member with listed | last
        · exact plain item listed
        · rw [List.mem_singleton.mp last]
          exact ⟨List.not_mem_nil, nofun, nofun⟩
      rw [if_pos ended, map_trim_pieces_intercalate (List.append_ne_nil_of_right_ne_nil _ (List.cons_ne_nil _ _))
        longer, if_pos (List.getLast?_concat ..), List.dropLast_concat]
    · rw [if_neg ended, map_trim_pieces_intercalate none plain, if_neg ended]

/-- The items of a text, joined again, are the same items. -/
theorem parseCommas_printCommas_parseCommas (value : String) :
    parseCommas (printCommas ((parseCommas value).map .text)) = parseCommas value := by
  have plain : ∀ item ∈ parseCommas value, ',' ∉ item.toList ∧ Trimmed item.toList := by
    intro item member
    have read : ∃ piece ∈ pieces (· = ',') value.toList, String.ofList (trim piece) = item := by
      simp only [parseCommas] at member
      obtain ⟨chars, listed, rfl⟩ := List.mem_map.mp member
      have found : chars ∈ (pieces (· = ',') value.toList).map trim := by
        split at listed
        · exact List.dropLast_subset _ listed
        · exact listed
      obtain ⟨piece, here, rfl⟩ := List.mem_map.mp found
      exact ⟨piece, here, rfl⟩
    obtain ⟨piece, here, rfl⟩ := read
    rw [String.toList_ofList]
    refine ⟨fun comma => ?_, trimmed_trim piece⟩
    have uncut := not_cut_of_mem_pieces here ',' (mem_of_mem_trim comma)
    simp at uncut
  rw [parseCommas_printCommas (by simpa [Token.toText] using plain), List.map_map]
  exact List.map_id' _

end TokenList

end Hyperscript
