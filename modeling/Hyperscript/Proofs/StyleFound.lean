import Hyperscript.Proofs.StyleUncommented

namespace Hyperscript.Style

open Text

theorem mayGoOn_cons_blank {c : Char} (blank : isBlank c = true) (depth : Nat) (rest : List Char) :
    mayGoOn none depth (c :: rest) = mayGoOn none depth rest := by
  have semicolon : c ≠ ';' := ne_of_isBlank blank (by decide)
  have brace : c ≠ '\x7d' := ne_of_isBlank blank (by decide)
  have slash : c ≠ '/' := ne_of_isBlank blank (by decide)
  have opening : c ≠ '(' := ne_of_isBlank blank (by decide)
  have closing : c ≠ ')' := ne_of_isBlank blank (by decide)
  rw [mayGoOn, if_neg (isQuote_of_isBlank blank), if_neg (by simp [semicolon, brace, slash]), if_neg opening,
    if_neg closing]

theorem mayGoOn_blanks_append {blanks : List Char} (blank : ∀ c ∈ blanks, isBlank c = true) (depth : Nat)
    (chars : List Char) : mayGoOn none depth (blanks ++ chars) = mayGoOn none depth chars := by
  induction blanks with
  | nil => rfl
  | cons c blanks ih =>
    rw [List.forall_mem_cons] at blank
    rw [List.cons_append, mayGoOn_cons_blank blank.1, ih blank.2]

/-- Blanks close no quote. -/
theorem mayGoOn_blanks_quoted {quote : Char} (named : isQuote quote = true) {blanks : List Char}
    (blank : ∀ c ∈ blanks, isBlank c = true) (depth : Nat) : mayGoOn (some quote) depth blanks = false := by
  induction blanks with
  | nil => rfl
  | cons c blanks ih =>
    rw [List.forall_mem_cons] at blank
    have escape : c ≠ '\\' := ne_of_isBlank blank.1 (by decide)
    have other : c ≠ quote := fun same => isQuote_of_isBlank blank.1 (same ▸ named)
    rw [mayGoOn, if_neg other]
    · exact ih blank.2
    · exact fun _ _ same => absurd same escape

/-- A value that is closed with blanks behind it is closed without them. -/
theorem mayGoOn_of_append_blanks {quote : Option Char} {depth : Nat} {chars blanks : List Char}
    (named : ∀ c ∈ quote, isQuote c = true) (blank : ∀ c ∈ blanks, isBlank c = true)
    (goesOn : mayGoOn quote depth (chars ++ blanks) = true) : mayGoOn quote depth chars = true := by
  fun_induction mayGoOn quote depth chars with
  | case1 depth =>
    have same := mayGoOn_blanks_append blank depth []
    rw [List.append_nil] at same
    rwa [List.nil_append, same] at goesOn
  | case2 =>
    rw [List.nil_append, mayGoOn_blanks_quoted (named _ rfl) blank] at goesOn
    exact goesOn
  | case3 quote depth _ rest ih =>
    rw [List.cons_append, List.cons_append, mayGoOn] at goesOn
    exact ih named goesOn
  | case4 quote depth c rest plain ih =>
    have stays : ∀ d ∈ (if c = quote then none else some quote), isQuote d = true := by
      intro d member
      split at member
      · cases member
      · exact named d member
    by_cases escape : c = '\\' ∧ rest = []
    · obtain ⟨rfl, rfl⟩ := escape
      cases blanks with
      | nil =>
        rw [List.append_nil, mayGoOn] at goesOn
        · exact goesOn
        · intro _ _ _ same
          cases same
      | cons b blanks =>
        rw [List.forall_mem_cons] at blank
        rw [List.singleton_append, mayGoOn, mayGoOn_blanks_quoted (named _ rfl) blank.2] at goesOn
        cases goesOn
    · rw [List.cons_append, mayGoOn] at goesOn
      · exact ih stays goesOn
      · intro next later backslash whole
        cases rest with
        | nil => exact escape ⟨backslash, rfl⟩
        | cons d rest => exact plain d rest backslash rfl
  | case5 depth c rest quoted ih =>
    rw [List.cons_append, mayGoOn, if_pos quoted] at goesOn
    refine ih ?_ goesOn
    rintro _ ⟨rfl⟩
    exact quoted
  | case6 depth c rest quoted delimiter =>
    rw [List.cons_append, mayGoOn, if_neg quoted, if_pos] at goesOn
    · exact goesOn
    · simp only [Bool.and_eq_true, Bool.or_eq_true, decide_eq_true_eq] at delimiter ⊢
      obtain ⟨outside, semicolon | ⟨slash, star⟩⟩ := delimiter
      · exact ⟨outside, Or.inl semicolon⟩
      · obtain ⟨later, rfl⟩ := List.head?_eq_some_iff.mp star
        exact ⟨outside, Or.inr ⟨slash, rfl⟩⟩
  | case7 depth c rest quoted plain ih =>
    rw [List.cons_append, mayGoOn, if_neg quoted] at goesOn
    split at goesOn
    · cases goesOn
    · exact ih forall_mem_none goesOn

/-- The value of a closed text can be printed once it is trimmed. -/
theorem printableValue_trim {chars : List Char} (closed : mayGoOn none 0 chars = true) :
    PrintableValue (trim chars) := by
  refine ⟨trimmed_trim chars, ?_⟩
  obtain ⟨before, after, first, last, same⟩ := exists_trim chars
  rw [same, List.append_assoc, mayGoOn_blanks_append first] at closed
  exact mayGoOn_of_append_blanks forall_mem_none last closed

/-- A name that was read from a text without comments can be printed once it is trimmed. -/
theorem printableName_trim {c : Char} {text rest chars : List Char} (clear : Uncommented (c :: text))
    (blank : isBlank c = false) (brace : c ≠ '\x7d') (found : nameChars (c :: text) = .ok (chars, rest))
    (some : trim chars ≠ []) : PrintableName (trim chars) := by
  obtain ⟨whole, colon, semicolon, inside⟩ := nameChars_found clear found
  obtain ⟨before, after, first, _, same⟩ := exists_trim chars
  have part : trim chars <:+: chars := ⟨before, after, same.symm⟩
  refine ⟨some, trimmed_trim chars, fun member => colon (part.subset member),
    fun member => semicolon (part.subset member), fun opened => inside (opened.trans part), fun member => ?_⟩
  cases before with
  | nil =>
    obtain ⟨later, starts⟩ := List.head?_eq_some_iff.mp member
    rw [same, starts] at whole
    cases whole
    exact brace rfl
  | cons b before =>
    rw [same] at whole
    cases whole
    exact absurd (first _ (List.mem_cons_self ..)) (by simp [blank])

/-- A name and a value with a colon between them spell the declaration that is read from them. -/
theorem spelled_found {chars content : List Char} (goodName : PrintableName (trim chars))
    (goodValue : PrintableValue (trim content)) :
    Spelled ⟨String.ofList (trim chars), String.ofList (trim content)⟩ (chars ++ ':' :: content) := by
  obtain ⟨a, b, blankA, blankB, wholeName⟩ := exists_trim chars
  obtain ⟨c, d, blankC, blankD, wholeValue⟩ := exists_trim content
  have spelled : Spelled ⟨String.ofList (trim chars), String.ofList (trim content)⟩ _ :=
    .mk (gap_of_blank blankA) (gap_of_blank blankB) (gap_of_blank blankC) (gap_of_blank blankD)
      (by rwa [String.toList_ofList]) (by rwa [String.toList_ofList])
  rwa [String.toList_ofList, String.toList_ofList, ← wholeName, ← wholeValue] at spelled

theorem name_found {text chars rest : List Char} (found : name text = .ok (chars, rest)) :
    ∃ raw, nameChars text = .ok (raw, rest) ∧ chars = trim raw ∧ trim raw ≠ [] := by
  unfold name at found
  split at found
  · cases found
  · next raw _ read =>
    split at found
    · cases found
    · next some =>
      cases found
      exact ⟨raw, read, rfl, some⟩

theorem value_found {text content rest : List Char} (found : value text = .ok (content, rest)) :
    ∃ raw, valueChars [] text = .ok (raw, rest) ∧ content = trim raw := by
  unfold value at found
  split at found
  · cases found
  · next raw _ read =>
    cases found
    exact ⟨raw, read, rfl⟩

/-- Without comments, a text that is read is a layout of what is read, up to a closing brace if there is one
where a declaration might begin. -/
theorem pairs_found {text rest : List Char} {found : List (List Char × List Char)} (clear : Uncommented text)
    (read : pairs text = .ok (found, rest)) : ∃ laidOut, text = laidOut ++ rest ∧
      Layout (found.map declarationOf) laidOut ∧ ∀ c ∈ rest.head?, c = '\x7d' := by
  induction size : text.length using Nat.strong_induction_on generalizing text found with
  | _ length ih =>
    rcases round_cases text with
      ⟨left, stops⟩ | ⟨fault, fails⟩ | ⟨start, afterName, afterValue, ⟨chars, content⟩, round⟩
    · have same := stops.pairs_eq
      rw [read] at same
      cases same
      obtain ⟨lead, filler, rfl, _, _⟩ := skipTrivia_found stops.skipped
      exact ⟨lead, rfl, .empty filler, stops.ends⟩
    · rw [fails.pairs_eq] at read
      cases read
    · obtain ⟨others, later, rfl⟩ := round.pairs_ok read
      obtain ⟨⟨skipped, c, first, brace⟩, named, valued⟩ := round
      simp only at named valued
      obtain ⟨tail, rfl⟩ := List.head?_eq_some_iff.mp first
      obtain ⟨lead, filler, rfl, starts, _⟩ := skipTrivia_found skipped
      obtain ⟨rawName, readName, rfl, some⟩ := name_found named
      obtain ⟨rawValue, readValue, rfl⟩ := value_found valued
      obtain ⟨wholeName, _, _, _⟩ := nameChars_found clear.right readName
      have clearValue : Uncommented afterName := (wholeName ▸ clear.right).right.tail
      obtain ⟨rfl, closed, ends⟩ := valueChars_found clearValue readValue
      have spelled := spelled_found
        (printableName_trim clear.right (starts c rfl).1 brace readName some) (printableValue_trim closed)
      rw [wholeName]
      cases afterValue with
      | nil =>
        rw [pairs_eq, skipTrivia] at later
        cases later
        exact ⟨lead ++ (rawName ++ ':' :: rawValue) ++ [], by simp, .last filler spelled .nil, forall_mem_none⟩
      | cons d afterValue =>
        rcases ends d rfl with rfl | rfl
        · have behind : pairs (';' :: afterValue) = pairs afterValue :=
            pairs_filler (.char rfl .nil : Filler [';']) afterValue
          have shorter : afterValue.length < length := by
            rw [← size, wholeName]
            simp only [List.length_append, List.length_cons]
            omega
          obtain ⟨laidOut, rfl, layout, stops⟩ :=
            ih afterValue.length shorter clearValue.right.tail (behind ▸ later) rfl
          exact ⟨lead ++ (rawName ++ ':' :: rawValue) ++ [] ++ ';' :: laidOut, by simp,
            .more filler spelled .nil layout, stops⟩
        · rw [(stops_brace afterValue).pairs_eq] at later
          cases later
          refine ⟨lead ++ (rawName ++ ':' :: rawValue) ++ [], by simp, .last filler spelled .nil, ?_⟩
          rintro _ ⟨rfl⟩
          rfl

end Hyperscript.Style
