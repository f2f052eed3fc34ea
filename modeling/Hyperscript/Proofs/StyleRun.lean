import Hyperscript.Proofs.StyleReading

namespace Hyperscript.Style

/-- Behind some filler a declaration begins. -/
structure Opens (text start : List Char) : Prop where
  skipped : skipTrivia text = .ok start
  begins : ∃ c ∈ start.head?, c ≠ '\x7d'

/-- Behind some filler nothing follows, or a closing brace does. -/
structure Stops (text rest : List Char) : Prop where
  skipped : skipTrivia text = .ok rest
  ends : ∀ c ∈ rest.head?, c = '\x7d'

/-- A declaration is read from a text: it begins at `start`, its value stands behind the colon from
`afterName` on, and `rest` is what its value leaves. -/
structure Round (text start afterName rest : List Char) (pair : List Char × List Char) : Prop where
  opens : Opens text start
  named : name start = .ok (pair.1, afterName)
  valued : value afterName = .ok (pair.2, rest)

/-- No declaration is read for a fault in the filler, in the name or in the value. -/
inductive Fails (text : List Char) (fault : Fault) : Prop
  | filler : skipTrivia text = .error fault → Fails text fault
  | name {start} : Opens text start → name start = .error fault → Fails text fault
  | value {start chars afterName} : Opens text start → name start = .ok (chars, afterName) →
      value afterName = .error fault → Fails text fault

/-- A round that stops reads no declaration and leaves the closing brace. -/
theorem Stops.pairs_eq {text rest : List Char} (stops : Stops text rest) : pairs text = .ok ([], rest) := by
  rw [Style.pairs_eq, stops.skipped]
  cases rest with
  | nil => rfl
  | cons c rest => exact if_pos (stops.ends c rfl)

theorem skipTrivia_brace (later : List Char) : skipTrivia ('\x7d' :: later) = .ok ('\x7d' :: later) := by
  rw [skipTrivia_cons, if_neg (by decide), comment_absent fun same => absurd same (by decide)]

/-- A closing brace where a declaration may begin ends the loop at once. -/
theorem stops_brace (later : List Char) : Stops ('\x7d' :: later) ('\x7d' :: later) := by
  refine ⟨skipTrivia_brace later, ?_⟩
  rintro _ ⟨rfl⟩
  rfl

theorem Opens.ne_nil {text start : List Char} (opens : Opens text start) : text ≠ [] := by
  rintro rfl
  obtain ⟨skipped, c, first, _⟩ := opens
  rw [skipTrivia] at skipped
  cases skipped
  cases first

/-- A round that begins a declaration reads its name, then its value, then all that comes behind. -/
theorem Opens.pairs_eq {text start : List Char} (opens : Opens text start) :
    pairs text =
      match name start with
      | .error fault => .error fault
      | .ok (chars, afterName) =>
        match value afterName with
        | .error fault => .error fault
        | .ok (content, rest) => (pairs rest).map fun found => ((chars, content) :: found.1, found.2) := by
  obtain ⟨c, first, brace⟩ := opens.begins
  obtain ⟨rest, rfl⟩ := List.head?_eq_some_iff.mp first
  rw [Style.pairs_eq, opens.skipped]
  exact if_neg brace

/-- A fault of a round is the fault of the run. -/
theorem Fails.pairs_eq {text : List Char} {fault : Fault} (fails : Fails text fault) :
    pairs text = .error fault := by
  cases fails with
  | filler skipped => rw [Style.pairs_eq, skipped]
  | name opens named => rw [opens.pairs_eq, named]
  | value opens named valued => simp only [opens.pairs_eq, named, valued]

/-- A declaration that is read comes in front of those behind it. -/
theorem Round.pairs_eq {text start afterName rest : List Char} {pair : List Char × List Char}
    (round : Round text start afterName rest pair) :
    pairs text = (pairs rest).map fun found => (pair :: found.1, found.2) := by
  simp only [round.opens.pairs_eq, round.named, round.valued]

theorem Round.pairs_ok {text start afterName rest after : List Char} {pair : List Char × List Char}
    {found : List (List Char × List Char)} (round : Round text start afterName rest pair)
    (read : pairs text = .ok (found, after)) : ∃ others, pairs rest = .ok (others, after) ∧ found = pair :: others := by
  rw [round.pairs_eq] at read
  cases later : pairs rest with
  | error fault => rw [later] at read; cases read
  | ok both =>
    rw [later] at read
    cases read
    exact ⟨both.1, rfl, rfl⟩

/-- The rounds of the loop: a declaration is read, or the loop stops, or it fails. -/
theorem round_cases (text : List Char) : (∃ rest, Stops text rest) ∨ (∃ fault, Fails text fault) ∨
    ∃ start afterName rest pair, Round text start afterName rest pair := by
  cases skipped : skipTrivia text with
  | error fault => exact Or.inr (Or.inl ⟨fault, .filler skipped⟩)
  | ok start =>
    by_cases ends : ∀ c ∈ start.head?, c = '\x7d'
    · exact Or.inl ⟨start, skipped, ends⟩
    · simp only [not_forall] at ends
      obtain ⟨c, first, brace⟩ := ends
      have opens : Opens text start := ⟨skipped, c, first, brace⟩
      right
      cases named : name start with
      | error fault => exact Or.inl ⟨fault, .name opens named⟩
      | ok found =>
        cases valued : value found.2 with
        | error fault => exact Or.inl ⟨fault, .value opens named valued⟩
        | ok read => exact Or.inr ⟨start, found.2, read.2, (found.1, read.1), opens, named, valued⟩

/-- Each round takes something away, so there are not endlessly many. -/
theorem Round.length_lt {text start afterName rest : List Char} {pair : List Char × List Char}
    (round : Round text start afterName rest pair) : rest.length < text.length := by
  have skipped := skipTrivia_length round.opens.skipped
  have named := name_length round.named
  have valued := value_length round.valued
  omega

/-- What the loop has read of a text and what it has left over, at the entrance of each of its rounds. -/
inductive Reaches (text : List Char) : List (List Char × List Char) → List Char → Prop
  | start : Reaches text [] text
  | next {found left start afterName rest pair} : Reaches text found left →
      Round left start afterName rest pair → Reaches text (found ++ [pair]) rest

/-- A run may be told from its first round on as well as from its last. -/
theorem Reaches.cons {text start afterName rest left : List Char} {pair : List Char × List Char}
    {found : List (List Char × List Char)} (round : Round text start afterName rest pair)
    (reach : Reaches rest found left) : Reaches text (pair :: found) left := by
  induction reach with
  | start => exact .next .start round
  | next _ later ih => exact .next ih later

/-- At the entrance of each round the answer is what has been read, with the answer for what is left. -/
theorem Reaches.pairs_eq {text left : List Char} {found : List (List Char × List Char)}
    (reach : Reaches text found left) :
    pairs text = (pairs left).map fun later => (found ++ later.1, later.2) := by
  induction reach with
  | start => cases pairs text <;> rfl
  | @next found left _ _ rest pair _ round ih =>
    rw [ih, round.pairs_eq]
    cases pairs rest with
    | error fault => rfl
    | ok later => simp [Except.map]

/-- Every run comes to a round in which it stops or fails. -/
theorem exists_reaches (text : List Char) : ∃ found left, Reaches text found left ∧
    ((∃ rest, Stops left rest) ∨ ∃ fault, Fails left fault) := by
  induction size : text.length using Nat.strong_induction_on generalizing text with
  | _ length ih =>
    rcases round_cases text with stops | fails | ⟨start, afterName, rest, pair, round⟩
    · exact ⟨[], text, .start, Or.inl stops⟩
    · exact ⟨[], text, .start, Or.inr fails⟩
    · have shorter : rest.length < length := size ▸ round.length_lt
      obtain ⟨found, left, reach, ends⟩ := ih rest.length shorter rest rfl
      exact ⟨pair :: found, left, .cons round reach, ends⟩

theorem Reaches.pairs_of_stops {text left rest : List Char} {found : List (List Char × List Char)}
    (reach : Reaches text found left) (stops : Stops left rest) : pairs text = .ok (found, rest) := by
  rw [reach.pairs_eq, stops.pairs_eq]
  simp [Except.map]

theorem Reaches.pairs_of_fails {text left : List Char} {found : List (List Char × List Char)} {fault : Fault}
    (reach : Reaches text found left) (fails : Fails left fault) : pairs text = .error fault := by
  rw [reach.pairs_eq, fails.pairs_eq]
  rfl

/-- The loop succeeds just where a run comes to a round that stops, with what the run has read. -/
theorem pairs_eq_ok_iff {text rest : List Char} {found : List (List Char × List Char)} :
    pairs text = .ok (found, rest) ↔ ∃ left, Reaches text found left ∧ Stops left rest := by
  constructor
  · intro read
    obtain ⟨reached, left, reach, ⟨rest', stops⟩ | ⟨fault, fails⟩⟩ := exists_reaches text
    · have same := reach.pairs_of_stops stops
      rw [read] at same
      cases same
      exact ⟨left, reach, stops⟩
    · have same := reach.pairs_of_fails fails
      rw [read] at same
      cases same
  · rintro ⟨left, reach, stops⟩
    exact reach.pairs_of_stops stops

/-- The loop fails just where a run comes to a round that fails, and with its fault. -/
theorem pairs_eq_error_iff {text : List Char} {fault : Fault} :
    pairs text = .error fault ↔ ∃ found left, Reaches text found left ∧ Fails left fault := by
  constructor
  · intro failed
    obtain ⟨reached, left, reach, ⟨rest, stops⟩ | ⟨other, fails⟩⟩ := exists_reaches text
    · have same := reach.pairs_of_stops stops
      rw [failed] at same
      cases same
    · have same := reach.pairs_of_fails fails
      rw [failed] at same
      cases same
      exact ⟨reached, left, reach, fails⟩
  · rintro ⟨found, left, reach, fails⟩
    exact reach.pairs_of_fails fails

def declarationOf (pair : List Char × List Char) : Declaration :=
  ⟨String.ofList pair.1, String.ofList pair.2⟩

theorem parseDeclarations_eq_ok_iff {text : String} {declarations : List Declaration} :
    parseDeclarations text = .ok declarations ↔
      ∃ found rest, pairs text.toList = .ok (found, rest) ∧ declarations = found.map declarationOf := by
  unfold parseDeclarations
  split
  · next fault failed => simp [failed]
  · next found rest read =>
    rw [read]
    constructor
    · rintro ⟨⟩
      exact ⟨found, rest, rfl, rfl⟩
    · rintro ⟨_, _, ⟨⟩, rfl⟩
      rfl

/-- The place of a fault is told from the whole text, not from what was left of it. -/
theorem parseDeclarations_eq_error_iff {text : String} {error : Error} :
    parseDeclarations text = .error error ↔
      ∃ fault, pairs text.toList = .error fault ∧ error = fault.locate text.toList := by
  unfold parseDeclarations
  split
  · next fault failed =>
    rw [failed]
    constructor
    · rintro ⟨⟩
      exact ⟨fault, rfl, rfl⟩
    · rintro ⟨_, ⟨⟩, rfl⟩
      rfl
  · next found rest read => simp [read]

theorem declarations_eq {text : String} {declarations : List Declaration} {found : List (List Char × List Char)}
    {rest : List Char} (read : parseDeclarations text = .ok declarations)
    (there : pairs text.toList = .ok (found, rest)) : declarations = found.map declarationOf := by
  rw [parseDeclarations_eq_ok_iff.mpr ⟨found, rest, there, rfl⟩] at read
  cases read
  rfl

/-- Each declaration that the loop has read was read in a round of its own. -/
theorem Reaches.round {text left : List Char} {before later : List (List Char × List Char)}
    {pair : List Char × List Char} (reach : Reaches text (before ++ pair :: later) left) :
    ∃ entered start afterName rest, Reaches text before entered ∧ Round entered start afterName rest pair := by
  generalize whole : before ++ pair :: later = found at reach
  induction reach generalizing later with
  | start => simp at whole
  | @next found entered start afterName rest last reach round ih =>
    rcases List.eq_nil_or_concat later with rfl | ⟨earlier, other, rfl⟩
    · obtain ⟨rfl, same⟩ := List.append_inj' whole rfl
      cases same
      exact ⟨entered, start, afterName, rest, reach, round⟩
    · have split : (before ++ pair :: earlier) ++ [other] = found ++ [last] := by simpa using whole
      exact ih (List.append_inj' split rfl).1

end Hyperscript.Style
