import Hyperscript.Proofs.StyleComposition

namespace Hyperscript.Style

open Text

/-- No quote, no parenthesis and no opening of a comment is in a text. -/
structure Plain (text : List Char) : Prop where
  quotes : '\x22' ∉ text ∧ '\x27' ∉ text
  parentheses : '(' ∉ text ∧ ')' ∉ text
  comments : ¬ ['/', '*'] <:+: text

/-- A text ends in a name, before the name's colon. -/
def EndsInName (text : List Char) : Prop :=
  ∃ found left start, Reaches text found left ∧ Opens left start ∧ ':' ∉ start ∧ ';' ∉ start

variable {text left start rest : List Char} {found : List (List Char × List Char)} {fault : Fault}

theorem Plain.of_suffix (plain : Plain text) (suffix : rest <:+ text) : Plain rest where
  quotes := ⟨fun member => plain.quotes.1 (suffix.mem member), fun member => plain.quotes.2 (suffix.mem member)⟩
  parentheses := ⟨fun member => plain.parentheses.1 (suffix.mem member),
    fun member => plain.parentheses.2 (suffix.mem member)⟩
  comments inside := plain.comments (inside.trans suffix.isInfix)

theorem Plain.not_leavesCommentOpen (plain : Plain text) : ¬ LeavesCommentOpen text := by
  rintro ⟨after, rfl, _⟩
  exact plain.comments ⟨[], after, rfl⟩

theorem Plain.not_blames (plain : Plain text) (kind : FaultKind) : ¬ Blames kind text := by
  cases kind with
  | unterminatedComment => exact plain.not_leavesCommentOpen
  | unterminatedString =>
    rintro ⟨quote, after, rfl, named, _⟩
    simp only [isQuote, Bool.or_eq_true, decide_eq_true_eq] at named
    rcases named with rfl | rfl
    · exact plain.quotes.1 (List.mem_cons_self ..)
    · exact plain.quotes.2 (List.mem_cons_self ..)
  | unclosedParenthesis =>
    rintro ⟨after, rfl, _⟩
    exact plain.parentheses.1 (List.mem_cons_self ..)
  | missingColon | missingName => exact id

theorem Plain.skipTrivia_ne_error (plain : Plain text) (fault : Fault) : skipTrivia text ≠ .error fault := by
  intro failed
  obtain ⟨_, opens, lead, _, rfl⟩ := skipTrivia_failed failed
  exact (plain.of_suffix (List.suffix_append lead _)).not_leavesCommentOpen opens

theorem Plain.value_ne_error (plain : Plain text) (fault : Fault) : value text ≠ .error fault := by
  intro failed
  unfold value at failed
  split at failed
  · next unread =>
    cases failed
    cases valueChars_failed unread with
    | within _ blames => exact (plain.of_suffix (List.suffix_append ..)).not_blames _ blames
    | before last => cases last
  · cases failed

theorem Plain.of_opens (plain : Plain text) (reach : Reaches text found left) (opens : Opens left start) :
    Plain start :=
  plain.of_suffix (opens.suffix.trans reach.suffix)

/-- A name that a text has begun goes on behind a brace. -/
theorem Reaches.brace (reach : Reaches text found left) (opens : Opens left start) (later : List Char) :
    Reaches (text ++ '\x7d' :: later) found (left ++ '\x7d' :: later) ∧
      Opens (left ++ '\x7d' :: later) (start ++ '\x7d' :: later) :=
  ⟨reach.extend fun nothing => absurd nothing opens.ne_nil, opens.extend (by simp)⟩

/-- Nothing but a name can fail in a plain text. -/
theorem Plain.name_failed (plain : Plain text) (fails : Fails text fault) :
    ∃ start, Opens text start ∧ name start = .error fault := by
  cases fails with
  | filler skipped => exact absurd skipped (plain.skipTrivia_ne_error fault)
  | name opens named => exact ⟨_, opens, named⟩
  | value opens named valued =>
    exact absurd valued ((plain.of_suffix (opens.name_suffix named)).value_ne_error fault)

/-- What is read of a plain name when its colon is missing. -/
theorem Plain.nameChars_failed (plain : Plain text) (failed : nameChars text = .error fault) :
    ∃ written, text = written ++ fault.rest ∧ fault.kind = .missingColon ∧ ':' ∉ written ∧ ';' ∉ written ∧
      ¬ ['/', '*'] <:+: written ∧ ∀ c ∈ fault.rest.head?, c = ';' := by
  obtain ⟨⟨written, kept, rfl, commented, colon, semicolon⟩, ⟨_, comment⟩ | ⟨kind, ends⟩⟩ :=
    Style.nameChars_failed failed
  · exact absurd comment (plain.of_suffix (List.suffix_append ..)).not_leavesCommentOpen
  · obtain ⟨rfl, inside⟩ := commented.eq_of_uncommented (uncommented_of_unopened plain.comments).left
    exact ⟨kept, rfl, kind, colon, semicolon, inside, ends⟩

/-- A brace is a character of a name like any other, so the fault stays the same if it lies before the brace. -/
theorem Opens.name_brace (opens : Opens text start) (plain : Plain start) (failed : name start = .error fault)
    (later : List Char) : ':' ∉ start ∧ ';' ∉ start ∨
      name (start ++ '\x7d' :: later) = .error ⟨fault.kind, fault.rest ++ '\x7d' :: later⟩ := by
  unfold name at failed
  split at failed
  · next unread =>
    cases failed
    obtain ⟨written, rfl, kind, colon, semicolon, inside, ends⟩ := plain.nameChars_failed unread
    obtain ⟨_, rest⟩ := fault
    cases kind
    cases rest with
    -- At the end of the text the brace would go on with the name, and before a semicolon it comes too late.
    | nil => exact Or.inl ⟨by simpa using colon, by simpa using semicolon⟩
    | cons c rest =>
      right
      obtain rfl : c = ';' := ends c rfl
      have stops : nameChars (';' :: (rest ++ '\x7d' :: later)) =
          .error ⟨.missingColon, ';' :: (rest ++ '\x7d' :: later)⟩ := by
        rw [nameChars_cons, if_neg (by decide), if_pos rfl]
      rw [name, List.append_assoc, List.cons_append, nameChars_append colon semicolon inside (by simp), stops]
      rfl
  · next chars after read =>
    split at failed
    · next nothing =>
      cases failed
      right
      rw [name, nameChars_extend read]
      exact if_pos nothing
    · cases failed

/-- A plain text ends in a name if a colon is missing at its end. -/
theorem Plain.endsInName_iff (plain : Plain text) : EndsInName text ↔ pairs text = .error ⟨.missingColon, []⟩ := by
  constructor
  · rintro ⟨found, left, start, reach, opens, colon, semicolon⟩
    have inside := (plain.of_opens reach opens).comments
    have unread : nameChars (start ++ []) = prepend start (nameChars []) :=
      nameChars_append colon semicolon inside (by simp)
    refine reach.pairs_of_fails (.name opens ?_)
    rw [List.append_nil, nameChars] at unread
    rw [name, unread]
    rfl
  · intro failed
    obtain ⟨found, left, reach, fails⟩ := pairs_eq_error_iff.mp failed
    obtain ⟨start, opens, named⟩ := (plain.of_suffix reach.suffix).name_failed fails
    refine ⟨found, left, start, reach, opens, ?_⟩
    unfold name at named
    split at named
    · next unread =>
      cases named
      obtain ⟨written, rfl, _, colon, semicolon, _⟩ := (plain.of_opens reach opens).nameChars_failed unread
      exact ⟨by simpa using colon, by simpa using semicolon⟩
    · split at named <;> cases named

theorem ends_brace (later : List Char) : Ends ('\x7d' :: later) := by
  rintro _ ⟨rfl⟩
  exact Or.inr rfl

/-- A plain text that is no declaration list is none with a brace behind it either, unless it ends in a name. -/
theorem Plain.pairs_brace_failed (plain : Plain text) (outside : ¬ EndsInName text) (failed : pairs text = .error fault)
    (later : List Char) : pairs (text ++ '\x7d' :: later) = .error ⟨fault.kind, fault.rest ++ '\x7d' :: later⟩ := by
  obtain ⟨found, left, reach, fails⟩ := pairs_eq_error_iff.mp failed
  obtain ⟨start, opens, named⟩ := (plain.of_suffix reach.suffix).name_failed fails
  rcases opens.name_brace (plain.of_opens reach opens) named later with cut | same
  · exact absurd ⟨found, left, start, reach, opens, cut⟩ outside
  · obtain ⟨reachLonger, opensLonger⟩ := reach.brace opens later
    exact reachLonger.pairs_of_fails (.name opensLonger same)

/-- A brace ends the list where it stands in no name, and what stands behind it is not read. -/
theorem Plain.parse_brace {text : String} (plain : Plain text.toList) (outside : ¬ EndsInName text.toList)
    (later : String) : parseDeclarations (text ++ "\x7d" ++ later) = parseDeclarations text := by
  have joined : (text ++ "\x7d" ++ later).toList = text.toList ++ '\x7d' :: later.toList := by simp
  cases read : parseDeclarations text with
  | error error =>
    obtain ⟨fault, failed, rfl⟩ := parseDeclarations_eq_error_iff.mp read
    obtain ⟨before, whole, _⟩ := pairs_offends failed
    have longer := plain.pairs_brace_failed outside failed later.toList
    rw [← joined] at longer
    refine parseDeclarations_eq_error_iff.mpr ⟨_, longer, ?_⟩
    rw [joined, Fault.locate_extend whole]
  | ok declarations =>
    rcases readsToEnd_or_stopsAtBrace read with ⟨found, there⟩ | stops
    · have longer := pairs_append there (ends_brace later.toList)
      rw [(stops_brace later.toList).pairs_eq, ← joined] at longer
      exact parseDeclarations_eq_ok_iff.mpr ⟨_, _, longer, by simp [declarations_eq read there]⟩
    · rw [String.append_assoc]
      exact stops.read_append read _

/-- A name goes on behind a brace: its colon may stand there, or may be missing. -/
theorem EndsInName.pairs_brace (ends : EndsInName text) (plain : Plain text) :
    (∃ fault, pairs (text ++ ['\x7d']) = .error fault) ∧ ∃ found, pairs (text ++ ['\x7d', ':']) = .ok found := by
  obtain ⟨found, left, start, reach, opens, colon, semicolon⟩ := ends
  have inside := (plain.of_opens reach opens).comments
  have read : ∀ later, nameChars (start ++ '\x7d' :: later) = prepend (start ++ ['\x7d']) (nameChars later) := by
    intro later
    rw [nameChars_append colon semicolon inside (by simp), nameChars_cons, if_neg (by decide), if_neg (by decide),
      comment_absent fun same => absurd same (by decide)]
    exact prepend_prepend ..
  constructor
  · obtain ⟨reachLonger, opensLonger⟩ := reach.brace opens []
    refine ⟨⟨.missingColon, []⟩, reachLonger.pairs_of_fails (.name opensLonger ?_)⟩
    rw [name, read, nameChars]
    rfl
  · obtain ⟨reachLonger, opensLonger⟩ := reach.brace opens [':']
    have some : trim (start ++ ['\x7d']) ≠ [] := fun nothing =>
      absurd (isBlank_of_trim_eq_nil nothing '\x7d' (by simp)) (by decide)
    have named : name (start ++ ['\x7d', ':']) = .ok (trim (start ++ ['\x7d']), []) := by
      rw [name, read, nameChars_cons, if_pos rfl]
      simp [prepend, some]
    have valued : value [] = .ok ([], []) := by decide +kernel
    have round : Round (left ++ ['\x7d', ':']) (start ++ ['\x7d', ':']) [] [] (trim (start ++ ['\x7d']), []) :=
      ⟨opensLonger, named, valued⟩
    exact ⟨_, (reachLonger.next round).pairs_of_stops ⟨by rw [skipTrivia], forall_mem_none⟩⟩

/-- Behind a text without quotes, parentheses and comments a brace ends the list, unless it stands in a name: then
what stands behind it makes a difference. -/
theorem brace_ends_declarations {text : String} (plain : Plain text.toList) :
    (¬ EndsInName text.toList → ∀ later, parseDeclarations (text ++ "\x7d" ++ later) = parseDeclarations text) ∧
    ((∀ later other, parseDeclarations (text ++ "\x7d" ++ later) = parseDeclarations (text ++ "\x7d" ++ other)) ↔
      ¬ EndsInName text.toList) := by
  refine ⟨plain.parse_brace, fun same ends => ?_, fun outside later other => ?_⟩
  · obtain ⟨⟨fault, failed⟩, found, read⟩ := ends.pairs_brace plain
    have fails : parseDeclarations (text ++ "\x7d" ++ "") = .error _ :=
      parseDeclarations_eq_error_iff.mpr ⟨fault, by simpa using failed, rfl⟩
    have reads : parseDeclarations (text ++ "\x7d" ++ ":") = .ok _ :=
      parseDeclarations_eq_ok_iff.mpr ⟨found.1, found.2, by simpa using read, rfl⟩
    rw [same "" ":", reads] at fails
    cases fails
  · rw [plain.parse_brace outside, plain.parse_brace outside]

theorem brace_ends_declarations_color : Plain "color:red;".toList ∧ ¬ EndsInName "color:red;".toList ∧
    ∀ later, parseDeclarations ("color:red;" ++ "\x7d" ++ later) = parseDeclarations "color:red;" := by
  have plain : Plain "color:red;".toList := ⟨by decide, by decide, by decide⟩
  have outside : ¬ EndsInName "color:red;".toList := plain.endsInName_iff.not.mpr (by decide +kernel)
  exact ⟨plain, outside, (brace_ends_declarations plain).1 outside⟩

/-- A name goes on behind a brace. -/
theorem brace_in_name_ends_nothing : Plain "color".toList ∧
    parseDeclarations ("color" ++ "\x7d" ++ "") ≠ parseDeclarations ("color" ++ "\x7d" ++ ":red") :=
  ⟨⟨by decide, by decide, by decide⟩, by decide +kernel⟩

end Hyperscript.Style
