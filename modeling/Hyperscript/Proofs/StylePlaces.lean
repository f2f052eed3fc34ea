import Hyperscript.Proofs.StyleFound
import Hyperscript.Proofs.StyleRun
import Hyperscript.Proofs.StyleValueFaults

namespace Hyperscript.Style

open Text

/-- What stands of a declaration before its colon, from its first character on. There is neither a colon nor a
semicolon outside comments in it. -/
structure WrittenName (written : List Char) : Prop where
  first : ∃ c ∈ written.head?, isBlank c = false ∧ c ≠ '\x7d'
  uncommented : ¬ ['/', '*'] <+: written
  undelimited : ∃ kept, Commented written kept ∧ ':' ∉ kept ∧ ';' ∉ kept

/-- What stands of a declaration between its colon and its end. -/
def WrittenValue (written : List Char) : Prop :=
  Passes Scope.IsOutside 0 written

/-- What may stand before a declaration: filler, and before it other declarations, a semicolon behind each. -/
inductive Begun : List Char → Prop
  | filler {lead} : Filler lead → Begun lead
  | declaration {before name value lead} : Begun before → WrittenName name → WrittenValue value → Filler lead →
      Begun (before ++ name ++ ':' :: (value ++ ';' :: lead))

/-- What stands at the place of a fault, and what stands before it. -/
inductive Offends : FaultKind → List Char → List Char → Prop
  | filler {before rest} : Begun before → LeavesCommentOpen rest → Offends .unterminatedComment before rest
  | name {before name rest} : Begun before → WrittenName name → LeavesCommentOpen rest →
      Offends .unterminatedComment (before ++ name) rest
  | value {before name value kind rest} : Begun before → WrittenName name → Passes (StandsAt kind) 0 value →
      Blames kind rest → Offends kind (before ++ name ++ ':' :: value) rest
  | missingName {before after} : Begun before → Offends .missingName before (':' :: after)
  | missingColon {before name rest} : Begun before → WrittenName name → (∀ c ∈ rest.head?, c = ';') →
      Offends .missingColon (before ++ name) rest

theorem not_prefix_of_comment_absent {text : List Char} (absent : comment text = .absent) :
    ¬ ['/', '*'] <+: text := by
  rintro ⟨rest, rfl⟩
  exact head?_ne_of_comment_absent absent rfl

/-- A round begins at a character that is neither skipped nor the end of the list. -/
theorem Opens.first {text start : List Char} (opens : Opens text start) :
    ∃ c rest, start = c :: rest ∧ isBlank c = false ∧ c ≠ ';' ∧ c ≠ '\x7d' ∧ comment start = .absent := by
  obtain ⟨c, first, brace⟩ := opens.begins
  obtain ⟨rest, rfl⟩ := List.head?_eq_some_iff.mp first
  obtain ⟨_, _, _, stays, absent⟩ := skipTrivia_found opens.skipped
  exact ⟨c, rest, rfl, (stays c rfl).1, (stays c rfl).2, brace, absent⟩

theorem Opens.writtenName {text start written kept rest : List Char} (opens : Opens text start)
    (whole : start = written ++ rest) (some : written ≠ []) (commented : Commented written kept)
    (colon : ':' ∉ kept) (semicolon : ';' ∉ kept) : WrittenName written := by
  obtain ⟨c, tail, rfl, blank, _, brace, absent⟩ := opens.first
  refine ⟨?_, fun opening => ?_, kept, commented, colon, semicolon⟩
  · cases written with
    | nil => exact absurd rfl some
    | cons d written =>
      cases whole
      exact ⟨c, rfl, blank, brace⟩
  · exact not_prefix_of_comment_absent absent (whole ▸ opening.trans (List.prefix_append written rest))

theorem isBlank_of_trim_eq_nil {chars : List Char} (nothing : trim chars = []) : ∀ c ∈ chars, isBlank c = true := by
  obtain ⟨before, after, first, last, same⟩ := exists_trim chars
  intro c member
  rw [same, nothing, List.append_nil] at member
  exact (List.mem_append.mp member).elim (first c) (last c)

/-- A name is empty only where nothing stands before the colon. -/
theorem Opens.eq_colon {text start chars rest : List Char} (opens : Opens text start)
    (found : nameChars start = .ok (chars, rest)) (nothing : trim chars = []) : start = ':' :: rest := by
  obtain ⟨c, tail, rfl, blank, _, _, absent⟩ := opens.first
  obtain ⟨written, whole, commented, _⟩ := nameChars_written found
  cases commented with
  | nil => exact whole
  | @char d written kept =>
    cases whole
    have spaced := isBlank_of_trim_eq_nil nothing c (List.mem_cons_self ..)
    rw [blank] at spaced
    cases spaced
  | comment =>
    cases whole
    exact absurd rfl (head?_ne_of_comment_absent absent)

/-- The name of a round is written up to the colon behind which its value begins. -/
theorem Opens.name_found {text start chars rest : List Char} (opens : Opens text start)
    (named : name start = .ok (chars, rest)) :
    ∃ written, start = written ++ ':' :: rest ∧ WrittenName written := by
  obtain ⟨raw, found, _, some⟩ := Style.name_found named
  obtain ⟨written, whole, commented, colon, semicolon⟩ := nameChars_written found
  refine ⟨written, whole, opens.writtenName whole ?_ commented colon semicolon⟩
  rintro rfl
  cases commented
  exact some rfl

theorem Filler.tail {c : Char} {lead : List Char} (filler : Filler (c :: lead)) (semicolon : c = ';') :
    Filler lead := by
  subst semicolon
  cases filler with
  | char _ later => exact later

/-- A value goes up to a semicolon, a brace or the end. -/
theorem value_written {text content rest : List Char} (valued : value text = .ok (content, rest)) :
    ∃ written, text = written ++ rest ∧ WrittenValue written ∧ Ends rest := by
  obtain ⟨_, read, _⟩ := value_found valued
  exact valueChars_written read

theorem Opens.suffix {text start : List Char} (opens : Opens text start) : start <:+ text := by
  obtain ⟨lead, _, rfl, _⟩ := skipTrivia_found opens.skipped
  exact List.suffix_append ..

theorem Opens.name_suffix {text start chars rest : List Char} (opens : Opens text start)
    (named : name start = .ok (chars, rest)) : rest <:+ text := by
  obtain ⟨written, rfl, _⟩ := opens.name_found named
  exact ((List.suffix_cons ..).trans (List.suffix_append ..)).trans opens.suffix

/-- What a run leaves is the end of the text. -/
theorem Reaches.suffix {text left : List Char} {found : List (List Char × List Char)}
    (reach : Reaches text found left) : left <:+ text := by
  induction reach with
  | start => exact List.suffix_rfl
  | next _ round ih =>
    obtain ⟨written, rfl, _⟩ := value_written round.valued
    exact ((List.suffix_append ..).trans (round.opens.name_suffix round.named)).trans ih

/-- Where the loop finds a declaration, what stands before it is filler and other declarations. -/
theorem Reaches.begun {text left lead start : List Char} {found : List (List Char × List Char)}
    (reach : Reaches text found left) (whole : left = lead ++ start) (filler : Filler lead)
    (begins : ∃ c ∈ start.head?, c ≠ ';' ∧ c ≠ '\x7d') : ∃ before, text = before ++ start ∧ Begun before := by
  induction reach generalizing lead start with
  | start => exact ⟨lead, whole, .filler filler⟩
  | @next found entered first afterName rest pair reach round ih =>
    obtain ⟨lead', filler', whole', starts, _⟩ := skipTrivia_found round.opens.skipped
    obtain ⟨c, tail, same, _, semicolon, brace, _⟩ := round.opens.first
    obtain ⟨before, rfl, begun⟩ := ih whole' filler' ⟨c, by rw [same]; rfl, semicolon, brace⟩
    obtain ⟨name, rfl, writtenName⟩ := round.opens.name_found round.named
    obtain ⟨value, rfl, writtenValue, ends⟩ := value_written round.valued
    obtain ⟨d, start', notSemicolon, notBrace⟩ := begins
    cases lead with
    | nil =>
      -- With no filler between them the declaration would begin with what ended the value before it.
      rw [whole, List.nil_append] at ends
      rcases ends d start' with same | same
      · exact absurd same notSemicolon
      · exact absurd same notBrace
    | cons e lead =>
      subst whole
      rcases ends e rfl with rfl | rfl
      · exact ⟨_, by simp, .declaration begun writtenName writtenValue (filler.tail rfl)⟩
      · cases filler with
        | char passes => exact absurd passes (by decide)

/-- Before a round there are whole declarations and what is skipped between them. -/
theorem Reaches.begun_of_opens {text left start : List Char} {found : List (List Char × List Char)}
    (reach : Reaches text found left) (opens : Opens left start) : ∃ before, text = before ++ start ∧ Begun before := by
  obtain ⟨lead, filler, whole, _⟩ := skipTrivia_found opens.skipped
  obtain ⟨c, rest, same, _, semicolon, brace, _⟩ := opens.first
  exact reach.begun whole filler ⟨c, by rw [same]; rfl, semicolon, brace⟩

/-- A name that cannot be read lacks its colon, or is empty, or has a comment in it that nothing closes. -/
theorem Opens.name_offends {text before start : List Char} {fault : Fault} (opens : Opens text start)
    (begun : Begun before) (failed : name start = .error fault) :
    ∃ written, start = written ++ fault.rest ∧ Offends fault.kind (before ++ written) fault.rest := by
  obtain ⟨kind, rest⟩ := fault
  unfold name at failed
  split at failed
  · next unread =>
    cases failed
    obtain ⟨⟨written, kept, whole, commented, colon, semicolon⟩, why⟩ := nameChars_failed unread
    obtain ⟨c, tail, same, _, notSemicolon, _, absent⟩ := opens.first
    have some : written ≠ [] := by
      rintro rfl
      cases commented
      rw [List.nil_append] at whole
      subst whole
      rcases why with ⟨_, after, rfl, _⟩ | ⟨_, ends⟩
      · exact absurd rfl (head?_ne_of_comment_absent absent)
      · exact notSemicolon (ends c (by rw [same]; rfl))
    have written := opens.writtenName whole some commented colon semicolon
    rcases why with ⟨rfl, comment⟩ | ⟨rfl, ends⟩
    · exact ⟨_, whole, .name begun written comment⟩
    · exact ⟨_, whole, .missingColon begun written ends⟩
  · next chars rest' read =>
    split at failed
    · next nothing =>
      cases failed
      obtain rfl := opens.eq_colon read nothing
      have missing : Offends .missingName before (':' :: rest') := .missingName begun
      exact ⟨[], rfl, by simpa using missing⟩
    · cases failed

/-- A text that is no declaration list is at fault at one place, and the fault's rest begins there. -/
theorem pairs_offends {text : List Char} {fault : Fault} (failed : pairs text = .error fault) :
    ∃ before, text = before ++ fault.rest ∧ Offends fault.kind before fault.rest := by
  obtain ⟨found, left, reach, fails⟩ := pairs_eq_error_iff.mp failed
  cases fails with
  | filler skipped =>
    obtain ⟨kind, comment, lead, filler, whole⟩ := skipTrivia_failed skipped
    have ⟨after, slash, _⟩ := comment
    obtain ⟨before, whole, begun⟩ := reach.begun whole filler ⟨'/', by rw [slash]; rfl, by decide, by decide⟩
    exact ⟨before, whole, kind ▸ .filler begun comment⟩
  | name opens named =>
    obtain ⟨before, rfl, begun⟩ := reach.begun_of_opens opens
    obtain ⟨written, rfl, offends⟩ := opens.name_offends begun named
    exact ⟨before ++ written, by simp, offends⟩
  | @value start chars afterName opens named valued =>
    obtain ⟨before, rfl, begun⟩ := reach.begun_of_opens opens
    obtain ⟨name, rfl, writtenName⟩ := opens.name_found named
    unfold value at valued
    split at valued
    · next unread =>
      cases valued
      cases valueChars_failed unread with
      | within passes blames => exact ⟨_, by simp, .value begun writtenName passes blames⟩
      | before last => cases last
    · cases valued

end Hyperscript.Style
