import Hyperscript.Proofs.StylePlaces

namespace Hyperscript

namespace Text

/-- `last` is what stands of a text on its last line. -/
structure LastLine (text last : List Char) : Prop where
  unbroken : '\n' ∉ last
  split : ∃ earlier, text = earlier ++ last ∧ ∀ c ∈ earlier.getLast?, c = '\n'

/-- A position is that of the character behind a text: its line is one more than there are line breaks in the
text, and its column one more than there are characters behind the last of them. -/
structure IsBehind (position : Position) (text : List Char) : Prop where
  line : position.line = text.count '\n' + 1
  column : ∃ last, LastLine text last ∧ position.column = last.length + 1

theorem isBehind_behind (text : List Char) : IsBehind (.behind text) text := by
  have whole := congrArg List.reverse (@List.takeWhile_append_dropWhile _ (fun c => decide (c ≠ '\n')) text.reverse)
  rw [List.reverse_append, List.reverse_reverse] at whole
  refine ⟨rfl, (text.reverse.takeWhile fun c => decide (c ≠ '\n')).reverse, ⟨?_, _, whole.symm, ?_⟩, ?_⟩
  · intro broken
    simpa using List.mem_takeWhile_imp (List.mem_reverse.mp broken)
  · intro c last
    have stops := List.head?_dropWhile_not (fun c => decide (c ≠ '\n')) text.reverse
    rw [List.getLast?_reverse] at last
    rw [Option.mem_def.mp last] at stops
    simpa using stops
  · rw [List.length_reverse]
    rfl

theorem eq_nil_of_ends_broken {earlier between : List Char}
    (ends : ∀ c ∈ (earlier ++ between).getLast?, c = '\n') (unbroken : '\n' ∉ between) : between = [] := by
  rcases List.eq_nil_or_concat between with rfl | ⟨start, c, rfl⟩
  · rfl
  · have broken : c = '\n' := ends c (by simp)
    exact absurd (by simp [broken]) unbroken

/-- A text has one last line. -/
theorem LastLine.unique {text last other : List Char} (first : LastLine text last) (second : LastLine text other) :
    last = other := by
  obtain ⟨unbroken, earlier, rfl, ends⟩ := first
  obtain ⟨unbroken', earlier', same, ends'⟩ := second
  rcases List.append_eq_append_iff.mp same with ⟨between, rfl, rfl⟩ | ⟨between, rfl, rfl⟩
  · rw [eq_nil_of_ends_broken ends' fun broken => unbroken (List.mem_append_left _ broken), List.nil_append]
  · rw [eq_nil_of_ends_broken ends fun broken => unbroken' (List.mem_append_left _ broken), List.nil_append]

theorem LastLine.append {text last more : List Char} (line : LastLine text last) (unbroken : '\n' ∉ more) :
    LastLine (text ++ more) (last ++ more) := by
  obtain ⟨clear, earlier, rfl, ends⟩ := line
  exact ⟨by simp [clear, unbroken], earlier, by simp, ends⟩

/-- A position is behind one beginning of a text only. -/
theorem IsBehind.eq_nil {position : Position} {text more : List Char} (first : IsBehind position text)
    (second : IsBehind position (text ++ more)) : more = [] := by
  obtain ⟨line, last, lastLine, column⟩ := first
  obtain ⟨line', last', lastLine', column'⟩ := second
  have unbroken : '\n' ∉ more := by
    rw [List.count_append] at line'
    rw [← List.count_eq_zero]
    omega
  obtain rfl := lastLine'.unique (lastLine.append unbroken)
  rw [List.length_append] at column'
  exact List.length_eq_zero_iff.mp (by omega)

/-- No two places of a text have the same position. -/
theorem IsBehind.index_unique {position : Position} {text : List Char} {index other : Nat}
    (within : index ≤ text.length) (within' : other ≤ text.length) (first : IsBehind position (text.take index))
    (second : IsBehind position (text.take other)) : index = other := by
  have ordered : ∀ {low high}, low ≤ high → high ≤ text.length → IsBehind position (text.take low) →
      IsBehind position (text.take high) → low = high := by
    intro low high le bound atLow atHigh
    have split : text.take high = text.take low ++ (text.drop low).take (high - low) := by
      rw [← List.take_add, Nat.add_sub_cancel' le]
    have nothing := atLow.eq_nil (split ▸ atHigh)
    have size := congrArg List.length nothing
    rw [List.length_take, List.length_drop, List.length_nil] at size
    omega
  rcases Nat.le_total index other with le | le
  · exact ordered le within' first second
  · exact (ordered le within second first).symm

end Text

namespace Style

open Text

/-- An error is said to lie before the character of a text that has this index, or at the text's end. -/
structure Error.IsAt (error : Error) (text : String) (index : Nat) : Prop where
  within : index ≤ text.length
  position : IsBehind error.position (text.toList.take index)

/-- A fault is at the position of what it leaves unread. -/
theorem Fault.locate_append (fault : Fault) (before : List Char) :
    fault.locate (before ++ fault.rest) = ⟨fault.kind, .behind before⟩ := by
  simp [locate]

/-- More text behind a fault does not move it. -/
theorem Fault.locate_extend {fault : Fault} {text before : List Char} (whole : text = before ++ fault.rest)
    (more : List Char) : Fault.locate ⟨fault.kind, fault.rest ++ more⟩ (text ++ more) = fault.locate text := by
  have longer : text ++ more = before ++ (fault.rest ++ more) := by rw [whole, List.append_assoc]
  rw [longer, whole, fault.locate_append, Fault.locate_append ⟨fault.kind, fault.rest ++ more⟩]

/-- The place of a fault is the one behind all that stands before its rest, and it is no other one's. -/
theorem Fault.isAt_locate {fault : Fault} {text : String} {before : List Char}
    (whole : text.toList = before ++ fault.rest) (index : Nat) :
    (fault.locate text.toList).IsAt text index ↔ index = before.length := by
  have stands : fault.locate text.toList = ⟨fault.kind, .behind before⟩ := by rw [whole, locate_append]
  have bound : before.length ≤ text.length := by rw [← String.length_toList, whole, List.length_append]; omega
  have here : (fault.locate text.toList).IsAt text before.length := by
    refine ⟨bound, ?_⟩
    rw [stands, whole, List.take_left]
    exact isBehind_behind before
  constructor
  · rintro ⟨within, there⟩
    rw [← String.length_toList] at within bound
    exact there.index_unique within bound here.position
  · rintro rfl
    exact here

/-- The position of an error is that of one place of the text, and of no other, and what is said to be wrong
stands there. -/
theorem fault_position_is_of_offender {text : String} {error : Error}
    (failed : parseDeclarations text = .error error) :
    ∃ index, (∀ other, error.IsAt text other ↔ other = index) ∧
      Offends error.kind (text.toList.take index) (text.toList.drop index) := by
  obtain ⟨fault, found, rfl⟩ := parseDeclarations_eq_error_iff.mp failed
  obtain ⟨before, whole, offends⟩ := pairs_offends found
  refine ⟨before.length, Fault.isAt_locate whole, ?_⟩
  rw [whole, List.take_left, List.drop_left]
  exact offends

theorem fault_position_is_of_offender_parenthesis :
    parseDeclarations "a:1;\nb:(c(')')" = .error ⟨.unclosedParenthesis, ⟨2, 3⟩⟩ ∧
      ∃ index, (∀ other, Error.IsAt ⟨.unclosedParenthesis, ⟨2, 3⟩⟩ "a:1;\nb:(c(')')" other ↔ other = index) ∧
        Offends .unclosedParenthesis ("a:1;\nb:(c(')')".toList.take index) ("a:1;\nb:(c(')')".toList.drop index) := by
  have failed : parseDeclarations "a:1;\nb:(c(')')" = .error ⟨.unclosedParenthesis, ⟨2, 3⟩⟩ := by decide +kernel
  exact ⟨failed, fault_position_is_of_offender failed⟩

end Style

end Hyperscript
