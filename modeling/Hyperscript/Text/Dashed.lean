namespace Hyperscript.Text

def isLowerLetter (c : Char) : Bool := 'a' ≤ c && c ≤ 'z'

def isUpperLetter (c : Char) : Bool := 'A' ≤ c && c ≤ 'Z'

/-- Each dash before a lower-case ASCII letter is dropped and the letter raised; other dashes stay. -/
def raiseAfterDash : List Char → List Char
  | [] => []
  | [c] => [c]
  | c :: next :: rest =>
    if c = '-' && isLowerLetter next then next.toUpper :: raiseAfterDash rest
    else c :: raiseAfterDash (next :: rest)

/-- Each upper-case ASCII letter is lowered, with a dash in front. -/
def dashBeforeCapitals (text : List Char) : List Char :=
  text.flatMap fun c => if isUpperLetter c then ['-', c.toLower] else [c]

/-- Some dash stands before a lower-case ASCII letter. -/
def hasDashedLetter : List Char → Bool
  | c :: next :: rest => (c = '-' && isLowerLetter next) || hasDashedLetter (next :: rest)
  | _ => false

/-- Where no letter has a dash before it there is nothing to raise. -/
theorem raiseAfterDash_of_not_hasDashedLetter {text : List Char} (plain : hasDashedLetter text = false) :
    raiseAfterDash text = text := by
  fun_induction raiseAfterDash text with
  | case1 => rfl
  | case2 => rfl
  | case3 c next rest dashed _ => simp_all [hasDashedLetter]
  | case4 c next rest _ ih =>
    simp only [hasDashedLetter, Bool.or_eq_false_iff] at plain
    rw [ih plain.2]

end Hyperscript.Text
