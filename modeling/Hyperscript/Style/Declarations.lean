import Hyperscript.OrderedMap
import Hyperscript.Style.Scanner
import Hyperscript.Text.Dashed

namespace Hyperscript.Style

open Text

theorem skipTrivia_length {text rest : List Char} (passed : skipTrivia text = .ok rest) :
    rest.length ≤ text.length := by
  fun_induction skipTrivia text with
  | case1 => cases passed; simp
  | case2 c _ _ ih => have := ih passed; simp only [List.length_cons]; omega
  | case3 => cases passed; simp
  | case4 => simp at passed
  | case5 c _ _ after found ih => have := ih passed; have := comment_closed_length found; omega

theorem prepend_ok {chars read rest : List Char} {result : Except Fault (List Char × List Char)}
    (found : prepend chars result = .ok (read, rest)) :
    ∃ inner, result = .ok (inner, rest) ∧ read = chars ++ inner := by
  cases result with
  | error fault => simp [prepend] at found
  | ok pair =>
    simp only [prepend, Except.ok.injEq, Prod.mk.injEq] at found
    exact ⟨pair.1, by rw [← found.2], found.1.symm⟩

theorem nameChars_length {text chars rest : List Char} (found : nameChars text = .ok (chars, rest)) :
    rest.length < text.length := by
  fun_induction nameChars text generalizing chars with
  | case1 => simp at found
  | case2 => cases found; simp
  | case3 => simp at found
  | case4 c _ _ _ _ ih =>
    obtain ⟨_, inner, _⟩ := prepend_ok found
    have := ih inner
    simp only [List.length_cons]
    omega
  | case5 => simp at found
  | case6 c _ _ _ after closed ih => have := ih found; have := comment_closed_length closed; omega

/-- Behind a name and its colon less is left than before them. -/
theorem name_length {text chars rest : List Char} (found : name text = .ok (chars, rest)) :
    rest.length < text.length := by
  unfold name at found
  split at found
  · simp at found
  · next read =>
    split at found
    · simp at found
    · cases found
      exact nameChars_length read

theorem valueChars_length {nesting : Nesting} {text chars rest : List Char}
    (found : valueChars nesting text = .ok (chars, rest)) : rest.length ≤ text.length := by
  fun_induction valueChars nesting text generalizing chars with
  | case1 => simp at found
  | case2 => cases found; simp
  | case3 => simp at found
  | case4 _ c _ _ _ after closed ih =>
    obtain ⟨_, inner, _⟩ := prepend_ok found
    have := ih inner
    have := closeQuote?_length closed
    simp only [List.length_cons]
    omega
  | case5 => cases found; simp
  | case6 _ c _ _ _ _ _ ih =>
    obtain ⟨_, inner, _⟩ := prepend_ok found
    have := ih inner
    simp only [List.length_cons]
    omega
  | case7 => simp at found
  | case8 _ c _ _ _ _ after closed ih =>
    have := ih found
    have := comment_closed_length closed
    omega
  | case9 _ c _ _ _ ih =>
    obtain ⟨_, inner, _⟩ := prepend_ok found
    have := ih inner
    simp only [List.length_cons]
    omega

/-- A value may be empty, so as much may be left behind it as before it. -/
theorem value_length {text chars rest : List Char} (found : value text = .ok (chars, rest)) :
    rest.length ≤ text.length := by
  unfold value at found
  split at found
  · simp at found
  · next read => cases found; exact valueChars_length read

/-- The declarations of a text as pairs of name and value, and what follows them: nothing, or the text from
a closing brace on that stands where a declaration might begin. -/
def pairs (text : List Char) : Except Fault (List (List Char × List Char) × List Char) :=
  match _ : skipTrivia text with
  | .error fault => .error fault
  | .ok [] => .ok ([], [])
  | .ok (c :: rest) =>
    if c = '\x7d' then .ok ([], c :: rest)
    else match _ : name (c :: rest) with
      | .error fault => .error fault
      | .ok (chars, afterName) =>
        match _ : value afterName with
        | .error fault => .error fault
        | .ok (content, afterValue) =>
          match pairs afterValue with
          | .error fault => .error fault
          | .ok (others, after) => .ok ((chars, content) :: others, after)
termination_by text.length
decreasing_by
  have := skipTrivia_length ‹_›
  have := name_length ‹_›
  have := value_length ‹_›
  omega

structure Declaration where
  name : String
  value : String
  deriving DecidableEq, Repr

/-- Split a declaration list. Semicolons, colons and braces inside quotes and parentheses are content;
comments outside them are dropped; a repeated name is kept each time. -/
def parseDeclarations (text : String) : Except Error (List Declaration) :=
  match pairs text.toList with
  | .error fault => .error (fault.locate text.toList)
  | .ok (found, _) => .ok (found.map fun pair => ⟨String.ofList pair.1, String.ofList pair.2⟩)

/-- The Microsoft marker is the one vendor marker that is not capitalised. -/
def lowerMicrosoft : List Char → List Char
  | '-' :: 'm' :: 's' :: '-' :: rest => 'm' :: 's' :: '-' :: rest
  | chars => chars

/-- The name under which a style object holds a declaration: `background-color` is `backgroundColor`,
`-moz-appearance` is `MozAppearance`, and `-ms-filter` is `msFilter`. -/
def camelCase (name : String) : String :=
  String.ofList (raiseAfterDash (lowerMicrosoft name.toList))

/-- Read a declaration list as an object. A repeated name keeps its first place and takes the last value. -/
def parseStyle (text : String) : Except Error (OrderedMap String) :=
  match parseDeclarations text with
  | .error fault => .error fault
  | .ok declarations =>
    .ok (.ofList (declarations.map fun declaration => (camelCase declaration.name, declaration.value)))

end Hyperscript.Style
