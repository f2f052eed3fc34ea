import Hyperscript.Style.Fault
import Hyperscript.Text.Blank

namespace Hyperscript.Style

open Text

/-- What a comment's end leaves over. -/
def closeComment? : List Char → Option (List Char)
  | '*' :: '/' :: rest => some rest
  | _ :: rest => closeComment? rest
  | [] => none

/-- What a text shows where a comment may begin. -/
inductive Comment
  | absent
  | unterminated
  | closed (rest : List Char)

def comment : List Char → Comment
  | '/' :: '*' :: body =>
    match closeComment? body with
    | some rest => .closed rest
    | none => .unterminated
  | _ => .absent

theorem closeComment?_length {body rest : List Char} (found : closeComment? body = some rest) :
    rest.length + 2 ≤ body.length := by
  fun_induction closeComment? body with
  | case1 => simp_all
  | case2 _ _ _ ih => have := ih found; simp only [List.length_cons]; omega
  | case3 => simp at found

/-- Behind a comment less is left than before it. -/
theorem comment_closed_length {text rest : List Char} (found : comment text = .closed rest) :
    rest.length < text.length := by
  unfold comment at found
  split at found
  · split at found
    · next closed =>
      cases found
      have := closeComment?_length closed
      simp only [List.length_cons]
      omega
    · simp at found
  · simp at found

/-- Pass blanks, semicolons and comments. -/
def skipTrivia (text : List Char) : Except Fault (List Char) :=
  match text with
  | [] => .ok []
  | c :: rest =>
    if isBlank c || c = ';' then skipTrivia rest
    else match _ : comment (c :: rest) with
      | .absent => .ok (c :: rest)
      | .unterminated => .error ⟨.unterminatedComment, c :: rest⟩
      | .closed after => skipTrivia after
termination_by text.length
decreasing_by
  · simp
  · exact comment_closed_length ‹_›

/-- Put characters in front of what was read. -/
def prepend (chars : List Char) : Except Fault (List Char × List Char) → Except Fault (List Char × List Char)
  | .ok (read, rest) => .ok (chars ++ read, rest)
  | .error fault => .error fault

/-- The characters up to a colon, without comments, and what stands behind the colon. -/
def nameChars (text : List Char) : Except Fault (List Char × List Char) :=
  match text with
  | [] => .error ⟨.missingColon, []⟩
  | c :: rest =>
    if c = ':' then .ok ([], rest)
    else if c = ';' then .error ⟨.missingColon, c :: rest⟩
    else match _ : comment (c :: rest) with
      | .absent => prepend [c] (nameChars rest)
      | .unterminated => .error ⟨.unterminatedComment, c :: rest⟩
      | .closed after => nameChars after
termination_by text.length
decreasing_by
  · simp
  · exact comment_closed_length ‹_›

/-- The name of a declaration, trimmed, and what stands behind its colon. -/
def name (text : List Char) : Except Fault (List Char × List Char) :=
  match nameChars text with
  | .error fault => .error fault
  | .ok (chars, rest) => if trim chars = [] then .error ⟨.missingName, text⟩ else .ok (trim chars, rest)

/-- The rest of a quoted string, its closing quote included, and what follows it. A backslash takes the
next character with it. -/
def closeQuote? (quote : Char) : List Char → Option (List Char × List Char)
  | [] => none
  | '\\' :: next :: rest => (closeQuote? quote rest).map fun found => ('\\' :: next :: found.1, found.2)
  | c :: rest =>
    if c = quote then some ([c], rest)
    else (closeQuote? quote rest).map fun found => (c :: found.1, found.2)

theorem closeQuote?_length {quote : Char} {text inside rest : List Char}
    (found : closeQuote? quote text = some (inside, rest)) : rest.length < text.length := by
  fun_induction closeQuote? quote text generalizing inside with
  | case1 => simp at found
  | case2 next rest' ih =>
    simp only [Option.map_eq_some_iff, Prod.mk.injEq, Prod.exists] at found
    obtain ⟨_, _, closed, _, rfl⟩ := found
    have := ih closed
    simp only [List.length_cons]
    omega
  | case3 rest' =>
    cases found
    simp
  | case4 c rest' _ _ ih =>
    simp only [Option.map_eq_some_iff, Prod.mk.injEq, Prod.exists] at found
    obtain ⟨_, _, closed, _, rfl⟩ := found
    have := ih closed
    simp only [List.length_cons]
    omega

def isQuote (c : Char) : Bool := c = '\x22' || c = '\x27'

/-- The parentheses that are open: for each what stands from it on, the innermost first. -/
abbrev Nesting := List (List Char)

def Nesting.after (nesting : Nesting) (c : Char) (rest : List Char) : Nesting :=
  if c = '(' then (c :: rest) :: nesting
  else if c = ')' then nesting.tail
  else nesting

/-- The characters of a value and what follows it. A semicolon or a closing brace ends the value outside
quotes and parentheses, and only there comments are known. -/
def valueChars (nesting : Nesting) (text : List Char) : Except Fault (List Char × List Char) :=
  match text with
  | [] =>
    match nesting.getLast? with
    | some outermost => .error ⟨.unclosedParenthesis, outermost⟩
    | none => .ok ([], [])
  | c :: rest =>
    if isQuote c then
      match _ : closeQuote? c rest with
      | none => .error ⟨.unterminatedString, c :: rest⟩
      | some (inside, after) => prepend (c :: inside) (valueChars nesting after)
    else if nesting.isEmpty then
      if c = ';' || c = '}' then .ok ([], c :: rest)
      else match _ : comment (c :: rest) with
        | .absent => prepend [c] (valueChars (nesting.after c rest) rest)
        | .unterminated => .error ⟨.unterminatedComment, c :: rest⟩
        | .closed after => valueChars nesting after
    else prepend [c] (valueChars (nesting.after c rest) rest)
termination_by text.length
decreasing_by
  · have := closeQuote?_length ‹_›
    simp only [List.length_cons]
    omega
  · simp
  · exact comment_closed_length ‹_›
  · simp

/-- The value of a declaration, trimmed, and what follows it. -/
def value (text : List Char) : Except Fault (List Char × List Char) :=
  match valueChars [] text with
  | .error fault => .error fault
  | .ok (chars, rest) => .ok (trim chars, rest)

end Hyperscript.Style
