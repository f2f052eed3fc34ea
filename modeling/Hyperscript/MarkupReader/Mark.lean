import Hyperscript.MarkupReader.Reference

namespace Hyperscript.MarkupReader

/-- One mark of a text: a run of characters, a comment, or a tag. -/
inductive Mark
  | text (value : List Char)
  | comment (value : List Char)
  /-- `closed` says that the tag ended in a slash. -/
  | opening (tag : String) (attributes : List (String × String)) (closed : Bool)
  | closing (tag : String)
  deriving DecidableEq, Repr

namespace Mark

def isTagBlank (c : Char) : Bool :=
  c = ' ' || c = '\t' || c = '\n' || c = '\x0c' || c = '\r'

def endsTagName (c : Char) : Bool :=
  isTagBlank c || c = '/' || c = '>'

def endsAttributeName (c : Char) : Bool :=
  endsTagName c || c = '='

def endsBareValue (c : Char) : Bool :=
  isTagBlank c || c = '>'

def nameOf (chars : List Char) : String :=
  String.ofList (chars.map Char.toLower)

/-- The value behind an equals sign, in quotes or bare, and what follows it. -/
def attributeValue (text : List Char) : List Char × List Char :=
  match text.dropWhile isTagBlank with
  | [] => ([], [])
  | c :: rest =>
    if c = '\x22' || c = '\x27' then (rest.takeWhile (· ≠ c), (rest.dropWhile (· ≠ c)).tail)
    else ((c :: rest).takeWhile (!endsBareValue ·), (c :: rest).dropWhile (!endsBareValue ·))

/-- An attribute and what follows it, given the first character of its name. Without an equals sign the
value is empty. -/
def attributeFrom (first : Char) (text : List Char) : (String × String) × List Char :=
  let name := nameOf (first :: text.takeWhile (!endsAttributeName ·))
  let rest := text.dropWhile (!endsAttributeName ·)
  match rest.dropWhile isTagBlank with
  | '=' :: after =>
    let (value, after) := attributeValue after
    ((name, String.ofList (unescape value)), after)
  | _ => ((name, ""), rest)

theorem length_dropWhile_le (drops : Char → Bool) (text : List Char) :
    (text.dropWhile drops).length ≤ text.length :=
  (List.dropWhile_sublist drops).length_le

theorem attributeValue_length (text : List Char) : (attributeValue text).2.length ≤ text.length := by
  have shorter := length_dropWhile_le isTagBlank text
  unfold attributeValue
  split
  · simp
  · next c rest blanks =>
    rw [blanks] at shorter
    split
    · have := length_dropWhile_le (· ≠ c) rest
      simp only [List.length_tail, List.length_cons] at *
      omega
    · exact Nat.le_trans (length_dropWhile_le _ _) shorter

theorem attributeFrom_length (first : Char) (text : List Char) :
    (attributeFrom first text).2.length ≤ text.length := by
  have nameEnd := length_dropWhile_le (!endsAttributeName ·) text
  simp only [attributeFrom]
  split
  · next after blanks =>
    have := length_dropWhile_le isTagBlank (text.dropWhile (!endsAttributeName ·))
    rw [blanks] at this
    have := attributeValue_length after
    simp only [List.length_cons] at *
    omega
  · exact nameEnd

/-- The attributes up to the end of a tag, whether the tag ended in a slash, and what follows it. -/
def attributes (text : List Char) : List (String × String) × Bool × List Char :=
  match text with
  | [] => ([], false, [])
  | c :: rest =>
    if c = '>' then ([], false, rest)
    else if c = '/' && rest.head? = some '>' then ([], true, rest.tail)
    else if isTagBlank c || c = '/' then attributes rest
    else
      let (others, closed, after) := attributes (attributeFrom c rest).2
      ((attributeFrom c rest).1 :: others, closed, after)
termination_by text.length
decreasing_by
  · simp
  · have := attributeFrom_length c rest
    simp only [List.length_cons]
    omega

theorem attributes_length (text : List Char) : (attributes text).2.2.length ≤ text.length := by
  fun_induction attributes text with
  | case1 => simp
  | case2 => simp
  | case3 c rest _ _ => simp only [List.length_tail, List.length_cons]; omega
  | case4 c rest _ _ _ ih => simp only [List.length_cons]; omega
  | case5 c rest _ _ _ others closed after found ih =>
    have := attributeFrom_length c rest
    rw [found] at ih
    simp only [List.length_cons] at *
    omega

/-- The first of several attributes of one name counts. -/
def firstOfEach : List (String × String) → List (String × String)
  | [] => []
  | pair :: rest => pair :: (firstOfEach rest).filter fun other => other.1 ≠ pair.1

/-- The characters of a comment and what follows it. The comment's closer may hold an exclamation mark. -/
def commentBody : List Char → List Char × List Char
  | '-' :: '-' :: '>' :: rest => ([], rest)
  | '-' :: '-' :: '!' :: '>' :: rest => ([], rest)
  | c :: rest => (c :: (commentBody rest).1, (commentBody rest).2)
  | [] => ([], [])

theorem commentBody_length (text : List Char) : (commentBody text).2.length ≤ text.length := by
  fun_induction commentBody text with
  | case1 => simp only [List.length_cons]; omega
  | case2 => simp only [List.length_cons]; omega
  | case3 _ _ _ _ ih => simp only [List.length_cons]; omega
  | case4 => simp

/-- A comment, given what follows its opener. Right behind the opener a bracket, with a dash or without,
ends an empty comment. -/
def commentFrom : List Char → List Char × List Char
  | '>' :: rest => ([], rest)
  | '-' :: '>' :: rest => ([], rest)
  | body => commentBody body

theorem commentFrom_length (text : List Char) : (commentFrom text).2.length ≤ text.length := by
  unfold commentFrom
  split
  · simp
  · simp only [List.length_cons]; omega
  · exact commentBody_length text

/-- The comment or tag that a left bracket begins, given what follows the bracket. A bracket begins none
unless a letter, a slash with a letter, or the rest of a comment's opener follows. -/
def afterBracket? : List Char → Option (Mark × List Char)
  | '!' :: '-' :: '-' :: rest => some (.comment (commentFrom rest).1, (commentFrom rest).2)
  | '/' :: c :: rest =>
    if c.isAlpha then
      some (.closing (nameOf (c :: rest.takeWhile (!endsTagName ·))),
        (attributes (rest.dropWhile (!endsTagName ·))).2.2)
    else none
  | c :: rest =>
    if c.isAlpha then
      let found := attributes (rest.dropWhile (!endsTagName ·))
      some (.opening (nameOf (c :: rest.takeWhile (!endsTagName ·))) (firstOfEach found.1) found.2.1, found.2.2)
    else none
  | [] => none

theorem afterBracket?_length {text rest : List Char} {mark : Mark}
    (found : afterBracket? text = some (mark, rest)) : rest.length ≤ text.length := by
  unfold afterBracket? at found
  split at found
  · next body =>
    cases found
    have := commentFrom_length body
    simp only [List.length_cons]
    omega
  · next c body =>
    split at found
    · cases found
      have := attributes_length (body.dropWhile (!endsTagName ·))
      have := length_dropWhile_le (!endsTagName ·) body
      simp only [List.length_cons]
      omega
    · simp at found
  · next c body _ _ =>
    split at found
    · cases found
      have := attributes_length (body.dropWhile (!endsTagName ·))
      have := length_dropWhile_le (!endsTagName ·) body
      simp only [List.length_cons]
      omega
    · simp at found
  · simp at found

/-- The marks of a text, in order. -/
def all (text : List Char) : List Mark :=
  match text with
  | [] => []
  | c :: rest =>
    if c = '<' then
      match _ : afterBracket? rest with
      | some (mark, after) => mark :: all after
      | none => .text [c] :: all rest
    else .text (unescape (c :: rest.takeWhile (· ≠ '<'))) :: all (rest.dropWhile (· ≠ '<'))
termination_by text.length
decreasing_by
  · have := afterBracket?_length ‹_›
    simp only [List.length_cons]
    omega
  · simp
  · have := length_dropWhile_le (· ≠ '<') rest
    simp only [List.length_cons]
    omega

end Mark

end Hyperscript.MarkupReader
