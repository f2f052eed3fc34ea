namespace Hyperscript.MarkupReader

/-- The characters that the numbers 128 to 159 stand for in markup; the others stand for themselves. -/
def legacyPoints : List (Nat × Nat) :=
  [(0x80, 0x20AC), (0x82, 0x201A), (0x83, 0x0192), (0x84, 0x201E), (0x85, 0x2026), (0x86, 0x2020),
   (0x87, 0x2021), (0x88, 0x02C6), (0x89, 0x2030), (0x8A, 0x0160), (0x8B, 0x2039), (0x8C, 0x0152),
   (0x8E, 0x017D), (0x91, 0x2018), (0x92, 0x2019), (0x93, 0x201C), (0x94, 0x201D), (0x95, 0x2022),
   (0x96, 0x2013), (0x97, 0x2014), (0x98, 0x02DC), (0x99, 0x2122), (0x9A, 0x0161), (0x9B, 0x203A),
   (0x9C, 0x0153), (0x9E, 0x017E), (0x9F, 0x0178)]

/-- The character with a number. Numbers without a character give the replacement character. -/
def pointChar (point : Nat) : Char :=
  if point = 0 || !point.isValidChar then '\ufffd'
  else Char.ofNat ((legacyPoints.lookup point).getD point)

def isHexDigit (c : Char) : Bool :=
  c.isDigit || ('a' ≤ c.toLower && c.toLower ≤ 'f')

def digitValue (c : Char) : Nat :=
  if c.isDigit then c.toNat - '0'.toNat else c.toLower.toNat - 'a'.toNat + 10

def digitsValue (base : Nat) (digits : List Char) : Nat :=
  digits.foldl (fun value digit => base * value + digitValue digit) 0

/-- A number in the given base with the semicolon behind it, which may be missing. -/
def numeric? (base : Nat) (isBaseDigit : Char → Bool) (text : List Char) : Option (Char × List Char) :=
  let digits := text.takeWhile isBaseDigit
  let rest := text.dropWhile isBaseDigit
  if digits.isEmpty then none
  else some (pointChar (digitsValue base digits), if rest.head? = some ';' then rest.tail else rest)

/-- The character that a reference stands for, given what follows the ampersand, and what follows the
reference. The four named ones are those of the markup characters. -/
def reference? : List Char → Option (Char × List Char)
  | 'a' :: 'm' :: 'p' :: ';' :: rest => some ('&', rest)
  | 'l' :: 't' :: ';' :: rest => some ('<', rest)
  | 'g' :: 't' :: ';' :: rest => some ('>', rest)
  | 'q' :: 'u' :: 'o' :: 't' :: ';' :: rest => some ('\x22', rest)
  | '#' :: 'x' :: rest => numeric? 16 isHexDigit rest
  | '#' :: 'X' :: rest => numeric? 16 isHexDigit rest
  | '#' :: rest => numeric? 10 Char.isDigit rest
  | _ => none

theorem numeric?_length {base : Nat} {isBaseDigit : Char → Bool} {text rest : List Char} {c : Char}
    (found : numeric? base isBaseDigit text = some (c, rest)) : rest.length ≤ text.length := by
  have shorter := (List.dropWhile_sublist isBaseDigit (l := text)).length_le
  simp only [numeric?] at found
  split at found
  · simp at found
  · simp only [Option.some.injEq, Prod.mk.injEq] at found
    rw [← found.2]
    split
    · simp only [List.length_tail]; omega
    · exact shorter

theorem reference?_length {text rest : List Char} {c : Char} (found : reference? text = some (c, rest)) :
    rest.length ≤ text.length := by
  unfold reference? at found
  split at found
  case h_8 => simp at found
  case h_5 => have := numeric?_length found; simp only [List.length_cons]; omega
  case h_6 => have := numeric?_length found; simp only [List.length_cons]; omega
  case h_7 => have := numeric?_length found; simp only [List.length_cons]; omega
  all_goals
    cases found
    simp only [List.length_cons]
    omega

/-- The text with its references replaced. An ampersand that begins none stands for itself. -/
def unescape (text : List Char) : List Char :=
  match text with
  | [] => []
  | c :: rest =>
    if c = '&' then
      match _ : reference? rest with
      | some (found, after) => found :: unescape after
      | none => c :: unescape rest
    else c :: unescape rest
termination_by text.length
decreasing_by
  · have := reference?_length ‹_›
    simp only [List.length_cons]
    omega
  · simp
  · simp

end Hyperscript.MarkupReader
