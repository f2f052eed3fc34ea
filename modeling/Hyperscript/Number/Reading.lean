import Hyperscript.Number.Rounding

namespace Hyperscript.Number

def digitsValue (digits : List Char) : Nat :=
  digits.foldl (fun value digit => 10 * value + (digit.toNat - '0'.toNat)) 0

def wholeNumber? (digits : List Char) : Option Nat :=
  if !digits.isEmpty && digits.all Char.isDigit then some (digitsValue digits) else none

/-- The exponent that may end a number: nothing, or `e` and a whole number with or without a sign. -/
def exponent? : List Char → Option Int
  | [] => some 0
  | mark :: rest =>
    if mark.toLower = 'e' then
      match rest with
      | '-' :: digits => (wholeNumber? digits).map fun value => -(value : Int)
      | '+' :: digits => (wholeNumber? digits).map fun value => (value : Int)
      | digits => (wholeNumber? digits).map fun value => (value : Int)
    else none

/-- The digits after the point, if one begins here, and what follows them. -/
def fraction : List Char → List Char × List Char
  | '.' :: rest => (rest.takeWhile Char.isDigit, rest.dropWhile Char.isDigit)
  | rest => ([], rest)

/-- Digits with at most one point, on either side of which they may be missing, and an exponent. -/
def decimal? (negative : Bool) (text : List Char) : Option Number :=
  let whole := text.takeWhile Char.isDigit
  let (places, rest) := fraction (text.dropWhile Char.isDigit)
  if whole.isEmpty && places.isEmpty then none
  else (exponent? rest).map fun exponent =>
    ofDecimal negative (digitsValue (whole ++ places)) (exponent - places.length)

def unsigned? (negative : Bool) (text : List Char) : Option Number :=
  match text.map Char.toLower with
  | ['i', 'n', 'f'] => some (.infinite negative)
  | ['i', 'n', 'f', 'i', 'n', 'i', 't', 'y'] => some (.infinite negative)
  | ['n', 'a', 'n'] => some .nan
  | _ => decimal? negative text

/-- Read a number: a sign or none, then a decimal number or, in any letter case, `inf`, `infinity` or `nan`.
Nothing else may stand in the text, blanks neither. -/
def ofChars? : List Char → Option Number
  | '-' :: rest => unsigned? true rest
  | '+' :: rest => unsigned? false rest
  | text => unsigned? false text

def ofText? (text : String) : Option Number :=
  ofChars? text.toList

end Hyperscript.Number
