import Hyperscript.Number.Basic

namespace Hyperscript

/-- The decimal fraction `digits * 10 ^ exponent`. -/
structure Decimal where
  digits : Nat
  exponent : Int
  deriving DecidableEq, Repr

namespace Decimal

/-- Compare with `count * 2 ^ unit`, in whole numbers. -/
def compareTo (decimal : Decimal) (count : Nat) (unit : Int) : Ordering :=
  compare (decimal.digits * Nat.pow 10 decimal.exponent.toNat * Nat.pow 2 (-unit).toNat)
    (count * Nat.pow 2 unit.toNat * Nat.pow 10 (-decimal.exponent).toNat)

/-- Whether the decimal lies among those that are rounded to `significand * 2 ^ exponent`. They reach
halfway to the two neighbours, of which the lower one is nearer at a power of two; a halfway point belongs
to the even significand. -/
def readsBack (decimal : Decimal) (significand : Nat) (exponent : Int) : Bool :=
  let lowest := if significand = Nat.pow 2 52 && exponent > -1074 then 4 * significand - 1 else 4 * significand - 2
  let highest := 4 * significand + 2
  let even := significand % 2 = 0
  let aboveLow := match decimal.compareTo lowest (exponent - 2) with
    | .lt => false
    | .eq => even
    | .gt => true
  let belowHigh := match decimal.compareTo highest (exponent - 2) with
    | .lt => true
    | .eq => even
    | .gt => false
  aboveLow && belowHigh

/-- The decimal with steps of `10 ^ place` that reads back, if there is one. Only the two next to the
number can; of two that do the nearer is taken, and the larger if both are equally near. -/
def atPlace? (significand : Nat) (exponent place : Int) : Option Decimal :=
  let below := significand * Nat.pow 2 exponent.toNat * Nat.pow 10 (-place).toNat /
    (Nat.pow 2 (-exponent).toNat * Nat.pow 10 place.toNat)
  let nearerBelow := Decimal.compareTo ⟨2 * below + 1, place⟩ significand (exponent + 1) = .gt
  match readsBack ⟨below, place⟩ significand exponent, readsBack ⟨below + 1, place⟩ significand exponent with
  | true, true => some ⟨if nearerBelow then below else below + 1, place⟩
  | true, false => some ⟨below, place⟩
  | false, true => some ⟨below + 1, place⟩
  | false, false => none

/-- A place above the first digit of `significand * 2 ^ exponent`, at most two places above it. -/
def topPlace (significand : Nat) (exponent : Int) : Int :=
  (significand.log2 + exponent + 1) * 30103 / 100000 + 1

/-- The decimal with the fewest digits that is rounded to `significand * 2 ^ exponent`. Seventeen digits
always suffice; the exact decimal stands behind them. -/
def shortest (significand : Nat) (exponent : Int) : Decimal :=
  let places := (List.range 20).map fun (step : Nat) => topPlace significand exponent - step
  (places.findSome? (atPlace? significand exponent)).getD
    (if 0 ≤ exponent then ⟨significand * Nat.pow 2 exponent.toNat, 0⟩
      else ⟨significand * Nat.pow 5 (-exponent).toNat, exponent⟩)

/-- The decimal in full, without an exponent, and with a point only if digits stand behind it. -/
def toChars (decimal : Decimal) : List Char :=
  let digits := Nat.toDigits 10 decimal.digits
  if 0 ≤ decimal.exponent then digits ++ List.replicate decimal.exponent.toNat '0'
  else
    let places := (-decimal.exponent).toNat
    let padded := List.replicate (places + 1 - digits.length) '0' ++ digits
    padded.take (padded.length - places) ++ '.' :: padded.drop (padded.length - places)

end Decimal

namespace Number

def sign (negative : Bool) : List Char :=
  if negative then ['-'] else []

/-- The text of a number: the fewest digits that identify it, in full. A zero keeps its sign, and
not-a-number has none. -/
def toChars : Number → List Char
  | .nan => ['N', 'a', 'N']
  | .infinite negative => sign negative ++ ['i', 'n', 'f']
  | .finite negative significand exponent _ =>
    if significand = 0 then sign negative ++ ['0']
    else sign negative ++ (Decimal.shortest significand exponent).toChars

def toText (number : Number) : String :=
  String.ofList number.toChars

end Number

end Hyperscript
