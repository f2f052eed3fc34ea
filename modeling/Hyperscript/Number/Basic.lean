namespace Hyperscript

/-- The spellings of the finite binary64 numbers. A significand has 53 binary digits or, at the least exponent,
fewer, so no number has two of them. -/
structure Number.IsCanonical (significand : Nat) (exponent : Int) : Prop where
  digits : significand < Nat.pow 2 53
  leading : Nat.pow 2 52 ≤ significand ∨ exponent = -1074
  least : -1074 ≤ exponent
  greatest : exponent ≤ 971

instance (significand : Nat) (exponent : Int) : Decidable (Number.IsCanonical significand exponent) :=
  decidable_of_iff
    (significand < Nat.pow 2 53 ∧ (Nat.pow 2 52 ≤ significand ∨ exponent = -1074) ∧ -1074 ≤ exponent ∧
      exponent ≤ 971)
    ⟨fun ⟨digits, leading, least, greatest⟩ => ⟨digits, leading, least, greatest⟩,
      fun canonical => ⟨canonical.digits, canonical.leading, canonical.least, canonical.greatest⟩⟩

/-- A binary64 number. A finite one is `significand * 2 ^ exponent`. -/
inductive Number
  | nan
  | infinite (negative : Bool)
  | finite (negative : Bool) (significand : Nat) (exponent : Int)
      (canonical : Number.IsCanonical significand exponent)
  deriving DecidableEq, Repr, Inhabited

namespace Number

def zero (negative : Bool) : Number := .finite negative 0 (-1074) (by decide)

/-- Equality of values: the two zeros are equal, and not-a-number differs from everything. -/
def same : Number → Number → Bool
  | .finite negative significand exponent _, .finite negative' significand' exponent' _ =>
    (significand = 0 && significand' = 0) ||
      (negative = negative' && significand = significand' && exponent = exponent')
  | .infinite negative, .infinite negative' => negative = negative'
  | _, _ => false

def isTruthy : Number → Bool
  | .nan => false
  | .infinite _ => true
  | .finite _ significand _ _ => significand ≠ 0

end Number

end Hyperscript
