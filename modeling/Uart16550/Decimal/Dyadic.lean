import Uart16550.Decimal.Rounding

/-!
# Decimal text of a double

A finite non-negative double is `mantissa * 2 ^ exponent`. `Dyadic.twoPlaces` writes it with two
decimals from this exact value, so no second rounding happens on the way: `0.125` is a tie and
becomes `0.12`, while a double that is just above a tie is rounded up.
-/

namespace Uart16550

/-- The number `mantissa * 2 ^ exponent`. -/
structure Dyadic where
  mantissa : Nat
  exponent : Int
  deriving DecidableEq, Repr

namespace Dyadic

/-- The magnitude of the finite double with these bits. -/
def ofBits (bits : UInt64) : Dyadic :=
  let fraction : Nat := bits.toNat % Nat.pow 2 52
  let biased : Nat := bits.toNat / Nat.pow 2 52 % Nat.pow 2 11
  if biased = 0 then { mantissa := fraction, exponent := -1074 }
  else { mantissa := Nat.pow 2 52 + fraction, exponent := (biased : Int) - 1075 }

/-- The integer nearest to `scale` times the number, ties to even. -/
def scaledRound (x : Dyadic) (scale : Nat) : Nat :=
  Decimal.roundDiv (x.mantissa * scale * Nat.pow 2 x.exponent.toNat) (Nat.pow 2 (-x.exponent).toNat)

/-- The number with two decimals after a point. -/
def twoPlaces (x : Dyadic) : String :=
  let hundredths := x.scaledRound 100
  let cents := hundredths % 100
  toString (hundredths / 100) ++ "." ++ toString (cents / 10) ++ toString (cents % 10)

end Dyadic

end Uart16550
