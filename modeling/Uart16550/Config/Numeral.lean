/-!
# Decimal numerals

The numerals that the command line accepts: ASCII digits, at least one, with an optional plus sign.
A numeral of a type that has negative numbers may carry a minus sign instead.
-/

namespace Uart16550

namespace Numeral

/-- The value of a decimal digit. -/
def digit? (c : Char) : Option Nat :=
  if '0' ≤ c ∧ c ≤ '9' then some (c.toNat - '0'.toNat) else none

/-- Reads on after a number with digits only. -/
def digitsFrom (value : Nat) : List Char → Option Nat
  | [] => some value
  | c :: cs => (digit? c).bind fun d => digitsFrom (10 * value + d) cs

/-- A number in digits, of which there is at least one. -/
def digits? : List Char → Option Nat
  | [] => none
  | cs => digitsFrom 0 cs

/-- A number with an optional plus sign. -/
def unsigned? : List Char → Option Nat
  | '+' :: cs => digits? cs
  | cs => digits? cs

/-- A number with an optional sign. -/
def signed? : List Char → Option Int
  | '-' :: cs => (digits? cs).map fun n => -(n : Int)
  | cs => (unsigned? cs).map fun n => (n : Int)

/-- A byte: a signed numeral of a value from 0 to 255. -/
def byte? (text : String) : Option UInt8 :=
  (signed? text.toList).bind fun n =>
    if 0 ≤ n ∧ n < 256 then some (UInt8.ofNat n.toNat) else none

/-- A 64-bit word: an unsigned numeral of a value below 2 ^ 64. -/
def word? (text : String) : Option Nat :=
  (unsigned? text.toList).bind fun n => if n < UInt64.size then some n else none

end Numeral

end Uart16550
