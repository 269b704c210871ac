/-!
# Rounding a quotient to the nearest integer

`roundDiv num den` is the integer nearest to `num / den`, the even one of two equally near. Main
statements: the result is within half a unit (`roundDiv_lower`, `roundDiv_upper`) and an exact half
goes to the even side (`even_roundDiv_of_tie`).
-/

namespace Uart16550

namespace Decimal

/-- The integer nearest to `num / den`; an exact half goes to the even neighbour. -/
def roundDiv (num den : Nat) : Nat :=
  let quotient := num / den
  let twice := 2 * (num % den)
  if twice < den then quotient
  else if den < twice then quotient + 1
  else quotient + quotient % 2

theorem roundDiv_upper {num den : Nat} (h : 0 < den) :
    2 * (den * roundDiv num den) ≤ 2 * num + den := by
  have hdm := Nat.div_add_mod num den
  have hlt := Nat.mod_lt num h
  simp only [roundDiv]
  split
  · omega
  · split
    · rw [Nat.mul_add]; omega
    · rw [Nat.mul_add]
      rcases Nat.mod_two_eq_zero_or_one (num / den) with hp | hp <;> rw [hp] <;> omega

theorem roundDiv_lower {num den : Nat} (h : 0 < den) :
    2 * num ≤ 2 * (den * roundDiv num den) + den := by
  have hdm := Nat.div_add_mod num den
  have hlt := Nat.mod_lt num h
  simp only [roundDiv]
  split
  · omega
  · split
    · rw [Nat.mul_add]; omega
    · rw [Nat.mul_add]
      rcases Nat.mod_two_eq_zero_or_one (num / den) with hp | hp <;> rw [hp] <;> omega

theorem even_roundDiv_of_tie {num den : Nat} (h : 2 * (num % den) = den) :
    roundDiv num den % 2 = 0 := by
  simp only [roundDiv, h, Nat.lt_irrefl, if_false]
  omega

end Decimal

end Uart16550
