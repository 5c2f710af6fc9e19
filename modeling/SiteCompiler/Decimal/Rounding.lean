set_option autoImplicit false

/-! # Rounding quotients

A quotient of natural numbers is rounded to the nearest whole number, and one that lies halfway
between two of them to the even one.
-/

namespace SiteCompiler.Decimal

/-- The whole number nearest to `num / den`; of two the even one. -/
def roundQuotient (num den : Nat) : Nat :=
  let whole := num / den
  let twice := 2 * (num % den)
  if twice < den then whole
  else if den < twice then whole + 1
  else whole + whole % 2

/-- The rounded quotient is at most half a unit away. -/
theorem roundQuotient_near {num den : Nat} (h : 0 < den) :
    2 * num ≤ 2 * (roundQuotient num den * den) + den ∧
      2 * (roundQuotient num den * den) ≤ 2 * num + den := by
  have hdiv := Nat.div_add_mod num den
  have hlt := Nat.mod_lt num h
  have hpar := Nat.mod_lt (num / den) (by omega : 0 < 2)
  rw [Nat.mul_comm] at hdiv
  simp only [roundQuotient]
  split
  · constructor <;> omega
  · split
    · rw [Nat.add_mul]; constructor <;> omega
    · rcases Nat.mod_two_eq_zero_or_one (num / den) with heven | hodd
      · rw [heven, Nat.add_zero]; constructor <;> omega
      · rw [hodd, Nat.add_mul]; constructor <;> omega

/-- The number of binary digits of a significand. -/
def significandBits : Nat := 53

/-- The whole number nearest to `n` that has at most 53 significant binary digits. -/
def toSignificand (n : Nat) : Nat :=
  let excess := n.log2 + 1 - significandBits
  roundQuotient n (Nat.pow 2 excess) * Nat.pow 2 excess

end SiteCompiler.Decimal
