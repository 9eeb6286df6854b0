/-!
# Rounding quotients of natural numbers

`roundDiv n d` is the integer nearest to `n / d`, an exact half going to the even neighbour.
It is the only rounding step in the library's decimal texts and decimal readers. The main
statements bound the distance (`two_mul_roundDiv_le`, `le_two_mul_roundDiv`) and say that exact
quotients are kept (`roundDiv_mul`).
-/

namespace ImageLabeling.Number

/-- The integer nearest to `n / d`, an exact half going to the even neighbour. -/
def roundDiv (n d : Nat) : Nat :=
  let quotient := n / d
  let rest := n % d
  if 2 * rest < d then quotient
  else if d < 2 * rest then quotient + 1
  else quotient + quotient % 2

/-- Rounding moves up by at most half a unit. -/
theorem two_mul_roundDiv_le (n d : Nat) : 2 * (roundDiv n d * d) ≤ 2 * n + d := by
  have h := Nat.div_add_mod n d
  have hq : d * (n / d) = n / d * d := Nat.mul_comm _ _
  unfold roundDiv
  dsimp only
  split
  · omega
  · split
    · rw [Nat.add_mul]; omega
    · have hm : n / d % 2 = 0 ∨ n / d % 2 = 1 := by omega
      rcases hm with hm | hm <;> rw [hm, Nat.add_mul] <;> omega

/-- Rounding moves down by at most half a unit. -/
theorem le_two_mul_roundDiv (n d : Nat) (hd : 0 < d) : 2 * n ≤ 2 * (roundDiv n d * d) + d := by
  have h := Nat.div_add_mod n d
  have hq : d * (n / d) = n / d * d := Nat.mul_comm _ _
  have hr := Nat.mod_lt n hd
  unfold roundDiv
  dsimp only
  split
  · omega
  · split
    · rw [Nat.add_mul]; omega
    · have hm : n / d % 2 = 0 ∨ n / d % 2 = 1 := by omega
      rcases hm with hm | hm <;> rw [hm, Nat.add_mul] <;> omega

/-- An exact quotient is kept. -/
theorem roundDiv_mul (k d : Nat) (hd : 0 < d) : roundDiv (k * d) d = k := by
  have h1 : k * d / d = k := Nat.mul_div_cancel k hd
  have h2 : k * d % d = 0 := Nat.mul_mod_left k d
  simp [roundDiv, h1, h2, hd]

end ImageLabeling.Number
