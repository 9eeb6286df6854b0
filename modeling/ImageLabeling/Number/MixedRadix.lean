/-!
# Mixed-radix numbers

The place of an element in a row-major store is a mixed-radix number whose digits are the indices
along the axes. The digits are read off by division (`digit_div`) and remainder (`digit_mod`), and a
number stays below the product of its radices (`digit_lt`).
-/

namespace ImageLabeling.Number

/-- The leading digit is the quotient by the size of what follows. -/
theorem digit_div {size low : Nat} (high : Nat) (h : low < size) :
    (high * size + low) / size = high := by
  rw [Nat.mul_comm, Nat.mul_add_div (by omega), Nat.div_eq_of_lt h, Nat.add_zero]

/-- The digits after the leading one are the remainder. -/
theorem digit_mod {size low : Nat} (high : Nat) (h : low < size) :
    (high * size + low) % size = low := by
  rw [Nat.mul_comm, Nat.mul_add_mod, Nat.mod_eq_of_lt h]

/-- A number whose digits are below their radices is below the product of the radices. -/
theorem digit_lt {size low high count : Nat} (hhigh : high < count) (hlow : low < size) :
    high * size + low < count * size := by
  calc high * size + low < high * size + size := by omega
    _ = (high + 1) * size := by rw [Nat.add_mul, Nat.one_mul]
    _ ≤ count * size := Nat.mul_le_mul_right _ hhigh

end ImageLabeling.Number
