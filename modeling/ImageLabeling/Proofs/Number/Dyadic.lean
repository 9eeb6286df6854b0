import ImageLabeling.Proofs.Number.Monotone

/-!
# Whole numbers over powers of two

A whole number up to `2 ^ 24` over a power of two is stored exactly (`storable_div_two_pow`). So the
product of a whole number and such a number is exact as long as its numerator does not exceed
`2 ^ 24` (`IsDyadic.mul`), and the conversion to a word divides with remainder
(`IsDyadic.toNat_toUInt32`). A whole number above `2 ^ 24` is rounded to an even one, whose half is
not larger than the number itself (`exists_half_of_large`).
-/

namespace ImageLabeling.Number

/-! ## Exact numbers -/

theorem onGrid_div_two_pow {n e : Nat} (hn : n ≤ 2 ^ 24) (he : e ≤ 149) :
    OnGrid ((n : ℚ) / 2 ^ e) := by
  rw [div_eq_mul_inv, ← zpow_natCast, ← zpow_neg]
  exact onGrid_natCast_mul hn (by omega)

theorem storable_div_two_pow {n e : Nat} (hn : n ≤ 2 ^ 24) (he : e ≤ 149) :
    Storable ((n : ℚ) / 2 ^ e) := by
  refine ⟨onGrid_div_two_pow hn he, ?_⟩
  rw [abs_of_nonneg (by positivity)]
  apply (div_le_self (by positivity) (one_le_pow₀ one_le_two)).trans
  exact (le_abs_self _).trans (storable_natCast hn).abs_le

theorem storable_intCast_div {k : Int} {e : Nat} (hk : k.natAbs ≤ 2 ^ 24) (he : e ≤ 149) :
    Storable ((k : ℚ) / 2 ^ e) := by
  have hmagnitude := storable_div_two_pow hk he
  rcases k.natAbs_eq with hpos | hneg
  · rw [hpos, Int.cast_natCast]
    exact hmagnitude
  · rw [hneg, Int.cast_neg, Int.cast_natCast, neg_div]
    exact hmagnitude.neg

/-- The number is `m / 2 ^ e`. -/
structure IsDyadic (m e : Nat) (x : Float32) : Prop where
  isFinite : x.isFinite = true
  value_eq : value x = m / 2 ^ e

variable {m n e : Nat} {x : Float32}

theorem isDyadic_of_within (h : Within (m / 2 ^ e) (m / 2 ^ e) x) : IsDyadic m e x :=
  ⟨h.isFinite, h.eq⟩

/-- Whole numbers up to `2 ^ 24` are stored as they are. -/
theorem isDyadic_single (hm : m ≤ 2 ^ 24) : IsDyadic m 0 (single m) :=
  ⟨(rounds_single (by omega)).isFinite, by rw [value_single hm, pow_zero, div_one]⟩

/-- Every whole number up to `2 ^ 24` over a small enough power of two is a number. -/
theorem isDyadic_div (hm : m ≤ 2 ^ 24) (he : e ≤ 24) :
    IsDyadic m e (single m / single (2 ^ e)) := by
  have hpower : 2 ^ e ≤ 2 ^ 24 := Nat.pow_le_pow_right two_pos he
  have hvalue : value (single m) / value (single (2 ^ e)) = m / 2 ^ e := by
    rw [value_single hm, value_single hpower, Nat.cast_pow, Nat.cast_ofNat]
  have hne : value (single (2 ^ e)) ≠ 0 := by
    rw [value_single hpower]
    positivity
  have hstorable := storable_div_two_pow hm (by omega : e ≤ 149)
  apply isDyadic_of_within
  exact within_div (rounds_single (by omega)).isFinite (rounds_single (by omega)).isFinite hstorable
    hstorable hne hvalue.ge hvalue.le

/-- **Products with a whole number are exact as long as the numerator is.** -/
theorem IsDyadic.mul (h : IsDyadic m e x) (hm : 0 < m) (hnm : n * m ≤ 2 ^ 24) (he : e ≤ 149) :
    IsDyadic (n * m) e (single n * x) := by
  have hn : n ≤ 2 ^ 24 := (Nat.le_mul_of_pos_right n hm).trans hnm
  have hvalue : value (single n) * value x = (n * m : Nat) / 2 ^ e := by
    rw [value_single hn, h.value_eq, Nat.cast_mul, mul_div_assoc]
  have hstorable := storable_div_two_pow hnm he
  apply isDyadic_of_within
  exact within_mul (rounds_single (by omega)).isFinite h.isFinite hstorable hstorable hvalue.ge
    hvalue.le

/-- The conversion to a word divides with remainder. -/
theorem IsDyadic.toNat_toUInt32 (h : IsDyadic m e x) (hm : m ≤ 2 ^ 24) :
    x.toUInt32.toNat = m / 2 ^ e := by
  have hfloor : ⌊value x⌋₊ = m / 2 ^ e := by
    rw [h.value_eq]
    exact_mod_cast Nat.floor_div_eq_div (K := ℚ) m (2 ^ e)
  have hnonneg : 0 ≤ value x := by
    rw [h.value_eq]
    positivity
  have hsmall : value x < 2 ^ 32 := by
    rw [h.value_eq]
    apply (div_le_self (by positivity) (one_le_pow₀ one_le_two)).trans_lt
    exact_mod_cast (by omega : m < 2 ^ 32)
  rw [Number.toNat_toUInt32 h.isFinite hnonneg hsmall, hfloor]

theorem IsDyadic.le_iff {m' : Nat} {x' : Float32} (h : IsDyadic m e x) (h' : IsDyadic m' e x') :
    x ≤ x' ↔ m ≤ m' := by
  rw [single_le_iff_value h.isFinite h'.isFinite, h.value_eq, h'.value_eq,
    div_le_div_iff_of_pos_right (by positivity), Nat.cast_le]

/-! ## Fractions -/

/-- The fraction of a number on the grid is on the grid. -/
theorem OnGrid.sub_floor (h : OnGrid v) (hv : 0 ≤ v) : OnGrid (v - ⌊v⌋₊) := by
  obtain ⟨k, e, hk, he, rfl⟩ := h
  have hk0 : 0 ≤ k := by
    have := nonneg_of_mul_nonneg_left hv (two_zpow_pos e)
    exact_mod_cast this
  obtain ⟨m, rfl⟩ := Int.eq_ofNat_of_zero_le hk0
  rcases le_or_gt 0 e with hwhole | hfraction
  · obtain ⟨j, rfl⟩ := Int.eq_ofNat_of_zero_le hwhole
    have hnat : (((m : Int) : ℚ) * 2 ^ (j : Int)) = (m * 2 ^ j : Nat) := by
      push_cast
      rw [zpow_natCast]
    rw [hnat, Nat.floor_natCast, sub_self]
    exact storable_zero.onGrid
  · obtain ⟨j, rfl⟩ : ∃ j : Nat, e = -j := ⟨(-e).toNat, by omega⟩
    have hquotient : (((m : Int) : ℚ) * 2 ^ (-j : Int)) = m / (2 ^ j : Nat) := by
      rw [zpow_neg, zpow_natCast, div_eq_mul_inv]
      push_cast
      rfl
    have hrest : (m : ℚ) / (2 ^ j : Nat) - (m / 2 ^ j : Nat) = (m % 2 ^ j : Nat) / 2 ^ j := by
      have hsplit : (m : ℚ) = (2 ^ j : Nat) * (m / 2 ^ j : Nat) + (m % 2 ^ j : Nat) := by
        exact_mod_cast (Nat.div_add_mod m (2 ^ j)).symm
      rw [hsplit, add_div, mul_div_cancel_left₀ _ (by positivity), add_sub_cancel_left]
      norm_num
    rw [hquotient, Nat.floor_div_eq_div, hrest]
    have hm : m < 2 ^ 24 := by
      rw [Nat.abs_cast] at hk
      exact_mod_cast hk
    exact onGrid_div_two_pow ((Nat.mod_le _ _).trans hm.le) (by omega)

/-! ## Large whole numbers -/

/-- A number on the grid that is larger than `2 ^ 24` is even. -/
theorem OnGrid.exists_half {v : ℚ} (h : OnGrid v) (hlarge : 2 ^ 24 ≤ v) :
    ∃ half : Nat, v = 2 * half ∧ OnGrid half := by
  obtain ⟨k, e, hk, -, rfl⟩ := h
  have hk' : (k : ℚ) < 2 ^ 24 := by exact_mod_cast (le_abs_self k).trans_lt hk
  have he : 0 < e := by
    by_contra hle
    have hpower : (2 : ℚ) ^ e ≤ 1 := zpow_le_one_of_nonpos₀ (by norm_num) (not_lt.1 hle)
    have hpos := two_zpow_pos e
    nlinarith
  obtain ⟨j, rfl⟩ : ∃ j : Nat, e = j + 1 := ⟨(e - 1).toNat, by omega⟩
  have hpos : 0 ≤ k := by
    by_contra hneg
    have : (k : ℚ) < 0 := by exact_mod_cast not_le.1 hneg
    nlinarith [two_zpow_pos ((j : Int) + 1)]
  have hhalf : ((k.toNat * 2 ^ j : Nat) : ℚ) = k * 2 ^ (j : Int) := by
    have hcast : ((k.toNat : Nat) : ℚ) = k := by exact_mod_cast Int.toNat_of_nonneg hpos
    push_cast
    rw [hcast, zpow_natCast]
  refine ⟨k.toNat * 2 ^ j, ?_, ?_⟩
  · rw [hhalf, zpow_add_one₀ (by norm_num)]
    ring
  · rw [hhalf]
    exact ⟨k, j, hk, by omega, rfl⟩

/-- **A large whole number is rounded to an even one**, whose half the number is not below. -/
theorem exists_half_of_large (hlarge : 2 ^ 24 ≤ n) (hn : n < 2 ^ 64) :
    ∃ half : Nat, value (single n) = 2 * half ∧ OnGrid half ∧ half ≤ n := by
  have hnearest := (rounds_single hn).nearest
  have hlarge' : ((2 ^ 24 : Nat) : ℚ) ≤ n := by exact_mod_cast hlarge
  have habove := hnearest.ge (onGrid_natCast le_rfl) hlarge'
  obtain ⟨half, hvalue, hgrid⟩ := hnearest.onGrid.exists_half (by exact_mod_cast habove)
  refine ⟨half, hvalue, hgrid, ?_⟩
  -- the power of two that follows `n` is on the grid, and `n` is not below its half
  have hbelow : (n : ℚ) ≤ 2 ^ ((n.log2 + 1 : Nat) : Int) := by
    rw [zpow_natCast]
    exact_mod_cast Nat.lt_log2_self.le
  have hle := hnearest.le (onGrid_two_zpow (by omega)) hbelow
  rw [hvalue, zpow_natCast, pow_succ, mul_comm] at hle
  have hhalf : half ≤ 2 ^ n.log2 := by exact_mod_cast le_of_mul_le_mul_right hle two_pos
  exact hhalf.trans (Nat.log2_self_le (by omega))

/-! ## Constants -/

theorem value_half : value 0.5 = 1 / 2 := by
  show ((2 ^ 23 : Nat) : ℚ) * 2 ^ (-24 : Int) = 1 / 2
  norm_num

theorem value_byteRange : value 255.0 = 255 := by
  show ((255 * 2 ^ 16 : Nat) : ℚ) * 2 ^ (-16 : Int) = 255
  norm_num

end ImageLabeling.Number
