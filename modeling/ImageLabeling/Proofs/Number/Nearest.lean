import ImageLabeling.Proofs.Number.Value

/-!
# Correct rounding

The numbers with at most 24 significant bits and an exponent that is not too small form a grid
(`OnGrid`). Rounding takes an exact magnitude to a nearest one on the grid
(`roundWithAccuracy_nearest`): the residual bits of a significand say enough about what has been
shifted out (`Approximates`). Being nearest (`Nearest`) is all that bounds on rounded results need:
rounding never passes a number on the grid (`Nearest.le`, `Nearest.ge`), leaves those on it as they
are (`Nearest.eq`), what is added to a power of two is lost if it is small enough
(`Nearest.le_two_zpow`), and a number that is not too small changes by a small part of itself at
most (`Nearest.abs_sub_le`).
-/

namespace ImageLabeling.Number

open Float.Model Float.Model.UnpackedFloat

/-! ## The grid -/

/-- A number of at most 24 significant bits whose exponent is not too small. It may be too large to
be stored. -/
def OnGrid (v : ℚ) : Prop :=
  ∃ k e : Int, |k| < 2 ^ 24 ∧ -149 ≤ e ∧ v = k * 2 ^ e

variable {v r g : ℚ}

theorem OnGrid.neg (h : OnGrid v) : OnGrid (-v) := by
  obtain ⟨k, e, hk, he, rfl⟩ := h
  exact ⟨-k, e, by rwa [abs_neg], he, by push_cast; ring⟩

theorem OnGrid.signed (h : OnGrid v) (s : Sign) : OnGrid (signed s v) := by
  cases s with
  | negative => exact h.neg
  | positive => exact h

theorem onGrid_two_zpow {e : Int} (he : -149 ≤ e) : OnGrid (2 ^ e) :=
  ⟨1, e, by norm_num, he, by simp⟩

/-- Significands of up to `2 ^ 24` are on the grid. -/
theorem onGrid_natCast_mul {n : Nat} {t : Int} (hn : n ≤ 2 ^ 24) (ht : -149 ≤ t) :
    OnGrid (n * 2 ^ t) := by
  rcases hn.lt_or_eq with hlt | rfl
  · refine ⟨n, t, ?_, ht, by simp⟩
    rw [Nat.abs_cast]
    exact_mod_cast hlt
  · refine ⟨1, t + 24, by norm_num, by omega, ?_⟩
    rw [zpow_add₀ (by norm_num)]
    push_cast
    ring

theorem onGrid_natCast {n : Nat} (h : n ≤ 2 ^ 24) : OnGrid n := by
  simpa using onGrid_natCast_mul (t := 0) h (by norm_num)

theorem onGrid_largest : OnGrid largest :=
  ⟨2 ^ 24 - 1, 104, by norm_num, by norm_num, by norm_num [largest]⟩

theorem onGrid_valueOf {u : UnpackedFloat} (h : Canonical u) : OnGrid (valueOf u) := by
  obtain ⟨s, rfl⟩ | ⟨s, m, e, hm, rfl, hcanonical⟩ := h.zero_or_finite
  · exact onGrid_natCast (n := 0) (by norm_num)
  · refine OnGrid.signed ⟨m, e, ?_, hcanonical.least, by simp⟩ s
    rw [Nat.abs_cast]
    exact_mod_cast hcanonical.upper

/-! ## Nearest numbers -/

/-- `r` is one of the numbers nearest to `v`. -/
structure Nearest (v r : ℚ) : Prop where
  onGrid : OnGrid r
  closest : ∀ g, OnGrid g → |r - v| ≤ |g - v|

theorem OnGrid.nearest (h : OnGrid v) : Nearest v v :=
  ⟨h, fun g _ => by rw [sub_self, abs_zero]; exact abs_nonneg _⟩

theorem Nearest.neg (h : Nearest v r) : Nearest (-v) (-r) := by
  refine ⟨h.onGrid.neg, fun g hg => ?_⟩
  have hclosest := h.closest (-g) hg.neg
  rwa [neg_sub_neg, abs_sub_comm, ← abs_neg (g - -v), neg_sub', neg_neg]

theorem Nearest.signed (h : Nearest v r) (s : Sign) : Nearest (signed s v) (signed s r) := by
  cases s with
  | negative => exact h.neg
  | positive => exact h

/-- Rounding never passes a number on the grid. -/
theorem Nearest.le (h : Nearest v r) (hg : OnGrid g) (hv : v ≤ g) : r ≤ g := by
  by_contra hlt
  have hclosest := h.closest g hg
  rw [abs_of_pos (by linarith), abs_of_nonneg (by linarith)] at hclosest
  linarith

theorem Nearest.ge (h : Nearest v r) (hg : OnGrid g) (hv : g ≤ v) : g ≤ r := by
  have := h.neg.le hg.neg (neg_le_neg hv)
  linarith

/-- Numbers on the grid are exact. -/
theorem Nearest.eq (h : Nearest v r) (hv : OnGrid v) : r = v :=
  le_antisymm (h.le hv le_rfl) (h.ge hv le_rfl)

theorem Nearest.magnitude_le (h : Nearest v r) (hg : OnGrid g) (hv : |v| ≤ g) : |r| ≤ g := by
  obtain ⟨hlower, hupper⟩ := abs_le.1 hv
  exact abs_le.2 ⟨h.ge hg.neg hlower, h.le hg hupper⟩

/-- Multiples of a power of two are multiples of the smaller ones. -/
theorem exists_multiple (k : Int) {e t : Int} (h : t ≤ e) :
    ∃ j : Int, (k : ℚ) * 2 ^ e = j * 2 ^ t := by
  refine ⟨k * 2 ^ (e - t).toNat, ?_⟩
  push_cast
  rw [mul_assoc, ← zpow_natCast, ← zpow_add₀ (by norm_num)]
  congr 2
  omega

/-- Less than half a step above a power of two is rounded back to it. -/
theorem Nearest.le_two_zpow {k : Int} (h : Nearest v r) (hk : -149 ≤ k)
    (hv : v < 2 ^ (k + 24) + 2 ^ k) : r ≤ 2 ^ (k + 24) := by
  by_contra hlt
  rw [not_le] at hlt
  have hpower : (2 : ℚ) ^ (k + 24) = 2 ^ 23 * 2 ^ (k + 1) := by
    rw [← zpow_natCast, ← zpow_add₀ (by norm_num)]
    congr 1
    omega
  have hclosest := h.closest _ (onGrid_two_zpow (show -149 ≤ k + 24 by omega))
  obtain ⟨j, e, hj, -, rfl⟩ := h.onGrid
  have hj' : (j : ℚ) < 2 ^ 24 := by exact_mod_cast (le_abs_self j).trans_lt hj
  -- the exponent is larger, so that the next number is a whole step away
  have he : k < e := by
    have hlt' : (2 : ℚ) ^ (k + 24) < 2 ^ (e + 24) := by
      calc (2 : ℚ) ^ (k + 24) < j * 2 ^ e := hlt
        _ < 2 ^ 24 * 2 ^ e := mul_lt_mul_of_pos_right hj' (two_zpow_pos e)
        _ = 2 ^ (e + 24) := by rw [zpow_add₀ (by norm_num), mul_comm]; norm_num
    have := (zpow_lt_zpow_iff_right₀ (by norm_num : (1 : ℚ) < 2)).1 hlt'
    omega
  obtain ⟨i, hi⟩ := exists_multiple j (show k + 1 ≤ e by omega)
  have hstep : 2 ^ 23 * 2 ^ (k + 1) + 2 ^ (k + 1) ≤ (j : ℚ) * 2 ^ e := by
    rw [hi, hpower] at hlt
    have hlt' : 2 ^ 23 < i := by exact_mod_cast lt_of_mul_lt_mul_right hlt (two_zpow_pos _).le
    have hle : (2 ^ 23 + 1 : ℚ) ≤ i := by exact_mod_cast hlt'
    rw [hi, ← add_one_mul]
    exact mul_le_mul_of_nonneg_right hle (two_zpow_pos _).le
  have hdouble : (2 : ℚ) ^ (k + 1) = 2 * 2 ^ k := by rw [zpow_add_one₀ (by norm_num), mul_comm]
  have hpos := two_zpow_pos k
  rw [abs_of_nonneg (by linarith)] at hclosest
  rcases abs_cases ((2 : ℚ) ^ (k + 24) - v) with ⟨habs, -⟩ | ⟨habs, -⟩
  · linarith
  · linarith

/-- An integer within a half is the nearest one. -/
theorem abs_sub_le_of_abs_sub_le_half {y : ℚ} {n : Int} (hn : |n - y| ≤ 1 / 2) (j : Int) :
    |n - y| ≤ |j - y| := by
  rcases eq_or_ne j n with rfl | hne
  · exact le_rfl
  · have hapart : (1 : ℚ) ≤ |(j : ℚ) - n| := by
      exact_mod_cast Int.one_le_abs (sub_ne_zero.2 hne)
    have htriangle := abs_sub_le (j : ℚ) y n
    rw [abs_sub_comm y] at htriangle
    linarith

/-- A multiple of a power of two within a half of it, if its significand has full length or its
exponent is the least. -/
theorem nearest_of_scaled {y : ℚ} {n : Nat} {t : Int} (hn : |n - y| ≤ 1 / 2)
    (hlow : t = -149 ∨ 2 ^ 23 ≤ y) (hgrid : OnGrid (n * 2 ^ t)) :
    Nearest (y * 2 ^ t) (n * 2 ^ t) := by
  have hpos := two_zpow_pos t
  have hinteger : ∀ j : Int, |(n : ℚ) * 2 ^ t - y * 2 ^ t| ≤ |j * 2 ^ t - y * 2 ^ t| := by
    intro j
    rw [← sub_mul, ← sub_mul, abs_mul, abs_mul]
    exact mul_le_mul_of_nonneg_right (abs_sub_le_of_abs_sub_le_half (n := n) hn j) (abs_nonneg _)
  refine ⟨hgrid, ?_⟩
  rintro g ⟨k, e, hk, he, rfl⟩
  rcases le_or_gt t e with hle | hlt
  · obtain ⟨j, hj⟩ := exists_multiple k hle
    rw [hj]
    exact hinteger j
  · -- a number below all those of full length
    have hy : 2 ^ 23 ≤ y := hlow.resolve_left (by omega)
    have hfull : (k : ℚ) * 2 ^ e ≤ 2 ^ 23 * 2 ^ t := by
      have hk' : (k : ℚ) ≤ 2 ^ 24 := by exact_mod_cast ((le_abs_self k).trans hk.le)
      calc (k : ℚ) * 2 ^ e ≤ 2 ^ 24 * 2 ^ e := mul_le_mul_of_nonneg_right hk' (two_zpow_pos e).le
        _ = 2 ^ 23 * 2 ^ (e + 1) := by rw [zpow_add_one₀ (by norm_num)]; ring
        _ ≤ 2 ^ 23 * 2 ^ t :=
            mul_le_mul_of_nonneg_left (zpow_le_zpow_right₀ (by norm_num) hlt) (by norm_num)
    have hbelow : 2 ^ 23 * 2 ^ t ≤ y * 2 ^ t := mul_le_mul_of_nonneg_right hy hpos.le
    have hfirst := hinteger (2 ^ 23)
    rw [show ((2 ^ 23 : Int) : ℚ) = 2 ^ 23 by norm_num] at hfirst
    calc |(n : ℚ) * 2 ^ t - y * 2 ^ t| ≤ |2 ^ 23 * 2 ^ t - y * 2 ^ t| := hfirst
      _ = y * 2 ^ t - 2 ^ 23 * 2 ^ t := by rw [abs_of_nonpos (by linarith), neg_sub]
      _ ≤ y * 2 ^ t - k * 2 ^ e := by linarith
      _ = |k * 2 ^ e - y * 2 ^ t| := by rw [abs_of_nonpos (by linarith), neg_sub]

/-- **Rounding changes a number by at most its `2 ^ 24`th part**, unless the number is too small. -/
theorem Nearest.abs_sub_le (h : Nearest v r) (hv : 2 ^ (-126 : Int) ≤ v) :
    |r - v| ≤ v / 2 ^ 24 := by
  obtain ⟨e, hlower, hupper⟩ := exists_mem_Ico_zpow ((two_zpow_pos _).trans_le hv) one_lt_two
  have he : -126 ≤ e := by
    have := (zpow_lt_zpow_iff_right₀ (one_lt_two (α := ℚ))).1 (hv.trans_lt hupper)
    omega
  obtain ⟨t, rfl⟩ : ∃ t, e = t + 23 := ⟨e - 23, by omega⟩
  have hpos := two_zpow_pos t
  obtain ⟨y, rfl⟩ : ∃ y, v = y * 2 ^ t := ⟨v / 2 ^ t, by field_simp⟩
  have hy : 2 ^ 23 ≤ y := by
    rw [zpow_add₀ two_ne_zero, mul_comm] at hlower
    exact_mod_cast le_of_mul_le_mul_right hlower hpos
  have hy' : y < 2 ^ 24 := by
    rw [add_assoc, zpow_add₀ two_ne_zero, mul_comm (2 ^ t)] at hupper
    exact_mod_cast lt_of_mul_lt_mul_right hupper hpos.le
  -- a multiple of `2 ^ t` is at most half a step away, and `v` has at least `2 ^ 23` steps
  obtain ⟨n, hn⟩ : ∃ n : Nat, |(n : ℚ) - y| ≤ 1 / 2 := by
    have hfloor := Nat.floor_le (show 0 ≤ y + 1 / 2 by linarith)
    have hfloor' := Nat.lt_floor_add_one (y + 1 / 2)
    exact ⟨⌊y + 1 / 2⌋₊, abs_le.2 ⟨by linarith, by linarith⟩⟩
  have hn' : n ≤ 2 ^ 24 := by
    have : (n : ℚ) < 2 ^ 24 + 1 := by linarith [(abs_le.1 hn).2]
    exact Nat.le_of_lt_succ (by exact_mod_cast this)
  calc |r - y * 2 ^ t| ≤ |n * 2 ^ t - y * 2 ^ t| := h.closest _ (onGrid_natCast_mul hn' (by omega))
    _ = |n - y| * 2 ^ t := by rw [← sub_mul, abs_mul, abs_of_pos hpos]
    _ ≤ 1 / 2 * 2 ^ t := mul_le_mul_of_nonneg_right hn hpos.le
    _ ≤ y * 2 ^ t / 2 ^ 24 := by linarith [mul_le_mul_of_nonneg_right hy hpos.le]

/-! ## Residual bits -/

/-- What a significand says together with its two residual bits about a magnitude: the round bit is
worth a half, and the sticky bit tells whether anything is left. -/
def Approximates (em : ExtendedMantissa) (x : ℚ) : Prop :=
  ∃ rest : ℚ, 0 ≤ rest ∧ rest < 1 / 2 ∧ (em.stickyBit = true ↔ 0 < rest) ∧
    x = em.mantissa + (if em.roundBit then 1 / 2 else 0) + rest

variable {em : ExtendedMantissa} {x : ℚ}

theorem approximates_exact (m : Nat) :
    Approximates (.ofMantissaAndAccuracy m .exact) m :=
  ⟨0, le_rfl, by norm_num, by simp [ExtendedMantissa.ofMantissaAndAccuracy],
    by simp [ExtendedMantissa.ofMantissaAndAccuracy]⟩

theorem Approximates.bounds (h : Approximates em x) : em.mantissa ≤ x ∧ x < em.mantissa + 1 := by
  obtain ⟨rest, hnonneg, hhalf, -, rfl⟩ := h
  split_ifs <;> constructor <;> linarith

theorem Approximates.shiftRightOne (h : Approximates em x) :
    Approximates em.shiftRightOne (x / 2) := by
  obtain ⟨m, roundBit, stickyBit⟩ := em
  obtain ⟨rest, hnonneg, hhalf, hsticky, rfl⟩ := h
  dsimp only at hsticky ⊢
  refine ⟨((if roundBit then 1 / 2 else 0) + rest) / 2, ?_, ?_, ?_, ?_⟩
  · split_ifs <;> linarith
  · split_ifs <;> linarith
  · cases roundBit with
    | false => simp [ExtendedMantissa.shiftRightOne, hsticky]
    | true => simp [ExtendedMantissa.shiftRightOne]; linarith
  · have hsplit : (m : ℚ) = 2 * (m / 2 : Nat) + (m % 2 : Nat) := by
      exact_mod_cast (Nat.div_add_mod m 2).symm
    have hbit : (if (m % 2 != 0) = true then 1 / 2 else 0 : ℚ) = (m % 2 : Nat) / 2 := by
      rcases Nat.mod_two_eq_zero_or_one m with h | h <;> simp [h]
    simp only [ExtendedMantissa.shiftRightOne]
    linarith

/-- Shifting out bits divides by a power of two. -/
theorem Approximates.shiftRight (h : Approximates em x) (k : Nat) :
    Approximates (em >>> k) (x / 2 ^ k) := by
  show Approximates (k.repeat ExtendedMantissa.shiftRightOne em) _
  induction k with
  | zero => simpa [Nat.repeat] using h
  | succ k ih =>
    rw [pow_succ, ← div_div]
    exact ih.shiftRightOne

/-- The significand is rounded to a nearest integer. -/
theorem Approximates.roundedMantissa (h : Approximates em x) :
    |(em.roundedMantissa : ℚ) - x| ≤ 1 / 2 := by
  obtain ⟨m, roundBit, stickyBit⟩ := em
  obtain ⟨rest, hnonneg, hhalf, hsticky, rfl⟩ := h
  rw [abs_le]
  cases roundBit with
  | false =>
    have hrounded : ExtendedMantissa.roundedMantissa ⟨m, false, stickyBit⟩ = m := by
      cases stickyBit <;> rfl
    rw [hrounded, if_neg Bool.false_ne_true]
    constructor <;> linarith
  | true =>
    rw [if_pos rfl]
    cases stickyBit with
    | false =>
      have hrest : rest = 0 := by
        by_contra hne
        exact absurd (hsticky.2 (hnonneg.lt_of_ne' hne)) Bool.false_ne_true
      have hrounded : ExtendedMantissa.roundedMantissa ⟨m, true, false⟩ = m + m % 2 := rfl
      have hbit : ((m % 2 : Nat) : ℚ) ≤ 1 := by
        exact_mod_cast Nat.le_of_lt_succ (Nat.mod_lt m two_pos)
      rw [hrounded, hrest, Nat.cast_add]
      have := Nat.cast_nonneg (α := ℚ) (m % 2)
      constructor <;> linarith
    | true =>
      have hrounded : ExtendedMantissa.roundedMantissa ⟨m, true, true⟩ = m + 1 := rfl
      rw [hrounded, Nat.cast_add, Nat.cast_one]
      constructor <;> linarith

/-! ## Rounding -/

theorem targetExponent_eq (m : Nat) (e : Int) :
    Format.binary32.targetExponent (totalExponent m e) = max (m.log2 + e - 23) (-149) := by
  simp only [Format.targetExponent, totalExponent, Format.mantissaBits, Format.minExponent]
  omega

/-- A rounded significand is shifted once more if it has overflowed. -/
theorem shift_rounded {n : Nat} {t : Int} (hn : n ≤ 2 ^ 24) (ht : -149 ≤ t)
    (hfull : 2 ^ 23 ≤ n ∨ t = -149) :
    ∃ m e, shiftToTargetExponent .binary32 n t .exact = (.ofMantissaAndAccuracy m .exact, e) ∧
      IsCanonical m e ∧ (m : ℚ) * 2 ^ e = n * 2 ^ t := by
  rcases hn.lt_or_eq with hlt | rfl
  · have hlog : n.log2 < 24 := by
      rcases n.eq_zero_or_pos with rfl | hpos
      · decide
      · exact (Nat.log2_lt hpos.ne').2 hlt
    have hshift : (max ((n.log2 : Int) + t - 23) (-149) - t).toNat = 0 := by omega
    refine ⟨n, t, ?_, ⟨hlt, ht, hfull⟩, rfl⟩
    simp only [shiftToTargetExponent, shiftToExponent, targetExponent_eq, hshift]
    rw [Int.natCast_zero, Int.add_zero]
    rfl
  · have hlog : (2 ^ 24).log2 = 24 := Nat.log2_two_pow
    have hshift : (max (((2 ^ 24).log2 : Int) + t - 23) (-149) - t).toNat = 1 := by
      rw [hlog]
      omega
    refine ⟨2 ^ 23, t + 1, ?_, ⟨by decide, by omega, .inl le_rfl⟩, ?_⟩
    · simp only [shiftToTargetExponent, shiftToExponent, targetExponent_eq, hshift]
      rfl
    · rw [zpow_add_one₀ (by norm_num)]
      push_cast
      ring

/-- The result of rounding a significand and an exponent. -/
def rounded (s : Sign) (m : Nat) (e : Int) : UnpackedFloat :=
  if h : m = 0 then .zero s else .finite s m e (Nat.pos_of_ne_zero h)

theorem canonical_rounded {m : Nat} {e : Int} (h : IsCanonical m e) (s : Sign) :
    Canonical (rounded s m e) := by
  unfold rounded
  split
  · trivial
  · exact h

theorem valueOf_rounded (s : Sign) (m : Nat) (e : Int) :
    valueOf (rounded s m e) = signed s (m * 2 ^ e) := by
  unfold rounded
  split
  case isTrue h => rw [h, Nat.cast_zero, zero_mul, signed_zero]; rfl
  case isFalse => rfl

/-- Few enough significant bits are left when the others are shifted out. -/
theorem div_two_pow_lt {m k : Nat} (hx : x < m + 1) (hk : m.log2 ≤ 23 + k) :
    x / 2 ^ k < 2 ^ 24 := by
  have hbits : m + 1 ≤ 2 ^ (24 + k) :=
    Nat.lt_log2_self.trans_le (Nat.pow_le_pow_right two_pos (by omega))
  have hbits' : (m : ℚ) + 1 ≤ 2 ^ 24 * 2 ^ k := by
    rw [← pow_add]
    exact_mod_cast hbits
  rw [div_lt_iff₀ (by positivity)]
  linarith

theorem le_div_two_pow {m k : Nat} (hx : m ≤ x) (hk : m.log2 = 23 + k) : 2 ^ 23 ≤ x / 2 ^ k := by
  have hm : m ≠ 0 := by
    rintro rfl
    have : Nat.log2 0 = 0 := rfl
    omega
  have hbits : 2 ^ (23 + k) ≤ m := hk ▸ Nat.log2_self_le hm
  have hbits' : (2 ^ 23 * 2 ^ k : ℚ) ≤ m := by
    rw [← pow_add]
    exact_mod_cast hbits
  rw [le_div_iff₀ (by positivity)]
  linarith

/-- **Rounding is correct**: significands of full length, or with small enough exponents, are
rounded to a nearest number. -/
theorem roundWithAccuracy_nearest {m : Nat} {e : Int} {accuracy : Accuracy}
    (hfine : 2 ^ 23 ≤ m ∨ e ≤ -149) (h : Approximates (.ofMantissaAndAccuracy m accuracy) x)
    (s : Sign) :
    Canonical (roundWithAccuracy .binary32 s m e accuracy) ∧
      Nearest (signed s (x * 2 ^ e)) (valueOf (roundWithAccuracy .binary32 s m e accuracy)) := by
  have hlog : 2 ^ 23 ≤ m → 23 ≤ m.log2 := fun hfull =>
    (Nat.le_log2 (by omega)).2 hfull
  obtain ⟨t, ht⟩ : ∃ t, max (m.log2 + e - 23) (-149) = t := ⟨_, rfl⟩
  obtain ⟨k, hk⟩ : ∃ k : Nat, t = e + k := ⟨(t - e).toNat, by omega⟩
  have hmantissa : (ExtendedMantissa.ofMantissaAndAccuracy m accuracy).mantissa = m := by
    rcases accuracy with _ | _ | _ | _ <;> rfl
  have hfirst : shiftToTargetExponent .binary32 m e accuracy =
      (ExtendedMantissa.ofMantissaAndAccuracy m accuracy >>> k, t) := by
    simp only [shiftToTargetExponent, shiftToExponent, targetExponent_eq, ht]
    rw [show (t - e).toNat = k by omega, hk]
  -- the exact significand at the exponent of the result
  obtain ⟨y, hy⟩ : ∃ y : ℚ, x / 2 ^ k = y := ⟨_, rfl⟩
  have hvalue : y * 2 ^ t = x * 2 ^ e := by
    rw [← hy, hk, zpow_add₀ (by norm_num), zpow_natCast]
    field_simp
  have hround := (h.shiftRight k).roundedMantissa
  rw [hy] at hround
  obtain ⟨n, hn⟩ : ∃ n, (ExtendedMantissa.ofMantissaAndAccuracy m accuracy >>> k).roundedMantissa =
    n := ⟨_, rfl⟩
  rw [hn] at hround
  obtain ⟨hlower, hupper⟩ := h.bounds
  rw [hmantissa] at hlower hupper
  have hsmall : y < 2 ^ 24 := hy ▸ div_two_pow_lt hupper (by omega)
  have hlarge : t = -149 ∨ 2 ^ 23 ≤ y :=
    or_iff_not_imp_left.2 fun hleast => hy ▸ le_div_two_pow hlower (by omega)
  obtain ⟨hbelow, habove⟩ := abs_le.1 hround
  have hn_le : n ≤ 2 ^ 24 := by
    have : (n : ℚ) < 2 ^ 24 + 1 := by linarith
    exact Nat.le_of_lt_succ (by exact_mod_cast this)
  have hn_ge : 2 ^ 23 ≤ n ∨ t = -149 := by
    refine hlarge.symm.imp_left fun hy => ?_
    have : (2 ^ 23 : ℚ) < n + 1 := by linarith
    exact Nat.le_of_lt_succ (by exact_mod_cast this)
  obtain ⟨m', e', hsecond, hcanonical, hm'⟩ := shift_rounded hn_le (by omega) hn_ge
  have hresult : roundWithAccuracy .binary32 s m e accuracy = rounded s m' e' := by
    unfold roundWithAccuracy
    rw [hfirst]
    dsimp only
    rw [hn, hsecond]
    rfl
  rw [hresult]
  refine ⟨canonical_rounded hcanonical s, ?_⟩
  rw [valueOf_rounded, hm', ← hvalue]
  refine (nearest_of_scaled hround hlarge ?_).signed s
  rw [← hm']
  have := onGrid_valueOf (canonical_rounded hcanonical .positive)
  rwa [valueOf_rounded] at this

theorem round_nearest {m : Nat} (hm : 0 < m) (e : Int) (s : Sign) :
    Canonical (UnpackedFloat.round .binary32 s m e) ∧
      Nearest (signed s (m * 2 ^ e)) (valueOf (UnpackedFloat.round .binary32 s m e)) := by
  obtain ⟨t, ht⟩ : ∃ t, max (m.log2 + e - 23) (-149) = t := ⟨_, rfl⟩
  obtain ⟨k, hk⟩ : ∃ k, (e - t).toNat = k := ⟨_, rfl⟩
  have hround : UnpackedFloat.round .binary32 s m e =
      roundWithAccuracy .binary32 s (m * 2 ^ k) (e - k) .exact := by
    simp only [UnpackedFloat.round, decreaseExponent, targetExponent_eq, ht, hk, Nat.shiftLeft_eq]
  have hfine : 2 ^ 23 ≤ m * 2 ^ k ∨ e - k ≤ -149 := by
    refine or_iff_not_imp_right.2 fun hleast => ?_
    calc 2 ^ 23 ≤ 2 ^ (m.log2 + k) := Nat.pow_le_pow_right two_pos (by omega)
      _ = 2 ^ m.log2 * 2 ^ k := Nat.pow_add ..
      _ ≤ m * 2 ^ k := Nat.mul_le_mul_right _ (Nat.log2_self_le hm.ne')
  have hvalue : ((m * 2 ^ k : Nat) : ℚ) * 2 ^ (e - k) = m * 2 ^ e := by
    rw [zpow_sub₀ (by norm_num), zpow_natCast]
    push_cast
    field_simp
  rw [hround, ← hvalue]
  exact roundWithAccuracy_nearest hfine (approximates_exact _) s

theorem normalize_nearest (n e : Int) (s : Sign) :
    Canonical (UnpackedFloat.normalize .binary32 n e s) ∧
      Nearest (n * 2 ^ e) (valueOf (UnpackedFloat.normalize .binary32 n e s)) := by
  unfold UnpackedFloat.normalize
  rcases lt_trichotomy n 0 with hneg | rfl | hpos
  · have hround := round_nearest (m := (-n).toNat) (by omega) e .negative
    have hmagnitude : (((-n).toNat : Nat) : ℚ) = -n := by
      exact_mod_cast Int.toNat_of_nonneg (by omega)
    rw [Int.compare_eq_lt.2 hneg]
    rwa [hmagnitude, signed, neg_mul, neg_neg] at hround
  · refine ⟨trivial, ?_⟩
    have hzero := (onGrid_natCast (n := 0) (by norm_num)).nearest
    simpa [valueOf] using hzero
  · have hround := round_nearest (m := n.toNat) (by omega) e .positive
    have hmagnitude : ((n.toNat : Nat) : ℚ) = n := by exact_mod_cast Int.toNat_of_nonneg hpos.le
    rw [Int.compare_eq_gt.2 hpos]
    rwa [hmagnitude] at hround

end ImageLabeling.Number
