import ImageLabeling.Proofs.Number.Nearest

/-!
# Single-precision arithmetic is correctly rounded

The four operations and the conversion of sizes round the exact result to a nearest number, as long
as it does not exceed the largest one (`rounds_add`, `rounds_sub`, `rounds_mul`, `rounds_div`,
`rounds_single`), and the conversion to a word cuts the fraction off (`toInt_eq_floor`). So results
stay between bounds that can be stored (`Within`, `within_of_rounds`), and sizes survive what is
exact (`toNat_single_mul_one`).
-/

namespace ImageLabeling.Number

open Float.Model Float.Model.UnpackedFloat

variable {v : ℚ}

/-! ## Operations -/

/-- The exact result `v` is rounded to the finite number `x`. -/
structure Rounds (v : ℚ) (x : Float32) : Prop where
  isFinite : x.isFinite = true
  nearest : Nearest v (value x)

theorem rounds_pack {u : UnpackedFloat} (h : Canonical u ∧ Nearest v (valueOf u))
    (hv : |v| ≤ largest) : Rounds v (.ofModel (.pack u)) := by
  have hle := h.2.magnitude_le onGrid_largest hv
  exact ⟨isFinite_pack h.1 hle, (value_pack h.1 hle).symm ▸ h.2⟩

theorem cast_apply (s : Sign) (n : Int) : ((s.apply n : Int) : ℚ) = signed s n := by
  cases s <;> simp [Sign.apply, signed]

theorem signed_mul_right (s : Sign) (v w : ℚ) : signed s (v * w) = signed s v * w := by
  cases s <;> simp [signed]

/-- A significand at a smaller exponent. -/
theorem shiftLeft_value (m : Nat) {e t : Int} (h : t ≤ e) :
    ((m <<< (e - t).toNat : Nat) : ℚ) * 2 ^ t = m * 2 ^ e := by
  obtain ⟨k, rfl⟩ : ∃ k : Nat, e = t + k := ⟨(e - t).toNat, by omega⟩
  rw [show (t + k - t).toNat = k by omega, Nat.shiftLeft_eq, zpow_add₀ (by norm_num), zpow_natCast]
  push_cast
  ring

section

variable {a b : UnpackedFloat}

theorem add_nearest (ha : Canonical a) (hb : Canonical b) :
    Canonical (UnpackedFloat.add .binary32 a b) ∧
      Nearest (valueOf a + valueOf b) (valueOf (UnpackedFloat.add .binary32 a b)) := by
  have hnearest := (onGrid_valueOf ha).nearest
  have hnearest' := (onGrid_valueOf hb).nearest
  obtain ⟨s, rfl⟩ | ⟨s, m, e, hm, rfl, -⟩ := ha.zero_or_finite
  · show _ ∧ Nearest (0 + _) _
    rw [zero_add]
    obtain ⟨s', rfl⟩ | ⟨s', m', e', hm', rfl, -⟩ := hb.zero_or_finite
    · cases s <;> cases s' <;> exact ⟨trivial, hnearest⟩
    · exact ⟨hb, hnearest'⟩
  · obtain ⟨s', rfl⟩ | ⟨s', m', e', hm', rfl, -⟩ := hb.zero_or_finite
    · show _ ∧ Nearest (_ + 0) _
      rw [add_zero]
      exact ⟨ha, hnearest⟩
    · have hvalue : signed s (m * 2 ^ e) + signed s' (m' * 2 ^ e') =
          ((s.apply (m <<< (e - min e e').toNat : Nat) +
            s'.apply (m' <<< (e' - min e e').toNat : Nat) : Int) : ℚ) * 2 ^ min e e' := by
        rw [Int.cast_add, cast_apply, cast_apply, add_mul, ← signed_mul_right, ← signed_mul_right,
          Int.cast_natCast, Int.cast_natCast, shiftLeft_value _ (min_le_left ..),
          shiftLeft_value _ (min_le_right ..)]
      show _ ∧ Nearest (signed s (m * 2 ^ e) + signed s' (m' * 2 ^ e')) _
      rw [hvalue]
      exact normalize_nearest _ _ _

theorem sub_eq_add_neg_unpacked (S : Format) (a b : UnpackedFloat) :
    UnpackedFloat.sub S a b = UnpackedFloat.add S a b.neg := by
  cases a with
  | notANumber => cases b <;> rfl
  | infinity s => cases b <;> rfl
  | zero s => cases b <;> rfl
  | finite s m e hm =>
    cases b with
    | finite s' m' e' hm' =>
      have happly : ∀ n : Int, (-s').apply n = -s'.apply n := by
        intro n
        cases s'
        · exact (neg_neg n).symm
        · rfl
      simp only [UnpackedFloat.sub, UnpackedFloat.neg, UnpackedFloat.add, happly,
        Int.sub_eq_add_neg]
    | _ => rfl

theorem canonical_neg (hb : Canonical b) : Canonical b.neg := by
  obtain ⟨s, rfl⟩ | ⟨s, m, e, hm, rfl, -⟩ := hb.zero_or_finite
  · trivial
  · exact hb

theorem valueOf_neg (b : UnpackedFloat) : valueOf b.neg = -valueOf b := by
  cases b with
  | finite s m e hm =>
    cases s with
    | negative => exact (neg_neg _).symm
    | positive => rfl
  | _ => exact neg_zero.symm

theorem sub_nearest (ha : Canonical a) (hb : Canonical b) :
    Canonical (UnpackedFloat.sub .binary32 a b) ∧
      Nearest (valueOf a - valueOf b) (valueOf (UnpackedFloat.sub .binary32 a b)) := by
  rw [sub_eq_add_neg_unpacked, sub_eq_add_neg, ← valueOf_neg]
  exact add_nearest ha (canonical_neg hb)

theorem mul_nearest (ha : Canonical a) (hb : Canonical b) :
    Canonical (UnpackedFloat.mul .binary32 a b) ∧
      Nearest (valueOf a * valueOf b) (valueOf (UnpackedFloat.mul .binary32 a b)) := by
  have hzero := (onGrid_natCast (n := 0) (by norm_num)).nearest
  obtain ⟨s, rfl⟩ | ⟨s, m, e, hm, rfl, ha⟩ := ha.zero_or_finite
  · show _ ∧ Nearest (0 * _) _
    rw [zero_mul]
    obtain ⟨s', rfl⟩ | ⟨s', m', e', hm', rfl, -⟩ := hb.zero_or_finite
    · exact ⟨trivial, hzero⟩
    · exact ⟨trivial, hzero⟩
  · obtain ⟨s', rfl⟩ | ⟨s', m', e', hm', rfl, hb⟩ := hb.zero_or_finite
    · show _ ∧ Nearest (_ * 0) _
      rw [mul_zero]
      exact ⟨trivial, hzero⟩
    · have hfine : 2 ^ 23 ≤ m * m' ∨ e + e' ≤ -149 := by
        rcases ha.full with hfull | rfl
        · exact .inl (hfull.trans (Nat.le_mul_of_pos_right m hm'))
        · rcases hb.full with hfull | rfl
          · exact .inl (hfull.trans (Nat.le_mul_of_pos_left m' hm))
          · exact .inr (by omega)
      have hvalue : signed s (m * 2 ^ e) * signed s' (m' * 2 ^ e') =
          signed (s * s') ((m * m' : Nat) * 2 ^ (e + e')) := by
        rw [← signed_mul, zpow_add₀ (by norm_num), Nat.cast_mul, mul_mul_mul_comm]
      show _ ∧ Nearest (signed s (m * 2 ^ e) * signed s' (m' * 2 ^ e')) _
      rw [hvalue]
      exact roundWithAccuracy_nearest hfine (approximates_exact _) _

/-- The quotient and the remainder of a division give its significand and residual bits. -/
theorem approximates_quotient (m : Nat) {d : Nat} (hd : 0 < d) :
    Approximates (.ofMantissaAndAccuracy (m / d) (accuracyOfFraction (m % d) d)) (m / d) := by
  have hd' : (0 : ℚ) < d := by exact_mod_cast hd
  have hlt : m % d < d := Nat.mod_lt m hd
  have hsplit : (m : ℚ) / d = (m / d : Nat) + (m % d : Nat) / d := by
    rw [eq_comm, ← mul_left_inj' hd'.ne']
    field_simp
    exact_mod_cast Nat.div_add_mod' m d
  unfold accuracyOfFraction
  split
  case isTrue h0 =>
    rw [hsplit, h0, Nat.cast_zero, zero_div, add_zero]
    exact approximates_exact _
  case isFalse h0 =>
    have hpos : (0 : ℚ) < (m % d : Nat) / d :=
      div_pos (by exact_mod_cast Nat.pos_of_ne_zero h0) hd'
    rw [hsplit]
    rcases lt_trichotomy (2 * (m % d)) d with h | h | h
    · rw [compare_lt_iff_lt.2 h]
      have hhalf : ((m % d : Nat) : ℚ) / d < 1 / 2 := by
        rw [div_lt_div_iff₀ hd' two_pos]
        exact_mod_cast (by omega : m % d * 2 < 1 * d)
      exact ⟨_, hpos.le, hhalf, by simpa [ExtendedMantissa.ofMantissaAndAccuracy] using hpos,
        by simp [ExtendedMantissa.ofMantissaAndAccuracy]⟩
    · rw [compare_eq_iff_eq.2 h]
      have hhalf : ((m % d : Nat) : ℚ) / d = 1 / 2 := by
        rw [div_eq_div_iff hd'.ne' two_ne_zero]
        exact_mod_cast (by omega : m % d * 2 = 1 * d)
      exact ⟨0, le_rfl, by norm_num, by simp [ExtendedMantissa.ofMantissaAndAccuracy],
        by simp [ExtendedMantissa.ofMantissaAndAccuracy, hhalf]⟩
    · rw [compare_gt_iff_gt.2 h]
      have hhalf : (1 / 2 : ℚ) < (m % d : Nat) / d := by
        rw [div_lt_div_iff₀ two_pos hd']
        exact_mod_cast (by omega : 1 * d < m % d * 2)
      have hone : ((m % d : Nat) : ℚ) / d < 1 := by
        rw [div_lt_one hd']
        exact_mod_cast hlt
      exact ⟨(m % d : Nat) / d - 1 / 2, by linarith, by linarith,
        by simp [ExtendedMantissa.ofMantissaAndAccuracy]; linarith,
        by simp [ExtendedMantissa.ofMantissaAndAccuracy]⟩

/-- Significands are divided after a shift, which lowers the exponent of the quotient. -/
theorem divCore_eq (S : Format) (m m' : Nat) (e e' : Int) :
    ∃ (k : Nat) (t : Int), divCore S m e m' e' =
        (m * 2 ^ k / m', t, accuracyOfFraction (m * 2 ^ k % m') m') ∧ t + k = e - e' ∧
      min (e - e') (S.targetExponent (totalExponent m e - totalExponent m' e')) = t := by
  obtain ⟨t, ht⟩ : ∃ t, min (e - e')
    (S.targetExponent (totalExponent m e - totalExponent m' e')) = t := ⟨_, rfl⟩
  obtain ⟨k, hk⟩ : ∃ k : Nat, e - e' = t + k := ⟨(e - e' - t).toNat, by omega⟩
  refine ⟨k, t, ?_, hk.symm, ht⟩
  simp only [divCore, ht, Nat.shiftLeft_eq]
  rw [show (e - e' - t).toNat = k by omega]

/-- A quotient has a significand of full length unless its exponent is small enough. -/
theorem full_of_divCore {m m' k : Nat} (hm : 0 < m) (hm' : 0 < m') {e e' t : Int}
    (hk : t + k = e - e')
    (ht : min (e - e') (Format.binary32.targetExponent
      (totalExponent m e - totalExponent m' e')) = t) :
    2 ^ 23 ≤ m * 2 ^ k / m' ∨ t ≤ -149 := by
  refine or_iff_not_imp_right.2 fun hleast => ?_
  simp only [Format.targetExponent, totalExponent, Format.mantissaBits, Format.minExponent] at ht
  rw [Nat.le_div_iff_mul_le hm']
  calc 2 ^ 23 * m' ≤ 2 ^ 23 * 2 ^ (m'.log2 + 1) :=
        Nat.mul_le_mul_left _ Nat.lt_log2_self.le
    _ = 2 ^ (23 + (m'.log2 + 1)) := (Nat.pow_add ..).symm
    _ ≤ 2 ^ (m.log2 + k) := Nat.pow_le_pow_right two_pos (by omega)
    _ = 2 ^ m.log2 * 2 ^ k := Nat.pow_add ..
    _ ≤ m * 2 ^ k := Nat.mul_le_mul_right _ (Nat.log2_self_le hm.ne')

/-- The exact quotient of two numbers in terms of the shifted significand. -/
theorem quotient_shifted {m m' k : Nat} (hm' : 0 < m') {e e' t : Int} (hk : t + k = e - e') :
    (m * 2 ^ e : ℚ) / (m' * 2 ^ e') = ((m * 2 ^ k : Nat) : ℚ) / m' * 2 ^ t := by
  have hpos : (0 : ℚ) < m' := by exact_mod_cast hm'
  have hpower : (2 : ℚ) ^ e = 2 ^ k * 2 ^ t * 2 ^ e' := by
    rw [← zpow_natCast, ← zpow_add₀ (by norm_num), ← zpow_add₀ (by norm_num)]
    congr 1
    omega
  rw [hpower]
  push_cast
  field_simp

theorem div_nearest (ha : Canonical a) (hb : Canonical b) (hne : valueOf b ≠ 0) :
    Canonical (UnpackedFloat.div .binary32 a b) ∧
      Nearest (valueOf a / valueOf b) (valueOf (UnpackedFloat.div .binary32 a b)) := by
  obtain ⟨s', rfl⟩ | ⟨s', m', e', hm', rfl, -⟩ := hb.zero_or_finite
  · exact absurd rfl hne
  · obtain ⟨s, rfl⟩ | ⟨s, m, e, hm, rfl, -⟩ := ha.zero_or_finite
    · show _ ∧ Nearest (0 / _) _
      rw [zero_div]
      exact ⟨trivial, (onGrid_natCast (n := 0) (by norm_num)).nearest⟩
    · obtain ⟨k, t, hcore, hk, ht⟩ := divCore_eq .binary32 m m' e e'
      have hdiv : UnpackedFloat.div .binary32 (.finite s m e hm) (.finite s' m' e' hm') =
          roundWithAccuracy .binary32 (s / s') (m * 2 ^ k / m') t
            (accuracyOfFraction (m * 2 ^ k % m') m') := by
        rw [UnpackedFloat.div, hcore]
      rw [hdiv]
      show _ ∧ Nearest (signed s (m * 2 ^ e) / signed s' (m' * 2 ^ e')) _
      rw [← signed_div, quotient_shifted hm' hk]
      exact roundWithAccuracy_nearest (full_of_divCore hm hm' hk ht) (approximates_quotient _ hm') _

end

/-! ## Single-precision arithmetic -/

section

variable {a b : Float32} (ha : a.isFinite = true) (hb : b.isFinite = true)
include ha hb

/-- **Sums are correctly rounded.** -/
theorem rounds_add (h : |value a + value b| ≤ largest) : Rounds (value a + value b) (a + b) :=
  rounds_pack (add_nearest (canonical_unpack ha) (canonical_unpack hb)) h

/-- **Differences are correctly rounded.** -/
theorem rounds_sub (h : |value a - value b| ≤ largest) : Rounds (value a - value b) (a - b) :=
  rounds_pack (sub_nearest (canonical_unpack ha) (canonical_unpack hb)) h

/-- **Products are correctly rounded.** -/
theorem rounds_mul (h : |value a * value b| ≤ largest) : Rounds (value a * value b) (a * b) :=
  rounds_pack (mul_nearest (canonical_unpack ha) (canonical_unpack hb)) h

/-- **Quotients are correctly rounded.** -/
theorem rounds_div (hne : value b ≠ 0) (h : |value a / value b| ≤ largest) :
    Rounds (value a / value b) (a / b) :=
  rounds_pack (div_nearest (canonical_unpack ha) (canonical_unpack hb) hne) h

end

/-- Whole numbers are correctly rounded. -/
theorem rounds_single {n : Nat} (h : n < 2 ^ 64) : Rounds n (single n) := by
  have hword : n.toUInt64.toNat = n := by
    simp
    omega
  have hnearest := normalize_nearest n 0 .positive
  have hsmall : |((n : Int) : ℚ) * 2 ^ (0 : Int)| ≤ largest := by
    have hn : (n : ℚ) < 2 ^ 64 := by exact_mod_cast h
    rw [zpow_zero, mul_one, Int.cast_natCast, Nat.abs_cast, largest]
    exact hn.le.trans (by norm_num)
  have hrounds := rounds_pack hnearest hsmall
  rw [Int.cast_natCast, zpow_zero, mul_one] at hrounds
  have hsingle : single n = .ofModel (.pack (UnpackedFloat.normalize .binary32 n 0 .positive)) := by
    show Float32.ofModel
      (.pack (UnpackedFloat.normalize _ (n.toUInt64.toNat : Int) 0 .positive)) = _
    rw [hword]
  rw [hsingle]
  exact hrounds

/-- Whole numbers up to `2 ^ 24` are exact. -/
theorem value_single {n : Nat} (h : n ≤ 2 ^ 24) : value (single n) = n :=
  (rounds_single (by omega)).nearest.eq (onGrid_natCast h)

theorem mantissa_shiftRight (a : ExtendedMantissa) (k : Nat) :
    (a >>> k).mantissa = a.mantissa / 2 ^ k := by
  show (k.repeat ExtendedMantissa.shiftRightOne a).mantissa = _
  induction k with
  | zero => simp [Nat.repeat]
  | succ k ih =>
    rw [Nat.repeat, ExtendedMantissa.shiftRightOne, ih, Nat.div_div_eq_div_mul, Nat.pow_succ]

/-- A significand and an exponent, cut off to a whole number. -/
theorem roundToInt_positive (m : Nat) (e : Int) :
    roundToInt .positive m e = (⌊(m : ℚ) * 2 ^ e⌋₊ : Int) := by
  have hshift : (0 - (e - (e.toNat : Int))).toNat = (-e).toNat := by omega
  have hword : roundToInt .positive m e = (m * 2 ^ e.toNat / 2 ^ (-e).toNat : Nat) := by
    simp only [roundToInt, decreaseExponent, shiftToExponent, Sign.apply, mantissa_shiftRight,
      ExtendedMantissa.ofMantissaAndAccuracy, Nat.shiftLeft_eq, Int.sub_zero, hshift]
  have hvalue : (m : ℚ) * 2 ^ e = (m * 2 ^ e.toNat : Nat) / (2 ^ (-e).toNat : Nat) := by
    have hpower : (2 : ℚ) ^ e.toNat = 2 ^ e * 2 ^ (-e).toNat := by
      rw [← zpow_natCast, ← zpow_natCast, ← zpow_add₀ (by norm_num)]
      congr 1
      omega
    push_cast
    rw [hpower]
    field_simp
  rw [hword, hvalue, Nat.floor_div_eq_div]

/-- Conversion to an integer cuts off the fraction. -/
theorem toInt_eq_floor {x : Float32} (h : x.isFinite = true) (h0 : 0 ≤ value x) (low high : Int) :
    x.toModel.unpack.toInt low high = ⌊value x⌋₊ := by
  have hcanonical := canonical_unpack h
  rw [value] at *
  generalize x.toModel.unpack = u at *
  obtain ⟨s, rfl⟩ | ⟨s, m, e, hm, rfl, -⟩ := hcanonical.zero_or_finite
  · exact congrArg Int.ofNat Nat.floor_zero.symm
  · cases s with
    | negative => exact absurd h0 (not_le.2 (signed_negative_neg hm))
    | positive => exact roundToInt_positive m e

theorem toNat_toUInt64 {x : Float32} (h : x.isFinite = true) (h0 : 0 ≤ value x)
    (h1 : value x < 2 ^ 64) : x.toUInt64.toNat = ⌊value x⌋₊ := by
  have hsize : ⌊value x⌋₊ < UInt64.size := by
    rw [Nat.floor_lt' (by decide)]
    exact_mod_cast h1
  show (UInt64.ofNatClamp (x.toModel.unpack.toInt 0 _).toNat).toNat = _
  rw [toInt_eq_floor h h0, Int.toNat_natCast, UInt64.ofNatClamp, dif_pos hsize,
    UInt64.toNat_ofNatLT]

theorem toNat_toUInt32 {x : Float32} (h : x.isFinite = true) (h0 : 0 ≤ value x)
    (h1 : value x < 2 ^ 32) : x.toUInt32.toNat = ⌊value x⌋₊ := by
  have hsize : ⌊value x⌋₊ < UInt32.size := by
    rw [Nat.floor_lt' (by decide)]
    exact_mod_cast h1
  show (UInt32.ofNatClamp (x.toModel.unpack.toInt 0 _).toNat).toNat = _
  rw [toInt_eq_floor h h0, Int.toNat_natCast, UInt32.ofNatClamp, dif_pos hsize,
    UInt32.toNat_ofNatLT]

/-- Small numbers do not lift a sum above a power of two: they are lost before. -/
theorem rounds_add_of_abs_lt {a b : Float32} {k : Int} (ha : a.isFinite = true)
    (hb : b.isFinite = true) (hlower : -149 ≤ k) (hupper : k ≤ 102)
    (hsum : |value a| ≤ 2 ^ (k + 24)) (hsmall : |value b| < 2 ^ k) :
    Rounds (value a + value b) (a + b) ∧ |value (a + b)| ≤ 2 ^ (k + 24) := by
  have hexact : |value a + value b| < 2 ^ (k + 24) + 2 ^ k := by
    have := abs_add_le (value a) (value b)
    linarith
  have hlarge : (2 : ℚ) ^ (k + 24) + 2 ^ k ≤ largest := by
    have hfirst : (2 : ℚ) ^ (k + 24) ≤ 2 ^ (126 : Int) :=
      zpow_le_zpow_right₀ (by norm_num) (by omega)
    have hsecond : (2 : ℚ) ^ k ≤ 2 ^ (102 : Int) := zpow_le_zpow_right₀ (by norm_num) hupper
    refine (add_le_add hfirst hsecond).trans ?_
    norm_num [largest]
  have hrounds := rounds_add ha hb (hexact.le.trans hlarge)
  obtain ⟨hneg, hpos⟩ := abs_lt.1 hexact
  refine ⟨hrounds, abs_le.2 ⟨?_, hrounds.nearest.le_two_zpow hlower hpos⟩⟩
  have := hrounds.nearest.neg.le_two_zpow hlower (by linarith)
  linarith

/-! ## Bounds -/

/-- A bound that rounding does not pass: on the grid, and not too large to be stored. -/
structure Storable (g : ℚ) : Prop where
  onGrid : OnGrid g
  abs_le : |g| ≤ largest

theorem Storable.neg {g : ℚ} (h : Storable g) : Storable (-g) :=
  ⟨h.onGrid.neg, by rw [abs_neg]; exact h.abs_le⟩

theorem storable_natCast {n : Nat} (h : n ≤ 2 ^ 24) : Storable n := by
  have hn : (n : ℚ) ≤ 2 ^ 24 := by exact_mod_cast h
  refine ⟨onGrid_natCast h, ?_⟩
  rw [Nat.abs_cast]
  exact hn.trans (by norm_num [largest])

theorem storable_zero : Storable 0 := by
  exact_mod_cast storable_natCast (n := 0) (by norm_num)

theorem storable_one : Storable 1 := by
  exact_mod_cast storable_natCast (n := 1) (by norm_num)

theorem storable_two_zpow {e : Int} (hlower : -149 ≤ e) (hupper : e ≤ 127) :
    Storable (2 ^ e) := by
  have hle : (2 : ℚ) ^ e ≤ 2 ^ (127 : Int) := zpow_le_zpow_right₀ (by norm_num) hupper
  refine ⟨onGrid_two_zpow hlower, ?_⟩
  rw [abs_of_pos (two_zpow_pos e)]
  exact hle.trans (by norm_num [largest])

/-- A finite number between two bounds. -/
structure Within (lower upper : ℚ) (x : Float32) : Prop where
  isFinite : x.isFinite = true
  ge : lower ≤ value x
  le : value x ≤ upper

variable {l u : ℚ} {a b : Float32}

theorem within_zero : Within 0 0 0 :=
  ⟨rfl, le_rfl, le_rfl⟩

theorem Within.eq (h : Within l l a) : value a = l :=
  le_antisymm h.le h.ge

/-- The value of a finite number is itself a bound that rounding does not pass. -/
theorem storable_value (h : a.isFinite = true) : Storable (value a) :=
  ⟨onGrid_valueOf (canonical_unpack h), abs_value_le_largest h⟩

theorem Within.mono {l' u' : ℚ} (h : Within l u a) (hl : l' ≤ l) (hu : u ≤ u') : Within l' u' a :=
  ⟨h.isFinite, hl.trans h.ge, h.le.trans hu⟩

/-- Between storable bounds an exact result is rounded, and stays between them. -/
theorem within_of_rounds (hl : Storable l) (hu : Storable u) (hlv : l ≤ v) (hvu : v ≤ u)
    (h : |v| ≤ largest → Rounds v a) : Within l u a := by
  have hlarge : |v| ≤ largest :=
    abs_le.2 ⟨(abs_le.1 hl.abs_le).1.trans hlv, hvu.trans (abs_le.1 hu.abs_le).2⟩
  obtain ⟨hfinite, hnearest⟩ := h hlarge
  exact ⟨hfinite, hnearest.ge hl.onGrid hlv, hnearest.le hu.onGrid hvu⟩

section

variable (ha : a.isFinite = true) (hb : b.isFinite = true) (hl : Storable l) (hu : Storable u)
include ha hb hl hu

theorem within_add (hlv : l ≤ value a + value b) (hvu : value a + value b ≤ u) :
    Within l u (a + b) :=
  within_of_rounds hl hu hlv hvu (rounds_add ha hb)

theorem within_sub (hlv : l ≤ value a - value b) (hvu : value a - value b ≤ u) :
    Within l u (a - b) :=
  within_of_rounds hl hu hlv hvu (rounds_sub ha hb)

theorem within_mul (hlv : l ≤ value a * value b) (hvu : value a * value b ≤ u) :
    Within l u (a * b) :=
  within_of_rounds hl hu hlv hvu (rounds_mul ha hb)

theorem within_div (hne : value b ≠ 0) (hlv : l ≤ value a / value b)
    (hvu : value a / value b ≤ u) : Within l u (a / b) :=
  within_of_rounds hl hu hlv hvu (rounds_div ha hb hne)

end

/-- A length up to `2 ^ 24` is unchanged by the scale one. -/
theorem toNat_single_mul_one {n : Nat} (h : n ≤ 2 ^ 24) :
    (single n * 1.0).toUInt32.toNat = n := by
  have hone : (1.0 : Float32).isFinite = true := rfl
  have hexact : value (single n) * value 1.0 = n := by rw [value_single h, value_one, mul_one]
  have hproduct := within_mul (rounds_single (by omega)).isFinite hone (storable_natCast h)
    (storable_natCast h) hexact.ge hexact.le
  have hvalue : value (single n * 1.0) = n := le_antisymm hproduct.le hproduct.ge
  rw [toNat_toUInt32 hproduct.isFinite, hvalue, Nat.floor_natCast]
  · rw [hvalue]
    exact Nat.cast_nonneg n
  · rw [hvalue]
    exact_mod_cast (by omega : n < 2 ^ 32)

end ImageLabeling.Number
