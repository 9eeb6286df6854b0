import ImageLabeling.Proofs.Number.Arithmetic

/-!
# Magnitudes in double precision

Results that are not negative stay so, and stay finite as long as the exact ones are far from the
largest number: whatever the format, rounding at most doubles a magnitude
(`atMost_roundWithAccuracy`). So bounds on the operands of a sum, a product or a quotient bound the
result (`atMost_add`, `atMost_mul`, `atMost_div`), which is stored and decoded without a sign
(`AtMost.stored`, `AtMost.ofDouble`).
-/

namespace ImageLabeling.Number

open Float.Model Float.Model.UnpackedFloat

/-- Zero or a positive number, without a negative sign, and at most `b`. -/
inductive AtMost (b : ℚ) : UnpackedFloat → Prop
  | zero (h : 0 ≤ b) : AtMost b (.zero .positive)
  | finite {m : Nat} {e : Int} (hm : 0 < m) (h : (m : ℚ) * 2 ^ e ≤ b) :
    AtMost b (.finite .positive m e hm)

variable {S : Format} {a b c x : ℚ} {m : Nat} {e : Int}

theorem AtMost.nonneg {u : UnpackedFloat} (h : AtMost b u) : 0 ≤ b := by
  cases h with
  | zero h => exact h
  | finite hm h => exact le_trans (by positivity) h

theorem atMost_rounded (h : (m : ℚ) * 2 ^ e ≤ b) : AtMost b (rounded .positive m e) := by
  unfold rounded
  split
  case isTrue hzero => exact .zero (le_trans (by positivity) h)
  case isFalse hne => exact .finite _ h

/-- **Rounding at most doubles a magnitude**: a significand that is not rounded to zero is at least
a half. -/
theorem atMost_roundWithAccuracy {accuracy : Accuracy}
    (h : Approximates (.ofMantissaAndAccuracy m accuracy) x) (hb : 2 * (x * 2 ^ e) ≤ b) :
    AtMost b (roundWithAccuracy S .positive m e accuracy) := by
  obtain ⟨k, hk⟩ : ∃ k, (S.targetExponent (totalExponent m e) - e).toNat = k := ⟨_, rfl⟩
  obtain ⟨n, hn⟩ : ∃ n, (ExtendedMantissa.ofMantissaAndAccuracy m accuracy >>> k).roundedMantissa =
    n := ⟨_, rfl⟩
  obtain ⟨j, hj⟩ : ∃ j, (S.targetExponent (totalExponent n (e + k)) - (e + k)).toNat = j :=
    ⟨_, rfl⟩
  have hresult : roundWithAccuracy S .positive m e accuracy =
      rounded .positive (n / 2 ^ j) (e + k + j) := by
    simp only [roundWithAccuracy, shiftToTargetExponent, shiftToExponent, hk, hn, hj,
      mantissa_shiftRight]
    rfl
  rw [hresult]
  apply atMost_rounded
  have hround := (abs_le.1 (h.shiftRight k).roundedMantissa).2
  rw [hn] at hround
  have hnonneg : 0 ≤ x := (Nat.cast_nonneg _).trans h.bounds.1
  have hdouble : (n : ℚ) ≤ 2 * (x / 2 ^ k) := by
    rcases n.eq_zero_or_pos with rfl | hpos
    · rw [Nat.cast_zero]
      positivity
    · have : (1 : ℚ) ≤ n := by exact_mod_cast hpos
      linarith
  calc ((n / 2 ^ j : Nat) : ℚ) * 2 ^ (e + k + j) ≤ n / 2 ^ j * 2 ^ (e + k + j) := by
        refine mul_le_mul_of_nonneg_right ?_ (two_zpow_pos _).le
        exact_mod_cast Nat.cast_div_le (α := ℚ) (m := n) (n := 2 ^ j)
    _ = n * 2 ^ (e + k) := by
        rw [zpow_add₀ two_ne_zero (e + k), zpow_natCast]
        field_simp
    _ ≤ 2 * (x / 2 ^ k) * 2 ^ (e + k) := mul_le_mul_of_nonneg_right hdouble (two_zpow_pos _).le
    _ = 2 * (x * 2 ^ e) := by
        rw [zpow_add₀ two_ne_zero, zpow_natCast]
        field_simp
    _ ≤ b := hb

theorem atMost_round (hb : 2 * (m * 2 ^ e) ≤ b) :
    AtMost b (UnpackedFloat.round S .positive m e) := by
  obtain ⟨k, hk⟩ : ∃ k, (e - S.targetExponent (totalExponent m e)).toNat = k := ⟨_, rfl⟩
  have hround : UnpackedFloat.round S .positive m e =
      roundWithAccuracy S .positive (m * 2 ^ k) (e - k) .exact := by
    simp only [UnpackedFloat.round, decreaseExponent, hk, Nat.shiftLeft_eq]
  rw [hround]
  apply atMost_roundWithAccuracy (approximates_exact _)
  refine le_trans (le_of_eq ?_) hb
  rw [zpow_sub₀ two_ne_zero, zpow_natCast]
  push_cast
  field_simp

theorem atMost_normalize {n : Int} (hn : 0 ≤ n) (hb : 2 * (n * 2 ^ e) ≤ b) :
    AtMost b (UnpackedFloat.normalize S n e .positive) := by
  unfold UnpackedFloat.normalize
  rcases hn.lt_or_eq with hpos | rfl
  · rw [Int.compare_eq_gt.2 hpos]
    apply atMost_round
    have hmagnitude : ((n.toNat : Nat) : ℚ) = n := by exact_mod_cast Int.toNat_of_nonneg hn
    rwa [hmagnitude]
  · exact .zero (by simpa using hb)

section

variable {u v : UnpackedFloat} (hu : AtMost a u)
include hu

theorem atMost_add (hv : AtMost b v) (hc : 2 * (a + b) ≤ c) :
    AtMost c (UnpackedFloat.add S u v) := by
  have ha := hu.nonneg
  have hb := hv.nonneg
  cases hu with
  | zero =>
    cases hv with
    | zero => exact .zero (by linarith)
    | finite hm' hb' => exact .finite hm' (by linarith)
  | @finite m e hm ha' =>
    cases hv with
    | zero => exact .finite hm (by linarith)
    | @finite m' e' hm' hb' =>
      apply atMost_normalize
      · show (0 : Int) ≤
          ((m <<< (e - min e e').toNat : Nat) : Int) + (m' <<< (e' - min e e').toNat : Nat)
        positivity
      · refine le_trans ?_ hc
        have hshift := shiftLeft_value m (min_le_left e e')
        have hshift' := shiftLeft_value m' (min_le_right e e')
        show 2 * ((((m <<< (e - min e e').toNat : Nat) : Int) +
          (m' <<< (e' - min e e').toNat : Nat) : Int) * 2 ^ min e e' : ℚ) ≤ _
        rw [Int.cast_add, Int.cast_natCast, Int.cast_natCast, add_mul, hshift, hshift']
        linarith

theorem atMost_mul (hv : AtMost b v) (hc : 2 * (a * b) ≤ c) :
    AtMost c (UnpackedFloat.mul S u v) := by
  have ha := hu.nonneg
  have hb := hv.nonneg
  have hc' : 0 ≤ c := le_trans (by positivity) hc
  cases hu with
  | zero => cases hv <;> exact .zero hc'
  | @finite m e hm ha' =>
    cases hv with
    | zero => exact .zero hc'
    | @finite m' e' hm' hb' =>
      apply atMost_roundWithAccuracy (approximates_exact _)
      refine le_trans ?_ hc
      have := mul_le_mul ha' hb' (by positivity) ha
      rw [zpow_add₀ two_ne_zero]
      push_cast
      linarith

theorem atMost_div {m' : Nat} {e' : Int} (hm' : 0 < m') (hone : 1 ≤ (m' : ℚ) * 2 ^ e')
    (hc : 2 * a ≤ c) : AtMost c (UnpackedFloat.div S u (.finite .positive m' e' hm')) := by
  have ha := hu.nonneg
  cases hu with
  | zero => exact .zero (le_trans (by positivity) hc)
  | @finite m e hm ha' =>
    obtain ⟨k, t, hcore, hk, -⟩ := divCore_eq S m m' e e'
    have hdiv : UnpackedFloat.div S (.finite .positive m e hm) (.finite .positive m' e' hm') =
        roundWithAccuracy S .positive (m * 2 ^ k / m') t
          (accuracyOfFraction (m * 2 ^ k % m') m') := by
      rw [UnpackedFloat.div, hcore]
      rfl
    rw [hdiv]
    apply atMost_roundWithAccuracy (approximates_quotient _ hm')
    rw [← quotient_shifted hm' hk]
    have := div_le_self (by positivity : (0 : ℚ) ≤ m * 2 ^ e) hone
    linarith

end

/-! ## Stored numbers -/

theorem atMost_unpack {exponent : BitVec 11} {mantissa : BitVec 52} (hexponent : exponent ≠ -1#11)
    (hone : 1 ≤ b) (hb : exponent ≠ 0#11 →
      ((mantissa.toNat + 2 ^ 52 : Nat) : ℚ) * 2 ^ ((exponent.toNat : Int) - 1075) ≤ b) :
    AtMost b (UnpackedFloat.unpack .binary64
      (packComponents .binary64 .positive exponent mantissa)) := by
  have hbias : (Format.exponentBias .binary64 : Int) = 1023 := by decide
  have hsize := toNat_one_append mantissa
  simp only [UnpackedFloat.unpack, unpackMantissa_packComponents, unpackExponent_packComponents,
    unpackSign_packComponents, if_neg hexponent, hbias]
  split_ifs with hbottom hzero
  · exact .zero (zero_le_one.trans hone)
  · -- subnormal
    refine .finite _ (le_trans ?_ hone)
    have hlt : (mantissa.toNat : ℚ) ≤ 2 ^ (52 : Int) := by exact_mod_cast mantissa.isLt.le
    rw [hbottom]
    calc (mantissa.toNat : ℚ) * 2 ^ (-1074 : Int) ≤ 2 ^ (52 : Int) * 2 ^ (-1074 : Int) :=
          mul_le_mul_of_nonneg_right hlt (two_zpow_pos _).le
      _ = 2 ^ (-1022 : Int) := (zpow_add₀ two_ne_zero _ _).symm
      _ ≤ 1 := zpow_le_one_of_nonpos₀ one_le_two (by norm_num)
  · -- normal
    refine .finite _ ?_
    rw [hsize]
    exact hb hbottom

/-- A magnitude that is small enough is stored. -/
theorem AtMost.stored {u : UnpackedFloat} (h : AtMost b u) (hone : 1 ≤ b) (hb : b ≤ 2 ^ 900) :
    AtMost b (UnpackedFloat.unpack .binary64 (UnpackedFloat.pack .binary64 u)) := by
  cases h with
  | zero h => exact .zero h
  | @finite m e hm h =>
    have he : e ≤ 900 := by
      have hpower : (2 : ℚ) ^ e ≤ 2 ^ (900 : Int) := by
        have hm' : (1 : ℚ) ≤ m := by exact_mod_cast hm
        have := le_mul_of_one_le_left (two_zpow_pos e).le hm'
        exact (this.trans h).trans (by exact_mod_cast hb)
      exact (zpow_le_zpow_iff_right₀ one_lt_two).1 hpower
    obtain ⟨k, hk⟩ : ∃ k, (e + 1023 + 52).toNat = k := ⟨_, rfl⟩
    have hfield : (BitVec.ofNat 11 k).toNat = k := by
      rw [BitVec.toNat_ofNat, Nat.mod_eq_of_lt (by omega)]
    have hnan : BitVec.ofNat 11 k ≠ -1#11 := by
      intro htop
      have := congrArg BitVec.toNat htop
      simp at this
      omega
    have hpack : UnpackedFloat.pack .binary64 (.finite .positive m e hm) =
        if m.log2 = 52 then
          packComponents .binary64 .positive (BitVec.ofNat 11 k) (BitVec.ofNat 52 m)
        else packComponents .binary64 .positive 0#11 (BitVec.ofNat 52 m) := by
      have hfull : m.log2 + 1 = Format.mantissaBits .binary64 ↔ m.log2 = 52 := by
        have hbits : Format.mantissaBits .binary64 = 53 := by decide
        omega
      simp only [UnpackedFloat.pack, hfull]
      rw [show (e + (Format.exponentBias .binary64 : Int) + ((52 : Nat) : Int)).toNat = k from hk,
        if_neg (by omega)]
    rw [hpack]
    split
    case isTrue hfull =>
      obtain ⟨hlower, hupper⟩ := (Nat.log2_eq_iff hm.ne').1 hfull
      have hmantissa : (BitVec.ofNat 52 m).toNat + 2 ^ 52 = m := by
        rw [BitVec.toNat_ofNat]
        omega
      refine atMost_unpack hnan hone fun hne => ?_
      have hk0 : k ≠ 0 := by
        rintro rfl
        exact hne rfl
      rw [hmantissa, hfield, show (k : Int) - 1075 = e by omega]
      exact h
    case isFalse =>
      exact atMost_unpack (by decide) hone fun hne => absurd rfl hne

/-- Such a number is decoded to one without a sign. -/
theorem AtMost.ofDouble {x : Float} (h : AtMost b x.toModel.unpack) :
    ∃ m q, Value.ofDouble x = .finite false m q := by
  have hexponent : (@unpackExponent .binary64 x.toBits.toBitVec).toNat =
      x.toBits.toNat / 2 ^ 52 % 2 ^ 11 := toNat_unpackExponent (S := .binary64) _
  have hsign : Sign.ofBitVec (@unpackSign .binary64 x.toBits.toBitVec) =
      if x.toBits.toNat < 2 ^ 63 then .positive else .negative :=
    unpackSign_eq (S := .binary64) _
  obtain ⟨s, hs⟩ : ∃ s, (if x.toBits.toNat < 2 ^ 63 then Sign.positive else .negative) = s :=
    ⟨_, rfl⟩
  have hfields : @unpackExponent .binary64 x.toBits.toBitVec ≠ -1#11 ∧ s = .positive := by
    change AtMost b (UnpackedFloat.unpack .binary64 x.toBits.toBitVec) at h
    unfold UnpackedFloat.unpack at h
    dsimp only at h
    rw [hsign, hs] at h
    split_ifs at h with htop hinfinite hbottom hzero
    · cases h
    · cases h
    · cases h
      exact ⟨htop, rfl⟩
    · cases h
      exact ⟨htop, rfl⟩
    · cases h
      exact ⟨htop, rfl⟩
  obtain ⟨htop, rfl⟩ := hfields
  have hfinite : x.toBits.toNat / 2 ^ 52 % 2 ^ 11 + 1 ≠ 2 ^ 11 := by
    intro hfull
    apply htop
    apply BitVec.eq_of_toNat_eq
    rw [hexponent]
    exact Nat.succ_injective hfull
  have hpositive : x.toBits.toNat < 2 ^ 63 := by
    by_contra hnegative
    rw [if_neg hnegative] at hs
    cases hs
  simp only [Value.ofDouble, Value.ofBits, if_neg hfinite, Nat.div_eq_of_lt hpositive]
  split
  · exact ⟨_, _, rfl⟩
  · exact ⟨_, _, rfl⟩

/-! ## Double-precision arithmetic -/

/-- Zero or a positive number, without a negative sign, and at most `b`. -/
def Moderate (b : ℚ) (x : Float) : Prop :=
  AtMost b x.toModel.unpack

/-- Counts are moderate, as they fit in 64 bits. -/
theorem moderate_double (n : Nat) : Moderate (2 ^ 65) (double n) := by
  show AtMost _ (UnpackedFloat.unpack .binary64 (UnpackedFloat.pack .binary64
    (UnpackedFloat.normalize .binary64 (n.toUInt64.toNat : Int) 0 .positive)))
  refine (atMost_normalize (Int.natCast_nonneg _) ?_).stored (by norm_num) ?_
  · have hword : (n.toUInt64.toNat : ℚ) ≤ 2 ^ 64 := by exact_mod_cast n.toUInt64.toNat_lt.le
    rw [zpow_zero, mul_one, Int.cast_natCast]
    linarith
  · exact pow_le_pow_right₀ one_le_two (by norm_num)

section

variable {x y : Float} (hx : Moderate a x) (hone : 1 ≤ c) (hlarge : c ≤ 2 ^ 900)
include hx hone hlarge

theorem moderate_add (hy : Moderate b y) (hc : 2 * (a + b) ≤ c) : Moderate c (x + y) :=
  (atMost_add hx hy hc).stored hone hlarge

theorem moderate_mul (hy : Moderate b y) (hc : 2 * (a * b) ≤ c) : Moderate c (x * y) :=
  (atMost_mul hx hy hc).stored hone hlarge

/-- Division by a number that is not below one. -/
theorem moderate_div {hm : 0 < m} (hy : y.toModel.unpack = .finite .positive m e hm)
    (hdivisor : 1 ≤ (m : ℚ) * 2 ^ e) (hc : 2 * a ≤ c) : Moderate c (x / y) := by
  show AtMost c (UnpackedFloat.unpack .binary64 (UnpackedFloat.pack .binary64
    (UnpackedFloat.div .binary64 x.toModel.unpack y.toModel.unpack)))
  rw [hy]
  exact (atMost_div hx hm hdivisor hc).stored hone hlarge

end

end ImageLabeling.Number
