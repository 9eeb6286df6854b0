import ImageLabeling.Proofs.Number.Order

/-!
# Exact values

Every finite single-precision number is a rational number (`value`): its significand, a whole number
below `2 ^ 24`, times a power of two. Its unpacked form is *canonical* (`Canonical`), that is, it
has the least exponent or a significand of full length. Canonical forms survive being stored
(`unpack_pack`) and compare as their values do (`single_lt_iff_value`).
-/

namespace ImageLabeling.Number

open Float.Model Float.Model.UnpackedFloat

/-! ## Signs -/

/-- A magnitude with a sign. -/
def signed : Sign → ℚ → ℚ
  | .negative, v => -v
  | .positive, v => v

theorem signed_zero (s : Sign) : signed s 0 = 0 := by
  cases s <;> simp [signed]

theorem signed_mul (s s' : Sign) (v v' : ℚ) :
    signed (s * s') (v * v') = signed s v * signed s' v' := by
  cases s with
  | negative =>
    cases s' with
    | negative => exact (neg_mul_neg v v').symm
    | positive => exact (neg_mul v v').symm
  | positive =>
    cases s' with
    | negative => exact (mul_neg v v').symm
    | positive => rfl

theorem signed_div (s s' : Sign) (v v' : ℚ) :
    signed (s / s') (v / v') = signed s v / signed s' v' := by
  cases s with
  | negative =>
    cases s' with
    | negative => exact (neg_div_neg_eq v v').symm
    | positive => exact (neg_div v' v).symm
  | positive =>
    cases s' with
    | negative => exact (div_neg v).symm
    | positive => rfl

theorem abs_signed (s : Sign) (v : ℚ) : |signed s v| = |v| := by
  cases s <;> simp [signed]

/-! ## Canonical forms -/

/-- A significand and an exponent that is the least one or goes with a significand of full length,
as rounding leaves them. -/
structure IsCanonical (m : Nat) (e : Int) : Prop where
  upper : m < 2 ^ 24
  least : -149 ≤ e
  full : 2 ^ 23 ≤ m ∨ e = -149

/-- A finite number with canonical significand and exponent. -/
def Canonical : UnpackedFloat → Prop
  | .zero _ => True
  | .finite _ m e _ => IsCanonical m e
  | .infinity _ | .notANumber => False

theorem Canonical.zero_or_finite {u : UnpackedFloat} (h : Canonical u) :
    (∃ s, u = .zero s) ∨ ∃ s m e hm, u = .finite s m e hm ∧ IsCanonical m e := by
  cases u with
  | zero s => exact .inl ⟨s, rfl⟩
  | finite s m e hm => exact .inr ⟨s, m, e, hm, rfl, h⟩
  | infinity s => exact h.elim
  | notANumber => exact h.elim

/-- The exact value of a finite number. -/
def valueOf : UnpackedFloat → ℚ
  | .finite s m e _ => signed s (m * 2 ^ e)
  | .zero _ | .infinity _ | .notANumber => 0

/-- The exact value of a finite single-precision number. -/
def value (x : Float32) : ℚ :=
  valueOf x.toModel.unpack

/-- The largest finite single-precision number. -/
def largest : ℚ :=
  (2 ^ 24 - 1) * 2 ^ 104

theorem two_zpow_pos (e : Int) : (0 : ℚ) < 2 ^ e := by positivity

/-- Numbers up to the largest have exponents that can be stored. -/
theorem IsCanonical.exponent_le {m : Nat} {e : Int} (h : IsCanonical m e)
    (hle : (m : ℚ) * 2 ^ e ≤ largest) : e ≤ 104 := by
  by_contra hlarge
  obtain hfull | hleast := h.full
  · have hm : (2 ^ 23 : ℚ) ≤ m := by exact_mod_cast hfull
    have hpow : (2 : ℚ) ^ (105 : Int) ≤ 2 ^ e := zpow_le_zpow_right₀ (by norm_num) (by omega)
    have hprod : (2 ^ 23 : ℚ) * 2 ^ (105 : Int) ≤ m * 2 ^ e :=
      mul_le_mul hm hpow (two_zpow_pos _).le (by positivity)
    have hlargest : largest < 2 ^ 23 * 2 ^ (105 : Int) := by norm_num [largest]
    exact absurd (hprod.trans hle) (not_le.2 hlargest)
  · omega

/-! ## Fields of a stored number -/

section

variable {S : Format} (b : BitVec S.numBits)

theorem toNat_unpackMantissa :
    (unpackMantissa b).toNat = b.toNat % 2 ^ S.mantissaBitsWithoutImplicit := by
  have hwidth : S.mantissaBitsWithoutImplicit - 1 - 0 + 1 = S.mantissaBitsWithoutImplicit := by
    have := S.hm
    omega
  rw [unpackMantissa, BitVec.toNat_cast, BitVec.extractLsb_toNat, Nat.shiftRight_zero, hwidth]

theorem toNat_unpackExponent : (unpackExponent b).toNat =
    b.toNat / 2 ^ S.mantissaBitsWithoutImplicit % 2 ^ S.exponentBits := by
  have hwidth : S.mantissaBitsWithoutImplicit + S.exponentBits - 1 - S.mantissaBitsWithoutImplicit
      + 1 = S.exponentBits := by
    have := S.he
    omega
  rw [unpackExponent, BitVec.toNat_cast, BitVec.extractLsb_toNat, Nat.shiftRight_eq_div_pow, hwidth]

/-- The sign is the highest bit. -/
theorem unpackSign_eq : Sign.ofBitVec (unpackSign b) =
    if b.toNat < 2 ^ (S.mantissaBitsWithoutImplicit + S.exponentBits) then .positive
    else .negative := by
  have hbit : (unpackSign b).toNat =
      b.toNat / 2 ^ (S.mantissaBitsWithoutImplicit + S.exponentBits) % 2 := by
    rw [unpackSign, BitVec.toNat_cast, BitVec.extractLsb_toNat, Nat.shiftRight_eq_div_pow,
      Nat.sub_self, Nat.zero_add, Nat.pow_one]
  have hword : b.toNat < (1 + 1) * 2 ^ (S.mantissaBitsWithoutImplicit + S.exponentBits) := by
    refine b.isLt.trans_eq ?_
    rw [Format.numBits, Nat.add_assoc, Nat.pow_add, Nat.add_comm S.exponentBits]
  split
  case isTrue hpositive =>
    have hzero : unpackSign b = 0#1 := by
      apply BitVec.eq_of_toNat_eq
      rw [hbit, Nat.div_eq_of_lt hpositive]
      rfl
    rw [hzero]
    rfl
  case isFalse hnegative =>
    have hone : unpackSign b = 1#1 := by
      apply BitVec.eq_of_toNat_eq
      rw [hbit, Nat.div_eq_of_lt_le (by omega) hword]
      rfl
    rw [hone]
    rfl

end

/-! ## Stored numbers -/

theorem toNat_one_append {w : Nat} (v : BitVec w) : (1#1 ++ v).toNat = v.toNat + 2 ^ w := by
  rw [BitVec.toNat_append, Nat.shiftLeft_eq, Nat.or_comm, BitVec.toNat_ofNat,
    Nat.mod_eq_of_lt (by decide : 1 < 2 ^ 1), Nat.one_mul, Nat.or_two_pow_eq_add_of_lt v.isLt]

theorem magnitude_le_largest {m : Nat} {e : Int} (hm : m < 2 ^ 24) (he : e ≤ 104) :
    (m : ℚ) * 2 ^ e ≤ largest := by
  have hm' : (m : ℚ) ≤ 2 ^ 24 - 1 := by
    rw [le_sub_iff_add_le]
    exact_mod_cast hm
  have hpow : (2 : ℚ) ^ e ≤ 2 ^ (104 : Int) := zpow_le_zpow_right₀ (by norm_num) he
  exact mul_le_mul hm' hpow (two_zpow_pos e).le (by norm_num)

/-- Stored numbers are canonical and not too large. -/
theorem unpack_bits (b : BitVec Format.binary32.numBits)
    (h : (UnpackedFloat.unpack .binary32 b).isFinite = true) :
    Canonical (UnpackedFloat.unpack .binary32 b) ∧
      |valueOf (UnpackedFloat.unpack .binary32 b)| ≤ largest := by
  have hmantissa : (unpackMantissa b).toNat < 2 ^ 23 := (unpackMantissa b).isLt
  have hexponent : (unpackExponent b).toNat < 2 ^ 8 := (unpackExponent b).isLt
  have hbias : (Format.exponentBias .binary32 : Int) = 127 := by decide
  have hmagnitude : ∀ {m : Nat} {e : Int} (s : Sign), m < 2 ^ 24 → e ≤ 104 →
      |signed s (m * 2 ^ e)| ≤ largest := by
    intro m e s hm he
    rw [abs_signed, abs_of_nonneg (by positivity)]
    exact magnitude_le_largest hm he
  unfold UnpackedFloat.unpack at h ⊢
  dsimp only at h ⊢
  split_ifs at h ⊢ with htop hinfinite hbottom hzero
  · cases h
  · cases h
  · exact ⟨trivial, by norm_num [valueOf, largest]⟩
  · -- subnormal
    have hfield : (unpackExponent b).toNat = 0 := by rw [hbottom]; rfl
    rw [hfield, hbias]
    exact ⟨⟨by omega, by omega, .inr (by omega)⟩, hmagnitude _ (by omega) (by omega)⟩
  · -- normal
    have hfield : (unpackExponent b).toNat ≠ 0 := fun h0 => hbottom (BitVec.eq_of_toNat_eq h0)
    have hfield' : (unpackExponent b).toNat ≠ 255 := fun h0 => htop (BitVec.eq_of_toNat_eq h0)
    have hsize := toNat_one_append (w := 23) (unpackMantissa b)
    exact ⟨⟨by omega, by omega, .inl (by omega)⟩, hmagnitude _ (by omega) (by omega)⟩

theorem unpackSign_packComponents {spec : Format} (s : Sign) (e : BitVec spec.exponentBits)
    (m : BitVec spec.mantissaBitsWithoutImplicit) :
    Sign.ofBitVec (unpackSign (packComponents spec s e m)) = s := by
  have hs : unpackSign (packComponents spec s e m) = s.toBitVec := by
    ext i hi
    obtain rfl : i = 0 := by omega
    simp [unpackSign, packComponents, BitVec.getLsbD_append, BitVec.getElem_append]
  rw [hs]
  cases s <;> rfl

section

variable {m : Nat} {e : Int} (s : Sign) (hm : 0 < m)

theorem unpack_pack_normal (hlower : 2 ^ 23 ≤ m) (hupper : m < 2 ^ 24) (hleast : -149 ≤ e)
    (hgreatest : e ≤ 104) :
    UnpackedFloat.unpack .binary32 (UnpackedFloat.pack .binary32 (.finite s m e hm)) =
      .finite s m e hm := by
  have hlog : m.log2 = 23 := (Nat.log2_eq_iff hm.ne').2 ⟨hlower, hupper⟩
  -- the stored exponent lies between those of the subnormal numbers and of the infinities
  obtain ⟨b, hb, hb1, hb2⟩ : ∃ b : Nat, (e + 127 + 23).toNat = b ∧ 1 ≤ b ∧ b < 255 :=
    ⟨_, rfl, by omega, by omega⟩
  have hpack : UnpackedFloat.pack .binary32 (.finite s m e hm) =
      packComponents .binary32 s (BitVec.ofNat 8 b) (BitVec.ofNat 23 m) := by
    have hover : ¬ 2 ^ 8 ≤ b + 1 := by omega
    simp only [UnpackedFloat.pack, hlog]
    rw [show (e + (Format.exponentBias .binary32 : Int) + ((23 : Nat) : Int)).toNat = b from hb,
      if_neg hover, if_pos (by decide)]
  have hexponent : (BitVec.ofNat 8 b).toNat = b := by
    rw [BitVec.toNat_ofNat, Nat.mod_eq_of_lt (by omega)]
  have hne : ∀ c : BitVec 8, c.toNat ≠ b → BitVec.ofNat 8 b ≠ c := by
    rintro _ hc rfl
    exact hc hexponent
  have hnan : BitVec.ofNat 8 b ≠ -1#8 := hne _ (by simp; omega)
  have hzero : BitVec.ofNat 8 b ≠ 0#8 := hne _ (by simp; omega)
  have hmantissa : (1#1 ++ BitVec.ofNat 23 m).toNat = m := by
    rw [toNat_one_append, BitVec.toNat_ofNat]
    omega
  rw [hpack]
  simp only [UnpackedFloat.unpack, unpackMantissa_packComponents, unpackExponent_packComponents,
    unpackSign_packComponents, hnan, hzero, if_false, hmantissa, hexponent]
  congr 1
  have : (Format.exponentBias .binary32 : Int) = 127 := by decide
  omega

theorem unpack_pack_subnormal (hupper : m < 2 ^ 23) :
    UnpackedFloat.unpack .binary32 (UnpackedFloat.pack .binary32 (.finite s m (-149) hm)) =
      .finite s m (-149) hm := by
  have hlog : ¬ m.log2 + 1 = Format.mantissaBits .binary32 := by
    have := (Nat.log2_lt hm.ne').2 hupper
    have hbits : Format.mantissaBits .binary32 = 24 := by decide
    omega
  have hpack : UnpackedFloat.pack .binary32 (.finite s m (-149) hm) =
      packComponents .binary32 s 0#8 (BitVec.ofNat 23 m) := by
    simp only [UnpackedFloat.pack]
    rw [if_neg (by decide), if_neg hlog]
  have hmod : m % 2 ^ 23 = m := Nat.mod_eq_of_lt hupper
  have hne : BitVec.ofNat 23 m ≠ 0#23 := by
    intro hzero
    have := congrArg BitVec.toNat hzero
    simp only [BitVec.toNat_ofNat, hmod] at this
    omega
  rw [hpack]
  simp only [UnpackedFloat.unpack, unpackMantissa_packComponents, unpackExponent_packComponents,
    unpackSign_packComponents, hne, dif_neg, not_false_eq_true, if_true, BitVec.toNat_ofNat, hmod]
  rfl

end

/-- Canonical forms of numbers up to the largest are kept when they are stored. -/
theorem unpack_pack {u : UnpackedFloat} (h : Canonical u) (hle : |valueOf u| ≤ largest) :
    UnpackedFloat.unpack .binary32 (UnpackedFloat.pack .binary32 u) = u := by
  obtain ⟨s, rfl⟩ | ⟨s, m, e, hm, rfl, hcanonical⟩ := h.zero_or_finite
  · cases s <;> rfl
  · have hpos : (0 : ℚ) ≤ m * 2 ^ e := by positivity
    rw [valueOf, abs_signed, abs_of_nonneg hpos] at hle
    by_cases hfull : 2 ^ 23 ≤ m
    · exact unpack_pack_normal s hm hfull hcanonical.upper hcanonical.least
        (hcanonical.exponent_le hle)
    · obtain rfl : e = -149 := hcanonical.full.resolve_left hfull
      exact unpack_pack_subnormal s hm (Nat.lt_of_not_le hfull)

theorem isFinite_of_canonical {u : UnpackedFloat} (h : Canonical u) : u.isFinite = true := by
  obtain ⟨s, rfl⟩ | ⟨s, m, e, hm, rfl, -⟩ := h.zero_or_finite
  · rfl
  · rfl

theorem canonical_unpack {x : Float32} (h : x.isFinite = true) : Canonical x.toModel.unpack :=
  (unpack_bits _ h).1

theorem abs_value_le_largest {x : Float32} (h : x.isFinite = true) : |value x| ≤ largest :=
  (unpack_bits _ h).2

theorem isFinite_pack {u : UnpackedFloat} (h : Canonical u) (hle : |valueOf u| ≤ largest) :
    (Float32.ofModel (.pack u)).isFinite = true := by
  show (UnpackedFloat.unpack .binary32 (UnpackedFloat.pack .binary32 u)).isFinite = true
  rw [unpack_pack h hle]
  exact isFinite_of_canonical h

theorem value_pack {u : UnpackedFloat} (h : Canonical u) (hle : |valueOf u| ≤ largest) :
    value (.ofModel (.pack u)) = valueOf u := by
  show valueOf (UnpackedFloat.unpack .binary32 (UnpackedFloat.pack .binary32 u)) = valueOf u
  rw [unpack_pack h hle]

/-! ## Comparisons -/

/-- Significands of canonical forms count only if the exponents are the same. -/
theorem IsCanonical.lt_of_exponent_lt {m m' : Nat} {e e' : Int} (h : IsCanonical m e)
    (h' : IsCanonical m' e') (hlt : e < e') : (m : ℚ) * 2 ^ e < m' * 2 ^ e' := by
  have hfull : 2 ^ 23 ≤ m' := by
    have := h.least
    exact h'.full.resolve_right (by omega)
  calc (m : ℚ) * 2 ^ e < 2 ^ 24 * 2 ^ e := by
        have hm : (m : ℚ) < 2 ^ 24 := by exact_mod_cast h.upper
        exact mul_lt_mul_of_pos_right hm (two_zpow_pos e)
    _ = 2 ^ 23 * 2 ^ (e + 1) := by rw [zpow_add_one₀ (by norm_num)]; ring
    _ ≤ 2 ^ 23 * 2 ^ e' :=
        mul_le_mul_of_nonneg_left (zpow_le_zpow_right₀ (by norm_num) hlt) (by norm_num)
    _ ≤ m' * 2 ^ e' := by
        have hm' : (2 ^ 23 : ℚ) ≤ m' := by exact_mod_cast hfull
        exact mul_le_mul_of_nonneg_right hm' (two_zpow_pos e').le

theorem compare_magnitudes {m m' : Nat} {e e' : Int} (h : IsCanonical m e)
    (h' : IsCanonical m' e') :
    (compare e e').then (compare m m') = compare ((m : ℚ) * 2 ^ e) (m' * 2 ^ e') := by
  rcases lt_trichotomy e e' with hlt | rfl | hgt
  · rw [compare_lt_iff_lt.2 hlt, compare_lt_iff_lt.2 (h.lt_of_exponent_lt h' hlt)]
    rfl
  · have hpos := two_zpow_pos e
    rw [compare_eq_iff_eq.2 rfl]
    rcases lt_trichotomy m m' with hlt | rfl | hgt
    · have hlt' : (m : ℚ) < m' := by exact_mod_cast hlt
      rw [compare_lt_iff_lt.2 hlt, compare_lt_iff_lt.2 (mul_lt_mul_of_pos_right hlt' hpos)]
      rfl
    · rw [compare_eq_iff_eq.2 rfl, compare_eq_iff_eq.2 rfl]
      rfl
    · have hgt' : (m' : ℚ) < m := by exact_mod_cast hgt
      rw [compare_gt_iff_gt.2 hgt, compare_gt_iff_gt.2 (mul_lt_mul_of_pos_right hgt' hpos)]
      rfl
  · rw [compare_gt_iff_gt.2 hgt, compare_gt_iff_gt.2 (h'.lt_of_exponent_lt h hgt)]
    rfl

theorem compare_neg_rat (a b : ℚ) : compare (-a) (-b) = (compare a b).swap := by
  rcases lt_trichotomy a b with hlt | rfl | hgt
  · rw [compare_lt_iff_lt.2 hlt, compare_gt_iff_gt.2 (neg_lt_neg hlt)]
    rfl
  · rw [compare_eq_iff_eq.2 rfl, compare_eq_iff_eq.2 rfl]
    rfl
  · rw [compare_gt_iff_gt.2 hgt, compare_lt_iff_lt.2 (neg_lt_neg hgt)]
    rfl

theorem signed_positive_pos {m : Nat} {e : Int} (hm : 0 < m) :
    0 < signed .positive ((m : ℚ) * 2 ^ e) := by
  show (0 : ℚ) < m * 2 ^ e
  positivity

theorem signed_negative_neg {m : Nat} {e : Int} (hm : 0 < m) :
    signed .negative ((m : ℚ) * 2 ^ e) < 0 := by
  show -((m : ℚ) * 2 ^ e) < 0
  have : (0 : ℚ) < m * 2 ^ e := by positivity
  linarith

/-- **Canonical forms compare as their values do.** -/
theorem compare_eq_valueOf {a b : UnpackedFloat} (ha : Canonical a) (hb : Canonical b) :
    UnpackedFloat.compare a b = some (compare (valueOf a) (valueOf b)) := by
  obtain ⟨s, rfl⟩ | ⟨s, m, e, hm, rfl, ha⟩ := ha.zero_or_finite
  · obtain ⟨s', rfl⟩ | ⟨s', m', e', hm', rfl, -⟩ := hb.zero_or_finite
    · rfl
    · cases s' with
      | negative => exact congrArg some (compare_gt_iff_gt.2 (signed_negative_neg hm')).symm
      | positive => exact congrArg some (compare_lt_iff_lt.2 (signed_positive_pos hm')).symm
  · obtain ⟨s', rfl⟩ | ⟨s', m', e', hm', rfl, hb⟩ := hb.zero_or_finite
    · cases s with
      | negative => exact congrArg some (compare_lt_iff_lt.2 (signed_negative_neg hm)).symm
      | positive => exact congrArg some (compare_gt_iff_gt.2 (signed_positive_pos hm)).symm
    · have hmagnitudes := compare_magnitudes ha hb
      cases s with
      | negative =>
        cases s' with
        | negative =>
          show some (Ordering.swap _) = some (compare (-_) (-_))
          rw [hmagnitudes, compare_neg_rat]
        | positive =>
          have hlt := (signed_negative_neg hm (e := e)).trans (signed_positive_pos hm' (e := e'))
          exact congrArg some (compare_lt_iff_lt.2 hlt).symm
      | positive =>
        cases s' with
        | negative =>
          have hlt := (signed_negative_neg hm' (e := e')).trans (signed_positive_pos hm (e := e))
          exact congrArg some (compare_gt_iff_gt.2 hlt).symm
        | positive => exact congrArg some hmagnitudes

variable {a b : Float32}

theorem single_lt_iff_value (ha : a.isFinite = true) (hb : b.isFinite = true) :
    a < b ↔ value a < value b := by
  rw [lt_iff_compare, compare_eq_valueOf (canonical_unpack ha) (canonical_unpack hb),
    Option.some.injEq, compare_lt_iff_lt]
  rfl

/-- Finite numbers are equal as numbers if their values are the same. -/
theorem single_beq_iff_value (ha : a.isFinite = true) (hb : b.isFinite = true) :
    (a == b) = true ↔ value a = value b := by
  show (UnpackedFloat.compare _ _ == some Ordering.eq) = true ↔ _
  rw [compare_eq_valueOf (canonical_unpack ha) (canonical_unpack hb), beq_iff_eq,
    Option.some.injEq, compare_eq_iff_eq]
  rfl

/-- Negative infinity is below all finite numbers. -/
theorem lowest_lt (ha : a.isFinite = true) : lowest < a := by
  rw [lt_iff_compare]
  show UnpackedFloat.compare (.infinity .negative) _ = _
  obtain ⟨s, hzero⟩ | ⟨s, m, e, hm, hfinite, -⟩ := (canonical_unpack ha).zero_or_finite
  · rw [hzero]
    rfl
  · rw [hfinite]
    rfl

/-! ## Constants -/

theorem value_one : value 1.0 = 1 := by
  show ((2 ^ 23 : Nat) : ℚ) * 2 ^ (-23 : Int) = 1
  norm_num

theorem value_neg_one : value (-1.0) = -1 := by
  show -(((2 ^ 23 : Nat) : ℚ) * 2 ^ (-23 : Int)) = -1
  norm_num

theorem value_two : value 2.0 = 2 := by
  show ((2 ^ 23 : Nat) : ℚ) * 2 ^ (-22 : Int) = 2
  norm_num

end ImageLabeling.Number
