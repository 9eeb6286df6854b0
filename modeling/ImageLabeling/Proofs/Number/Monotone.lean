import ImageLabeling.Proofs.Number.Arithmetic

/-!
# Monotone arithmetic

The key that numbers are sorted by is read off the unpacked number (`orderKey_eq`); it grows with
the value (`orderKey_lt`) and tells all numbers apart (`orderKey_injective`), so that two numbers
with one value are the same number or two zeros (`eq_of_value`). Rounding is monotone
(`Nearest.mono`), so differences and quotients grow with their first operand
(`sub_le_sub_of_finite`, `value_div_le_div`), also where a difference is too far below zero to be
stored and becomes negative infinity (`RoundsBelow`).
-/

namespace ImageLabeling.Number

open Float.Model Float.Model.UnpackedFloat

/-! ## Keys -/

/-- The key of a number with the given sign and magnitude. -/
def signedKey : Sign → Int → Int
  | .positive, k => k
  | .negative, k => -1 - k

/-- The key of a finite number by its unpacked form: the numbers of each sign are counted from
zero. -/
def keyOf : UnpackedFloat → Int
  | .finite s m e _ => signedKey s ((e + 149) * 2 ^ 23 + m)
  | .zero s => signedKey s 0
  | .infinity _ | .notANumber => 0

/-- The key of a stored number is what its bits other than the sign say. -/
theorem keyOf_unpack (b : BitVec Format.binary32.numBits)
    (h : (UnpackedFloat.unpack .binary32 b).isFinite = true) :
    keyOf (UnpackedFloat.unpack .binary32 b) =
      signedKey (Sign.ofBitVec (unpackSign b)) (b.toNat % 2 ^ 31 : Nat) := by
  have hmantissa : (unpackMantissa b).toNat = b.toNat % 2 ^ 23 := toNat_unpackMantissa b
  have hexponent : (unpackExponent b).toNat = b.toNat / 2 ^ 23 % 2 ^ 8 := toNat_unpackExponent b
  have hbias : (Format.exponentBias .binary32 : Int) = 127 := by decide
  have hsplit : b.toNat % 2 ^ 31 = b.toNat / 2 ^ 23 % 2 ^ 8 * 2 ^ 23 + b.toNat % 2 ^ 23 := by omega
  rw [hsplit, ← hmantissa, ← hexponent]
  unfold UnpackedFloat.unpack at h ⊢
  dsimp only at h ⊢
  split_ifs at h ⊢ with htop hinfinite hbottom hzero
  · cases h
  · cases h
  · rw [hbottom, hzero]
    rfl
  · -- subnormal
    have hfield : (unpackExponent b).toNat = 0 := by rw [hbottom]; rfl
    simp only [keyOf, hfield, hbias]
    rfl
  · -- normal
    have hsize := toNat_one_append (w := 23) (unpackMantissa b)
    simp only [keyOf, hbias]
    congr 1
    omega

theorem orderKey_eq {x : Float32} (h : x.isFinite = true) :
    orderKey x = keyOf x.toModel.unpack := by
  refine Eq.trans ?_ (keyOf_unpack x.toBits.toBitVec h).symm
  have hword := x.toBits.toNat_lt
  have hsign : Sign.ofBitVec (@unpackSign .binary32 x.toBits.toBitVec) =
      if x.toBits.toNat < 2 ^ 31 then .positive else .negative :=
    unpackSign_eq (S := .binary32) _
  rw [hsign, orderKey, UInt32.toNat_toBitVec]
  split
  case isTrue hpositive => rw [signedKey, Nat.mod_eq_of_lt hpositive]
  case isFalse hnegative =>
    rw [signedKey]
    omega

/-- Every number has a key of its own. -/
theorem orderKey_injective : Function.Injective orderKey := by
  intro a b h
  have ha := a.toBits.toNat_lt
  have hb := b.toBits.toNat_lt
  have hbits : a.toBits = b.toBits := by
    apply UInt32.toNat.inj
    simp only [orderKey] at h
    split at h <;> split at h <;> omega
  obtain ⟨⟨bits, hvalid⟩⟩ := a
  obtain ⟨⟨bits', hvalid'⟩⟩ := b
  obtain rfl : bits = bits' := hbits
  rfl

/-- Keys of canonical magnitudes grow with them. -/
theorem IsCanonical.key_lt {m m' : Nat} {e e' : Int} (h : IsCanonical m e) (h' : IsCanonical m' e')
    (hlt : (m : ℚ) * 2 ^ e < m' * 2 ^ e') :
    (e + 149) * 2 ^ 23 + m < (e' + 149) * 2 ^ 23 + m' := by
  have hupper := h.upper
  rcases lt_trichotomy e e' with hbelow | rfl | habove
  · have hfull : 2 ^ 23 ≤ m' := by
      have := h.least
      exact h'.full.resolve_right (by omega)
    omega
  · have hm : (m : ℚ) < m' := lt_of_mul_lt_mul_right hlt (two_zpow_pos e).le
    have hm' : m < m' := by exact_mod_cast hm
    omega
  · exact absurd (h'.lt_of_exponent_lt h habove) hlt.not_gt

theorem signedKey_lt {s s' : Sign} {k k' : Int} {v v' : ℚ} (hk : 0 ≤ k) (hk' : 0 ≤ k') (hv : 0 ≤ v)
    (hv' : 0 ≤ v') (hlt : v < v' → k < k') (hgt : v' < v → k' < k)
    (h : signed s v < signed s' v') : signedKey s k < signedKey s' k' := by
  cases s with
  | negative =>
    cases s' with
    | negative =>
      have := hgt (neg_lt_neg_iff.1 h)
      simp only [signedKey]
      omega
    | positive =>
      simp only [signedKey]
      omega
  | positive =>
    cases s' with
    | negative =>
      simp only [signed] at h
      linarith
    | positive => exact hlt h

/-- A canonical number by its sign and magnitude: its key and its value. -/
theorem Canonical.exists_magnitude {u : UnpackedFloat} (h : Canonical u) :
    ∃ s m e, keyOf u = signedKey s ((e + 149) * 2 ^ 23 + (m : Nat)) ∧
      valueOf u = signed s (m * 2 ^ e) ∧ IsCanonical m e := by
  obtain ⟨s, rfl⟩ | ⟨s, m, e, hm, rfl, h⟩ := h.zero_or_finite
  · exact ⟨s, 0, -149, rfl, by simp [valueOf, signed_zero], by decide, le_rfl, .inr rfl⟩
  · exact ⟨s, m, e, rfl, rfl, h⟩

variable {a b : Float32}

/-- **Keys grow with the values of numbers.** -/
theorem orderKey_lt (ha : a.isFinite = true) (hb : b.isFinite = true) (h : value a < value b) :
    orderKey a < orderKey b := by
  rw [orderKey_eq ha, orderKey_eq hb]
  obtain ⟨s, m, e, hkey, hvalue, hcanonical⟩ := (canonical_unpack ha).exists_magnitude
  obtain ⟨s', m', e', hkey', hvalue', hcanonical'⟩ := (canonical_unpack hb).exists_magnitude
  rw [value, value, hvalue, hvalue'] at h
  rw [hkey, hkey']
  have hleast := hcanonical.least
  have hleast' := hcanonical'.least
  exact signedKey_lt (by omega) (by omega) (by positivity) (by positivity)
    (hcanonical.key_lt hcanonical') (hcanonical'.key_lt hcanonical) h

theorem signed_inj {s s' : Sign} {v v' : ℚ} (hv : 0 ≤ v) (hv' : 0 ≤ v')
    (h : signed s v = signed s' v') (hne : signed s v ≠ 0) : s = s' ∧ v = v' := by
  cases s with
  | negative =>
    cases s' with
    | negative => exact ⟨rfl, neg_inj.1 h⟩
    | positive =>
      simp only [signed] at h hne
      exact absurd (by linarith) hne
  | positive =>
    cases s' with
    | negative =>
      simp only [signed] at h hne
      exact absurd (by linarith) hne
    | positive => exact ⟨rfl, h⟩

/-- A magnitude has one canonical form. -/
theorem IsCanonical.unique {m m' : Nat} {e e' : Int} (h : IsCanonical m e) (h' : IsCanonical m' e')
    (heq : (m : ℚ) * 2 ^ e = m' * 2 ^ e') : m = m' ∧ e = e' := by
  rcases lt_trichotomy e e' with hbelow | rfl | habove
  · exact absurd heq (h.lt_of_exponent_lt h' hbelow).ne
  · have hm : (m : ℚ) = m' := mul_right_cancel₀ (two_zpow_pos e).ne' heq
    exact ⟨by exact_mod_cast hm, rfl⟩
  · exact absurd heq (h'.lt_of_exponent_lt h habove).ne'

/-- Numbers with one value are one number, or zeros. -/
theorem eq_of_value (ha : a.isFinite = true) (hb : b.isFinite = true) (h : value a = value b)
    (hne : value a ≠ 0) : a = b := by
  apply orderKey_injective
  rw [orderKey_eq ha, orderKey_eq hb]
  obtain ⟨s, m, e, hkey, hvalue, hcanonical⟩ := (canonical_unpack ha).exists_magnitude
  obtain ⟨s', m', e', hkey', hvalue', hcanonical'⟩ := (canonical_unpack hb).exists_magnitude
  rw [value, hvalue] at hne
  rw [value, value, hvalue, hvalue'] at h
  obtain ⟨rfl, hmagnitude⟩ := signed_inj (by positivity) (by positivity) h hne
  obtain ⟨rfl, rfl⟩ := hcanonical.unique hcanonical' hmagnitude
  rw [hkey, hkey']

/-! ## Order and values -/

theorem isNaN_of_isFinite (ha : a.isFinite = true) : a.isNaN = false := by
  show a.toModel.unpack.isNaN = false
  obtain ⟨s, hzero⟩ | ⟨s, m, e, hm, hfinite, -⟩ := (canonical_unpack ha).zero_or_finite
  · rw [hzero]
    rfl
  · rw [hfinite]
    rfl

theorem single_le_iff_value (ha : a.isFinite = true) (hb : b.isFinite = true) :
    a ≤ b ↔ value a ≤ value b := by
  have hlt := single_lt_iff_value hb ha
  constructor
  · intro h
    rw [← not_lt, ← hlt]
    exact single_not_lt_of_le h
  · intro h
    rw [← not_lt, ← hlt] at h
    exact single_le_of_not_lt (isNaN_of_isFinite hb) (isNaN_of_isFinite ha) h

/-- What lies between finite numbers is finite. -/
theorem within_of_le_of_le {x : Float32} (ha : a.isFinite = true) (hb : b.isFinite = true)
    (hax : a ≤ x) (hxb : x ≤ b) : Within (value a) (value b) x := by
  have hfinite : x.isFinite = true := by
    have hnan : x.toModel.unpack.isNaN = false := (single_le_iff.1 hax).2.1
    rw [le_iff_compare] at hax hxb
    show x.toModel.unpack.isFinite = true
    generalize x.toModel.unpack = u at *
    cases u with
    | notANumber => cases hnan
    | zero s => rfl
    | finite s m e hm => rfl
    | infinity s =>
      cases s with
      | negative =>
        obtain ⟨s, hzero⟩ | ⟨s, m, e, hm, hfinite, -⟩ := (canonical_unpack ha).zero_or_finite
        · rw [hzero] at hax
          cases hax
        · rw [hfinite] at hax
          cases hax
      | positive =>
        obtain ⟨s, hzero⟩ | ⟨s, m, e, hm, hfinite, -⟩ := (canonical_unpack hb).zero_or_finite
        · rw [hzero] at hxb
          cases hxb
        · rw [hfinite] at hxb
          cases hxb
  exact ⟨hfinite, (single_le_iff_value ha hfinite).1 hax, (single_le_iff_value hfinite hb).1 hxb⟩

/-! ## Rounding -/

variable {v w r t : ℚ}

/-- **Rounding is monotone.** -/
theorem Nearest.mono (hr : Nearest v r) (ht : Nearest w t) (h : v < w) : r ≤ t := by
  by_contra hlt
  have hleft := sq_le_sq.2 (hr.closest t ht.onGrid)
  have hright := sq_le_sq.2 (ht.closest r hr.onGrid)
  nlinarith

/-! ## Differences -/

theorem pack_eq_lowest {m : Nat} {e : Int} (hm : 0 < m) (h : IsCanonical m e)
    (hlarge : largest < m * 2 ^ e) :
    Float32.ofModel (.pack (.finite .negative m e hm)) = lowest := by
  have hexponent : 104 < e := by
    by_contra hle
    exact absurd (magnitude_le_largest h.upper (not_lt.1 hle)) hlarge.not_ge
  have hbiased : 2 ^ 8 ≤ (e + (Format.exponentBias .binary32 : Int) + (23 : Nat)).toNat + 1 := by
    have hbias : (Format.exponentBias .binary32 : Int) = 127 := by decide
    omega
  have hpack : UnpackedFloat.pack .binary32 (.finite .negative m e hm) =
      UnpackedFloat.pack .binary32 (.infinity .negative) :=
    if_pos hbiased
  have hmodel : Float32.Model.pack (.finite .negative m e hm) = .pack (.infinity .negative) := by
    simp only [Float32.Model.pack, hpack]
  rw [hmodel]
  rfl

/-- The exact result `v`, which is not positive, is rounded to the number `x`, or has no nearest
number that can be stored, and `x` is negative infinity. -/
inductive RoundsBelow (v : ℚ) (x : Float32) : Prop
  | rounds (h : Rounds v x)
  | lowest (r : ℚ) (hr : Nearest v r) (hlow : r < -largest) (hx : x = lowest)

/-- Differences that are not positive are rounded, if need be to negative infinity. -/
theorem roundsBelow_sub (ha : a.isFinite = true) (hb : b.isFinite = true)
    (h : value a ≤ value b) : RoundsBelow (value a - value b) (a - b) := by
  obtain ⟨hcanonical, hnearest⟩ := sub_nearest (canonical_unpack ha) (canonical_unpack hb)
  show RoundsBelow (value a - value b) (.ofModel (.pack (UnpackedFloat.sub .binary32 _ _)))
  generalize UnpackedFloat.sub .binary32 a.toModel.unpack b.toModel.unpack = u at *
  have hzero : valueOf u ≤ 0 := hnearest.le storable_zero.onGrid (sub_nonpos.2 h)
  by_cases hlow : valueOf u < -largest
  · refine .lowest _ hnearest hlow ?_
    obtain ⟨s, rfl⟩ | ⟨s, m, e, hm, rfl, hcanonical⟩ := hcanonical.zero_or_finite
    · exact absurd hlow (by norm_num [valueOf, largest])
    · cases s with
      | negative => exact pack_eq_lowest hm hcanonical (neg_lt_neg_iff.1 hlow)
      | positive => exact absurd hzero (signed_positive_pos hm).not_ge
  · have hle : |valueOf u| ≤ largest := by
      rw [abs_of_nonpos hzero]
      linarith
    exact .rounds ⟨isFinite_pack hcanonical hle, (value_pack hcanonical hle).symm ▸ hnearest⟩

variable {x y c : Float32}

theorem RoundsBelow.isNaN (h : RoundsBelow v x) : x.isNaN = false := by
  cases h with
  | rounds h => exact isNaN_of_isFinite h.isFinite
  | lowest r hr hlow hx =>
    rw [hx]
    rfl

theorem lowest_le (hx : x.isFinite = true ∨ x = lowest) : lowest ≤ x := by
  rcases hx with hx | rfl
  · exact single_le_of_lt (lowest_lt hx)
  · exact single_le_refl rfl

theorem RoundsBelow.ge_lowest (h : RoundsBelow v x) : Number.lowest ≤ x := by
  cases h with
  | rounds h => exact lowest_le (.inl h.isFinite)
  | lowest r hr hlow hx => exact lowest_le (.inr hx)

theorem RoundsBelow.le (hx : RoundsBelow v x) (hy : RoundsBelow w y) (h : v < w) : x ≤ y := by
  cases hx with
  | rounds hx =>
    cases hy with
    | rounds hy =>
      exact (single_le_iff_value hx.isFinite hy.isFinite).2 (hx.nearest.mono hy.nearest h)
    | lowest t ht hlow hy =>
      have hle := hx.nearest.mono ht h
      have hlarge := (abs_le.1 (abs_value_le_largest hx.isFinite)).1
      linarith
  | lowest r hr hlow hx =>
    rw [hx]
    cases hy with
    | rounds hy => exact lowest_le (.inl hy.isFinite)
    | lowest t ht hlow hy => exact lowest_le (.inr hy)

/-- **Differences from a number that is not exceeded are monotone.** -/
theorem sub_le_sub_of_finite (ha : a.isFinite = true) (hb : b.isFinite = true)
    (hc : c.isFinite = true) (hab : value a ≤ value b) (hbc : value b ≤ value c) :
    a - c ≤ b - c := by
  have hleft := roundsBelow_sub ha hc (hab.trans hbc)
  rcases hab.lt_or_eq with hlt | heq
  · exact hleft.le (roundsBelow_sub hb hc hbc) (sub_lt_sub_right hlt _)
  · by_cases hzero : value a = 0
    · -- zeros, of any sign, leave the other number
      have hexact : ∀ {x : Float32}, x.isFinite = true → value x = 0 →
          Within (-value c) (-value c) (x - c) := by
        intro x hx hx0
        have hvalue : value x - value c = -value c := by rw [hx0, zero_sub]
        exact within_sub hx hc (storable_value hc).neg (storable_value hc).neg hvalue.ge hvalue.le
      have hleft := hexact ha hzero
      have hright := hexact hb (heq ▸ hzero)
      rw [single_le_iff_value hleft.isFinite hright.isFinite, hleft.eq, hright.eq]
    · rw [← eq_of_value ha hb heq hzero]
      exact single_le_refl hleft.isNaN

theorem lowest_sub (hc : c.isFinite = true) : lowest - c = lowest := by
  show Float32.ofModel (.pack (UnpackedFloat.sub .binary32 (.infinity .negative) _)) = lowest
  obtain ⟨s, hzero⟩ | ⟨s, m, e, hm, hfinite, -⟩ := (canonical_unpack hc).zero_or_finite
  · rw [hzero]
    rfl
  · rw [hfinite]
    rfl

/-! ## Quotients -/

theorem abs_div_le_largest (ha : 0 ≤ value a) (hac : value a ≤ value c) (hc : 0 < value c) :
    |value a / value c| ≤ largest := by
  rw [abs_of_nonneg (div_nonneg ha hc.le)]
  exact ((div_le_one hc).2 hac).trans (by norm_num [largest])

/-- Quotients by a positive number that is not exceeded are monotone. -/
theorem value_div_le_div (ha : a.isFinite = true) (hb : b.isFinite = true) (hc : c.isFinite = true)
    (ha0 : 0 ≤ value a) (hab : value a ≤ value b) (hbc : value b ≤ value c) (hc0 : 0 < value c) :
    value (a / c) ≤ value (b / c) := by
  rcases hab.lt_or_eq with hlt | heq
  · have hleft := rounds_div ha hc hc0.ne' (abs_div_le_largest ha0 (hab.trans hbc) hc0)
    have hright := rounds_div hb hc hc0.ne' (abs_div_le_largest (ha0.trans hab) hbc hc0)
    exact hleft.nearest.mono hright.nearest (div_lt_div_of_pos_right hlt hc0)
  · by_cases hzero : value a = 0
    · have hexact : ∀ {x : Float32}, x.isFinite = true → value x = 0 → Within 0 0 (x / c) := by
        intro x hx hx0
        have hvalue : value x / value c = 0 := by rw [hx0, zero_div]
        exact within_div hx hc storable_zero storable_zero hc0.ne' hvalue.ge hvalue.le
      rw [(hexact ha hzero).eq, (hexact hb (heq ▸ hzero)).eq]
    · rw [eq_of_value ha hb heq hzero]

/-! ## Numbers without a sign -/

/-- The sign of a number, zeros included. -/
def signOf : UnpackedFloat → Sign
  | .finite s _ _ _ | .zero s | .infinity s => s
  | .notANumber => .positive

theorem signOf_div {u u' : UnpackedFloat} (hu : Canonical u) (hu' : Canonical u')
    (hne : valueOf u' ≠ 0) :
    signOf (UnpackedFloat.div .binary32 u u') = signOf u / signOf u' := by
  obtain ⟨s', rfl⟩ | ⟨s', m', e', hm', rfl, -⟩ := hu'.zero_or_finite
  · exact absurd rfl hne
  · obtain ⟨s, rfl⟩ | ⟨s, m, e, hm, rfl, -⟩ := hu.zero_or_finite
    · rfl
    · simp only [UnpackedFloat.div, roundWithAccuracy]
      split
      · rfl
      · rfl

/-- A finite number that is neither negative nor a negative zero. -/
structure Unsigned (x : Float32) : Prop where
  isFinite : x.isFinite = true
  sign : signOf x.toModel.unpack = .positive

theorem Unsigned.unpack_of_value (ha : Unsigned a) (h : value a = 0) :
    a.toModel.unpack = .zero .positive := by
  have hsign := ha.sign
  have hcanonical := canonical_unpack ha.isFinite
  rw [value] at h
  generalize a.toModel.unpack = u at *
  obtain ⟨s, rfl⟩ | ⟨s, m, e, hm, rfl, -⟩ := hcanonical.zero_or_finite
  · exact congrArg UnpackedFloat.zero hsign
  · cases s with
    | negative => cases hsign
    | positive => exact absurd h (signed_positive_pos hm).ne'

/-- Equal numbers without a sign are the same number. -/
theorem Unsigned.eq (ha : Unsigned a) (hb : Unsigned b) (h : value a = value b) : a = b := by
  by_cases hzero : value a = 0
  · apply orderKey_injective
    rw [orderKey_eq ha.isFinite, orderKey_eq hb.isFinite, ha.unpack_of_value hzero,
      hb.unpack_of_value (h ▸ hzero)]
  · exact eq_of_value ha.isFinite hb.isFinite h hzero

theorem unsigned_of_ne (ha : a.isFinite = true) (h0 : 0 ≤ value a) (hne : a ≠ -0.0) :
    Unsigned a := by
  refine ⟨ha, ?_⟩
  have hkey := orderKey_eq ha
  have hcanonical := canonical_unpack ha
  rw [value] at h0
  generalize a.toModel.unpack = u at *
  obtain ⟨s, rfl⟩ | ⟨s, m, e, hm, rfl, -⟩ := hcanonical.zero_or_finite
  · cases s with
    | negative => exact absurd (orderKey_injective hkey) hne
    | positive => rfl
  · cases s with
    | negative => exact absurd h0 (signed_negative_neg hm).not_ge
    | positive => rfl

theorem unsigned_of_pos (ha : a.isFinite = true) (h : 0 < value a) : Unsigned a := by
  refine unsigned_of_ne ha h.le ?_
  rintro rfl
  exact h.ne' rfl

theorem unsigned_single {n : Nat} (hn : n ≤ 2 ^ 24) : Unsigned (single n) := by
  rcases n.eq_zero_or_pos with rfl | hpos
  · exact ⟨rfl, rfl⟩
  · refine unsigned_of_pos (rounds_single (by omega)).isFinite ?_
    rw [value_single hn]
    exact_mod_cast hpos

/-- Zero times a number without a sign is zero. -/
theorem Unsigned.zero_mul (ha : Unsigned a) : 0 * a = 0 := by
  have hcanonical := canonical_unpack ha.isFinite
  have hsign := ha.sign
  show Float32.ofModel (.pack (UnpackedFloat.mul .binary32 (.zero .positive) a.toModel.unpack)) = 0
  generalize a.toModel.unpack = u at *
  obtain ⟨s, rfl⟩ | ⟨s, m, e, hm, rfl, -⟩ := hcanonical.zero_or_finite
  · obtain rfl : s = .positive := hsign
    rfl
  · obtain rfl : s = .positive := hsign
    rfl

/-- The difference of a finite number and itself is zero, without a sign. -/
theorem single_sub_self (ha : a.isFinite = true) : a - a = 0 := by
  have hcanonical := canonical_unpack ha
  show Float32.ofModel (.pack (UnpackedFloat.sub .binary32 a.toModel.unpack a.toModel.unpack)) = 0
  generalize a.toModel.unpack = u at *
  obtain ⟨s, rfl⟩ | ⟨s, m, e, hm, rfl, -⟩ := hcanonical.zero_or_finite
  · cases s <;> rfl
  · simp only [UnpackedFloat.sub, UnpackedFloat.normalize, sub_self]
    rfl

theorem unsigned_div (ha : Unsigned a) (hb : Unsigned b) (hne : value b ≠ 0)
    (hle : |value a / value b| ≤ largest) : Unsigned (a / b) := by
  have hcanonical := canonical_unpack ha.isFinite
  have hcanonical' := canonical_unpack hb.isFinite
  obtain ⟨hquotient, hnearest⟩ := div_nearest hcanonical hcanonical' hne
  refine ⟨(rounds_div ha.isFinite hb.isFinite hne hle).isFinite, ?_⟩
  show signOf (UnpackedFloat.unpack .binary32 (UnpackedFloat.pack .binary32 _)) = _
  rw [unpack_pack hquotient (hnearest.magnitude_le onGrid_largest hle),
    signOf_div hcanonical hcanonical' hne, ha.sign, hb.sign]
  rfl

/-! ## Sums of numbers up to one -/

/-- Adding a number up to one makes a sum no smaller, and does not lift it above `2 ^ 25`. -/
theorem within_add_small (ha : Within 0 (2 ^ 25) a) (hb : Within 0 1 b) :
    Within (value a) (2 ^ 25) (a + b) ∧ value b ≤ value (a + b) := by
  have hsum : |value a| ≤ 2 ^ ((1 : Int) + 24) := by
    rw [abs_of_nonneg ha.ge]
    exact ha.le.trans (by norm_num)
  have hsmall : |value b| < 2 ^ (1 : Int) := by
    rw [abs_of_nonneg hb.ge]
    exact hb.le.trans_lt (by norm_num)
  obtain ⟨hrounds, hupper⟩ :=
    rounds_add_of_abs_lt ha.isFinite hb.isFinite (by norm_num) (by norm_num) hsum hsmall
  have hleft := hrounds.nearest.ge (storable_value ha.isFinite).onGrid
    (le_add_of_nonneg_right hb.ge)
  have hright := hrounds.nearest.ge (storable_value hb.isFinite).onGrid
    (le_add_of_nonneg_left ha.ge)
  exact ⟨⟨hrounds.isFinite, hleft, (le_abs_self _).trans (hupper.trans (by norm_num))⟩, hright⟩

/-- **A sum of numbers up to one is finite and no smaller than any of them.** -/
theorem within_foldl_add {numbers : List Float32} (h : ∀ x ∈ numbers, Within 0 1 x)
    (ha : Within 0 (2 ^ 25) a) :
    Within (value a) (2 ^ 25) (numbers.foldl (· + ·) a) ∧
      ∀ x ∈ numbers, value x ≤ value (numbers.foldl (· + ·) a) := by
  induction numbers generalizing a with
  | nil => exact ⟨⟨ha.isFinite, le_rfl, ha.le⟩, by simp⟩
  | cons b rest ih =>
    obtain ⟨hb, hrest⟩ := List.forall_mem_cons.1 h
    obtain ⟨hnext, hlarge⟩ := within_add_small ha hb
    obtain ⟨htotal, hall⟩ := ih hrest (hnext.mono ha.ge le_rfl)
    refine ⟨htotal.mono hnext.ge le_rfl, List.forall_mem_cons.2 ⟨?_, hall⟩⟩
    exact hlarge.trans htotal.ge

end ImageLabeling.Number
