import ImageLabeling.Proofs.Number.Dyadic
import ImageLabeling.Parsing.Upsample

/-!
# Sampling positions

An output position `o` of an axis with `d` steps is placed at `o * n / d` on an axis of `n` steps.
The quotient is computed in single precision, and rounding moves it by less than `1 / d` as long as
`n * d` does not exceed `2 ^ 24` (`Nearest.abs_sub_le`). So it reaches a whole number only if the
exact quotient is one (`eq_mul_of_value_source`), its whole part is that of the division with
remainder (`floor_source`), and its fraction, which is computed without another rounding
(`weight_source`), vanishes exactly if there is no remainder (`samplePoint_eq`).
-/

namespace ImageLabeling

open Number

variable {o n d k : Nat}

/-! ## The rounded quotient -/

section

variable (hsize : n * d ≤ 2 ^ 24) (hn : 0 < n) (hd : 0 < d) (ho : o ≤ d)
include hsize hn hd ho

/-- The rounded quotient that places an output position on an axis of input positions. -/
theorem rounds_source :
    Rounds ((o * n : Nat) / d) (single o * single n / single d) ∧
      Unsigned (single o * single n / single d) := by
  have hn' : n ≤ 2 ^ 24 := (Nat.le_mul_of_pos_right n hd).trans hsize
  have hd' : d ≤ 2 ^ 24 := (Nat.le_mul_of_pos_left d hn).trans hsize
  have hon : o * n ≤ 2 ^ 24 := (Nat.mul_le_mul_right n ho).trans (by rwa [Nat.mul_comm])
  have hproduct := (isDyadic_single hn').mul hn hon (by norm_num)
  have hdivisor := isDyadic_single hd'
  have hne : value (single d) ≠ 0 := by
    rw [value_single hd']
    exact_mod_cast hd.ne'
  have hquotient : value (single o * single n) / value (single d) = (o * n : Nat) / d := by
    rw [hproduct.value_eq, hdivisor.value_eq, pow_zero, div_one, div_one]
  have hlarge : |value (single o * single n) / value (single d)| ≤ largest := by
    rw [hquotient, abs_of_nonneg (by positivity)]
    refine (div_le_self (by positivity) (by exact_mod_cast hd)).trans ?_
    exact (le_abs_self _).trans (storable_natCast hon).abs_le
  have hunsigned : Unsigned (single o * single n) := by
    rcases o.eq_zero_or_pos with rfl | hpos
    · exact (unsigned_single hn').zero_mul ▸ unsigned_single (Nat.zero_le _)
    · refine unsigned_of_pos hproduct.isFinite ?_
      rw [hproduct.value_eq, pow_zero, div_one]
      exact_mod_cast Nat.mul_pos hpos hn
  rw [← hquotient]
  exact ⟨rounds_div hproduct.isFinite hdivisor.isFinite hne hlarge,
    unsigned_div hunsigned (unsigned_single hd') hne hlarge⟩

section

variable {source : Float32} (hsource : Rounds ((o * n : Nat) / d) source)
include hsource

omit hn in
/-- A quotient that is a whole number is exact. -/
theorem value_source (h : o * n = k * d) : value source = k := by
  have hpos : (0 : ℚ) < d := by exact_mod_cast hd
  have hk : k ≤ n := by
    refine Nat.le_of_mul_le_mul_right (h.symm.trans_le ?_) hd
    exact (Nat.mul_le_mul_right n ho).trans_eq (Nat.mul_comm d n)
  have hquotient : ((o * n : Nat) : ℚ) / d = k := by
    rw [h, Nat.cast_mul, mul_div_cancel_right₀ _ hpos.ne']
  have hnearest := hsource.nearest
  rw [hquotient] at hnearest
  exact hnearest.eq (onGrid_natCast (hk.trans ((Nat.le_mul_of_pos_right n hd).trans hsize)))

/-- **A rounded quotient is a whole number only if the exact one is.** The exact quotient is at
least `1 / d` away from a whole number that it is not, which is more than rounding moves it. -/
theorem eq_mul_of_value_source (hk : value source = k) : o * n = k * d := by
  have hpos : (0 : ℚ) < d := by exact_mod_cast hd
  have hexact : ∀ j, o * n = j * d → o * n = k * d := by
    intro j hj
    have hjk : (j : ℚ) = k := (value_source hsize hd ho hsource hj).symm.trans hk
    rw [hj, Nat.cast_injective hjk]
  rcases (Nat.mul_le_mul_right n ho).lt_or_eq with hinner | hlast
  · rcases (o * n).eq_zero_or_pos with hzero | hfirst
    · exact hexact 0 (by rw [hzero, Nat.zero_mul])
    · have hstep : (1 : ℚ) / 2 ^ 24 ≤ (o * n : Nat) / d := by
        have hd' : d ≤ 2 ^ 24 := (Nat.le_mul_of_pos_left d hn).trans hsize
        rw [div_le_div_iff₀ (by norm_num) hpos]
        exact_mod_cast (by omega : 1 * d ≤ o * n * 2 ^ 24)
      have hleast : (2 : ℚ) ^ (-126 : Int) ≤ 1 / 2 ^ 24 := by norm_num
      have hmoved := hsource.nearest.abs_sub_le (hleast.trans hstep)
      rw [hk] at hmoved
      have hapart : |(k : ℚ) * d - (o * n : Nat)| < 1 := by
        calc |(k : ℚ) * d - (o * n : Nat)| = |(k : ℚ) - (o * n : Nat) / d| * d := by
              rw [← abs_of_pos hpos, ← abs_mul, abs_of_pos hpos, sub_mul,
                div_mul_cancel₀ _ hpos.ne']
          _ ≤ (o * n : Nat) / d / 2 ^ 24 * d := mul_le_mul_of_nonneg_right hmoved hpos.le
          _ = (o * n : Nat) / 2 ^ 24 := by field_simp
          _ < 1 := by
              rw [div_lt_one (by norm_num)]
              exact_mod_cast hinner.trans_le ((Nat.mul_comm d n).trans_le hsize)
      have hwhole : |(k * d : Int) - (o * n : Nat)| < 1 := by exact_mod_cast hapart
      exact_mod_cast (sub_eq_zero.1 (Int.abs_lt_one_iff.1 hwhole)).symm
  · exact hexact n (hlast.trans (Nat.mul_comm d n))

/-- The whole part of the rounded quotient is the quotient of the division with remainder. -/
theorem floor_source :
    0 ≤ value source ∧ value source ≤ n ∧ ⌊value source⌋₊ = o * n / d := by
  have hpos : (0 : ℚ) < d := by exact_mod_cast hd
  have hn' : n ≤ 2 ^ 24 := (Nat.le_mul_of_pos_right n hd).trans hsize
  have hlength : o * n / d ≤ n := Nat.div_le_of_le_mul (Nat.mul_le_mul_right n ho)
  have hupper : value source ≤ n := by
    refine hsource.nearest.le (onGrid_natCast hn') ?_
    rw [div_le_iff₀ hpos]
    exact_mod_cast (Nat.mul_le_mul_right n ho).trans_eq (Nat.mul_comm d n)
  have hlower : ((o * n / d : Nat) : ℚ) ≤ value source :=
    hsource.nearest.ge (onGrid_natCast (hlength.trans hn')) Nat.cast_div_le
  refine ⟨(Nat.cast_nonneg _).trans hlower, hupper, ?_⟩
  rw [Nat.floor_eq_iff ((Nat.cast_nonneg _).trans hlower)]
  refine ⟨hlower, ?_⟩
  have hrest : o * n < (o * n / d + 1) * d := Nat.lt_mul_of_div_lt (Nat.lt_succ_self _) hd
  by_contra hnext
  rw [not_lt] at hnext
  -- rounding does not pass the next whole number, and would have to reach it
  have hle : o * n / d + 1 ≤ n := by exact_mod_cast hnext.trans hupper
  have hbelow : ((o * n : Nat) : ℚ) / d ≤ (o * n / d + 1 : Nat) := by
    rw [div_le_iff₀ hpos]
    exact_mod_cast hrest.le
  have hreached : value source = (o * n / d + 1 : Nat) :=
    le_antisymm (hsource.nearest.le (onGrid_natCast (hle.trans hn')) hbelow)
      (by exact_mod_cast hnext)
  exact hrest.ne (eq_mul_of_value_source hsize hn hd ho hsource hreached)

/-! ## Weights -/

/-- The weight is the fraction of the rounded quotient, without another rounding. -/
theorem weight_source :
    (source - single (o * n / d)).isFinite = true ∧
      value (source - single (o * n / d)) = value source - (o * n / d : Nat) := by
  obtain ⟨hlower, hupper, hfloor⟩ := floor_source hsize hn hd ho hsource
  have hwhole : o * n / d ≤ 2 ^ 24 :=
    (Nat.div_le_of_le_mul (Nat.mul_le_mul_right n ho)).trans
      ((Nat.le_mul_of_pos_right n hd).trans hsize)
  have hgrid := hsource.nearest.onGrid.sub_floor hlower
  have hfraction := Nat.floor_le hlower
  have hfraction' := Nat.lt_floor_add_one (value source)
  rw [hfloor] at hgrid hfraction hfraction'
  have hstorable : Storable (value source - (o * n / d : Nat)) := by
    refine ⟨hgrid, abs_le.2 ⟨?_, ?_⟩⟩
    · have : (0 : ℚ) ≤ largest := by norm_num [largest]
      linarith
    · have : (1 : ℚ) ≤ largest := by norm_num [largest]
      linarith
  have hexact : value source - value (single (o * n / d)) = value source - (o * n / d : Nat) := by
    rw [value_single hwhole]
  have hweight := within_sub hsource.isFinite (rounds_single (by omega)).isFinite hstorable
    hstorable hexact.ge hexact.le
  exact ⟨hweight.isFinite, hweight.eq⟩

end

end

/-- The weight of the upper sample at the quotient `p / d`. -/
structure IsWeight (p d : Nat) (weight : Float32) : Prop where
  isFinite : weight.isFinite = true
  ge : 0 ≤ value weight
  lt : value weight < 1
  value_eq_zero_iff : value weight = 0 ↔ d ∣ p
  eq_zero : d ∣ p → weight = 0

/-- **Positions are found as division with remainder finds them.** -/
theorem samplePoint_eq (hsize : n * d ≤ 2 ^ 24) (hn : 0 < n) (hd : 0 < d) (ho : o ≤ d) :
    ∃ weight, samplePoint o (n + 1) (d + 1) = ⟨o * n / d, min (o * n / d + 1) n, weight⟩ ∧
      IsWeight (o * n) d weight := by
  obtain ⟨hsource, hunsigned⟩ := rounds_source hsize hn hd ho
  obtain ⟨hlower, hupper, hfloor⟩ := floor_source hsize hn hd ho hsource
  obtain ⟨hfinite, hvalue⟩ := weight_source hsize hn hd ho hsource
  have hn' : n ≤ 2 ^ 24 := (Nat.le_mul_of_pos_right n hd).trans hsize
  have hwhole : o * n / d ≤ n := Nat.div_le_of_le_mul (Nat.mul_le_mul_right n ho)
  have hpoint : samplePoint o (n + 1) (d + 1) =
      ⟨o * n / d, min (o * n / d + 1) n,
        single o * single n / single d - single (o * n / d)⟩ := by
    have hword : (single o * single n / single d).toUInt64.toNat = o * n / d := by
      rw [toNat_toUInt64 hsource.isFinite hlower, hfloor]
      exact hupper.trans_lt (by exact_mod_cast hn'.trans_lt (by norm_num))
    rw [samplePoint, if_neg (by omega)]
    simp only [Nat.add_sub_cancel, hword, Nat.min_eq_left hwhole]
  generalize single o * single n / single d = source at *
  have hreached : value source = (o * n / d : Nat) ↔ d ∣ o * n := by
    constructor
    · intro h
      exact Dvd.intro_left _ (eq_mul_of_value_source hsize hn hd ho hsource h).symm
    · intro hdvd
      exact value_source hsize hd ho hsource (Nat.div_mul_cancel hdvd).symm
  refine ⟨_, hpoint, hfinite, ?_, ?_, ?_, fun hdvd => ?_⟩
  · have := Nat.floor_le hlower
    rw [hvalue, ← hfloor]
    linarith
  · have := Nat.lt_floor_add_one (value source)
    rw [hvalue, ← hfloor]
    linarith
  · rw [hvalue, sub_eq_zero, hreached]
  · have hvalue' := value_single (hwhole.trans hn')
    have hsame : source = single (o * n / d) :=
      hunsigned.eq (unsigned_single (hwhole.trans hn')) ((hreached.2 hdvd).trans hvalue'.symm)
    rw [← hsame]
    exact single_sub_self hsource.isFinite

variable {before after : Nat}

/-- **Sampling positions are those of exact arithmetic.** On axes of two or more positions, the
lower position is the quotient of a division with remainder, the upper one follows it as long as
there is one, and the weight of the upper sample is zero exactly if nothing remains, and else
between zero and one. So positions never go back, and the ends are placed on each other. -/
theorem samplePoint_exact (hbefore : 2 ≤ before) (hafter : 2 ≤ after)
    (hsize : (before - 1) * (after - 1) ≤ 2 ^ 24) :
    (∀ o < after, ∃ weight,
      samplePoint o before after =
        ⟨o * (before - 1) / (after - 1), min (o * (before - 1) / (after - 1) + 1) (before - 1),
          weight⟩ ∧
      0 ≤ weight ∧ weight < 1 ∧ (weight = 0 ↔ after - 1 ∣ o * (before - 1)) ∧
      (0 < weight ↔ ¬ after - 1 ∣ o * (before - 1))) ∧
    (∀ o o', o ≤ o' → o' < after →
      (samplePoint o before after).lower ≤ (samplePoint o' before after).lower) ∧
    samplePoint 0 before after = ⟨0, 1, 0⟩ ∧
    samplePoint (after - 1) before after = ⟨before - 1, before - 1, 0⟩ := by
  obtain ⟨n, rfl⟩ : ∃ n, before = n + 1 := ⟨before - 1, by omega⟩
  obtain ⟨d, rfl⟩ : ∃ d, after = d + 1 := ⟨after - 1, by omega⟩
  simp only [Nat.add_sub_cancel] at *
  have hpoint {o : Nat} (ho : o ≤ d) := samplePoint_eq hsize (by omega) (by omega) ho
  refine ⟨fun o ho => ?_, fun o o' hle ho' => ?_, ?_, ?_⟩
  · obtain ⟨weight, heq, hweight⟩ := hpoint (Nat.le_of_lt_succ ho)
    have hzero : (0 : Float32).isFinite = true := rfl
    have hone : (1 : Float32).isFinite = true := rfl
    have hvalue : value (1 : Float32) = 1 := value_one
    refine ⟨weight, heq, (single_le_iff_value hzero hweight.isFinite).2 hweight.ge, ?_, ?_, ?_⟩
    · rw [single_lt_iff_value hweight.isFinite hone, hvalue]
      exact hweight.lt
    · refine ⟨fun h => hweight.value_eq_zero_iff.1 ?_, hweight.eq_zero⟩
      rw [h]
      rfl
    · rw [single_lt_iff_value hzero hweight.isFinite, ← hweight.value_eq_zero_iff]
      exact hweight.ge.lt_iff_ne'
  · obtain ⟨weight, heq, -⟩ := hpoint (hle.trans (Nat.le_of_lt_succ ho'))
    obtain ⟨weight', heq', -⟩ := hpoint (Nat.le_of_lt_succ ho')
    rw [heq, heq']
    exact Nat.div_le_div_right (Nat.mul_le_mul_right n hle)
  · obtain ⟨weight, heq, hweight⟩ := hpoint d.zero_le
    have hzero : weight = 0 := hweight.eq_zero (by simp)
    rw [heq, hzero, Nat.zero_mul, Nat.zero_div, Nat.min_eq_left (by omega)]
  · obtain ⟨weight, heq, hweight⟩ := hpoint le_rfl
    have hzero : weight = 0 := hweight.eq_zero (Nat.dvd_mul_right d n)
    rw [heq, hzero, Nat.mul_div_cancel_left n (by omega), Nat.min_eq_right n.le_succ]

/-- The position just before the second of six samples: the quotient `6710885 / 3355443` is less
than `2` by `1 / 3355443` and is not rounded to it. -/
theorem samplePoint_exact_belowTwo :
    2 ≤ 6 ∧ 2 ≤ 3355444 ∧ (6 - 1) * (3355444 - 1) ≤ 2 ^ 24 ∧
      ∃ weight, samplePoint 1342177 6 3355444 = ⟨1, 2, weight⟩ ∧ 0 < weight ∧ weight < 1 := by
  have hbefore : 2 ≤ 6 := by decide
  have hafter : 2 ≤ 3355444 := by decide
  have hsize : (6 - 1) * (3355444 - 1) ≤ 2 ^ 24 := by decide
  obtain ⟨hexact, -⟩ := samplePoint_exact hbefore hafter hsize
  obtain ⟨weight, hpoint, -, hlt, -, hpos⟩ := hexact 1342177 (by decide)
  exact ⟨hbefore, hafter, hsize, weight, hpoint, hpos.2 (by decide), hlt⟩

end ImageLabeling
