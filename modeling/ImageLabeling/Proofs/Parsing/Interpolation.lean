import ImageLabeling.Proofs.Parsing.Planes
import ImageLabeling.Proofs.Parsing.Positions

/-!
# Bounds on interpolated scores

The weight of the upper sample lies between zero and one (`within_weight`), and one of the two
weights of a blend is at least a half. Blending positive samples therefore loses one
power of two at most (`within_lerp_positive`), and blending samples that are not positive gives one
that is not (`within_lerp_nonpositive`). Resizing blends along both axes
(`within_resized_positive`, `within_resized_nonpositive`).
-/

namespace ImageLabeling

open Number

/-! ## Weights -/

/-- **The weight of the upper sample lies between zero and one.** -/
theorem within_weight {o before after : Nat} (hsize : (before - 1) * (after - 1) ≤ 2 ^ 24)
    (ho : o < after) : Within 0 1 (samplePoint o before after).weight := by
  by_cases hshort : after ≤ 1 ∨ before ≤ 1
  · rw [samplePoint, if_pos hshort]
    exact within_zero.mono le_rfl zero_le_one
  · obtain ⟨n, rfl⟩ : ∃ n, before = n + 1 := ⟨before - 1, by omega⟩
    obtain ⟨d, rfl⟩ : ∃ d, after = d + 1 := ⟨after - 1, by omega⟩
    simp only [Nat.add_sub_cancel] at hsize
    obtain ⟨weight, hpoint, hweight⟩ :=
      samplePoint_eq hsize (by omega) (by omega) (Nat.le_of_lt_succ ho)
    rw [hpoint]
    exact ⟨hweight.isFinite, hweight.ge, hweight.lt.le⟩

/-! ## One blend -/

variable {a b w : Float32} {p q : Int}

/-- The weight of the lower sample, which is at least a half if that of the upper sample is not. -/
theorem within_complement (hw : Within 0 1 w) :
    Within 0 1 (1.0 - w) ∧ (value w ≤ 1 / 2 → 1 / 2 ≤ value (1.0 - w)) := by
  have hone : (1.0 : Float32).isFinite = true := rfl
  have hge := hw.ge
  have hle := hw.le
  refine ⟨within_sub hone hw.isFinite storable_zero storable_one ?_ ?_, fun hhalf => ?_⟩
  · rw [value_one]
    linarith
  · rw [value_one]
    linarith
  · have hstorable : Storable (1 / 2) := by
      rw [one_div, ← zpow_neg_one]
      exact storable_two_zpow (by norm_num) (by norm_num)
    refine (within_sub hone hw.isFinite hstorable storable_one ?_ ?_).ge
    · rw [value_one]
      linarith
    · rw [value_one]
      linarith

theorem two_zpow_succ (e : Int) : (2 : ℚ) ^ (e + 1) = 2 * 2 ^ e := by
  rw [zpow_add_one₀ (by norm_num), mul_comm]

theorem two_zpow_pred (e : Int) : (2 : ℚ) ^ (e - 1) = 2 ^ e / 2 :=
  zpow_sub_one₀ (by norm_num) e

/-- A positive sample times a weight is at least half the sample if the weight is at least a half.
-/
theorem within_mul_weight_positive (hp : -149 < p) (hq : q ≤ 127) (ha : Within (2 ^ p) (2 ^ q) a)
    (hw : Within 0 1 w) :
    Within 0 (2 ^ q) (a * w) ∧ (1 / 2 ≤ value w → 2 ^ (p - 1) ≤ value (a * w)) := by
  have hpos := two_zpow_pos p
  have hpq : p ≤ q := (zpow_le_zpow_iff_right₀ (by norm_num)).1 (ha.ge.trans ha.le)
  have hge := ha.ge
  have hupper : value a * value w ≤ 2 ^ q :=
    (mul_le_of_le_one_right (hpos.le.trans hge) hw.le).trans ha.le
  have hstorable := storable_two_zpow (show -149 ≤ q by omega) hq
  refine ⟨within_mul ha.isFinite hw.isFinite storable_zero hstorable
    (mul_nonneg (hpos.le.trans hge) hw.ge) hupper, fun hhalf => ?_⟩
  refine (within_mul ha.isFinite hw.isFinite (storable_two_zpow (by omega) (by omega)) hstorable ?_
    hupper).ge
  rw [two_zpow_pred, div_eq_mul_one_div]
  exact mul_le_mul hge hhalf (by norm_num) (hpos.le.trans hge)

theorem within_mul_weight_nonpositive (hlower : -149 ≤ q) (hupper : q ≤ 127)
    (ha : Within (-2 ^ q) 0 a) (hw : Within 0 1 w) : Within (-2 ^ q) 0 (a * w) := by
  refine within_mul ha.isFinite hw.isFinite (storable_two_zpow hlower hupper).neg storable_zero ?_
    (mul_nonpos_of_nonpos_of_nonneg ha.le hw.ge)
  have := mul_le_of_le_one_right (neg_nonneg.2 ha.le) hw.le
  have := ha.ge
  linarith

/-- **A blend of positive samples is at least half as large as the smaller one.** -/
theorem within_lerp_positive (hp : -149 < p) (hq : q < 127) (ha : Within (2 ^ p) (2 ^ q) a)
    (hb : Within (2 ^ p) (2 ^ q) b) (hw : Within 0 1 w) :
    Within (2 ^ (p - 1)) (2 ^ (q + 1)) (lerp a b w) := by
  have hpq : p ≤ q := (zpow_le_zpow_iff_right₀ (by norm_num)).1 (ha.ge.trans ha.le)
  obtain ⟨hcomplement, hhalf⟩ := within_complement hw
  obtain ⟨hleft, hleft'⟩ := within_mul_weight_positive hp hq.le ha hcomplement
  obtain ⟨hright, hright'⟩ := within_mul_weight_positive hp hq.le hb hw
  have hlower : 2 ^ (p - 1) ≤ value (a * (1.0 - w)) + value (b * w) := by
    have hge := hleft.ge
    have hge' := hright.ge
    rcases le_total (value w) (1 / 2) with hsmall | hlarge
    · have := hleft' (hhalf hsmall)
      linarith
    · have := hright' hlarge
      linarith
  refine within_add hleft.isFinite hright.isFinite (storable_two_zpow (by omega) (by omega))
    (storable_two_zpow (by omega) (by omega)) hlower ?_
  rw [two_zpow_succ, two_mul]
  exact add_le_add hleft.le hright.le

theorem within_lerp_nonpositive (hlower : -149 ≤ q) (hupper : q < 127) (ha : Within (-2 ^ q) 0 a)
    (hb : Within (-2 ^ q) 0 b) (hw : Within 0 1 w) : Within (-2 ^ (q + 1)) 0 (lerp a b w) := by
  have hleft := within_mul_weight_nonpositive hlower hupper.le ha (within_complement hw).1
  have hright := within_mul_weight_nonpositive hlower hupper.le hb hw
  refine within_add hleft.isFinite hright.isFinite (storable_two_zpow (by omega) (by omega)).neg
    storable_zero ?_ (add_nonpos hleft.le hright.le)
  rw [two_zpow_succ, two_mul, neg_add]
  exact add_le_add hleft.ge hright.ge

/-! ## Resized planes -/

namespace Scores

variable {s : Scores} {c height width y x : Nat}

/-- Where planes are not copied, they are blended from the samples around each pixel. -/
theorem score_blend (hc : c < s.classes) (hy : y < height) (hx : x < width) :
    (s.blend height width).score c y x =
      s.sampleAt c (samplePoint y s.height height) (samplePoint x s.width width) := by
  rw [blend, score_ofFn _ hc hy hx]
  simp [Array.getD, hy, hx]

/-- What holds of the samples of a class, and after a blend along each axis, holds of the resized
planes. -/
theorem resized_of_lerp {P Q R : Float32 → Prop}
    (hcolumns : ∀ {a b w}, P a → P b → Within 0 1 w → Q (lerp a b w))
    (hrows : ∀ {a b w}, Q a → Q b → Within 0 1 w → R (lerp a b w)) (hcopied : ∀ {a}, P a → R a)
    (hheight : 0 < s.height) (hwidth : 0 < s.width)
    (hheight' : (s.height - 1) * (height - 1) ≤ 2 ^ 24)
    (hwidth' : (s.width - 1) * (width - 1) ≤ 2 ^ 24)
    (hsamples : ∀ i < s.height, ∀ j < s.width, P (s.score c i j)) (hc : c < s.classes)
    (hy : y < height) (hx : x < width) : R ((s.resized height width).score c y x) := by
  unfold resized
  split
  case isTrue hsame => exact hcopied (hsamples y (hsame.1 ▸ hy) x (hsame.2 ▸ hx))
  case isFalse =>
    obtain ⟨htop, hbottom⟩ := samplePoint_lt hheight y height
    obtain ⟨hleft, hright⟩ := samplePoint_lt hwidth x width
    have hrow := within_weight hheight' hy
    have hcolumn := within_weight hwidth' hx
    rw [score_blend hc hy hx, sampleAt]
    refine hrows (hcolumns ?_ ?_ hcolumn) (hcolumns ?_ ?_ hcolumn) hrow
    · exact hsamples _ htop _ hleft
    · exact hsamples _ htop _ hright
    · exact hsamples _ hbottom _ hleft
    · exact hsamples _ hbottom _ hright

section

variable (hheight : 0 < s.height) (hwidth : 0 < s.width)
  (hheight' : (s.height - 1) * (height - 1) ≤ 2 ^ 24)
  (hwidth' : (s.width - 1) * (width - 1) ≤ 2 ^ 24) (hc : c < s.classes) (hy : y < height)
  (hx : x < width)
include hheight hwidth hheight' hwidth' hc hy hx

/-- **Resizing positive samples loses two powers of two at most.** -/
theorem within_resized_positive (hp : -148 < p) (hq : q < 126)
    (h : ∀ i < s.height, ∀ j < s.width, Within (2 ^ p) (2 ^ q) (s.score c i j)) :
    Within (2 ^ (p - 2)) (2 ^ (q + 2)) ((s.resized height width).score c y x) := by
  refine resized_of_lerp (within_lerp_positive (by omega) (by omega)) (fun ha hb hw => ?_)
    (fun ha => ?_) hheight hwidth hheight' hwidth' h hc hy hx
  · have hblend := within_lerp_positive (by omega) (by omega) ha hb hw
    rwa [show p - 1 - 1 = p - 2 by omega, show q + 1 + 1 = q + 2 by omega] at hblend
  · refine ha.mono (zpow_le_zpow_right₀ (by norm_num) (by omega)) ?_
    exact zpow_le_zpow_right₀ (by norm_num) (by omega)

/-- **Resizing samples that are not positive gives none that is.** -/
theorem within_resized_nonpositive (hlower : -149 ≤ q) (hupper : q < 126)
    (h : ∀ i < s.height, ∀ j < s.width, Within (-2 ^ q) 0 (s.score c i j)) :
    Within (-2 ^ (q + 2)) 0 ((s.resized height width).score c y x) := by
  refine resized_of_lerp (within_lerp_nonpositive hlower (by omega)) (fun ha hb hw => ?_)
    (fun ha => ?_) hheight hwidth hheight' hwidth' h hc hy hx
  · have hblend := within_lerp_nonpositive (by omega) (by omega) ha hb hw
    rwa [show q + 1 + 1 = q + 2 by omega] at hblend
  · refine ha.mono (neg_le_neg ?_) le_rfl
    exact zpow_le_zpow_right₀ (by norm_num) (by omega)

end

end Scores

end ImageLabeling
