import ImageLabeling.Proofs.Parsing.Flips
import ImageLabeling.Proofs.Parsing.Interpolation
import ImageLabeling.Proofs.Parsing.Summation

/-!
# Samples that survive resizing

An output position that is placed on a position of the input (`Aligned`) reads that position, with
weight zero for the next one (`samplePoint_of_aligned`). A blend with weight zero is the first
sample, whatever finite number the other is (`within_lerp_zero`), so a pixel that is aligned along
both axes has the score of the sample it is placed on (`blend_of_aligned`). Classes are resized
apart from each other (`resized_congr`), so resizing and exchanging the sides commute
(`swapped_resized`).
-/

namespace ImageLabeling

open Number

/-! ## Aligned positions -/

/-- Output position `o` of an axis of length `after` is placed on position `i` of an axis of length
`before`: the ends of the two axes are placed on each other, as long as they have two. -/
def Aligned (o before after i : Nat) : Prop :=
  if 2 ≤ before ∧ 2 ≤ after then i * (after - 1) = o * (before - 1) else i = 0

variable {o before after i : Nat}

theorem aligned_first (before after : Nat) : Aligned 0 before after 0 := by
  simp [Aligned]

theorem aligned_last (hbefore : 2 ≤ before) (hafter : 2 ≤ after) :
    Aligned (after - 1) before after (before - 1) := by
  rw [Aligned, if_pos ⟨hbefore, hafter⟩, Nat.mul_comm]

/-- The first or the last position of an axis. -/
def endOf (length : Nat) (last : Bool) : Nat :=
  if last then length - 1 else 0

/-- The ends of two axes are placed on each other. -/
theorem aligned_endOf (hbefore : 2 ≤ before) (hafter : 2 ≤ after) (last : Bool) :
    endOf after last < after ∧ Aligned (endOf after last) before after (endOf before last) := by
  cases last with
  | false => exact ⟨by simp [endOf]; omega, aligned_first before after⟩
  | true => exact ⟨by simp [endOf]; omega, aligned_last hbefore hafter⟩

/-- Between axes of the same length every position is placed on itself. -/
theorem aligned_self_iff (ho : o < before) : Aligned o before before i ↔ i = o := by
  unfold Aligned
  split
  case isTrue hlong => exact Nat.mul_left_inj (by omega)
  case isFalse => omega

theorem Aligned.lt (h : Aligned o before after i) (ho : o < after) (hbefore : 0 < before) :
    i < before := by
  unfold Aligned at h
  split at h
  case isTrue hlong =>
    have hle : i * (after - 1) ≤ (before - 1) * (after - 1) := by
      rw [h, Nat.mul_comm]
      exact Nat.mul_le_mul_left _ (by omega)
    have := Nat.le_of_mul_le_mul_right hle (by omega)
    omega
  case isFalse => omega

/-- Every position of the input is one that an output position is placed on: it has a single
position, or there are several output positions and the steps between them divide its steps. -/
def Covers (before after : Nat) : Prop :=
  before ≤ 1 ∧ 0 < after ∨ 2 ≤ after ∧ before - 1 ∣ after - 1

theorem Covers.exists_aligned (h : Covers before after) (hi : i < before) :
    ∃ o < after, Aligned o before after i := by
  rcases h with ⟨hsingle, hafter⟩ | ⟨hafter, k, hk⟩
  · obtain rfl : i = 0 := by omega
    exact ⟨0, hafter, aligned_first before after⟩
  · refine ⟨i * k, ?_, ?_⟩
    · have hle : i * k ≤ (before - 1) * k := Nat.mul_le_mul_right k (by omega)
      omega
    · unfold Aligned
      split
      case isTrue => rw [hk, Nat.mul_assoc, Nat.mul_comm k]
      case isFalse => omega

/-- An aligned position is read as it is. -/
theorem samplePoint_of_aligned (hsize : (before - 1) * (after - 1) ≤ 2 ^ 24) (ho : o < after)
    (h : Aligned o before after i) :
    (samplePoint o before after).lower = i ∧ Within 0 0 (samplePoint o before after).weight := by
  unfold Aligned at h
  split at h
  case isTrue hlong =>
    obtain ⟨n, rfl⟩ : ∃ n, before = n + 1 := ⟨before - 1, by omega⟩
    obtain ⟨d, rfl⟩ : ∃ d, after = d + 1 := ⟨after - 1, by omega⟩
    simp only [Nat.add_sub_cancel] at h hsize
    obtain ⟨weight, hpoint, hweight⟩ :=
      samplePoint_eq hsize (by omega) (by omega) (Nat.le_of_lt_succ ho)
    have hzero : value weight = 0 := hweight.value_eq_zero_iff.2 (Dvd.intro_left i h)
    rw [hpoint, ← h]
    exact ⟨Nat.mul_div_cancel i (by omega), hweight.isFinite, hzero.ge, hzero.le⟩
  case isFalse hshort =>
    rw [samplePoint, if_pos (by omega)]
    exact ⟨h.symm, within_zero⟩

/-! ## Blends with weight zero -/

variable {a b w : Float32}

/-- **A weight of zero leaves the first sample alone**, as long as the other is finite. -/
theorem within_lerp_zero (ha : a.isFinite = true) (hb : b.isFinite = true) (hw : Within 0 0 w) :
    Within (value a) (value a) (lerp a b w) := by
  have hone : (1.0 : Float32).isFinite = true := rfl
  have hstorable := storable_value ha
  have hcomplement : Within 1 1 (1.0 - w) := by
    have hexact : value 1.0 - value w = 1 := by rw [value_one, hw.eq, sub_zero]
    exact within_sub hone hw.isFinite storable_one storable_one hexact.ge hexact.le
  have hleft : Within (value a) (value a) (a * (1.0 - w)) := by
    have hexact : value a * value (1.0 - w) = value a := by rw [hcomplement.eq, mul_one]
    exact within_mul ha hcomplement.isFinite hstorable hstorable hexact.ge hexact.le
  have hright : Within 0 0 (b * w) := by
    have hexact : value b * value w = 0 := by rw [hw.eq, mul_zero]
    exact within_mul hb hw.isFinite storable_zero storable_zero hexact.ge hexact.le
  have hsum : value (a * (1.0 - w)) + value (b * w) = value a := by
    rw [hleft.eq, hright.eq, add_zero]
  exact within_add hleft.isFinite hright.isFinite hstorable hstorable hsum.ge hsum.le

namespace Scores

variable {s t : Scores} {height width c : Nat}

/-- All scores are finite. -/
def Finite (s : Scores) : Prop :=
  ∀ c < s.classes, ∀ i < s.height, ∀ j < s.width, (s.score c i j).isFinite = true

section

variable (hfinite : s.Finite) (hheight : 0 < s.height) (hwidth : 0 < s.width)
  (hrows : (s.height - 1) * (height - 1) ≤ 2 ^ 24) (hcolumns : (s.width - 1) * (width - 1) ≤ 2 ^ 24)
include hfinite hheight hwidth hrows hcolumns

/-- **Aligned pixels are blended to the samples they are placed on.** -/
theorem blend_of_aligned (hc : c < s.classes) {y x i j : Nat} (hy : y < height) (hx : x < width)
    (hi : Aligned y s.height height i) (hj : Aligned x s.width width j) :
    Within (value (s.score c i j)) (value (s.score c i j))
      ((s.blend height width).score c y x) := by
  obtain ⟨hlower, hrow⟩ := samplePoint_of_aligned hrows hy hi
  obtain ⟨hleft, hcolumn⟩ := samplePoint_of_aligned hcolumns hx hj
  have hbelow := (samplePoint_lt hheight y height).2
  have hright := (samplePoint_lt hwidth x width).2
  have hi' := hi.lt hy hheight
  have hj' := hj.lt hx hwidth
  rw [score_blend hc hy hx, sampleAt, hlower, hleft]
  have htop := within_lerp_zero (hfinite c hc i hi' j hj') (hfinite c hc i hi' _ hright) hcolumn
  have hbottom :=
    within_lerp_zero (hfinite c hc _ hbelow j hj') (hfinite c hc _ hbelow _ hright) hcolumn
  rw [← htop.eq]
  exact within_lerp_zero htop.isFinite hbottom.isFinite hrow

/-- Resized planes have the samples at aligned pixels, whether they are copied or blended. -/
theorem resized_of_aligned (hc : c < s.classes) {y x i j : Nat} (hy : y < height) (hx : x < width)
    (hi : Aligned y s.height height i) (hj : Aligned x s.width width j) :
    ((s.resized height width).score c y x == s.score c i j) = true := by
  have hsample := hfinite c hc i (hi.lt hy hheight) j (hj.lt hx hwidth)
  unfold resized
  split
  case isTrue hsame =>
    obtain ⟨rfl, rfl⟩ := hsame
    obtain rfl := (aligned_self_iff hy).1 hi
    obtain rfl := (aligned_self_iff hx).1 hj
    exact (single_beq_iff_value hsample hsample).2 rfl
  case isFalse =>
    have hblend := blend_of_aligned hfinite hheight hwidth hrows hcolumns hc hy hx hi hj
    exact (single_beq_iff_value hblend.isFinite hsample).2 hblend.eq

end

/-! ## Classes apart from each other -/

/-- The scores of a class in resized planes depend on the scores of that class alone. -/
theorem resized_congr {c' : Nat} (hheight : t.height = s.height) (hwidth : t.width = s.width)
    (hpos : 0 < s.height) (hpos' : 0 < s.width) (hc : c < s.classes) (hc' : c' < t.classes)
    (h : ∀ i < s.height, ∀ j < s.width, t.score c' i j = s.score c i j) {y x : Nat}
    (hy : y < height) (hx : x < width) :
    (t.resized height width).score c' y x = (s.resized height width).score c y x := by
  unfold resized
  rw [hheight, hwidth]
  split
  case isTrue hsame => exact h y (hsame.1 ▸ hy) x (hsame.2 ▸ hx)
  case isFalse =>
    obtain ⟨htop, hbottom⟩ := samplePoint_lt hpos y height
    obtain ⟨hleft, hright⟩ := samplePoint_lt hpos' x width
    rw [score_blend hc' hy hx, score_blend hc hy hx, hheight, hwidth, sampleAt, sampleAt,
      h _ htop _ hleft, h _ htop _ hright, h _ hbottom _ hleft, h _ hbottom _ hright]

/-- Resizing and exchanging the sides commute. -/
theorem Sized.swapped_resized {h w : Nat} (hs : Sized h w s) (hh : 0 < h) (hw : 0 < w)
    (height width : Nat) :
    s.swapped.resized height width = (s.resized height width).swapped := by
  have hresized := hs.resized height width
  refine (hs.swapped.resized height width).ext hresized.swapped fun c y x hc hy hx => ?_
  rw [hresized.score_swapped hc hy hx]
  have hother := sides_lt hc
  have hsame : ∀ i < s.height, ∀ j < s.width, s.swapped.score c i j = s.score (sides c) i j :=
    fun i hi j hj => hs.score_swapped hc (hs.height ▸ hi) (hs.width ▸ hj)
  have hclasses : sides c < s.classes := hs.classes ▸ hother
  have hclasses' : c < s.swapped.classes := hs.swapped.classes ▸ hc
  exact resized_congr (s := s) (t := s.swapped) rfl rfl (hs.height ▸ hh) (hs.width ▸ hw) hclasses
    hclasses' hsame hy hx

/-- The sides can be exchanged exactly for the human-parsing classes. -/
theorem swapSides_eq_ok_iff : s.swapSides = .ok t ↔ s.classes = partCount ∧ t = s.swapped := by
  by_cases hclasses : s.classes = partCount
  · rw [swapSides_of_classes hclasses]
    simp [hclasses, eq_comm]
  · simp [swapSides, hclasses]

/-- Sides are exchanged before resizing or after it, to the same effect. -/
theorem resized_swapSides_eq_ok_iff (hheight : 0 < s.height) (hwidth : 0 < s.width) {u : Scores} :
    (s.resized height width).swapSides = .ok u ↔
      ∃ t, s.swapSides = .ok t ∧ t.upsample height width = .ok u := by
  have hclasses : (s.resized height width).classes = s.classes :=
    (shape_eq_iff.1 (shape_resized s height width)).1
  have hupsample : s.swapped.upsample height width = .ok (s.swapped.resized height width) :=
    upsample_eq_resized (s := s.swapped) hheight hwidth height width
  constructor
  · intro h
    obtain ⟨hparts, rfl⟩ := swapSides_eq_ok_iff.1 h
    have hs : Sized s.height s.width s := ⟨hclasses ▸ hparts, rfl, rfl⟩
    exact ⟨_, hs.swapSides, by rw [hupsample, hs.swapped_resized hheight hwidth]⟩
  · rintro ⟨t, hswap, hu⟩
    obtain ⟨hparts, rfl⟩ := swapSides_eq_ok_iff.1 hswap
    have hs : Sized s.height s.width s := ⟨hparts, rfl, rfl⟩
    rw [hupsample] at hu
    cases hu
    rw [(hs.resized height width).swapSides, hs.swapped_resized hheight hwidth]

/-! ## Resizing with aligned corners -/

/-- **Resizing with aligned corners keeps its samples.** Planes with pixels can be resized to every
size. If their scores are finite and positions are exact numbers, every pixel that is aligned along
both axes has the score of the sample it is placed on, the sign of a zero aside. So the corners are
kept, every sample survives along axes that cover the input, and copying planes of the same size
gives what blending them would. Each class is resized by itself, so resizing and exchanging the
sides commute. -/
theorem upsample_samples {s : Scores} (hheight : 0 < s.height) (hwidth : 0 < s.width)
    (height width : Nat) :
    ∃ r, s.upsample height width = .ok r ∧ r.shape = [s.classes, height, width] ∧
      (s.Finite → (s.height - 1) * (height - 1) ≤ 2 ^ 24 →
        (s.width - 1) * (width - 1) ≤ 2 ^ 24 →
        (∀ c < s.classes, ∀ y < height, ∀ x < width, ∀ i j, Aligned y s.height height i →
          Aligned x s.width width j → (r.score c y x == s.score c i j) = true) ∧
        (2 ≤ s.height → 2 ≤ s.width → 2 ≤ height → 2 ≤ width →
          ∀ c < s.classes, ∀ bottom right : Bool,
            (r.score c (endOf height bottom) (endOf width right) ==
              s.score c (endOf s.height bottom) (endOf s.width right)) = true) ∧
        (Covers s.height height → Covers s.width width →
          ∀ c < s.classes, ∀ i < s.height, ∀ j < s.width, ∃ y < height, ∃ x < width,
            (r.score c y x == s.score c i j) = true) ∧
        (height = s.height → width = s.width → r = s ∧
          ∀ c < s.classes, ∀ y < height, ∀ x < width,
            ((s.blend height width).score c y x == r.score c y x) = true)) ∧
      (∀ t u : Scores, t.height = s.height → t.width = s.width →
        t.upsample height width = .ok u → ∀ c < s.classes, ∀ c' < t.classes,
          (∀ i < s.height, ∀ j < s.width, t.score c' i j = s.score c i j) →
          ∀ y < height, ∀ x < width, u.score c' y x = r.score c y x) ∧
      ∀ u, r.swapSides = .ok u ↔ ∃ t, s.swapSides = .ok t ∧ t.upsample height width = .ok u := by
  refine ⟨_, upsample_eq_resized hheight hwidth height width, shape_resized s height width,
    fun hfinite hrows hcolumns => ?_, fun t u hheight' hwidth' hu c hc c' hc' h y hy x hx => ?_,
    fun u => resized_swapSides_eq_ok_iff hheight hwidth⟩
  · have haligned {c y x i j : Nat} (hc : c < s.classes) (hy : y < height) (hx : x < width) :=
      resized_of_aligned (i := i) (j := j) hfinite hheight hwidth hrows hcolumns hc hy hx
    refine ⟨fun c hc y hy x hx i j => haligned hc hy hx,
      fun hh hw hh' hw' c hc bottom right => ?_, fun hcovers hcovers' c hc i hi j hj => ?_, ?_⟩
    · obtain ⟨hy, hi⟩ := aligned_endOf hh hh' bottom
      obtain ⟨hx, hj⟩ := aligned_endOf hw hw' right
      exact haligned hc hy hx hi hj
    · obtain ⟨y, hy, hi'⟩ := hcovers.exists_aligned hi
      obtain ⟨x, hx, hj'⟩ := hcovers'.exists_aligned hj
      exact ⟨y, hy, x, hx, haligned hc hy hx hi' hj'⟩
    · rintro rfl rfl
      have hcopy : s.resized s.height s.width = s := if_pos ⟨rfl, rfl⟩
      refine ⟨hcopy, fun c hc y hy x hx => ?_⟩
      have hblend := blend_of_aligned hfinite hheight hwidth hrows hcolumns hc hy hx
        ((aligned_self_iff hy).2 rfl) ((aligned_self_iff hx).2 rfl)
      rw [hcopy]
      exact (single_beq_iff_value hblend.isFinite (hfinite c hc y hy x hx)).2 hblend.eq
  · rw [upsample_eq_resized (hheight' ▸ hheight) (hwidth' ▸ hwidth)] at hu
    cases hu
    exact resized_congr hheight' hwidth' hheight hwidth hc hc' h hy hx

/-- Two rows of two samples for one class. -/
def square : Scores :=
  ofFn 1 2 2 fun _ y x => if y = 0 then (if x = 0 then 1.0 else 2.0) else if x = 0 then 3.0 else 1.0

theorem finite_square : square.Finite := by
  unfold Finite
  decide +kernel

/-- At three rows and five columns, the corners and all samples. -/
theorem upsample_samples_square :
    ∃ r, square.upsample 3 5 = .ok r ∧
      (r.score 0 2 4 == square.score 0 1 1) = true ∧
      ∀ i < 2, ∀ j < 2, ∃ y < 3, ∃ x < 5, (r.score 0 y x == square.score 0 i j) = true := by
  obtain ⟨r, hrun, -, hkept, -, -⟩ :=
    upsample_samples (s := square) (by decide) (by decide) 3 5
  obtain ⟨-, hcorners, hsamples, -⟩ := hkept finite_square (by decide) (by decide)
  have hrows : Covers square.height 3 := .inr ⟨by decide, by decide⟩
  have hcolumns : Covers square.width 5 := .inr ⟨by decide, by decide⟩
  refine ⟨r, hrun, ?_, fun i hi j hj => hsamples hrows hcolumns 0 (by decide) i hi j hj⟩
  exact hcorners (by decide) (by decide) (by decide) (by decide) 0 (by decide) true true

/-- A single row is placed on the first one, so the samples of the other are lost, although the
steps of the one row, which are none, are divided by those of the two. -/
theorem upsample_loses_sample :
    square.Finite ∧ (square.height - 1) * (1 - 1) ≤ 2 ^ 24 ∧
      (square.width - 1) * (3 - 1) ≤ 2 ^ 24 ∧
      square.height - 1 ∣ 1 - 1 ∧ square.width - 1 ∣ 3 - 1 ∧
      ∃ r, square.upsample 1 3 = .ok r ∧
        ¬ ∃ y < 1, ∃ x < 3, (r.score 0 y x == square.score 0 1 0) = true :=
  ⟨finite_square, by decide, by decide, by decide, by decide, _, rfl, by decide +kernel⟩

end Scores

end ImageLabeling
