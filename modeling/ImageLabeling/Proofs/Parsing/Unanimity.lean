import ImageLabeling.Proofs.Parsing.Interpolation
import ImageLabeling.Proofs.Parsing.Labeling

/-!
# Unanimous networks

A network is unanimous about an image if its answer to every level favours one class at every
pixel, and its other side in the entry for the mirror image (`Unanimous`). The fused scores of that
class are positive, and they stay so when they are resized and summed, however many levels there
are: a sum that is large enough is not increased any more, so it never overflows
(`within_leftSum_positive`). The other classes stay without a positive score. So every pixel is
labeled with the class (`parseImage_unanimous`).
-/

namespace ImageLabeling

open Number Scores Session

/-! ## Sums and means -/

section

variable {p q : Int} {a b : Float32} {xs : List Float32}

/-- A positive number added to a positive sum leaves it between its bounds. -/
theorem within_add_positive (hp : -149 ≤ p) (hq : q ≤ 101) (ha : Within (2 ^ p) (2 ^ (q + 25)) a)
    (hb : Within (2 ^ p) (2 ^ q) b) : Within (2 ^ p) (2 ^ (q + 25)) (a + b) := by
  have hpos := two_zpow_pos p
  have hpq : p ≤ q := (zpow_le_zpow_iff_right₀ (by norm_num)).1 (hb.ge.trans hb.le)
  have hge := ha.ge
  have hge' := hb.ge
  have hsmall : |value b| < 2 ^ (q + 1) := by
    rw [abs_of_nonneg (by linarith)]
    exact hb.le.trans_lt (zpow_lt_zpow_right₀ (by norm_num) (by omega))
  have hsum : |value a| ≤ 2 ^ (q + 1 + 24) := by
    rw [abs_of_nonneg (by linarith), show q + 1 + 24 = q + 25 by omega]
    exact ha.le
  obtain ⟨hrounds, hle⟩ :=
    rounds_add_of_abs_lt ha.isFinite hb.isFinite (by omega) (by omega) hsum hsmall
  rw [show q + 1 + 24 = q + 25 by omega] at hle
  exact ⟨hrounds.isFinite, hrounds.nearest.ge (onGrid_two_zpow hp) (by linarith),
    (le_abs_self _).trans hle⟩

theorem within_add_nonpositive (hlower : -149 ≤ q) (hq : q ≤ 101)
    (ha : Within (-2 ^ (q + 25)) 0 a) (hb : Within (-2 ^ q) 0 b) :
    Within (-2 ^ (q + 25)) 0 (a + b) := by
  have hle := ha.le
  have hle' := hb.le
  have hsmall : |value b| < 2 ^ (q + 1) := by
    rw [abs_of_nonpos hle']
    exact (neg_le.1 hb.ge).trans_lt (zpow_lt_zpow_right₀ (by norm_num) (by omega))
  have hsum : |value a| ≤ 2 ^ (q + 1 + 24) := by
    rw [abs_of_nonpos hle, show q + 1 + 24 = q + 25 by omega]
    exact neg_le.1 ha.ge
  obtain ⟨hrounds, habs⟩ :=
    rounds_add_of_abs_lt ha.isFinite hb.isFinite (by omega) (by omega) hsum hsmall
  rw [show q + 1 + 24 = q + 25 by omega] at habs
  exact ⟨hrounds.isFinite, (abs_le.1 habs).1,
    hrounds.nearest.le storable_zero.onGrid (by linarith)⟩

/-- What holds of all summands, and is kept when one is added, holds of their sum. -/
theorem leftSum_induction {P Q : Float32 → Prop} (hfirst : ∀ {a}, P a → Q a)
    (hnext : ∀ {a b}, Q a → P b → Q (a + b)) (hne : xs ≠ []) (h : ∀ x ∈ xs, P x) :
    Q (leftSum xs) := by
  cases xs with
  | nil => exact absurd rfl hne
  | cons first rest =>
    obtain ⟨hfirst', hrest⟩ := List.forall_mem_cons.1 h
    have hstart := hfirst hfirst'
    rw [leftSum]
    clear hne h hfirst'
    induction rest generalizing first with
    | nil => exact hstart
    | cons next rest ih =>
      obtain ⟨hnext', hrest⟩ := List.forall_mem_cons.1 hrest
      exact ih (first + next) hrest (hnext hstart hnext')

/-- **Sums of positive numbers stay positive and finite**, however many there are. -/
theorem within_leftSum_positive (hp : -149 ≤ p) (hq : q ≤ 101) (hne : xs ≠ [])
    (h : ∀ x ∈ xs, Within (2 ^ p) (2 ^ q) x) : Within (2 ^ p) (2 ^ (q + 25)) (leftSum xs) :=
  leftSum_induction
    (fun ha => ha.mono le_rfl (zpow_le_zpow_right₀ (by norm_num) (by omega)))
    (within_add_positive hp hq) hne h

theorem within_leftSum_nonpositive (hlower : -149 ≤ q) (hq : q ≤ 101) (hne : xs ≠ [])
    (h : ∀ x ∈ xs, Within (-2 ^ q) 0 x) : Within (-2 ^ (q + 25)) 0 (leftSum xs) :=
  leftSum_induction
    (fun ha => ha.mono (neg_le_neg (zpow_le_zpow_right₀ (by norm_num) (by omega))) le_rfl)
    (within_add_nonpositive hlower hq) hne h

theorem within_mean_positive (hp : -149 ≤ p) (hq : q < 127) (ha : Within (2 ^ p) (2 ^ q) a)
    (hb : Within (2 ^ p) (2 ^ q) b) : Within (2 ^ p) (2 ^ q) ((a + b) / 2.0) := by
  have hpq : p ≤ q := (zpow_le_zpow_iff_right₀ (by norm_num)).1 (ha.ge.trans ha.le)
  have hsum : Within (2 ^ (p + 1)) (2 ^ (q + 1)) (a + b) := by
    refine within_add ha.isFinite hb.isFinite (storable_two_zpow (by omega) (by omega))
      (storable_two_zpow (by omega) (by omega)) ?_ ?_
    · rw [two_zpow_succ, two_mul]
      exact add_le_add ha.ge hb.ge
    · rw [two_zpow_succ, two_mul]
      exact add_le_add ha.le hb.le
  have hge := hsum.ge
  have hle := hsum.le
  rw [two_zpow_succ] at hge hle
  have htwo : (2.0 : Float32).isFinite = true := rfl
  refine within_div hsum.isFinite htwo (storable_two_zpow (by omega) (by omega))
    (storable_two_zpow (by omega) (by omega)) ?_ ?_ ?_
  all_goals rw [value_two]
  · norm_num
  · linarith
  · linarith

theorem within_mean_nonpositive (hlower : -149 ≤ q) (hupper : q < 127) (ha : Within (-2 ^ q) 0 a)
    (hb : Within (-2 ^ q) 0 b) : Within (-2 ^ q) 0 ((a + b) / 2.0) := by
  have hsum : Within (-2 ^ (q + 1)) 0 (a + b) := by
    refine within_add ha.isFinite hb.isFinite (storable_two_zpow (by omega) (by omega)).neg
      storable_zero ?_ (add_nonpos ha.le hb.le)
    rw [two_zpow_succ, two_mul, neg_add]
    exact add_le_add ha.ge hb.ge
  have hge := hsum.ge
  have hle := hsum.le
  rw [two_zpow_succ] at hge
  have htwo : (2.0 : Float32).isFinite = true := rfl
  refine within_div hsum.isFinite htwo (storable_two_zpow hlower hupper.le).neg
    storable_zero ?_ ?_ ?_
  all_goals rw [value_two]
  · norm_num
  · linarith
  · linarith

end

/-! ## Unanimous answers -/

/-- An entry of an answer scores one class positively at every pixel and no other class. -/
def Favours (output : Tensor) (entry c h w : Nat) : Prop :=
  ∀ y < h, ∀ x < w, Within (2 ^ (-60 : Int)) (2 ^ (60 : Int)) (output.get [entry, c, y, x]) ∧
    ∀ d < partCount, d ≠ c → Within (-2 ^ (60 : Int)) 0 (output.get [entry, d, y, x])

/-- An answer of any size that favours a class for an image, and its other side for the mirror
image. -/
def Unanimous (c : Nat) (output : Tensor) : Prop :=
  ∃ h w, output.shape = [2, partCount, h, w] ∧ (0 < h ∧ h ≤ 4096) ∧ (0 < w ∧ w ≤ 4096) ∧
    Favours output 0 c h w ∧ Favours output 1 (sides c) h w

variable {c : Nat} {output : Tensor} {outputs : List Tensor}

theorem Unanimous.hasPixels (h : Unanimous c output) : HasPixels output := by
  obtain ⟨h, w, hshape, ⟨hheight, -⟩, ⟨hwidth, -⟩, -⟩ := h
  exact ⟨h, w, hshape, hheight, hwidth⟩

/-- Fused planes have the favoured class, and no other, with positive scores. -/
theorem within_fusedPlanes {h w d y x : Nat} (hshape : output.shape = [2, partCount, h, w])
    (hupright : Favours output 0 c h w) (hmirrored : Favours output 1 (sides c) h w)
    (hd : d < partCount) (hy : y < h) (hx : x < w) :
    (d = c → Within (2 ^ (-60 : Int)) (2 ^ (60 : Int)) ((fusedPlanes output).score d y x)) ∧
      (d ≠ c → Within (-2 ^ (60 : Int)) 0 ((fusedPlanes output).score d y x)) := by
  have hfacing : w - 1 - x < w := by omega
  rw [fusedPlanes_eq hshape, score_ofFn _ hd hy hx, fusedScore]
  obtain ⟨hclass, hothers⟩ := hupright y hy x hx
  obtain ⟨hclass', hothers'⟩ := hmirrored y hy _ hfacing
  constructor
  · rintro rfl
    exact within_mean_positive (by norm_num) (by norm_num) hclass hclass'
  · intro hne
    have hne' : sides d ≠ sides c := fun heq =>
      hne (by rw [← sides_sides d, heq, sides_sides])
    exact within_mean_nonpositive (by norm_num) (by norm_num) (hothers d hd hne)
      (hothers' _ (sides_lt hd) hne')

theorem axes_fit {m n : Nat} (hm : m ≤ 4096) (hn : n ≤ 4096) : (m - 1) * (n - 1) ≤ 2 ^ 24 :=
  (Nat.mul_le_mul (by omega : m - 1 ≤ 4095) (by omega : n - 1 ≤ 4095)).trans (by norm_num)

/-- Resizing leaves the favoured class, and no other, with positive
scores. -/
theorem within_resized_fusedPlanes {height width d y x : Nat} (houtput : Unanimous c output)
    (hheight : height ≤ 4096) (hwidth : width ≤ 4096) (hd : d < partCount)
    (hy : y < height) (hx : x < width) :
    (d = c → Within (2 ^ (-62 : Int)) (2 ^ (62 : Int))
        (((fusedPlanes output).resized height width).score d y x)) ∧
      (d ≠ c → Within (-2 ^ (62 : Int)) 0
        (((fusedPlanes output).resized height width).score d y x)) := by
  obtain ⟨h, w, hshape, ⟨hh, hh'⟩, ⟨hw, hw'⟩, hupright, hmirrored⟩ := houtput
  obtain ⟨hclasses, hrows, hcolumns⟩ := sized_fusedPlanes hshape
  have hheight' := axes_fit hh' hheight
  have hwidth' := axes_fit hw' hwidth
  have hfused := fun {i j} (hi : i < h) (hj : j < w) =>
    within_fusedPlanes hshape hupright hmirrored hd hi hj
  constructor
  · intro hdc
    refine within_resized_positive (p := -60) (q := 60) (hrows ▸ hh) (hcolumns ▸ hw)
      (hrows ▸ hheight') (hcolumns ▸ hwidth') (hclasses ▸ hd) hy hx (by norm_num) (by norm_num) ?_
    intro i hi j hj
    exact (hfused (hrows ▸ hi) (hcolumns ▸ hj)).1 hdc
  · intro hdc
    refine within_resized_nonpositive (q := 60) (hrows ▸ hh) (hcolumns ▸ hw) (hrows ▸ hheight')
      (hcolumns ▸ hwidth') (hclasses ▸ hd) hy hx (by norm_num) (by norm_num) ?_
    intro i hi j hj
    exact (hfused (hrows ▸ hi) (hcolumns ▸ hj)).2 hdc

theorem within_summedScore {height width d y x : Nat} (hne : outputs ≠ [])
    (houtputs : ∀ output ∈ outputs, Unanimous c output) (hheight : height ≤ 4096)
    (hwidth : width ≤ 4096) (hd : d < partCount) (hy : y < height) (hx : x < width) :
    (d = c → Within (2 ^ (-62 : Int)) (2 ^ (87 : Int)) (summedScore height width outputs d y x)) ∧
      (d ≠ c → Within (-2 ^ (87 : Int)) 0 (summedScore height width outputs d y x)) := by
  have hresized := fun {output} (houtput : output ∈ outputs) =>
    within_resized_fusedPlanes (houtputs output houtput) hheight hwidth hd hy hx
  have hne' : outputs.map (fun output =>
      ((fusedPlanes output).resized height width).score d y x) ≠ [] :=
    fun h => hne (List.map_eq_nil_iff.1 h)
  constructor
  · intro hdc
    refine within_leftSum_positive (q := 62) (by norm_num) (by norm_num) hne' ?_
    exact List.forall_mem_map.2 fun _ houtput => (hresized houtput).1 hdc
  · intro hdc
    refine within_leftSum_nonpositive (q := 62) (by norm_num) (by norm_num) hne' ?_
    exact List.forall_mem_map.2 fun _ houtput => (hresized houtput).2 hdc

/-! ## Labels -/

theorem label_of_unanimous {height width l y x : Nat} (hc : c < partCount) (hne : outputs ≠ [])
    (houtputs : ∀ output ∈ outputs, Unanimous c output) (hheight : height ≤ 4096)
    (hwidth : width ≤ 4096) (hy : y < height) (hx : x < width)
    (hlabel : LabelMap.Labels (summedScore height width outputs · y x) partCount l) : l = c := by
  have hwithin := fun {d} (hd : d < partCount) =>
    within_summedScore hne houtputs hheight hwidth hd hy hx
  have hclass := (hwithin hc).1 rfl
  refine hlabel.eq_of_beats hc (lowest_lt hclass.isFinite) fun d hd hdc => ?_
  have hother := (hwithin hd).2 hdc
  right
  rw [single_lt_iff_value hother.isFinite hclass.isFinite]
  exact hother.le.trans_lt ((two_zpow_pos _).trans_le hclass.ge)

namespace Parsing

variable {σ : Type} {job : Job} {image : Raster} {s : Session σ} {first : Level} {rest : List Level}

/-- If every answer has pixels, the image is labeled. -/
theorem Labeling.of_answered [Resizer] {result : Except Fault LabelMap} {state : σ}
    (h : Labeling job image s result state)
    (hpyramid : Pyramid.ofPixels job.scales image.bytes image.width image.height =
      .ok (first :: rest))
    (hanswers : ∀ answer ∈ s.network.answers s.state ((first :: rest).map Level.batch),
      Answered HasPixels answer) :
    ∃ outputs labels, result = .ok labels ∧
      s.network.answers s.state ((first :: rest).map Level.batch) = outputs.map .ok ∧
      LabelsSum first.height first.width outputs labels := by
  cases h with
  | unbuilt fault hpyramid' => cases hpyramid.symm.trans hpyramid'
  | refused levels before later answer failure hpyramid' hall hbefore hanswer =>
    cases hpyramid.symm.trans hpyramid'
    have hhas := hanswers answer (hall ▸ List.mem_append_cons_self)
    exact absurd (hhas.imp fun _ => HasPixels.isPair) hanswer
  | unsampled levels before later answer hpyramid' hall hbefore hanswer =>
    cases hpyramid.symm.trans hpyramid'
    have hhas := hanswers answer (hall ▸ List.mem_append_cons_self)
    exact absurd hhas (not_hasPixels_of_lacksPixels hanswer)
  | labeled first' rest' outputs labels hpyramid' hall houtputs hlabels =>
    cases hpyramid.symm.trans hpyramid'
    exact ⟨outputs, labels, rfl, hall, hlabels⟩

/-- **A unanimous network wins at every pixel and every resolution.** If the answer to every level
of the pyramid favours class `c`, the image is labeled, and the label of every pixel is `c`. -/
theorem parseImage_unanimous [Resizer] (hc : c < partCount)
    (hpyramid : Pyramid.ofPixels job.scales image.bytes image.width image.height =
      .ok (first :: rest))
    (hheight : first.height ≤ 4096) (hwidth : first.width ≤ 4096)
    (hanswers : ∀ answer ∈ s.network.answers s.state ((first :: rest).map Level.batch),
      Answered (Unanimous c) answer) :
    ∃ labels forward t, parseImage job image s = (.ok (labels, forward), t) ∧
      labels.height = first.height ∧ labels.width = first.width ∧
      ∀ y < first.height, ∀ x < first.width, (labels.label y x).toNat = c := by
  rcases hparse : parseImage job image s with ⟨r, t⟩
  obtain ⟨outputs, labels, hresult, hall, hlabels⟩ := (parseImage_inv hparse).of_answered hpyramid
    fun answer hanswer => (hanswers answer hanswer).imp fun _ => Unanimous.hasPixels
  obtain ⟨⟨_, forward⟩, rfl, rfl⟩ := exists_of_map_eq_ok hresult
  have hunanimous : ∀ output ∈ outputs, Unanimous c output := by
    intro output houtput
    obtain ⟨_, heq, h⟩ := hanswers (.ok output) (hall ▸ List.mem_map_of_mem houtput)
    cases heq
    exact h
  have hne : outputs ≠ [] := by
    rintro rfl
    cases hall
  refine ⟨_, forward, t, rfl, hlabels.height, hlabels.width, fun y hy x hx => ?_⟩
  exact label_of_unanimous hc hne hunanimous hheight hwidth hy hx (hlabels.label hy hx)

/-- Right arms in a row of two pixels, and left arms in the mirror image. -/
def rightArms : Tensor :=
  .batch 2 partCount 1 2 fun b k _ _ => if k = 15 - b then 1.0 else -1.0

/-- A session whose network sees right arms, whatever the image. -/
def rightArmSession : Session Unit where
  files := ⟨Table.empty, []⟩
  network := ⟨.cpu, fun _ state => (.ok rightArms, state)⟩
  state := ()
  clock _ := .zero

theorem unanimous_rightArms : Unanimous 15 rightArms := by
  have hone : Within (2 ^ (-60 : Int)) (2 ^ (60 : Int)) 1.0 :=
    ⟨rfl, by rw [value_one]; norm_num, by rw [value_one]; norm_num⟩
  have hminus : Within (-2 ^ (60 : Int)) 0 (-1.0) :=
    ⟨rfl, by rw [value_neg_one]; norm_num, by rw [value_neg_one]; norm_num⟩
  have hfavours : ∀ b < 2, Favours rightArms b (15 - b) 1 2 := by
    intro b hb y hy x hx
    have hc : 15 - b < partCount := by unfold partCount; omega
    constructor
    · rwa [rightArms, Tensor.get_batch _ hb hc hy hx, if_pos rfl]
    · intro d hd hne
      rwa [rightArms, Tensor.get_batch _ hb hd hy hx, if_neg hne]
  exact ⟨1, 2, rfl, by norm_num, by norm_num, hfavours 0 (by norm_num), hfavours 1 (by norm_num)⟩

/-- The right arm, which is left in the mirror image, fills the labels of an image that is
doubled. -/
theorem parseImage_unanimous_doubling :
    ∃ labels forward t,
      parseImage doublingJob pixelPair rightArmSession = (.ok (labels, forward), t) ∧
      labels.height = 2 ∧ labels.width = 4 ∧
      ∀ y < 2, ∀ x < 4, (labels.label y x).toNat = 15 := by
  obtain ⟨first, rest, hpyramid, hheight, hwidth⟩ : ∃ first rest,
      Pyramid.ofPixels doublingJob.scales pixelPair.bytes pixelPair.width pixelPair.height =
        .ok (first :: rest) ∧ first.height = 2 ∧ first.width = 4 := by
    have hbuilt : (Pyramid.ofPixels doublingJob.scales pixelPair.bytes pixelPair.width
        pixelPair.height).toOption.any (fun levels =>
          levels.head?.any fun first => first.height == 2 && first.width == 4) = true := by
      decide +kernel
    cases hpyramid : Pyramid.ofPixels doublingJob.scales pixelPair.bytes pixelPair.width
        pixelPair.height with
    | error fault =>
      rw [hpyramid] at hbuilt
      cases hbuilt
    | ok levels =>
      rw [hpyramid] at hbuilt
      cases levels with
      | nil => cases hbuilt
      | cons first rest =>
        simp only [Except.toOption, Option.any_some, List.head?_cons, Bool.and_eq_true,
          beq_iff_eq] at hbuilt
        exact ⟨first, rest, rfl, hbuilt⟩
  obtain ⟨labels, forward, t, hparse, hheight', hwidth', hlabels⟩ :=
    parseImage_unanimous (c := 15) (s := rightArmSession) (by decide) hpyramid (by omega) (by omega)
      fun answer hanswer => by
        obtain ⟨before, later, hsplit⟩ := List.append_of_mem hanswer
        obtain ⟨_, _, _, _, _, rfl⟩ := Network.answers_eq_append_cons hsplit
        exact ⟨_, rfl, unanimous_rightArms⟩
  rw [hheight, hwidth] at hlabels
  exact ⟨labels, forward, t, hparse, hheight'.trans hheight, hwidth'.trans hwidth, hlabels⟩

end Parsing

end ImageLabeling
