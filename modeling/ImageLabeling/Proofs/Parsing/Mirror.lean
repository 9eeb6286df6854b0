import ImageLabeling.Proofs.Number.Arithmetic
import ImageLabeling.Proofs.Parsing.Labeling

/-!
# Labels of mirror images

The batch of a mirror image is the batch of the image with its entries exchanged
(`mirrorBatch_mirror`), so a network that treats both entries alike answers the two with the same
planes, in the other order. If all scales are one, no level of the pyramid is resized and every
level adds the same fused scores (`sumScales_runs`). The label maps of the two images then mirror
each other wherever one class leads (`parseImage_mirror`).
-/

namespace ImageLabeling

open Number Scores Session

variable {σ : Type}

/-- Given a batch of two images, the network always answers with `f`, which has planes for all
human-parsing classes and treats both entries alike. -/
structure Network.Symmetric (network : Network σ) (f : Tensor → Tensor) : Prop where
  answers : ∀ {t h w}, t.shape = [2, 3, h, w] → ∀ state, (network.infer t state).1 = .ok (f t)
  shape : ∀ {t h w}, t.shape = [2, 3, h, w] → (f t).shape = [2, partCount, h, w]
  exchange : ∀ {t h w}, t.shape = [2, 3, h, w] → f t.exchange = (f t).exchange

/-! ## Batches -/

/-- **The batch of a mirror image is the batch of the image, its entries exchanged.** -/
theorem mirrorBatch_mirror (r : Raster) :
    Pyramid.mirrorBatch r.mirror = (Pyramid.mirrorBatch r).exchange := by
  rw [Tensor.exchange_eq (t := Pyramid.mirrorBatch r) rfl]
  refine Tensor.batch_congr fun b k y x hb hk hy hx => ?_
  have hx : x < r.width := hx
  have hy : y < r.height := hy
  have hfacing : r.width - 1 - x < r.width := by omega
  have hback : r.width - 1 - (r.width - 1 - x) = x := by omega
  rw [Pyramid.mirrorBatch, Tensor.get_batch _ (by omega) hk hy hx]
  rcases Nat.lt_succ_iff_lt_or_eq.1 hb with hzero | rfl
  · obtain rfl : b = 0 := by omega
    show Pyramid.normalize (r.mirror.sample x y k) =
      Pyramid.normalize (r.sample (r.width - 1 - x) y k)
    rw [Raster.sample_mirror r hx hy hk]
  · show Pyramid.normalize (r.mirror.sample (r.width - 1 - x) y k) =
      Pyramid.normalize (r.sample x y k)
    rw [Raster.sample_mirror r hfacing hy hk, hback]

/-! ## One scale -/

/-- An image with pixels, whose lengths single precision holds exactly. -/
structure Raster.Fits (r : Raster) : Prop where
  width_pos : 0 < r.width
  width_le : r.width ≤ 2 ^ 24
  height_pos : 0 < r.height
  height_le : r.height ≤ 2 ^ 24

variable {image : Raster}

theorem Raster.Fits.mirror (h : image.Fits) : image.mirror.Fits :=
  ⟨h.width_pos, h.width_le, h.height_pos, h.height_le⟩

/-- The pixels of an image are accepted again. -/
theorem Raster.Fits.ofPixels (h : image.Fits) :
    Raster.ofPixels image.bytes image.width image.height = .ok image := by
  have harea : image.width * image.height ≤ 2 ^ 24 * 2 ^ 24 :=
    Nat.mul_le_mul h.width_le h.height_le
  exact Raster.ofPixels_self h.width_pos h.height_pos (by rw [image.size_bytes, wordLimit]; omega)

/-- The level of an image at scale one. -/
def Raster.ownLevel (image : Raster) : Level :=
  ⟨1.0, image.width, image.height, Pyramid.mirrorBatch image⟩

theorem Raster.Fits.level_one [Resizer] (h : image.Fits) :
    Pyramid.level image 1.0 = .ok image.ownLevel := by
  have hw := h.width_pos.ne'
  have hh := h.height_pos.ne'
  have hsize : Pyramid.scaledSize image.width image.height 1.0 = (image.width, image.height) := by
    rw [Pyramid.scaledSize, Pyramid.scaledLength, Pyramid.scaledLength,
      toNat_single_mul_one h.width_le, toNat_single_mul_one h.height_le]
  rw [Pyramid.level, hsize]
  show (if image.width = 0 ∨ image.height = 0 then _ else _) = _
  rw [if_neg (by omega), Raster.resize_self]
  rfl

/-- At scale one every level of the pyramid is the image. -/
theorem Raster.Fits.pyramid_ones [Resizer] (h : image.Fits) {scales : Scales}
    (hscales : ∀ scale ∈ scales.list, scale = 1.0) :
    Pyramid.ofPixels scales image.bytes image.width image.height =
      .ok (List.replicate scales.list.length image.ownLevel) := by
  have hlevels : ∀ n, (List.replicate n (1.0 : Float32)).mapM (Pyramid.level image) =
      .ok (List.replicate n image.ownLevel) := by
    intro n
    induction n with
    | zero => rfl
    | succ n ih =>
      rw [List.replicate_succ, List.mapM_cons, h.level_one, ih]
      rfl
  have hlist : scales.list = List.replicate scales.list.length 1.0 :=
    List.eq_replicate_iff.2 ⟨rfl, hscales⟩
  rw [Pyramid.ofPixels_of_ok h.ofPixels, hlist, hlevels, List.length_replicate]
  rfl

/-! ## Sums -/

namespace Accumulator

/-- The accumulator holds `fused`, with itself added `n` times. -/
structure Holds (fused : Scores) (n : Nat) (acc : Accumulator) : Prop where
  height : acc.height = fused.height
  width : acc.width = fused.width
  sum : acc.sum = some (fused.repeated n)

variable {fused : Scores} {k : Nat} {acc : Accumulator}

theorem add_empty (fused : Scores) :
    ∃ acc, (empty fused.height fused.width).add fused = .ok acc ∧ Holds fused 0 acc := by
  refine ⟨⟨fused.height, fused.width, some fused, 1⟩, ?_, rfl, rfl, rfl⟩
  rw [add, empty, upsample_self]
  rfl

theorem Holds.add (h : Holds fused k acc) :
    ∃ next, acc.add fused = .ok next ∧ Holds fused (k + 1) next := by
  refine ⟨{ acc with sum := some (fused.repeated (k + 1)), seen := acc.seen + 1 }, ?_,
    h.height, h.width, rfl⟩
  rw [Accumulator.add, h.height, h.width, upsample_self, h.sum]
  show (if _ then _ else _) = _
  rw [if_pos (classes_repeated fused k)]
  rfl

/-- The same answer given `n` times is added `n` times. -/
theorem Holds.addAnswers {output : Tensor} (h : Holds fused k acc)
    (hfuse : fuse output = .ok fused) (n : Nat) :
    ∃ last, (List.replicate n (.ok output)).foldlM addAnswer acc = .ok last ∧
      Holds fused (k + n) last := by
  induction n generalizing acc k with
  | zero => exact ⟨acc, rfl, h⟩
  | succ n ih =>
    obtain ⟨next, hadd, hnext⟩ := h.add
    obtain ⟨last, hrest, hlast⟩ := ih hnext
    refine ⟨last, ?_, ?_⟩
    · rw [List.replicate_succ, List.foldlM_cons, addAnswer, hfuse]
      dsimp only
      rw [hadd]
      exact hrest
    · rwa [Nat.add_right_comm] at hlast

end Accumulator

namespace Parsing

variable {output : Tensor} {fused : Scores} {s : Session σ}

/-- **At scale one an image has the scores that one batch is answered with**, added once for every
scale. -/
theorem sumScales_runs [Resizer] {job : Job} (hscales : ∀ scale ∈ job.scales.list, scale = 1.0)
    (hfits : image.Fits)
    (hanswers : ∀ state, (s.network.infer (Pyramid.mirrorBatch image) state).1 = .ok output)
    (hfuse : fuse output = .ok fused) (hsized : Sized image.height image.width fused) :
    ∃ forward t, sumScales job image s =
      (.ok (fused.repeated (job.scales.list.length - 1), forward), t) := by
  obtain ⟨n, hn⟩ : ∃ n, job.scales.list.length = n + 1 :=
    Nat.exists_eq_succ_of_ne_zero (mt List.length_eq_zero_iff.1 job.scales.ne_nil)
  have hpyramid := hfits.pyramid_ones hscales
  rw [hn, List.replicate_succ] at hpyramid
  obtain ⟨t, hnetwork, -, hsum⟩ := sumScales_built hpyramid s
  have hsame : t.network.answers t.state
      ((image.ownLevel :: List.replicate n image.ownLevel).map Level.batch) =
        .ok output :: List.replicate n (.ok output) := by
    rw [← List.replicate_succ, ← List.replicate_succ, List.map_replicate, hnetwork]
    exact Network.answers_replicate hanswers (n + 1) t.state
  obtain ⟨acc, hadd, hacc⟩ := Accumulator.add_empty fused
  rw [hsized.height, hsized.width] at hadd
  obtain ⟨last, hrest, hlast⟩ := hacc.addAnswers hfuse n
  have hall : (t.network.answers t.state
      ((image.ownLevel :: List.replicate n image.ownLevel).map Level.batch)).foldlM
        Accumulator.addAnswer (.empty image.height image.width) = .ok last := by
    rw [hsame, List.foldlM_cons, Accumulator.addAnswer, hfuse]
    dsimp only
    rw [hadd]
    exact hrest
  obtain ⟨forward, u, hlevels, -⟩ := sumLevels_all hall .zero
  obtain ⟨v, hrun, -⟩ := hsum _ _ hlevels
  refine ⟨forward, v, ?_⟩
  rw [hrun, hn, Nat.add_sub_cancel]
  dsimp only
  rw [hlast.sum, Nat.zero_add]

/-- **Mirror images get mirrored labels.** Where one class leads for the mirror image, its label
there and the label of the image at the facing pixel are each other's other side. -/
theorem parseImage_mirror [Resizer] {job : Job} {f : Tensor → Tensor} {s s' : Session σ}
    (hnetwork : s.network.Symmetric f) (hsame : s'.network = s.network)
    (hscales : ∀ scale ∈ job.scales.list, scale = 1.0) (hfits : image.Fits) :
    ∃ labels labels' scores' forward forward' t t',
      parseImage job image s = (.ok (labels, forward), t) ∧
      parseImage job image.mirror s' = (.ok (labels', forward'), t') ∧
      sumScales job image.mirror s' = (.ok (scores', forward'), t') ∧
      (labels.height = image.height ∧ labels.width = image.width) ∧
      (labels'.height = image.height ∧ labels'.width = image.width) ∧
      ∀ c y x, y < image.height → x < image.width → scores'.Leads c y x →
        (labels'.label y x).toNat =
          sides (labels.label y (image.width - 1 - x)).toNat := by
  have hbatch : (Pyramid.mirrorBatch image).shape = [2, 3, image.height, image.width] := rfl
  have hbatch' : (Pyramid.mirrorBatch image.mirror).shape = [2, 3, image.height, image.width] := rfl
  have hanswer :
      f (Pyramid.mirrorBatch image.mirror) = (f (Pyramid.mirrorBatch image)).exchange := by
    rw [mirrorBatch_mirror, hnetwork.exchange hbatch]
  obtain ⟨a, b, ha, hb, hab⟩ := reflected_fuse (hnetwork.shape hbatch)
  rw [← hanswer] at hb
  obtain ⟨forward, t, hsum⟩ := sumScales_runs hscales hfits (hnetwork.answers hbatch) ha hab.left
  obtain ⟨forward', t', hsum'⟩ := sumScales_runs (s := s') hscales hfits.mirror
    (hsame ▸ hnetwork.answers hbatch') hb hab.right
  have habs := hab.repeated (job.scales.list.length - 1)
  refine ⟨_, _, _, forward, forward', t, t', bind_ok hsum _, bind_ok hsum' _, hsum',
    ⟨habs.left.height, habs.left.width⟩, ⟨habs.right.height, habs.right.width⟩, ?_⟩
  intro c y x hy hx hlead
  exact habs.label hy hx hlead

/-- An answer that sees a left arm in the bright pixels of the first column. -/
def armAnswer (t : Tensor) : Tensor :=
  match t.shape with
  | [2, _, h, w] => Tensor.batch 2 partCount h w fun b k y x =>
      if k = 14 ∧ x = 0 then t.get [b, 0, y, x] else 0
  | _ => t

theorem armAnswer_eq {t : Tensor} {c h w : Nat} (hshape : t.shape = [2, c, h, w]) :
    armAnswer t = Tensor.batch 2 partCount h w fun b k y x =>
      if k = 14 ∧ x = 0 then t.get [b, 0, y, x] else 0 := by
  simp only [armAnswer, hshape]

/-- A session whose network answers so. -/
def armSession : Session Unit where
  files := ⟨Table.empty, []⟩
  network := ⟨.cpu, fun t state => (.ok (armAnswer t), state)⟩
  state := ()
  clock _ := .zero

theorem symmetric_armSession : armSession.network.Symmetric armAnswer where
  answers _ _ := rfl
  shape hshape := by
    rw [armAnswer_eq hshape]
    rfl
  exchange {t h w} hshape := by
    have hshape' : t.exchange.shape = [2, 3, h, w] := by
      rw [Tensor.exchange_eq hshape]
      rfl
    have hanswer : (armAnswer t).shape = [2, partCount, h, w] := by
      rw [armAnswer_eq hshape]
      rfl
    rw [armAnswer_eq hshape', Tensor.exchange_eq hanswer, armAnswer_eq hshape]
    refine Tensor.batch_congr fun b k y x hb hk hy hx => ?_
    rw [Tensor.get_batch _ (by omega) hk hy hx,
      Tensor.get_exchange hshape hb (by decide) hy hx]

/-- A job with the scale one, twice. -/
def twiceJob : Job := ⟨⟨[1.0, 1.0], by decide, by decide +kernel⟩, .ofString "out"⟩

/-- A bright pixel beside a dark one. -/
def brightLeft : Raster := ⟨2, 1, #[255, 255, 255, 0, 0, 0], rfl⟩

/-- The left arm of that image is a right arm in its mirror image. -/
theorem parseImage_mirror_brightLeft :
    ∃ labels labels' forward forward' t t',
      parseImage twiceJob brightLeft armSession = (.ok (labels, forward), t) ∧
      parseImage twiceJob brightLeft.mirror armSession = (.ok (labels', forward'), t') ∧
      (labels.label 0 0).toNat = 14 ∧ (labels'.label 0 1).toNat = 15 := by
  have hlead : ends (fun sum _ => decide (sum.1.Leads 15 0 1))
      (sumScales twiceJob brightLeft.mirror) armSession = true := by
    decide +kernel
  have hright : ends (fun result _ => (result.1.label 0 1).toNat == 15)
      (parseImage twiceJob brightLeft.mirror) armSession = true := by
    decide +kernel
  obtain ⟨labels, labels', scores', forward, forward', t, t', hrun, hrun', hsum, -, -, hmirror⟩ :=
    parseImage_mirror symmetric_armSession (show armSession.network = armSession.network from rfl)
      (show ∀ scale ∈ twiceJob.scales.list, scale = 1.0 by simp [twiceJob])
      (show brightLeft.Fits from ⟨by decide, by decide, by decide, by decide⟩)
  obtain ⟨_, _, hsum', hlead⟩ := ends_inv hlead
  cases hsum.symm.trans hsum'
  obtain ⟨_, _, hrun'', hright⟩ := ends_inv hright
  cases hrun'.symm.trans hrun''
  have hright : (labels'.label 0 1).toNat = 15 := beq_iff_eq.1 hright
  have hleft := hmirror 15 0 1 (by decide) (by decide) (of_decide_eq_true hlead)
  refine ⟨labels, labels', forward, forward', t, t', hrun, hrun', ?_, hright⟩
  rw [hright] at hleft
  calc (labels.label 0 0).toNat = sides (sides (labels.label 0 0).toNat) :=
        (sides_sides _).symm
    _ = sides 15 := by rw [hleft]; rfl
    _ = 14 := rfl

end Parsing

end ImageLabeling
