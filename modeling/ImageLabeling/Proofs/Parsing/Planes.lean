import ImageLabeling.Proofs.Parsing.Fusion

/-!
# Planes of any size

What becomes of the answer to one scale. Answers that are a batch of two with planes for all
classes are fused (`fuse_eq_fusedPlanes`) and no others (`fuse_error`). Planes with pixels are
resized by reading samples that they have (`samplePoint_lt`); planes without pixels have none to
read, and these are the ones that cannot be resized to a size with pixels (`upsample_error_iff`).
-/

namespace ImageLabeling

open Number

namespace Scores

/-! ## Scores at every pixel -/

/-- Planes are determined by their size and their scores. -/
theorem ext_score {a b : Scores} (hclasses : a.classes = b.classes) (hheight : a.height = b.height)
    (hwidth : a.width = b.width)
    (h : ∀ c y x, c < a.classes → y < a.height → x < a.width → a.score c y x = b.score c y x) :
    a = b := by
  obtain ⟨classes, height, width, data, hsize⟩ := a
  obtain ⟨classes', height', width', data', hsize'⟩ := b
  dsimp only at hclasses hheight hwidth h
  subst hclasses hheight hwidth
  suffices hdata : data = data' by subst hdata; rfl
  apply Array.ext
  · rw [hsize, hsize']
  · intro i hi hi'
    have hlt : i < classes * (height * width) := hsize ▸ hi
    have hpos : 0 < height * width := Nat.pos_of_lt_mul_left hlt
    have hheight : 0 < height := Nat.pos_of_mul_pos_right hpos
    have hwidth : 0 < width := Nat.pos_of_mul_pos_left hpos
    have hc : i / width / height < classes := by
      rw [Nat.div_div_eq_div_mul, Nat.mul_comm width height]
      exact Nat.div_lt_of_lt_mul (by rwa [Nat.mul_comm])
    have hplace : (i / width / height * height + i / width % height) * width + i % width = i := by
      rw [Nat.div_add_mod', Nat.div_add_mod']
    have hscore := h _ _ _ hc (Nat.mod_lt (i / width) hheight) (Nat.mod_lt i hwidth)
    simpa only [score, hplace, Array.getD_eq_getD_getElem?, Array.getElem?_eq_getElem hi,
      Array.getElem?_eq_getElem hi', Option.getD_some] using hscore

/-! ## Fused answers -/

/-- A batch of two with planes for all human-parsing classes. -/
def IsPair (output : Tensor) : Prop :=
  ∃ h w, output.shape = [2, partCount, h, w]

/-- The mean of a score for an image and the score of the other side, at the facing pixel, for its
mirror image. -/
def fusedScore (output : Tensor) (width c y x : Nat) : Float32 :=
  (output.get [0, c, y, x] + output.get [1, sides c, y, width - 1 - x]) / 2.0

/-- The planes that an answer is fused to. -/
def fusedPlanes (output : Tensor) : Scores :=
  let height := output.shape.getD 2 0
  let width := output.shape.getD 3 0
  ofFn partCount height width (fusedScore output width)

theorem fusedPlanes_eq {output : Tensor} {h w : Nat}
    (hshape : output.shape = [2, partCount, h, w]) :
    fusedPlanes output = ofFn partCount h w (fusedScore output w) := by
  rw [fusedPlanes, hshape]
  rfl

theorem sized_fusedPlanes {output : Tensor} {h w : Nat}
    (hshape : output.shape = [2, partCount, h, w]) : Sized h w (fusedPlanes output) := by
  rw [fusedPlanes_eq hshape]
  exact ⟨rfl, rfl, rfl⟩

theorem fuse_eq_fusedPlanes {output : Tensor} (h : IsPair output) :
    fuse output = .ok (fusedPlanes output) := by
  obtain ⟨h, w, hshape⟩ := h
  obtain ⟨s, hfuse, hsized, hscore⟩ := fuse_eq hshape
  have hplanes := sized_fusedPlanes hshape
  rw [hfuse, Except.ok.injEq]
  refine ext_score (hsized.classes.trans hplanes.classes.symm)
    (hsized.height.trans hplanes.height.symm) (hsized.width.trans hplanes.width.symm) ?_
  intro c y x hc hy hx
  have hc := hsized.classes ▸ hc
  have hy := hsized.height ▸ hy
  have hx := hsized.width ▸ hx
  rw [hscore hc hy hx, fusedPlanes_eq hshape, score_ofFn _ hc hy hx, fusedScore]

/-- What an answer of another shape is refused with: a batch of two has the wrong classes. -/
def misfit (shape : List Nat) : Failure :=
  match shape with
  | [2, c, h, w] => .shapeMismatch "[20, H, W]" [c, h, w]
  | shape => .shapeMismatch "[2, 20, H, W]" shape

/-- Nothing else is fused. -/
theorem fuse_error {output : Tensor} (h : ¬ IsPair output) :
    fuse output = .error (misfit output.shape) := by
  obtain ⟨shape, data, hsize⟩ := output
  unfold fuse pair? misfit
  split
  case h_1 hpair =>
    split at hpair
    case h_1 => cases hpair
    case h_2 hother =>
      split
      case h_1 hshape => exact (hother _ _ _ hshape).elim
      case h_2 => rfl
  case h_2 upright mirrored hpair =>
    split at hpair
    · rename_i c height width hshape
      dsimp only at hshape
      subst hshape
      have hclasses : c ≠ partCount := by
        rintro rfl
        exact h ⟨height, width, rfl⟩
      cases hpair
      simp only [swapSides, if_neg hclasses]
      rfl
    · cases hpair

/-! ## Resized planes -/

end Scores

/-- An axis with samples is read inside. -/
theorem samplePoint_lt {before : Nat} (h : 0 < before) (o after : Nat) :
    (samplePoint o before after).lower < before ∧ (samplePoint o before after).upper < before := by
  unfold samplePoint
  split
  · exact ⟨h, h⟩
  · constructor
    · dsimp only
      omega
    · dsimp only
      omega

namespace Scores

/-- The planes at the given size, whether or not there are samples to read. -/
def resized (s : Scores) (height width : Nat) : Scores :=
  if s.height = height ∧ s.width = width then s else s.blend height width

theorem Sized.resized {s : Scores} {h w : Nat} (hs : Sized h w s) (height width : Nat) :
    Sized height width (s.resized height width) := by
  unfold Scores.resized
  split
  case isTrue hsame => exact ⟨hs.classes, hsame.1, hsame.2⟩
  case isFalse => exact ⟨hs.classes, rfl, rfl⟩

theorem shape_eq_iff {s : Scores} {c height width : Nat} :
    s.shape = [c, height, width] ↔ s.classes = c ∧ s.height = height ∧ s.width = width := by
  simp [shape]

theorem shape_resized (s : Scores) (height width : Nat) :
    (s.resized height width).shape = [s.classes, height, width] := by
  unfold resized
  split
  case isTrue hsame => rw [shape, hsame.1, hsame.2]
  case isFalse => rfl

/-- The planes have the wanted size, or pixels, or there is nothing to fill. -/
def Resizable (height width : Nat) (s : Scores) : Prop :=
  (s.height = height ∧ s.width = width) ∨ (0 < s.height ∧ 0 < s.width) ∨
    (height = 0 ∨ width = 0) ∨ s.classes = 0

theorem upsample_of_resizable {s : Scores} {height width : Nat} (h : s.Resizable height width) :
    s.upsample height width = .ok (s.resized height width) := by
  unfold upsample resized
  split
  · rfl
  case isFalse hsame =>
    have hlacks : s.lacksSamples height width = false := by
      simp only [lacksSamples, decide_eq_false_iff_not]
      unfold Resizable at h
      omega
    rw [hlacks]
    rfl

/-- Nothing else can be resized. -/
theorem upsample_of_not_resizable {s : Scores} {height width : Nat}
    (h : ¬ s.Resizable height width) : s.upsample height width = .error .outOfRange := by
  unfold Resizable at h
  have hlacks : s.lacksSamples height width = true := by
    simp only [lacksSamples, decide_eq_true_eq]
    omega
  rw [upsample, if_neg (by omega), if_pos hlacks]

theorem upsample_eq_resized {s : Scores} (hheight : 0 < s.height) (hwidth : 0 < s.width)
    (height width : Nat) : s.upsample height width = .ok (s.resized height width) :=
  upsample_of_resizable (.inr (.inl ⟨hheight, hwidth⟩))

/-- Row `i` and column `j` are among those that are read for a pixel of the resized planes. -/
def ReadsAt (s : Scores) (height width y x i j : Nat) : Prop :=
  let row := samplePoint y s.height height
  let column := samplePoint x s.width width
  (i = row.lower ∨ i = row.upper) ∧ (j = column.lower ∨ j = column.upper)

theorem lt_of_readsAt {s : Scores} (hheight : 0 < s.height) (hwidth : 0 < s.width)
    {height width y x i j : Nat} (h : s.ReadsAt height width y x i j) :
    i < s.height ∧ j < s.width := by
  obtain ⟨hi, hj⟩ := h
  have hrow := samplePoint_lt hheight y height
  have hcolumn := samplePoint_lt hwidth x width
  constructor
  · rcases hi with rfl | rfl
    · exact hrow.1
    · exact hrow.2
  · rcases hj with rfl | rfl
    · exact hcolumn.1
    · exact hcolumn.2

/-- **Planes cannot be resized exactly if a sample is read that they do not have.** -/
theorem upsample_error_iff {s : Scores} {height width : Nat} :
    s.upsample height width = .error .outOfRange ↔
      ¬ (s.height = height ∧ s.width = width) ∧
        ∃ c < s.classes, ∃ y < height, ∃ x < width, ∃ i j,
          s.ReadsAt height width y x i j ∧ ¬ (i < s.height ∧ j < s.width) := by
  constructor
  · intro h
    have hnot : ¬ s.Resizable height width := by
      intro hresizable
      rw [upsample_of_resizable hresizable] at h
      cases h
    unfold Resizable at hnot
    refine ⟨by omega, 0, by omega, 0, by omega, 0, by omega, _, _, ⟨.inl rfl, .inl rfl⟩, ?_⟩
    omega
  · rintro ⟨hsame, c, hc, y, hy, x, hx, i, j, hreads, houtside⟩
    have hpixels : ¬ (0 < s.height ∧ 0 < s.width) :=
      fun hpixels => houtside (lt_of_readsAt hpixels.1 hpixels.2 hreads)
    apply upsample_of_not_resizable
    unfold Resizable
    omega

end Scores

end ImageLabeling
