import ImageLabeling.Proofs.Parsing.Planes

/-!
# The algebra of mirror images

Mirroring planes and exchanging the sides of the body are involutions that commute. Together they
make `Scores.flipped`, the planes that an answer for the mirror image stands for. An answer for an
image and its mirror image (`Scores.stack`) is fused to the mean of the first and of the second
flipped (`fuse_stack`), so exchanging the two flips the mean (`mean_flipped_swap`), and two answers
that agree about the image are fused to what they say (`mean_self`).
-/

namespace ImageLabeling.Scores

open Number

variable {s a b : Scores} {h w : Nat}

/-! ## Two involutions -/

theorem Sized.ext (ha : Sized h w a) (hb : Sized h w b)
    (hscore : ∀ c y x, c < partCount → y < h → x < w → a.score c y x = b.score c y x) : a = b := by
  refine ext_score (ha.classes.trans hb.classes.symm) (ha.height.trans hb.height.symm)
    (ha.width.trans hb.width.symm) fun c y x hc hy hx => ?_
  exact hscore c y x (ha.classes ▸ hc) (ha.height ▸ hy) (ha.width ▸ hx)

theorem Sized.mirror (hs : Sized h w s) : Sized h w s.mirror :=
  ⟨hs.classes, hs.height, hs.width⟩

theorem Sized.score_mirror (hs : Sized h w s) {c y x : Nat} (hc : c < partCount) (hy : y < h)
    (hx : x < w) : s.mirror.score c y x = s.score c y (w - 1 - x) := by
  rw [Scores.score_mirror s (hs.classes ▸ hc) (hs.height ▸ hy) (hs.width ▸ hx), hs.width]

theorem Sized.mirror_mirror (hs : Sized h w s) : s.mirror.mirror = s := by
  refine hs.mirror.mirror.ext hs fun c y x hc hy hx => ?_
  have hback : w - 1 - (w - 1 - x) = x := by omega
  rw [hs.mirror.score_mirror hc hy hx, hs.score_mirror hc hy (by omega), hback]

/-- The planes with those of left and right body parts exchanged. -/
def swapped (s : Scores) : Scores :=
  ofFn s.classes s.height s.width fun c y x => s.score (sides c) y x

theorem swapSides_of_classes (h : s.classes = partCount) : s.swapSides = .ok s.swapped := by
  rw [Scores.swapSides, if_pos h, Scores.swapped]
  simp only [otherSide_eq_sides]

/-- Planes for the human-parsing classes can be exchanged. -/
theorem Sized.swapSides (hs : Sized h w s) : s.swapSides = .ok s.swapped :=
  swapSides_of_classes hs.classes

theorem Sized.swapped (hs : Sized h w s) : Sized h w s.swapped :=
  ⟨hs.classes, hs.height, hs.width⟩

theorem Sized.score_swapped (hs : Sized h w s) {c y x : Nat} (hc : c < partCount) (hy : y < h)
    (hx : x < w) : s.swapped.score c y x = s.score (sides c) y x :=
  score_ofFn _ (hs.classes ▸ hc) (hs.height ▸ hy) (hs.width ▸ hx)

theorem Sized.swapped_swapped (hs : Sized h w s) : s.swapped.swapped = s := by
  refine hs.swapped.swapped.ext hs fun c y x hc hy hx => ?_
  rw [hs.swapped.score_swapped hc hy hx, hs.score_swapped (sides_lt hc) hy hx,
    sides_sides]

theorem Sized.swapped_mirror (hs : Sized h w s) : s.mirror.swapped = s.swapped.mirror := by
  refine hs.mirror.swapped.ext hs.swapped.mirror fun c y x hc hy hx => ?_
  rw [hs.mirror.score_swapped hc hy hx, hs.score_mirror (sides_lt hc) hy hx,
    hs.swapped.score_mirror hc hy hx, hs.score_swapped hc hy (by omega)]

/-! ## What an answer for the mirror image stands for -/

/-- The planes with sides exchanged, mirrored. -/
def flipped (s : Scores) : Scores :=
  s.swapped.mirror

theorem Sized.flipped (hs : Sized h w s) : Sized h w s.flipped :=
  hs.swapped.mirror

theorem Sized.score_flipped (hs : Sized h w s) {c y x : Nat} (hc : c < partCount) (hy : y < h)
    (hx : x < w) : s.flipped.score c y x = s.score (sides c) y (w - 1 - x) := by
  rw [Scores.flipped, hs.swapped.score_mirror hc hy hx, hs.score_swapped hc hy (by omega)]

theorem Sized.flipped_flipped (hs : Sized h w s) : s.flipped.flipped = s := by
  rw [Scores.flipped, Scores.flipped, hs.swapped.swapped_mirror, hs.swapped_swapped,
    hs.mirror_mirror]

/-! ## Answers for an image and its mirror image -/

theorem Sized.mean (ha : Sized h w a) (b : Scores) : Sized h w (mean a b) :=
  ⟨ha.classes, ha.height, ha.width⟩

theorem Sized.score_mean (ha : Sized h w a) (b : Scores) {c y x : Nat} (hc : c < partCount)
    (hy : y < h) (hx : x < w) :
    (Scores.mean a b).score c y x = (a.score c y x + b.score c y x) / 2.0 :=
  score_ofFn _ (ha.classes ▸ hc) (ha.height ▸ hy) (ha.width ▸ hx)

/-- The batch of two with planes `a` for the image and `b` for the mirror image. -/
def stack (a b : Scores) : Tensor :=
  .batch 2 a.classes a.height a.width fun i => if i = 0 then a.score else b.score

theorem Sized.shape_stack (ha : Sized h w a) (b : Scores) :
    (stack a b).shape = [2, partCount, h, w] := by
  rw [← ha.classes, ← ha.height, ← ha.width]
  rfl

theorem Sized.get_stack (ha : Sized h w a) (b : Scores) {i c y x : Nat} (hi : i < 2)
    (hc : c < partCount) (hy : y < h) (hx : x < w) :
    (stack a b).get [i, c, y, x] = if i = 0 then a.score c y x else b.score c y x := by
  rw [stack, Tensor.get_batch _ hi (ha.classes ▸ hc) (ha.height ▸ hy) (ha.width ▸ hx)]
  split <;> rfl

/-- **Fusion takes the mean of the first planes and of the second flipped.** -/
theorem fuse_stack (ha : Sized h w a) (hb : Sized h w b) :
    fuse (stack a b) = .ok (mean a b.flipped) := by
  have hshape := ha.shape_stack b
  rw [fuse_eq_fusedPlanes ⟨h, w, hshape⟩, Except.ok.injEq]
  refine (sized_fusedPlanes hshape).ext (ha.mean _) fun c y x hc hy hx => ?_
  have hfirst := ha.get_stack b (i := 0) (by decide) hc hy hx
  have hsecond : (stack a b).get [1, sides c, y, w - 1 - x] =
      b.score (sides c) y (w - 1 - x) :=
    ha.get_stack b (by decide) (sides_lt hc) hy (by omega)
  rw [fusedPlanes_eq hshape, score_ofFn _ hc hy hx, fusedScore, hfirst, hsecond, if_pos rfl,
    ha.score_mean _ hc hy hx, hb.score_flipped hc hy hx]

/-- Exchanging the two planes flips the mean, as addition is commutative. -/
theorem mean_flipped_swap (ha : Sized h w a) (hb : Sized h w b) :
    mean b a.flipped = (mean a b.flipped).flipped := by
  have hmean := ha.mean b.flipped
  refine (hb.mean _).ext hmean.flipped fun c y x hc hy hx => ?_
  have hother := sides_lt hc
  have hfacing : w - 1 - x < w := by omega
  have hback : w - 1 - (w - 1 - x) = x := by omega
  rw [hb.score_mean _ hc hy hx, hmean.score_flipped hc hy hx, ha.score_mean _ hother hy hfacing,
    ha.score_flipped hc hy hx, hb.score_flipped hother hy hfacing, sides_sides, hback,
    single_add_comm]

/-- Planes are their own mean where adding a score to itself and halving gives it back. -/
theorem mean_self (ha : Sized h w a) (hhalf : ∀ c < partCount, ∀ y < h, ∀ x < w,
    (a.score c y x + a.score c y x) / 2.0 = a.score c y x) : mean a a = a :=
  (ha.mean a).ext ha fun c y x hc hy hx => by rw [ha.score_mean a hc hy hx, hhalf c hc y hy x hx]

/-- **The algebra of fusion.** A tensor is fused exactly if it is a batch of two with planes for all
human-parsing classes, and refused for its shape otherwise. Exchanging the sides and mirroring undo
themselves and commute. Two planes are fused to the mean of the first and the second flipped, the
two the other way round to the same mean flipped, and planes with themselves flipped to themselves
where no score is lost in the mean. -/
theorem fuse_algebra :
    (∀ output, (∃ planes, fuse output = .ok planes) ↔ IsPair output) ∧
    (∀ output, ¬ IsPair output →
      ∃ expected actual, fuse output = .error (.shapeMismatch expected actual)) ∧
    ∀ {h w : Nat} {a b : Scores}, Sized h w a → Sized h w b →
      (a.swapSides = .ok a.swapped ∧ a.swapped.swapSides = .ok a ∧ a.mirror.mirror = a ∧
        a.mirror.swapSides = .ok a.swapped.mirror) ∧
      (∃ planes, fuse (stack a b) = .ok planes ∧ Sized h w planes ∧
        (∀ c < partCount, ∀ y < h, ∀ x < w, planes.score c y x =
          (a.score c y x + b.score (sides c) y (w - 1 - x)) / 2.0) ∧
        fuse (stack b a) = .ok planes.flipped) ∧
      ((∀ c < partCount, ∀ y < h, ∀ x < w,
          (a.score c y x + a.score c y x) / 2.0 = a.score c y x) →
        fuse (stack a a.flipped) = .ok a) := by
  refine ⟨fun output => ⟨?_, fun h => ⟨_, fuse_eq_fusedPlanes h⟩⟩, fun output h => ?_,
    fun {h w a b} ha hb => ⟨?_, ?_, fun hhalf => ?_⟩⟩
  · rintro ⟨planes, hfuse⟩
    by_contra h
    cases hfuse.symm.trans (fuse_error h)
  · rw [fuse_error h]
    unfold misfit
    split
    case h_1 => exact ⟨_, _, rfl⟩
    case h_2 => exact ⟨_, _, rfl⟩
  · have hback := ha.swapped.swapSides
    rw [ha.swapped_swapped] at hback
    have hcommute := ha.mirror.swapSides
    rw [ha.swapped_mirror] at hcommute
    exact ⟨ha.swapSides, hback, ha.mirror_mirror, hcommute⟩
  · refine ⟨mean a b.flipped, fuse_stack ha hb, ha.mean _, fun c hc y hy x hx => ?_, ?_⟩
    · rw [ha.score_mean _ hc hy hx, hb.score_flipped hc hy hx]
    · rw [fuse_stack hb ha, mean_flipped_swap ha hb]
  · rw [fuse_stack ha ha.flipped, ha.flipped_flipped, mean_self ha hhalf]

/-- Planes of one row and two columns with a score for one class in the first column. -/
def spot (part : Nat) : Scores :=
  ofFn partCount 1 2 fun c _ x => if c = part ∧ x = 0 then 1.0 else 0.0

theorem sized_spot (part : Nat) : Sized 1 2 (spot part) :=
  ⟨rfl, rfl, rfl⟩

/-- With a score for a class without sides in the image, and one for a left arm in the mirror image,
which is a right arm in the other column; and with a batch of other classes. -/
theorem fuse_algebra_spot :
    (∃ expected actual, fuse (.batch 2 19 1 1 fun _ _ _ _ => 0.0) =
      .error (.shapeMismatch expected actual)) ∧
    (∃ planes, fuse (stack (spot 3) (spot 14)) = .ok planes ∧
      (planes.score 3 0 0 = 0.5 ∧ planes.score 14 0 1 = 0.0 ∧ planes.score 15 0 1 = 0.5) ∧
      fuse (stack (spot 14) (spot 3)) = .ok planes.flipped) ∧
    fuse (stack (spot 14) (spot 14).flipped) = .ok (spot 14) := by
  obtain ⟨-, hmisfit, hlaws⟩ := fuse_algebra
  obtain ⟨-, -, hself⟩ := hlaws (sized_spot 14) (sized_spot 14)
  obtain ⟨-, ⟨planes, hfuse, -, hscore, hswap⟩, -⟩ := hlaws (sized_spot 3) (sized_spot 14)
  refine ⟨hmisfit _ ?_, ⟨planes, hfuse, ⟨?_, ?_, ?_⟩, hswap⟩, hself (by decide +kernel)⟩
  · rintro ⟨h, w, hshape⟩
    cases hshape
  · rw [hscore 3 (by decide) 0 (by decide) 0 (by decide)]
    decide +kernel
  · rw [hscore 14 (by decide) 0 (by decide) 1 (by decide)]
    decide +kernel
  · rw [hscore 15 (by decide) 0 (by decide) 1 (by decide)]
    decide +kernel

end ImageLabeling.Scores
