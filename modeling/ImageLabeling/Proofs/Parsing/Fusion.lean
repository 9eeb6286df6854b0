import Mathlib.Algebra.Group.End
import ImageLabeling.Parsing.Accumulator
import ImageLabeling.Proofs.Parsing.Argmax
import ImageLabeling.Proofs.Tensor

/-!
# The symmetry of human parsing

Left and right body parts are exchanged by three transpositions of classes (`sides`), which is the
table that the program has (`otherSide_eq_sides`). Two stacks of planes are *reflected*
(`Reflected`) if one has the scores of the other mirrored, with these classes exchanged. Exchanging
the answers for an image and its mirror image reflects what they are fused to (`reflected_fuse`),
and sums of reflected planes are reflected. The classes that lead at two pixels facing each other
are then each other's other side (`Reflected.leads`).
-/

namespace ImageLabeling.Scores

open Number

variable {a b a' b' : Scores} {h w : Nat}

/-! ## Left and right -/

/-- Left and right exchanged: the arms are 14 and 15, the legs 16 and 17, the shoes 18 and 19. -/
def sides : Equiv.Perm Nat :=
  Equiv.swap 14 15 * Equiv.swap 16 17 * Equiv.swap 18 19

theorem otherSide_eq_sides (c : Nat) : otherSide c = sides c := by
  simp only [sides, Equiv.Perm.mul_apply, Equiv.swap_apply_def]
  unfold otherSide
  grind

theorem sides_lt {c : Nat} (h : c < partCount) : sides c < partCount := by
  rw [← otherSide_eq_sides]
  exact otherSide_lt h

theorem sides_sides (c : Nat) : sides (sides c) = c := by
  rw [← otherSide_eq_sides, ← otherSide_eq_sides, otherSide_otherSide]

example : (List.range partCount).map sides =
    [0, 1, 2, 3, 4, 5, 6, 7, 8, 9, 10, 11, 12, 13, 15, 14, 17, 16, 19, 18] := by decide

/-! ## Reflected planes -/

/-- Planes for the human-parsing classes at a size. -/
structure Sized (h w : Nat) (s : Scores) : Prop where
  classes : s.classes = partCount
  height : s.height = h
  width : s.width = w

/-- The planes of `b` are those of `a` mirrored, each in the place of its other side. -/
structure Reflected (h w : Nat) (a b : Scores) : Prop where
  left : Sized h w a
  right : Sized h w b
  score_eq : ∀ {c y x}, c < partCount → y < h → x < w →
    b.score c y x = a.score (sides c) y (w - 1 - x)

/-- The other side of the class that leads in `b` leads in `a`, at the pixel facing it. -/
theorem Reflected.leads (hab : Reflected h w a b) {c y x : Nat} (hy : y < h) (hx : x < w)
    (hlead : b.Leads c y x) : a.Leads (sides c) y (w - 1 - x) := by
  have hc : c < partCount := hab.right.classes ▸ hlead.isClass
  have hscore := hab.score_eq hc hy hx
  refine ⟨hab.left.classes ▸ sides_lt hc, hscore ▸ hlead.above, fun d hd hne => ?_⟩
  have hd : d < partCount := hab.left.classes ▸ hd
  have hother : b.score (sides d) y x = a.score d y (w - 1 - x) := by
    rw [hab.score_eq (sides_lt hd) hy hx, sides_sides]
  have hne' : sides d ≠ c := by
    rintro rfl
    exact hne (sides_sides d).symm
  have hbeats := hlead.beats (sides d) (hab.right.classes ▸ sides_lt hd) hne'
  rwa [hother, hscore] at hbeats

/-- **The labels of reflected planes.** Where one class leads, the pixels that face each other have
labels that are each other's other side. -/
theorem Reflected.label (hab : Reflected h w a b) {c y x : Nat} (hy : y < h) (hx : x < w)
    (hlead : b.Leads c y x) :
    ((LabelMap.ofScores b).label y x).toNat =
      sides ((LabelMap.ofScores a).label y (w - 1 - x)).toNat := by
  have hbyte : partCount ≤ 256 := by decide
  have hfacing : w - 1 - x < w := by omega
  rw [LabelMap.label_of_leads hlead (hab.right.height ▸ hy) (hab.right.width ▸ hx)
      (hab.right.classes ▸ hbyte),
    LabelMap.label_of_leads (hab.leads hy hx hlead) (hab.left.height ▸ hy)
      (hab.left.width ▸ hfacing) (hab.left.classes ▸ hbyte), sides_sides]

/-! ## Sums -/

theorem score_plus (ha : Sized h w a) {c y x : Nat} (hc : c < partCount) (hy : y < h)
    (hx : x < w) : (Accumulator.plus a b).score c y x = a.score c y x + b.score c y x :=
  score_ofFn _ (ha.classes ▸ hc) (ha.height ▸ hy) (ha.width ▸ hx)

theorem Sized.plus (ha : Sized h w a) (b : Scores) : Sized h w (Accumulator.plus a b) :=
  ⟨ha.classes, ha.height, ha.width⟩

theorem Reflected.plus (hab : Reflected h w a b) (hab' : Reflected h w a' b') :
    Reflected h w (Accumulator.plus a a') (Accumulator.plus b b') := by
  refine ⟨hab.left.plus a', hab.right.plus b', fun hc hy hx => ?_⟩
  rw [score_plus hab.right hc hy hx, score_plus hab.left (sides_lt hc) hy (by omega),
    hab.score_eq hc hy hx, hab'.score_eq hc hy hx]

/-- `a` with itself added `n` times. -/
def repeated (a : Scores) : Nat → Scores
  | 0 => a
  | n + 1 => Accumulator.plus (repeated a n) a

theorem classes_repeated (a : Scores) (n : Nat) : (a.repeated n).classes = a.classes := by
  induction n with
  | zero => rfl
  | succ n ih => exact ih

theorem Reflected.repeated (hab : Reflected h w a b) (n : Nat) :
    Reflected h w (a.repeated n) (b.repeated n) := by
  induction n with
  | zero => exact hab
  | succ n ih => exact ih.plus hab

/-! ## Fusion -/

/-- The two halves of a batch of two have the elements of its entries. -/
theorem pair?_eq {t : Tensor} (hshape : t.shape = [2, partCount, h, w]) :
    ∃ upright mirrored, pair? t = some (upright, mirrored) ∧
      Sized h w upright ∧ Sized h w mirrored ∧
      ∀ {c y x}, c < partCount → y < h → x < w →
        upright.score c y x = t.get [0, c, y, x] ∧ mirrored.score c y x = t.get [1, c, y, x] := by
  obtain ⟨shape, data, hsize⟩ := t
  dsimp only at hshape
  subst hshape
  refine ⟨_, _, rfl, ⟨rfl, rfl, rfl⟩, ⟨rfl, rfl, rfl⟩, fun {c y x} hc hy hx => ?_⟩
  have hrow : c * h + y < partCount * h := digit_lt hc hy
  have hplace : (c * h + y) * w + x < partCount * (h * w) := by
    rw [← Nat.mul_assoc]
    exact digit_lt hrow hx
  have hoffset : c * (h * w) + (y * w + x) = (c * h + y) * w + x := by
    rw [Nat.add_mul, Nat.mul_assoc, Nat.add_assoc]
  have hdata : data.size = 2 * (partCount * (h * w)) := by
    rw [hsize]
    simp
  have hfirst : (c * h + y) * w + x < data.size := by omega
  have hsecond : (c * h + y) * w + x <
      min (2 * (partCount * (h * w))) data.size - partCount * (h * w) := by omega
  have hlast : partCount * (h * w) + ((c * h + y) * w + x) < data.size := by omega
  constructor
  · simp [score, Tensor.get, Tensor.offset, Array.getD_eq_getD_getElem?, hoffset, hplace, hfirst]
  · simp [score, Tensor.get, Tensor.offset, Array.getD_eq_getD_getElem?, hoffset, hsecond, hlast]

theorem swapSides_eq {s : Scores} (hs : Sized h w s) :
    ∃ restored, s.swapSides = .ok restored ∧ Sized h w restored :=
  ⟨_, if_pos hs.classes, hs.classes, hs.height, hs.width⟩

/-- The fused score of a class at a pixel is the mean of its score there and of the score of its
other side at the pixel facing it in the mirror image. -/
theorem fuse_eq {t : Tensor} (hshape : t.shape = [2, partCount, h, w]) :
    ∃ s, fuse t = .ok s ∧ Sized h w s ∧ ∀ {c y x}, c < partCount → y < h → x < w →
      s.score c y x = (t.get [0, c, y, x] + t.get [1, sides c, y, w - 1 - x]) / 2.0 := by
  obtain ⟨upright, mirrored, hpair, hupright, hmirrored, hget⟩ := pair?_eq hshape
  obtain ⟨restored, hswap, hrestored⟩ := swapSides_eq hmirrored
  refine ⟨mean upright restored.mirror, ?_, ⟨hupright.classes, hupright.height, hupright.width⟩,
    fun {c y x} hc hy hx => ?_⟩
  · rw [fuse, hpair]
    show (mirrored.swapSides >>= fun restored => .ok (mean upright restored.mirror)) = _
    rw [hswap]
    rfl
  · have hother := sides_lt hc
    have hfacing : w - 1 - x < w := by omega
    have hmirror : restored.mirror.score c y x = mirrored.score (sides c) y (w - 1 - x) := by
      rw [score_mirror restored (hrestored.classes ▸ hc) (hrestored.height ▸ hy)
          (hrestored.width ▸ hx), hrestored.width,
        score_of_swapSides_eq_ok hswap (hmirrored.classes ▸ hc) (hmirrored.height ▸ hy)
          (hmirrored.width ▸ hfacing), otherSide_eq_sides]
    have hmean : (mean upright restored.mirror).score c y x =
        (upright.score c y x + restored.mirror.score c y x) / 2.0 :=
      score_ofFn _ (hupright.classes ▸ hc) (hupright.height ▸ hy) (hupright.width ▸ hx)
    rw [hmean, hmirror, (hget hc hy hx).1, (hget hother hy hfacing).2]

/-- **Exchanging the answers for an image and its mirror image reflects the fused planes.** -/
theorem reflected_fuse {t : Tensor} (hshape : t.shape = [2, partCount, h, w]) :
    ∃ a b, fuse t = .ok a ∧ fuse t.exchange = .ok b ∧ Reflected h w a b := by
  obtain ⟨a, ha, hasized, hascore⟩ := fuse_eq hshape
  have hshape' : t.exchange.shape = [2, partCount, h, w] := by
    rw [Tensor.exchange_eq hshape]
    rfl
  obtain ⟨b, hb, hbsized, hbscore⟩ := fuse_eq hshape'
  refine ⟨a, b, ha, hb, hasized, hbsized, fun {c y x} hc hy hx => ?_⟩
  have hother := sides_lt hc
  have hfacing : w - 1 - x < w := by omega
  have hback : w - 1 - (w - 1 - x) = x := by omega
  rw [hbscore hc hy hx, hascore hother hy hfacing, sides_sides, hback,
    Tensor.get_exchange hshape (by decide) hc hy hx,
    Tensor.get_exchange hshape (by decide) hother hy hfacing, single_add_comm]

end ImageLabeling.Scores
