import ImageLabeling.Proofs.Image.Input
import ImageLabeling.Proofs.Image.Pyramid
import ImageLabeling.Proofs.Number.Dyadic
import ImageLabeling.Proofs.Writes

/-!
# The layout of a pyramid

Bytes are normalized to numbers from -1 to 1 that grow with them (`normalize_lt`), so an image can
be read back from its batch. The loop that copies an image and its mirror image into a batch writes
every place once (`fills_mirrorBatch`). A pyramid that can be built has for each scale, in order,
the batch of the image resized by that scale (`pyramid_layout`).
-/

namespace ImageLabeling

open Number

namespace Pyramid

/-! ## Normalized bytes -/

variable {a b : UInt8}

/-- A normalized byte lies between the bounds that its exact value lies between, if these are
multiples of `2 ^ -10`. -/
theorem within_normalize {l u : Nat} (hl : l * 255 ≤ b.toNat * 2 ^ 11)
    (hu : b.toNat * 2 ^ 11 ≤ u * 255) (hsize : u ≤ 2 ^ 20) :
    Within (((l - 2 ^ 10 : Int) : ℚ) / 2 ^ 10) (((u - 2 ^ 10 : Int) : ℚ) / 2 ^ 10)
      (normalize b) := by
  have hb : b.toNat < 2 ^ 8 := b.toNat_lt
  have hsingle := (rounds_single (n := b.toNat) (by omega)).isFinite
  have hexact : value (single b.toNat) * value 2.0 = (b.toNat * 2 : Nat) := by
    rw [value_single (by omega), value_two]
    push_cast
    rfl
  have hstorable := storable_natCast (n := b.toNat * 2) (by omega)
  have hdouble := within_mul hsingle rfl hstorable hstorable hexact.ge hexact.le
  have hquotient : Within ((l : ℚ) / 2 ^ 10) ((u : ℚ) / 2 ^ 10)
      (single b.toNat * 2.0 / 255.0) := by
    refine within_div hdouble.isFinite rfl (storable_div_two_pow (by omega) (by norm_num))
      (storable_div_two_pow (by omega) (by norm_num)) (by norm_num [value_byteRange]) ?_ ?_
    · have hlower : (l * 255 : ℚ) ≤ b.toNat * 2 ^ 11 := by exact_mod_cast hl
      rw [hdouble.eq, value_byteRange, div_le_div_iff₀ (by norm_num) (by norm_num)]
      push_cast
      linarith
    · have hupper : (b.toNat * 2 ^ 11 : ℚ) ≤ u * 255 := by exact_mod_cast hu
      rw [hdouble.eq, value_byteRange, div_le_div_iff₀ (by norm_num) (by norm_num)]
      push_cast
      linarith
  have hshift : ∀ n : Nat, (((n - 2 ^ 10 : Int) : ℚ) / 2 ^ 10) = n / 2 ^ 10 - 1 := by
    intro n
    push_cast
    ring
  have hone : (1.0 : Float32).isFinite = true := rfl
  refine within_sub hquotient.isFinite hone (storable_intCast_div (by omega) (by norm_num))
    (storable_intCast_div (by omega) (by norm_num)) ?_ ?_
  · rw [hshift, value_one]
    exact sub_le_sub_right hquotient.ge 1
  · rw [hshift, value_one]
    exact sub_le_sub_right hquotient.le 1

theorem within_normalize_one (b : UInt8) : Within (-1) 1 (normalize b) := by
  have hb : b.toNat < 2 ^ 8 := b.toNat_lt
  have h := within_normalize (b := b) (l := 0) (u := 2 ^ 11) (by omega) (by omega) (by norm_num)
  exact h.mono (by norm_num) (by norm_num)

/-- **Larger bytes are normalized to larger numbers**: between two bytes lie two multiples of
`2 ^ -10`, which rounding does not pass. -/
theorem normalize_lt (h : a < b) : normalize a < normalize b := by
  have hab : a.toNat < b.toNat := UInt8.lt_iff_toNat_lt.1 h
  have hb : b.toNat < 2 ^ 8 := b.toNat_lt
  obtain ⟨u, hu⟩ : ∃ u, (a.toNat * 2 ^ 11 + 254) / 255 = u := ⟨_, rfl⟩
  have hleft := within_normalize (b := a) (l := 0) (u := u) (by omega) (by omega) (by omega)
  have hright := within_normalize (b := b) (l := u + 1) (u := 2 ^ 11) (by omega) (by omega)
    (by norm_num)
  rw [single_lt_iff_value hleft.isFinite hright.isFinite]
  calc value (normalize a) ≤ ((u - 2 ^ 10 : Int) : ℚ) / 2 ^ 10 := hleft.le
    _ < (((u + 1 : Nat) - 2 ^ 10 : Int) : ℚ) / 2 ^ 10 := by
        apply div_lt_div_of_pos_right _ (by norm_num)
        exact_mod_cast (by omega : (u : Int) - 2 ^ 10 < (u + 1 : Nat) - 2 ^ 10)
    _ ≤ value (normalize b) := hright.ge

theorem normalize_injective : Function.Injective normalize := by
  intro a b h
  have hirrefl : ∀ v : Float32, ¬ v < v := fun v hv => (single_lt_iff.1 hv).2.2.false
  apply UInt8.toNat_inj.1
  rcases lt_trichotomy a.toNat b.toNat with hlt | heq | hgt
  · exact absurd (h ▸ normalize_lt (UInt8.lt_iff_toNat_lt.2 hlt)) (hirrefl _)
  · exact heq
  · exact absurd (h ▸ normalize_lt (UInt8.lt_iff_toNat_lt.2 hgt)) (hirrefl _)

/-! ## The batch of an image and its mirror image -/

/-- The writes that copy pixel number `i` into a batch, for each channel into the plane of the
image and, mirrored within its row, into that of the mirror image. -/
def pixelWrites (r : Raster) (i : Nat) : List (Nat × Float32) :=
  let spatial := r.width * r.height
  let plane := 3 * spatial
  let mirrored := i / r.width * r.width + (r.width - 1 - i % r.width)
  (List.range 3).flatMap fun c =>
    let v := normalize (r.bytes.getD (3 * i + c) 0)
    [(c * spatial + i, v), (plane + c * spatial + mirrored, v)]

/-- The writes that copy an image into a batch, pixel by pixel. -/
def mirrorWrites (r : Raster) : List (Nat × Float32) :=
  (List.range (r.width * r.height)).flatMap (pixelWrites r)

variable {r : Raster}

/-- The writes are those of the elements of the batch to their places. -/
theorem mem_mirrorWrites {write : Nat × Float32} :
    write ∈ mirrorWrites r ↔ ∃ b < 2, ∃ c < 3, ∃ y < r.height, ∃ x < r.width,
      write = (b * (3 * (r.height * r.width)) + (c * (r.height * r.width) + (y * r.width + x)),
        normalize (r.sample (if b = 0 then x else r.width - 1 - x) y c)) := by
  simp only [mirrorWrites, pixelWrites, List.mem_flatMap, List.mem_range, List.mem_cons,
    List.not_mem_nil, or_false, Nat.mul_comm r.width]
  constructor
  · rintro ⟨i, hi, c, hc, hwrite⟩
    have hw : 0 < r.width := Nat.pos_of_mul_pos_left (Nat.zero_lt_of_lt hi)
    have hx := Nat.mod_lt i hw
    have hy := (Nat.div_lt_iff_lt_mul hw).2 hi
    have hback : r.width - 1 - (r.width - 1 - i % r.width) = i % r.width := by omega
    rcases hwrite with rfl | rfl
    · refine ⟨0, two_pos, c, hc, _, hy, _, hx, ?_⟩
      simp [Raster.sample, Nat.div_add_mod']
    · refine ⟨1, one_lt_two, c, hc, _, hy, r.width - 1 - i % r.width, by omega, ?_⟩
      simp [Raster.sample, hback, Nat.div_add_mod', Nat.add_assoc]
  · rintro ⟨b, hb, c, hc, y, hy, x, hx, rfl⟩
    rcases Nat.lt_succ_iff_lt_or_eq.1 hb with hzero | rfl
    · obtain rfl : b = 0 := by omega
      refine ⟨y * r.width + x, digit_lt hy hx, c, hc, .inl ?_⟩
      simp [Raster.sample]
    · have hx' : r.width - 1 - x < r.width := by omega
      have hback : r.width - 1 - (r.width - 1 - x) = x := by omega
      refine ⟨y * r.width + (r.width - 1 - x), digit_lt hy hx', c, hc, .inr ?_⟩
      rw [digit_div y hx', digit_mod y hx', hback]
      simp [Raster.sample, Nat.add_assoc]

theorem length_mirrorWrites (r : Raster) :
    (mirrorWrites r).length = 2 * (3 * (r.height * r.width)) := by
  have hpixel : ∀ i, (pixelWrites r i).length = 6 := fun i => rfl
  simp only [mirrorWrites, List.length_flatMap, hpixel, List.map_const', List.sum_replicate,
    List.length_range, smul_eq_mul]
  ring

/-- **Copying an image and its mirror image writes every place of their batch once.** -/
theorem fills_mirrorBatch (r : Raster) : Fills (mirrorWrites r) (mirrorBatch r) :=
  fills_batch (length_mirrorWrites r) fun _ => mem_mirrorWrites

/-! ## Levels -/

/-- Nothing is left of an image at a scale. -/
def Vanishes (image : Raster) (scale : Float32) : Prop :=
  scaledLength image.width scale = 0 ∨ scaledLength image.height scale = 0

theorem get_mirrorBatch (r : Raster) {b c y x : Nat} (hb : b < 2) (hc : c < 3) (hy : y < r.height)
    (hx : x < r.width) :
    (mirrorBatch r).get [b, c, y, x] =
      normalize (r.sample (if b = 0 then x else r.width - 1 - x) y c) :=
  Tensor.get_batch _ hb hc hy hx

section

variable [Resizer]

/-- What a level of an image has to be: its batch holds the normalized bytes of the image resized by
the scale, and of its mirror image. -/
structure IsLevel (image : Raster) (scale : Float32) (level : Level) : Prop where
  scale_eq : level.scale = scale
  size : (level.width, level.height) = scaledSize image.width image.height scale
  pos : 0 < level.width ∧ 0 < level.height
  shape : level.batch.shape = [2, 3, level.height, level.width]
  original : ∀ c < 3, ∀ y < level.height, ∀ x < level.width, ∃ byte,
    (image.resize level.width level.height).bytes[3 * (y * level.width + x) + c]? = some byte ∧
      level.batch.get [0, c, y, x] = normalize byte
  mirrored : ∀ c < 3, ∀ y < level.height, ∀ x < level.width,
    level.batch.get [1, c, y, x] = level.batch.get [0, c, y, level.width - 1 - x]
  written : Fills (mirrorWrites (image.resize level.width level.height)) level.batch
  within : ∀ v ∈ level.batch.data, Within (-1) 1 v
  /-- No other image of this size has the same normalized bytes. -/
  recovered : ∀ r : Raster, r.width = level.width → r.height = level.height →
    (∀ c < 3, ∀ y < level.height, ∀ x < level.width,
      level.batch.get [0, c, y, x] = normalize (r.sample x y c)) →
    r = image.resize level.width level.height

variable {image : Raster} {scale : Float32}

theorem level_eq_error_iff {failure : Failure} :
    Pyramid.level image scale = .error failure ↔
      Vanishes image scale ∧ failure = .vanishingScale scale image.width image.height := by
  rw [Pyramid.level, scaledSize]
  dsimp only
  split
  case isTrue hzero =>
    rw [Except.error.injEq, eq_comm]
    exact (and_iff_right hzero).symm
  case isFalse hpos => simp [Vanishes, hpos]

/-- **The batch of a resized image and its mirror image is that of a level.** -/
theorem isLevel_mirrorBatch {width height : Nat}
    (hsize : (width, height) = scaledSize image.width image.height scale)
    (hpos : 0 < width ∧ 0 < height) :
    IsLevel image scale ⟨scale, width, height, mirrorBatch (image.resize width height)⟩ := by
  have hwidth : (image.resize width height).width = width := image.width_resize width height
  have hheight : (image.resize width height).height = height := image.height_resize width height
  generalize himage : image.resize width height = resized at *
  subst hwidth hheight
  have hget := fun {b c y x} => get_mirrorBatch resized (b := b) (c := c) (y := y) (x := x)
  refine ⟨rfl, hsize, hpos, rfl, ?_, ?_, ?_, ?_, ?_⟩
  · intro c hc y hy x hx
    refine ⟨resized.sample x y c, ?_, hget two_pos hc hy hx⟩
    rw [himage]
    exact Raster.getElem?_bytes hx hy hc
  · intro c hc y hy x hx
    have hfacing : resized.width - 1 - x < resized.width := by omega
    rw [hget one_lt_two hc hy hx, hget two_pos hc hy hfacing]
    rfl
  · rw [himage]
    exact fills_mirrorBatch resized
  · intro v hv
    obtain ⟨i, -, rfl⟩ := Array.mem_ofFn.1 hv
    exact within_normalize_one _
  · intro r hrwidth hrheight hsame
    rw [himage]
    apply (Raster.ext_sample (r := resized) hrwidth.symm hrheight.symm ?_).symm
    intro c hc y hy x hx
    have hsample := hsame c hc y hy x hx
    rw [hget two_pos hc hy hx] at hsample
    exact normalize_injective hsample

theorem isLevel_of_ok {level : Level} (h : Pyramid.level image scale = .ok level) :
    IsLevel image scale level := by
  rw [Pyramid.level, scaledSize] at h
  dsimp only at h
  split at h
  case isTrue => cases h
  case isFalse hpos =>
    cases h
    exact isLevel_mirrorBatch rfl (by omega)

/-! ## Pyramids -/

variable {list : List Float32}

/-- The levels of an image that vanishes at no scale. -/
theorem mapM_level_of_forall (h : ∀ scale ∈ list, ¬ Vanishes image scale) :
    ∃ levels, list.mapM (Pyramid.level image) = .ok levels ∧
      List.Forall₂ (IsLevel image) list levels := by
  cases hlevels : list.mapM (Pyramid.level image) with
  | error failure =>
    obtain ⟨scale, hscale, herror⟩ := mapM_eq_error_inv hlevels
    exact absurd (level_eq_error_iff.1 herror).1 (h scale hscale)
  | ok levels =>
    exact ⟨levels, rfl, (mapM_eq_ok_inv hlevels).imp fun _ _ => isLevel_of_ok⟩

/-- An image that vanishes at a scale has no pyramid. -/
theorem mapM_level_of_exists (h : ∃ scale ∈ list, Vanishes image scale) :
    ∃ scale ∈ list, Vanishes image scale ∧ list.mapM (Pyramid.level image) =
      .error (.vanishingScale scale image.width image.height) := by
  cases hlevels : list.mapM (Pyramid.level image) with
  | error failure =>
    obtain ⟨scale, hscale, herror⟩ := mapM_eq_error_inv hlevels
    obtain ⟨hvanishes, rfl⟩ := level_eq_error_iff.1 herror
    exact ⟨scale, hscale, hvanishes, rfl⟩
  | ok levels =>
    obtain ⟨scale, hscale, hvanishes⟩ := h
    obtain ⟨hlength, hget⟩ := List.forall₂_iff_get.1 (mapM_eq_ok_inv hlevels)
    obtain ⟨i, hi, rfl⟩ := List.getElem_of_mem hscale
    have hlevel := hget i hi (hlength ▸ hi)
    rw [List.get_eq_getElem, level_eq_error_iff.2 ⟨hvanishes, rfl⟩] at hlevel
    cases hlevel

variable {scales : Scales}

/-- **A pyramid exists exactly if its image vanishes at no scale.** -/
theorem ofPixels_self_cases (scales : Scales) (hwidth : 0 < image.width)
    (hheight : 0 < image.height) (hword : image.bytes.size < wordLimit) :
    ((∃ scale ∈ scales.list, Vanishes image scale) → ∃ scale ∈ scales.list, Vanishes image scale ∧
      ofPixels scales image.bytes image.width image.height =
        .error (.failure (.vanishingScale scale image.width image.height))) ∧
    ((∀ scale ∈ scales.list, ¬ Vanishes image scale) →
      ∃ levels, ofPixels scales image.bytes image.width image.height = .ok levels ∧
        List.Forall₂ (IsLevel image) scales.list levels) := by
  rw [ofPixels_of_ok (Raster.ofPixels_self hwidth hheight hword)]
  constructor
  · intro h
    obtain ⟨scale, hscale, hvanishes, herror⟩ := mapM_level_of_exists h
    exact ⟨scale, hscale, hvanishes, by rw [herror]; rfl⟩
  · intro h
    obtain ⟨levels, hlevels, hare⟩ := mapM_level_of_forall h
    exact ⟨levels, by rw [hlevels]; rfl, hare⟩

omit [Resizer] in
theorem list_of_ofList (h : Scales.ofList list = .ok scales) : scales.list = list := by
  unfold Scales.ofList at h
  split at h
  · cases h
  · split at h
    · cases h
      rfl
    · cases h

/-- **The layout of a pyramid.** For accepted scales and an image with pixels, whose bytes, like
those of any buffer, 64 bits count, there is no pyramid exactly if some scale leaves nothing of a
side; such a scale is named.
Otherwise the pyramid has a level for each scale, in order, of the size that the scale gives: its
batch holds the normalized bytes of the resized image and, mirrored row by row, those of its mirror
image. Every place of the batch is written once, all numbers lie between -1 and 1, and the resized
image can be read back from them, as larger bytes are normalized to larger numbers. -/
theorem pyramid_layout (hscales : Scales.ofList list = .ok scales) (hwidth : 0 < image.width)
    (hheight : 0 < image.height) (hword : image.bytes.size < wordLimit) :
    ((∃ scale ∈ list, Vanishes image scale) → ∃ scale ∈ list, Vanishes image scale ∧
      ofPixels scales image.bytes image.width image.height =
        .error (.failure (.vanishingScale scale image.width image.height))) ∧
    ((∀ scale ∈ list, ¬ Vanishes image scale) →
      ∃ levels, ofPixels scales image.bytes image.width image.height = .ok levels ∧
        List.Forall₂ (IsLevel image) list levels) ∧
    ∀ a b, a < b → normalize a < normalize b := by
  obtain ⟨hvanishes, hbuilt⟩ := ofPixels_self_cases scales hwidth hheight hword
  rw [list_of_ofList hscales] at hvanishes hbuilt
  exact ⟨hvanishes, hbuilt, fun a b h => normalize_lt h⟩

end

/-- Three columns and two rows of different bytes. -/
def gradient : Raster :=
  Raster.ofFn 3 2 fun x y c => UInt8.ofNat (40 * x + 100 * y + c)

/-- At the scales one and a half there are two levels; at a quarter nothing is left. -/
theorem pyramid_layout_gradient :
    (∃ scales, Scales.ofList [1.0, 0.5] = .ok scales ∧
      ∃ large small, ofPixels scales gradient.bytes 3 2 = .ok [large, small] ∧
        (small.width, small.height) = (1, 1) ∧
        large.batch.get [1, 2, 1, 0] = large.batch.get [0, 2, 1, 2]) ∧
    ∃ scales, Scales.ofList [1.0, 0.25] = .ok scales ∧
      ofPixels scales gradient.bytes 3 2 = .error (.failure (.vanishingScale 0.25 3 2)) := by
  have hword : gradient.bytes.size < wordLimit := by rw [gradient.size_bytes]; decide
  have hscale : ∀ scale : Float32, scaledLength 3 scale ≠ 0 → scaledLength 2 scale ≠ 0 →
      ¬ Vanishes gradient scale := fun _ hwidth hheight h => h.elim hwidth hheight
  constructor
  · have hscales : Scales.ofList [1.0, 0.5] = .ok ⟨[1.0, 0.5], by decide, by decide +kernel⟩ := rfl
    obtain ⟨-, hbuilt, -⟩ := pyramid_layout hscales (by decide) (by decide) hword
    have hone := hscale 1.0 (by decide +kernel) (by decide +kernel)
    have hhalf := hscale 0.5 (by decide +kernel) (by decide +kernel)
    obtain ⟨levels, hlevels, hare⟩ := hbuilt (by simp [hone, hhalf])
    obtain _ | ⟨hlarge, _ | ⟨hsmall, _ | _⟩⟩ := hare
    have hsize : scaledSize 3 2 1.0 = (3, 2) := by decide +kernel
    obtain ⟨hwidth, hheight⟩ := Prod.mk.inj (hlarge.size.trans hsize)
    refine ⟨_, hscales, _, _, hlevels, hsmall.size.trans (by decide +kernel), ?_⟩
    rw [hlarge.mirrored 2 (by decide) 1 (by omega) 0 (by omega), hwidth]
  · have hscales :
        Scales.ofList [1.0, 0.25] = .ok ⟨[1.0, 0.25], by decide, by decide +kernel⟩ := rfl
    obtain ⟨hfails, -⟩ := pyramid_layout hscales (by decide) (by decide) hword
    have hone := hscale 1.0 (by decide +kernel) (by decide +kernel)
    have hquarter : Vanishes gradient 0.25 := .inr (by decide +kernel)
    obtain ⟨scale, hmem, hvanishes, herror⟩ := hfails ⟨_, by simp, hquarter⟩
    rcases List.mem_pair.1 hmem with rfl | rfl
    · exact absurd hvanishes hone
    · exact ⟨_, hscales, herror⟩

end Pyramid

end ImageLabeling
