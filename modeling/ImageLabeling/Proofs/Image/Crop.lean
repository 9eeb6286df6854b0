import ImageLabeling.Proofs.Image.Acceptance
import ImageLabeling.Proofs.Number.Dyadic
import ImageLabeling.Proofs.Writes

/-!
# Centered crops

Half of a margin is rounded to a whole number, and is never larger than the margin
(`halfMargin_le`), so that a crop lies in its image. A margin up to `2 ^ 24` is halved exactly, a
half going to the even neighbour (`halfMargin_eq`). The loop that copies a crop channel by channel
writes every place of the result once (`fills_cropBatch`). A result is the normalized crop of the
resized image (`centered_crop`).
-/

namespace ImageLabeling

open Number

namespace Transform

/-! ## Half of a margin -/

variable {margin n : Nat}

/-- The rounding of a half whose whole part and fraction are exact. -/
theorem halfMargin_of_within {rest : ℚ} (hhalf : Within (n + rest) (n + rest) (single margin / 2.0))
    (hn : n < 2 ^ 64) (hgrid : OnGrid n) (hrest : Storable rest) (h0 : 0 ≤ rest) (h1 : rest < 1) :
    halfMargin margin = if rest < 1 / 2 then n else if 1 / 2 < rest then n + 1 else n + n % 2 := by
  have hnonneg : (0 : ℚ) ≤ n + rest := by positivity
  have hlarge : (n : ℚ) + rest < 2 ^ 64 := by
    have hn' : (n : ℚ) + 1 ≤ 2 ^ 64 := by exact_mod_cast hn
    linarith
  have hfloor : (single margin / 2.0).toUInt64.toNat = n := by
    rw [toNat_toUInt64 hhalf.isFinite (hhalf.eq ▸ hnonneg) (hhalf.eq ▸ hlarge), hhalf.eq,
      add_comm, Nat.floor_add_natCast h0, Nat.floor_eq_zero.2 h1, zero_add]
  have hsingle := rounds_single hn
  have hdifference : value (single margin / 2.0) - value (single n) = rest := by
    rw [hhalf.eq, hsingle.nearest.eq hgrid]
    ring
  have hfraction := within_sub hhalf.isFinite hsingle.isFinite hrest hrest hdifference.ge
    hdifference.le
  have hhalfway : (0.5 : Float32).isFinite = true := rfl
  unfold halfMargin
  dsimp only
  rw [hfloor]
  simp only [single_lt_iff_value hfraction.isFinite hhalfway,
    single_lt_iff_value hhalfway hfraction.isFinite, hfraction.eq, value_half]

/-- **Margins up to `2 ^ 24` are halved exactly**, an odd one to the even neighbour. -/
theorem halfMargin_eq (h : margin ≤ 2 ^ 24) :
    halfMargin margin = margin / 2 + margin % 2 * (margin / 2 % 2) := by
  have hsplit : (margin : ℚ) / 2 = (margin / 2 : Nat) + (margin % 2 : Nat) / 2 := by
    have hdiv : (margin : ℚ) = 2 * (margin / 2 : Nat) + (margin % 2 : Nat) := by
      exact_mod_cast (Nat.div_add_mod margin 2).symm
    linarith
  have hvalue :
      value (single margin) / value 2.0 = (margin / 2 : Nat) + (margin % 2 : Nat) / 2 := by
    rw [value_single h, value_two, hsplit]
  have hstorable : Storable (((margin / 2 : Nat) : ℚ) + (margin % 2 : Nat) / 2) := by
    rw [← hsplit]
    simpa using storable_div_two_pow h (by norm_num : 1 ≤ 149)
  have hhalf := within_div (rounds_single (by omega)).isFinite (b := 2.0) rfl hstorable hstorable
    (by norm_num [value_two]) hvalue.ge hvalue.le
  have hrest : Storable (((margin % 2 : Nat) : ℚ) / 2) := by
    simpa using storable_div_two_pow (n := margin % 2) (by omega) (by norm_num : 1 ≤ 149)
  have hhalf := halfMargin_of_within hhalf (by omega) (onGrid_natCast (by omega)) hrest
    (by positivity)
  rcases Nat.mod_two_eq_zero_or_one margin with heven | hodd
  · rw [hhalf (by norm_num [heven]), heven]
    norm_num
  · rw [hhalf (by norm_num [hodd]), hodd]
    norm_num

/-- A margin above `2 ^ 24` is rounded to an even number, which is halved exactly. -/
theorem halfMargin_le_of_large (h : 2 ^ 24 ≤ margin) (hlt : margin < 2 ^ 64) :
    halfMargin margin ≤ margin := by
  obtain ⟨half, hvalue, hgrid, hle⟩ := exists_half_of_large h hlt
  have hexact : value (single margin) / value 2.0 = half + 0 := by
    rw [hvalue, value_two]
    ring
  have hlarge : |(half : ℚ)| ≤ largest := by
    have hhalf : (half : ℚ) ≤ 2 ^ 64 := by exact_mod_cast hle.trans hlt.le
    rw [Nat.abs_cast]
    exact hhalf.trans (by norm_num [largest])
  have hstorable : Storable ((half : ℚ) + 0) := by
    rw [add_zero]
    exact ⟨hgrid, hlarge⟩
  have hhalf := within_div (rounds_single hlt).isFinite (b := 2.0) rfl hstorable hstorable
    (by norm_num [value_two]) hexact.ge hexact.le
  rw [halfMargin_of_within hhalf (by omega) hgrid storable_zero le_rfl one_pos,
    if_pos (by norm_num)]
  exact hle

theorem halfMargin_mod (margin : Nat) : halfMargin margin = halfMargin (margin % 2 ^ 64) := by
  have hword : single margin = single (margin % 2 ^ 64) := by
    have hsame : margin.toUInt64 = (margin % 2 ^ 64).toUInt64 := by
      apply UInt64.toNat_inj.1
      simp
    rw [single, single, hsame]
  rw [halfMargin, halfMargin, hword]

/-- **Half of a margin is not larger than the margin.** -/
theorem halfMargin_le (margin : Nat) : halfMargin margin ≤ margin := by
  rw [halfMargin_mod]
  apply le_trans _ (Nat.mod_le margin (2 ^ 64))
  have hlt := Nat.mod_lt margin (show 2 ^ 64 > 0 by norm_num)
  generalize margin % 2 ^ 64 = margin at *
  rcases le_total margin (2 ^ 24) with hsmall | hlarge
  · rw [halfMargin_eq hsmall]
    rcases Nat.mod_two_eq_zero_or_one margin with heven | hodd
    · rw [heven]
      omega
    · rw [hodd]
      omega
  · exact halfMargin_le_of_large hlarge hlt

/-- What half of a margin has to be. -/
structure IsHalf (margin offset : Nat) : Prop where
  /-- No whole number is nearer to the half. -/
  nearest : ∀ n : Int, (2 * offset - margin : Int).natAbs ≤ (2 * n - margin).natAbs
  even : margin % 2 = 1 → offset % 2 = 0
  /-- The margins on the two sides differ by at most one. -/
  balanced : (margin - offset - offset : Int).natAbs ≤ 1

theorem isHalf_halfMargin (h : margin ≤ 2 ^ 24) : IsHalf margin (halfMargin margin) := by
  rw [halfMargin_eq h]
  rcases Nat.mod_two_eq_zero_or_one margin with heven | hodd
  · rw [heven]
    exact ⟨by omega, by omega, by omega⟩
  · rw [hodd, Nat.one_mul]
    exact ⟨by omega, by omega, by omega⟩

/-! ## The crop -/

variable {t : Transform} {r : Raster} {left top width height crop : Nat} {output : Tensor}

/-- **The centered crop lies inside its image.** -/
theorem cropOffset_add_le (hwidth : crop ≤ width) (hheight : crop ≤ height) :
    (cropOffset width height crop).1 + crop ≤ width ∧
      (cropOffset width height crop).2 + crop ≤ height := by
  have hleft := halfMargin_le (width - crop)
  have htop := halfMargin_le (height - crop)
  rw [cropOffset]
  omega

/-- The writes that copy a crop into its tensor, row by row, each pixel into the planes of its
channels. -/
def cropWrites (t : Transform) (r : Raster) (left top : Nat) : List (Nat × Float32) :=
  (List.range t.crop).flatMap fun y =>
    let rowStart := ((top + y) * r.width + left) * 3
    (List.range t.crop).flatMap fun x =>
      (List.range 3).map fun c =>
        (y * t.crop + x + c * (t.crop * t.crop),
          t.normalize c (r.bytes.getD (rowStart + (3 * x + c)) 0))

/-- The byte that a write of the crop reads is one of the image. -/
theorem getD_rowStart (r : Raster) (left top x y c : Nat) :
    r.bytes.getD (((top + y) * r.width + left) * 3 + (3 * x + c)) 0 =
      r.sample (left + x) (top + y) c := by
  have hplace : ((top + y) * r.width + left) * 3 + (3 * x + c) =
      3 * ((top + y) * r.width + (left + x)) + c := by ring
  rw [hplace, Raster.sample]

/-- The writes are those of the elements of the crop to their places. -/
theorem mem_cropWrites {write : Nat × Float32} :
    write ∈ cropWrites t r left top ↔ ∃ b < 1, ∃ c < 3, ∃ y < t.crop, ∃ x < t.crop,
      write = (b * (3 * (t.crop * t.crop)) + (c * (t.crop * t.crop) + (y * t.crop + x)),
        t.normalize c (r.sample (left + x) (top + y) c)) := by
  simp only [cropWrites, getD_rowStart, List.mem_flatMap, List.mem_map, List.mem_range]
  constructor
  · rintro ⟨y, hy, x, hx, c, hc, rfl⟩
    exact ⟨0, one_pos, c, hc, y, hy, x, hx, by simp [Nat.add_comm]⟩
  · rintro ⟨b, hb, c, hc, y, hy, x, hx, rfl⟩
    obtain rfl : b = 0 := by omega
    exact ⟨y, hy, x, hx, c, hc, by simp [Nat.add_comm]⟩

theorem length_cropWrites : (cropWrites t r left top).length = 1 * (3 * (t.crop * t.crop)) := by
  simp only [cropWrites, List.length_flatMap, List.length_map, List.map_const', List.sum_replicate,
    List.length_range, smul_eq_mul]
  ring

/-- **Copying a crop writes every place of its tensor once.** -/
theorem fills_cropBatch : Fills (cropWrites t r left top) (t.cropBatch r left top) :=
  fills_batch length_cropWrites fun _ => mem_cropWrites

/-- What the crop of an image at an offset has to be: it lies inside the image, as do the bytes of
each of its rows, and holds the normalized bytes of the image from the offset on. -/
structure IsCrop (t : Transform) (r : Raster) (left top : Nat) (output : Tensor) : Prop where
  inside : left + t.crop ≤ r.width ∧ top + t.crop ≤ r.height
  row : ∀ y < t.crop, ((top + y) * r.width + left) * 3 + t.crop * 3 ≤ r.bytes.size
  shape : output.shape = [1, 3, t.crop, t.crop]
  element : ∀ c < 3, ∀ y < t.crop, ∀ x < t.crop, ∃ byte,
    r.bytes[3 * ((top + y) * r.width + (left + x)) + c]? = some byte ∧
      output.get [0, c, y, x] =
        (single byte.toNat / 255.0 - t.mean.get c) / t.deviation.get c
  written : Fills (cropWrites t r left top) output

/-- **The crop at an offset inside an image.** -/
theorem isCrop_cropBatch (h : left + t.crop ≤ r.width ∧ top + t.crop ≤ r.height) :
    IsCrop t r left top (t.cropBatch r left top) where
  inside := h
  row := by
    intro y hy
    have hlast : (top + y) * r.width + r.width ≤ r.height * r.width := by
      rw [← Nat.succ_mul]
      exact Nat.mul_le_mul_right _ (by omega)
    rw [r.size_bytes, Nat.mul_comm r.width]
    omega
  shape := rfl
  element := by
    intro c hc y hy x hx
    exact ⟨_, Raster.getElem?_bytes (by omega) (by omega) hc,
      Tensor.get_batch _ one_pos hc hy hx⟩
  written := fills_cropBatch

/-- The input of a classifier is a crop of the resized image. -/
theorem isCrop_of_apply [Resizer] {image : Raster} (hwidth : 0 < image.width)
    (hheight : 0 < image.height) (h : t.apply image = .ok output) :
    ∃ w h, shorterSideSize image.width image.height t.resize = .ok (w, h) ∧
      IsCrop t (image.resize w h) (cropOffset w h t.crop).1 (cropOffset w h t.crop).2 output := by
  obtain ⟨w, h', hsize, happly⟩ := apply_eq (t := t) hwidth hheight
  refine ⟨w, h', hsize, ?_⟩
  rw [happly] at h
  split at h
  case isTrue => cases h
  case isFalse hfits =>
    cases h
    apply isCrop_cropBatch
    rw [Raster.width_resize, Raster.height_resize]
    exact cropOffset_add_le (by omega) (by omega)

/-- **A classifier sees the centered crop.** A crop that is not larger than an image lies inside it
at the computed offset, which is half of the margin to each side if that is not above `2 ^ 24`. An
input that is built from a pixel buffer holds, place by place, the normalized bytes of the image
resized to the computed size, from the offset on; every place is written once. -/
theorem centered_crop [Resizer] :
    (∀ width height crop, crop ≤ width → crop ≤ height →
      ((cropOffset width height crop).1 + crop ≤ width ∧
        (cropOffset width height crop).2 + crop ≤ height) ∧
      (width - crop ≤ 2 ^ 24 → IsHalf (width - crop) (cropOffset width height crop).1) ∧
      (height - crop ≤ 2 ^ 24 → IsHalf (height - crop) (cropOffset width height crop).2)) ∧
    ∀ t pixels width height output, ofPixels t pixels width height = .ok output →
      ∃ image w h, Raster.ofPixels pixels width height = .ok image ∧
        shorterSideSize width height t.resize = .ok (w, h) ∧
        IsCrop t (image.resize w h) (cropOffset w h t.crop).1 (cropOffset w h t.crop).2 output := by
  constructor
  · intro width height crop hwidth hheight
    exact ⟨cropOffset_add_le hwidth hheight, isHalf_halfMargin, isHalf_halfMargin⟩
  · intro t pixels width height output h
    rw [ofPixels_eq] at h
    cases himage : Raster.ofPixels pixels width height with
    | error fault =>
      rw [himage] at h
      cases h
    | ok image =>
      rw [himage] at h
      obtain ⟨hpos, -, rfl, rfl, -⟩ := Raster.ofPixels_eq_ok_iff.1 himage
      obtain ⟨w, h', hsize, hcrop⟩ := isCrop_of_apply hpos.1 hpos.2 h
      exact ⟨image, w, h', rfl, hsize, hcrop⟩

/-- Eight columns and five rows of different bytes. -/
def banner : Raster :=
  Raster.ofFn 8 5 fun x y c => UInt8.ofNat (20 * x + 30 * y + c)

/-- The odd margin of 343 columns around a crop of 224 leaves 60 to the left and 59 to the right. In
an image of eight columns and five rows, a crop of four starts in the third column of the top
row. -/
theorem centered_crop_banner :
    cropOffset 343 256 224 = (60, 16) ∧
    ∃ output, (imageNet 5 4).ofPixels banner.bytes 8 5 = .ok output ∧
      output.shape = [1, 3, 4, 4] ∧
      ∃ byte, (banner.resize 8 5).bytes[3 * (3 * 8 + 3) + 2]? = some byte ∧
        output.get [0, 2, 3, 1] = (single byte.toNat / 255.0 - 0.406) / 0.225 := by
  obtain ⟨hwindow, hinput⟩ := centered_crop
  constructor
  · obtain ⟨-, hleft, htop⟩ := hwindow 343 256 224 (by decide) (by decide)
    have hleft := hleft (by decide)
    have htop := htop (by decide)
    ext
    · have heven := hleft.even (by decide)
      have hnear := hleft.balanced
      omega
    · have hnear := htop.balanced
      omega
  · have haccepted : ∃ output, (imageNet 5 4).ofPixels banner.bytes 8 5 = .ok output :=
      exists_ofPixels_iff.2 ⟨⟨by decide, banner.size_bytes, by decide⟩, by decide, by decide⟩
    obtain ⟨output, houtput⟩ := haccepted
    obtain ⟨image, w, h, himage, hsize, hcrop⟩ := hinput _ _ _ _ _ houtput
    have hexact : shorterSideSize 8 5 5 = .ok (8, 5) := rfl
    obtain ⟨rfl, rfl⟩ := Prod.mk.inj (Except.ok.inj (hexact.symm.trans hsize))
    have hself : Raster.ofPixels banner.bytes 8 5 = .ok banner :=
      Raster.ofPixels_self (by decide) (by decide) (by rw [banner.size_bytes]; decide)
    obtain rfl : image = banner := Except.ok.inj (himage.symm.trans hself)
    have hoffset : cropOffset 8 5 4 = (2, 0) := by decide +kernel
    obtain ⟨byte, hbyte, helement⟩ := hcrop.element 2 (by decide) 3 (by decide) 1 (by decide)
    dsimp only [imageNet] at hbyte
    rw [hoffset] at hbyte
    exact ⟨output, houtput, hcrop.shape, byte, hbyte, helement⟩

end Transform

end ImageLabeling
