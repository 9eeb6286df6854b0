import ImageLabeling.Proofs.Image.Layout

/-!
# Exact sizes

As long as the numerators do not exceed `2 ^ 24`, scaling a length by `m / 2 ^ e` divides with
remainder (`scaledLength_dyadic`). The default scales are quarters, so the sizes of the default
pyramid are exact up to a length of `2 ^ 24 / 7`: it exists exactly if both sides are longer than
one, it begins with the size of the image, and sizes grow with the scales (`dyadic_sizes`).
-/

namespace ImageLabeling

open Number

namespace Pyramid

variable {scale : Float32} {m e length width height k : Nat} {image : Raster}

/-- **Lengths scaled by whole numbers over powers of two are exact.** -/
theorem scaledLength_dyadic (h : IsDyadic m e scale) (hm : 0 < m) (he : e ≤ 149)
    (hlength : length * m ≤ 2 ^ 24) : scaledLength length scale = length * m / 2 ^ e :=
  (h.mul hm hlength he).toNat_toUInt32 hlength

theorem scaledSize_dyadic (h : IsDyadic m e scale) (hm : 0 < m) (he : e ≤ 149)
    (hwidth : width * m ≤ 2 ^ 24) (hheight : height * m ≤ 2 ^ 24) :
    scaledSize width height scale = (width * m / 2 ^ e, height * m / 2 ^ e) := by
  rw [scaledSize, scaledLength_dyadic h hm he hwidth, scaledLength_dyadic h hm he hheight]

/-! ## The default scales -/

/-- The default scales in quarters. -/
def defaultQuarters : List Nat :=
  [4, 2, 3, 5, 6, 7]

theorem default_eq :
    Scales.default = defaultQuarters.map fun k => single k / single (2 ^ 2) := by
  decide +kernel

theorem bounds_of_mem_defaultQuarters (h : k ∈ defaultQuarters) : 2 ≤ k ∧ k ≤ 7 := by
  revert k
  decide

theorem mem_default_inv (h : scale ∈ Scales.default) :
    ∃ k, 2 ≤ k ∧ k ≤ 7 ∧ IsDyadic k 2 scale := by
  rw [default_eq] at h
  obtain ⟨k, hk, rfl⟩ := List.mem_map.1 h
  obtain ⟨hlower, hupper⟩ := bounds_of_mem_defaultQuarters hk
  exact ⟨k, hlower, hupper, isDyadic_div (by omega) (by norm_num)⟩

/-- An image with pixels whose lengths the default scales keep exact. -/
structure IsModerate (image : Raster) : Prop where
  width_pos : 0 < image.width
  width_le : image.width ≤ 2 ^ 24 / 7
  height_pos : 0 < image.height
  height_le : image.height ≤ 2 ^ 24 / 7

namespace IsModerate

theorem size_lt (h : IsModerate image) : image.bytes.size < wordLimit := by
  have harea : image.width * image.height ≤ 2 ^ 24 / 7 * (2 ^ 24 / 7) :=
    Nat.mul_le_mul h.width_le h.height_le
  rw [image.size_bytes, wordLimit]
  omega

theorem mul_le (hlength : length ≤ 2 ^ 24 / 7) (hk : k ≤ 7) : length * k ≤ 2 ^ 24 :=
  (Nat.mul_le_mul hlength hk).trans (by norm_num)

theorem scaledSize_eq (h : IsModerate image) (hlower : 2 ≤ k) (hupper : k ≤ 7)
    (hscale : IsDyadic k 2 scale) :
    scaledSize image.width image.height scale = (image.width * k / 4, image.height * k / 4) :=
  scaledSize_dyadic hscale (by omega) (by norm_num) (mul_le h.width_le hupper)
    (mul_le h.height_le hupper)

theorem vanishes_iff (h : IsModerate image) (hlower : 2 ≤ k) (hupper : k ≤ 7)
    (hscale : IsDyadic k 2 scale) :
    Vanishes image scale ↔ image.width * k < 4 ∨ image.height * k < 4 := by
  obtain ⟨hwidth, hheight⟩ := Prod.mk.inj (h.scaledSize_eq hlower hupper hscale)
  rw [Vanishes, hwidth, hheight]
  omega

/-- One of the default scales is a half, so that it leaves nothing of a side of length one; they
leave something of every longer side. -/
theorem exists_vanishes_iff (h : IsModerate image) :
    (∃ scale ∈ Scales.default, Vanishes image scale) ↔ image.width = 1 ∨ image.height = 1 := by
  have hwidth := h.width_pos
  have hheight := h.height_pos
  constructor
  · rintro ⟨scale, hscale, hvanishes⟩
    obtain ⟨k, hlower, hupper, hdyadic⟩ := mem_default_inv hscale
    rcases (h.vanishes_iff hlower hupper hdyadic).1 hvanishes with hsmall | hsmall
    · exact .inl (by nlinarith)
    · exact .inr (by nlinarith)
  · intro hone
    have hdyadic : IsDyadic 2 2 (single 2 / single (2 ^ 2)) :=
      isDyadic_div (by norm_num) (by norm_num)
    refine ⟨_, default_eq ▸ List.mem_map_of_mem (by decide : 2 ∈ defaultQuarters), ?_⟩
    exact (h.vanishes_iff le_rfl (by norm_num) hdyadic).2 (by omega)

end IsModerate

/-- The default scales are accepted. -/
theorem exists_ofList_default : ∃ scales, Scales.ofList Scales.default = .ok scales :=
  ⟨⟨Scales.default, by decide, by decide +kernel⟩, rfl⟩

section

variable [Resizer] {levels : List Level}

/-- The scale of a level of the default pyramid, in quarters, and the size that it gives. -/
theorem exists_quarters_of_mem (h : IsModerate image)
    (hare : List.Forall₂ (IsLevel image) Scales.default levels) {level : Level}
    (hlevel : level ∈ levels) :
    ∃ k, IsDyadic k 2 level.scale ∧ level.width = image.width * k / 4 ∧
      level.height = image.height * k / 4 := by
  obtain ⟨hlength, hget⟩ := List.forall₂_iff_get.1 hare
  obtain ⟨i, hi, rfl⟩ := List.getElem_of_mem hlevel
  have his := hget i (hlength.symm ▸ hi) hi
  obtain ⟨k, hlower, hupper, hdyadic⟩ := mem_default_inv (List.get_mem Scales.default ⟨i, _⟩)
  obtain ⟨hwidth, hheight⟩ :=
    Prod.mk.inj (his.size.trans (h.scaledSize_eq hlower hupper hdyadic))
  exact ⟨k, his.scale_eq ▸ hdyadic, hwidth, hheight⟩

/-- The default pyramid begins with the size of its image. -/
theorem exists_first_of_levels (h : IsModerate image)
    (hare : List.Forall₂ (IsLevel image) Scales.default levels) :
    ∃ first rest, levels = first :: rest ∧
      first.width = image.width ∧ first.height = image.height := by
  have hone : IsDyadic 1 0 1.0 := ⟨rfl, by rw [value_one]; norm_num⟩
  have hlength : ∀ {length}, length ≤ 2 ^ 24 / 7 → length * 1 ≤ 2 ^ 24 :=
    fun hlength => IsModerate.mul_le hlength (by norm_num)
  have hsize := scaledSize_dyadic hone one_pos (by norm_num) (hlength h.width_le)
    (hlength h.height_le)
  rw [Scales.default] at hare
  cases hare with
  | @cons _ first _ rest hfirst hrest =>
    obtain ⟨hwidth, hheight⟩ := Prod.mk.inj (hfirst.size.trans hsize)
    exact ⟨first, rest, rfl, by simpa using hwidth, by simpa using hheight⟩

/-- **Exact sizes.** Whole numbers up to `2 ^ 24` over powers of two are scales, and scaling by them
divides with remainder, as long as the numerators do not exceed `2 ^ 24`. The default scales are
accepted, and their pyramid of an image with sides up to `2 ^ 24 / 7` is missing exactly if a side
has length one; it begins with the size of the image, and a larger scale gives no smaller size. -/
theorem dyadic_sizes :
    (∀ m ≤ 2 ^ 24, ∀ e ≤ 24, ∃ scale, IsDyadic m e scale) ∧
    (∀ m e scale, 0 < m → e ≤ 149 → IsDyadic m e scale →
      ∀ width height, width * m ≤ 2 ^ 24 → height * m ≤ 2 ^ 24 →
        scaledSize width height scale = (width * m / 2 ^ e, height * m / 2 ^ e)) ∧
    ∃ scales, Scales.ofList Scales.default = .ok scales ∧ ∀ image, IsModerate image →
      ((∃ fault, ofPixels scales image.bytes image.width image.height = .error fault) ↔
        image.width = 1 ∨ image.height = 1) ∧
      ∀ levels, ofPixels scales image.bytes image.width image.height = .ok levels →
        (∃ first rest, levels = first :: rest ∧
          first.width = image.width ∧ first.height = image.height) ∧
        ∀ a ∈ levels, ∀ b ∈ levels, a.scale ≤ b.scale →
          a.width ≤ b.width ∧ a.height ≤ b.height := by
  refine ⟨fun m hm e he => ⟨_, isDyadic_div hm he⟩,
    fun m e scale hm he h width height hwidth hheight =>
      scaledSize_dyadic h hm he hwidth hheight, ?_⟩
  obtain ⟨scales, hscales⟩ := exists_ofList_default
  have hdefault := list_of_ofList hscales
  refine ⟨scales, hscales, fun image h => ?_⟩
  obtain ⟨hfails, hbuilt⟩ := ofPixels_self_cases scales h.width_pos h.height_pos h.size_lt
  rw [hdefault, h.exists_vanishes_iff] at hfails
  rw [hdefault] at hbuilt
  by_cases hone : image.width = 1 ∨ image.height = 1
  · obtain ⟨scale, -, -, herror⟩ := hfails hone
    rw [herror]
    exact ⟨⟨fun _ => hone, fun _ => ⟨_, rfl⟩⟩, fun levels hlevels => by cases hlevels⟩
  · obtain ⟨levels, hlevels, hare⟩ :=
      hbuilt fun scale hscale hvanishes => hone (h.exists_vanishes_iff.1 ⟨scale, hscale, hvanishes⟩)
    rw [hlevels]
    refine ⟨⟨fun ⟨fault, hfault⟩ => (by cases hfault), fun h => absurd h hone⟩, ?_⟩
    rintro _ ⟨⟩
    constructor
    · exact exists_first_of_levels h hare
    · intro a ha b hb hle
      obtain ⟨k, hk, hwidth, hheight⟩ := exists_quarters_of_mem h hare ha
      obtain ⟨k', hk', hwidth', hheight'⟩ := exists_quarters_of_mem h hare hb
      have hkk' : k ≤ k' := (hk.le_iff hk').1 hle
      rw [hwidth, hwidth', hheight, hheight']
      exact ⟨Nat.div_le_div_right (Nat.mul_le_mul_left _ hkk'),
        Nat.div_le_div_right (Nat.mul_le_mul_left _ hkk')⟩

end

/-- Seven quarters of 100 are 175. An image of five by one is too small for the default scales; one
of five by two is not, and its pyramid begins with its own size. -/
theorem dyadic_sizes_hundred :
    scaledSize 100 33 1.75 = (175, 57) ∧
      ∃ scales, Scales.ofList Scales.default = .ok scales ∧
        (∃ fault, ofPixels scales (Array.replicate 15 0) 5 1 = .error fault) ∧
        ∃ levels first rest, ofPixels scales (Array.replicate 30 0) 5 2 = .ok levels ∧
          levels = first :: rest ∧ first.width = 5 ∧ first.height = 2 := by
  obtain ⟨-, hsizes, scales, hscales, hpyramids⟩ := dyadic_sizes
  have hscale : IsDyadic 7 2 (single 7 / single (2 ^ 2)) := isDyadic_div (by norm_num) (by norm_num)
  have hdefault : (1.75 : Float32) = single 7 / single (2 ^ 2) := by decide +kernel
  have hsize := hsizes 7 2 1.75 (by norm_num) (by norm_num) (hdefault ▸ hscale) 100 33
  have hmoderate : ∀ {n : Nat}, n ≤ 10 → n ≤ 2 ^ 24 / 7 := fun h => h.trans (by norm_num)
  refine ⟨hsize (by norm_num) (by norm_num), scales, hscales, ?_, ?_⟩
  · obtain ⟨hfails, -⟩ := hpyramids ⟨5, 1, Array.replicate 15 0, rfl⟩
      ⟨by decide, hmoderate (by decide), by decide, hmoderate (by decide)⟩
    exact hfails.2 (.inr rfl)
  · obtain ⟨hfails, hbuilt⟩ := hpyramids ⟨5, 2, Array.replicate 30 0, rfl⟩
      ⟨by decide, hmoderate (by decide), by decide, hmoderate (by decide)⟩
    cases hlevels : ofPixels scales (Array.replicate 30 0) 5 2 with
    | error fault => exact absurd (hfails.1 ⟨fault, hlevels⟩) (by decide)
    | ok levels =>
      obtain ⟨⟨first, rest, hfirst⟩, -⟩ := hbuilt levels hlevels
      exact ⟨levels, first, rest, rfl, hfirst⟩

end Pyramid

end ImageLabeling
