import ImageLabeling.Proofs.Parsing.Labeling

/-!
# The pictures of a label map

Both pictures of a map hold its classes pixel by pixel, row after row (`LabelMap.pixels`): one holds
the classes themselves, the other three bytes for each (`paint`). No two classes have the same
colour (`paint_injective`), so either picture determines the map: `pictures_of_labels`. The maps
that parsing returns are small enough and have no class outside the palette (`parseImage_bounds`).
-/

namespace ImageLabeling

open Number

/-! ## Row after row -/

/-- The numbers below a product, by quotient and remainder. -/
theorem map_range_mul {α : Type} (f : Nat → Nat → α) (rows columns : Nat) :
    (List.range (rows * columns)).map (fun i => f (i / columns) (i % columns)) =
      (List.range rows).flatMap fun y => (List.range columns).map (f y) := by
  induction rows with
  | zero => simp
  | succ rows ih =>
    rw [Nat.succ_mul, List.range_add, List.map_append, ih, List.range_succ, List.flatMap_append,
      List.flatMap_singleton, List.map_map]
    congr 1
    refine List.map_congr_left fun x hx => ?_
    rw [List.mem_range] at hx
    rw [Function.comp_apply, digit_div rows hx, digit_mod rows hx]

theorem toList_ofFn_eq_map {α : Type} {n : Nat} (f : Nat → α) :
    (Array.ofFn (n := n) fun i => f i).toList = (List.range n).map f := by
  rw [Array.toList_ofFn, List.ofFn_eq_map, ← List.map_coe_finRange_eq_range, List.map_map]
  rfl

namespace Raster

/-- The bytes of an image are those of its pixels, row after row. -/
theorem toList_bytes_ofFn (width height : Nat) (f : Nat → Nat → Nat → UInt8) :
    (ofFn width height f).bytes.toList =
      (List.range height).flatMap fun y => (List.range width).flatMap fun x =>
        (List.range 3).map (f x y) := by
  calc (ofFn width height f).bytes.toList
      = (List.range (height * width * 3)).map fun i =>
          f (i / 3 % width) (i / 3 / width) (i % 3) := by
        rw [Nat.mul_comm, Nat.mul_comm height]
        exact toList_ofFn_eq_map fun i => f (i / 3 % width) (i / 3 / width) (i % 3)
    _ = (List.range (height * width)).flatMap fun p =>
          (List.range 3).map (f (p % width) (p / width)) :=
        map_range_mul (fun p => f (p % width) (p / width)) _ _
    _ = ((List.range (height * width)).map fun p =>
          (List.range 3).map (f (p % width) (p / width))).flatten := by
        rw [List.flatMap_def]
    _ = ((List.range height).flatMap fun y => (List.range width).map fun x =>
          (List.range 3).map (f x y)).flatten := by
        rw [map_range_mul fun y x => (List.range 3).map (f x y)]
    _ = _ := by
        rw [← List.flatMap_id, List.flatMap_assoc]
        simp only [List.flatMap_map, id_eq]

end Raster

namespace LabelMap

/-- The classes of the pixels, row after row. -/
def pixels (m : LabelMap) : List UInt8 :=
  (List.range m.height).flatMap fun y => (List.range m.width).map (m.label y)

/-- The three bytes of a colour. -/
def paint (label : UInt8) : List UInt8 :=
  [(colourOf label).1, (colourOf label).2.1, (colourOf label).2.2]

theorem toList_labels (m : LabelMap) : m.labels.toList = m.pixels := by
  rw [pixels, ← map_range_mul]
  refine List.ext_getElem (by simp [m.size_labels]) fun i hi _ => ?_
  rw [Array.length_toList] at hi
  simp [label, Nat.div_add_mod', hi]

theorem pictureSide_of_lt {n : Nat} (h : n < 2 ^ 32) : pictureSide n = n :=
  Nat.mod_eq_of_lt h

variable {m m' : LabelMap}

theorem toList_samples_indices (hwidth : m.width < 2 ^ 32) (hheight : m.height < 2 ^ 32) :
    m.indices.samples.toList = m.pixels := by
  unfold indices
  rw [pictureSide_of_lt hwidth, pictureSide_of_lt hheight]
  exact (toList_ofFn_eq_map fun i => m.label (i / m.width) (i % m.width)).trans
    (map_range_mul m.label _ _)

theorem toList_bytes_colours (hwidth : m.width < 2 ^ 32) (hheight : m.height < 2 ^ 32) :
    m.colours.bytes.toList = m.pixels.flatMap paint := by
  unfold colours
  rw [pictureSide_of_lt hwidth, pictureSide_of_lt hheight, Raster.toList_bytes_ofFn, pixels,
    List.flatMap_assoc]
  simp only [List.flatMap_map]
  rfl

/-! ## Recovering the map -/

/-- No two classes have the same colour. -/
theorem paint_injective : ∀ a < 20, ∀ b < 20, paint a = paint b → a = b := by
  decide +kernel

/-- A map is given by its size and its classes. -/
theorem eq_of_pixels (hwidth : m.width = m'.width) (hheight : m.height = m'.height)
    (hpixels : m.pixels = m'.pixels) : m = m' := by
  rw [← toList_labels, ← toList_labels] at hpixels
  cases m
  cases m'
  cases hwidth
  cases hheight
  cases Array.toList_inj.1 hpixels
  rfl

theorem eq_of_flatMap_paint {xs ys : List UInt8} (hxs : ∀ l ∈ xs, l < 20) (hys : ∀ l ∈ ys, l < 20)
    (h : xs.flatMap paint = ys.flatMap paint) : xs = ys := by
  induction xs generalizing ys with
  | nil =>
    cases ys with
    | nil => rfl
    | cons y ys => cases h
  | cons x xs ih =>
    cases ys with
    | nil => cases h
    | cons y ys =>
      rw [List.forall_mem_cons] at hxs hys
      obtain ⟨hpaint, hrest⟩ := List.append_inj h rfl
      rw [paint_injective x hxs.1 y hys.1 hpaint, ih hxs.2 hys.2 hrest]

end LabelMap

/-! ## The maps of parsing -/

namespace Parsing

variable {σ : Type} {job : Job} {image : Raster} {s t : Session σ} {labels : LabelMap}
  {forward : Duration}

/-- The maps that parsing returns fit into pictures, and all their classes have a colour. -/
theorem parseImage_bounds [Resizer] (h : parseImage job image s = (.ok (labels, forward), t)) :
    labels.width < 2 ^ 32 ∧ labels.height < 2 ^ 32 ∧ ∀ l ∈ labels.pixels, l < 20 := by
  have hlabeling : Labeling job image s (.ok labels) t.state := parseImage_inv h
  generalize t.state = state at hlabeling
  cases hlabeling with
  | labeled first rest outputs _ hpyramid hanswers houtputs hlabels =>
    obtain ⟨_, _, hlevel⟩ := Pyramid.exists_level_of_mem hpyramid (List.mem_cons_self ..)
    obtain ⟨hwidth, hheight⟩ := Pyramid.sides_lt_of_level hlevel
    refine ⟨hlabels.width ▸ hwidth, hlabels.height ▸ hheight, fun l hl => ?_⟩
    obtain ⟨y, hy, hl⟩ := List.mem_flatMap.1 hl
    obtain ⟨x, hx, rfl⟩ := List.mem_map.1 hl
    rw [List.mem_range] at hx hy
    have hlabel := hlabels.label (hlabels.height ▸ hy) (hlabels.width ▸ hx)
    exact UInt8.lt_iff_toNat_lt.2 (hlabel.lt (by decide))

end Parsing

namespace LabelMap

/-- The two pictures of a map have its size and hold its pixels row after row, one as the classes
and one as three bytes for the colour of each. -/
structure ArePictures (m : LabelMap) (colours : Raster) (indices : Picture) : Prop where
  width : colours.width = m.width ∧ indices.width = m.width
  height : colours.height = m.height ∧ indices.height = m.height
  layout : indices.channels = .grey ∧ indices.depth = .eight
  indices : indices.samples.toList = m.pixels
  colours : colours.bytes.toList = m.pixels.flatMap fun label =>
    [(colourOf label).1, (colourOf label).2.1, (colourOf label).2.2]

theorem arePictures {m : LabelMap} (hwidth : m.width < 2 ^ 32) (hheight : m.height < 2 ^ 32) :
    ArePictures m m.colours m.indices where
  width := ⟨pictureSide_of_lt hwidth, pictureSide_of_lt hwidth⟩
  height := ⟨pictureSide_of_lt hheight, pictureSide_of_lt hheight⟩
  layout := ⟨rfl, rfl⟩
  indices := toList_samples_indices hwidth hheight
  colours := toList_bytes_colours hwidth hheight

/-- **The two pictures of a map.** Each holds the map pixel by pixel, row after row. The picture of
the classes determines the map, and so does the one of their colours where all classes are in the
palette, as in every map that parsing returns. -/
theorem pictures_of_labels [Resizer] :
    (∀ l : UInt8, l < 20 → palette[l.toNat]? = some (colourOf l)) ∧
    (∀ l : UInt8, 20 ≤ l → colourOf l = (0, 0, 0)) ∧
    (∀ m : LabelMap, m.width < 2 ^ 32 → m.height < 2 ^ 32 →
      ArePictures m m.colours m.indices ∧
      ∀ m' : LabelMap, m'.width < 2 ^ 32 → m'.height < 2 ^ 32 →
        (m.indices = m'.indices → m = m') ∧
        ((∀ l ∈ m.pixels, l < 20) → (∀ l ∈ m'.pixels, l < 20) → m.colours = m'.colours →
          m = m')) ∧
    ∀ {σ : Type} (job : Parsing.Job) (image : Raster) (s t : Session σ) (m : LabelMap)
      (forward : Duration), Parsing.parseImage job image s = (.ok (m, forward), t) →
      m.width < 2 ^ 32 ∧ m.height < 2 ^ 32 ∧ ∀ l ∈ m.pixels, l < 20 := by
  refine ⟨by decide +kernel, fun l hl => ?_, fun m hwidth hheight => ?_,
    fun _ _ _ _ _ _ => Parsing.parseImage_bounds⟩
  · rw [colourOf, Array.getD_eq_getD_getElem?, Array.getElem?_eq_none, Option.getD_none]
    exact UInt8.le_iff_toNat_le.1 hl
  · have h := arePictures hwidth hheight
    refine ⟨h, fun m' hwidth' hheight' => ⟨fun hindices => ?_, fun hm hm' hcolours => ?_⟩⟩
    · have h' := arePictures hwidth' hheight'
      rw [← hindices] at h'
      exact eq_of_pixels (h.width.2.symm.trans h'.width.2) (h.height.2.symm.trans h'.height.2)
        (h.indices.symm.trans h'.indices)
    · have h' := arePictures hwidth' hheight'
      rw [← hcolours] at h'
      exact eq_of_pixels (h.width.1.symm.trans h'.width.1) (h.height.1.symm.trans h'.height.1)
        (eq_of_flatMap_paint hm hm' (h.colours.symm.trans h'.colours))

/-- A map of two rows and three columns, all of different classes. -/
def sixClasses : LabelMap := ⟨2, 3, #[0, 1, 2, 13, 19, 7], rfl⟩

/-- The rows of this map follow each other in both pictures, and no other map of classes in the
palette is painted like it. -/
theorem pictures_of_labels_six :
    sixClasses.indices.width = 3 ∧ sixClasses.indices.height = 2 ∧
    sixClasses.indices.samples = #[0, 1, 2, 13, 19, 7] ∧
    sixClasses.colours.bytes =
      #[0, 0, 0, 128, 0, 0, 255, 0, 0, 0, 0, 255, 255, 170, 0, 0, 119, 221] ∧
    ∀ m : LabelMap, m.width < 2 ^ 32 → m.height < 2 ^ 32 → (∀ l ∈ m.pixels, l < 20) →
      sixClasses.colours = m.colours → m = sixClasses := by
  obtain ⟨-, -, hpictures, -⟩ := pictures_of_labels
  obtain ⟨h, hrecover⟩ := hpictures sixClasses (by decide) (by decide)
  refine ⟨h.width.2, h.height.2, ?_, ?_, fun m hwidth hheight hm hcolours => ?_⟩
  · exact Array.toList_inj.1 (h.indices.trans (by decide +kernel))
  · exact Array.toList_inj.1 (h.colours.trans (by decide +kernel))
  · exact ((hrecover m hwidth hheight).2 (by decide +kernel) hm hcolours).symm

end LabelMap

end ImageLabeling
