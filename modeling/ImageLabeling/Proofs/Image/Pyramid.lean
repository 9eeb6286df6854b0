import ImageLabeling.Image.Pyramid
import ImageLabeling.Proofs.Image.Input
import Mathlib.Data.List.Forall2

/-!
# The levels of a pyramid

A pyramid that can be built has one level for each scale, in order, and every level has pixels
(`ofPixels_ok_inv`). One that cannot be built is refused, unless 64 bits do not hold the size of its
image (`ofPixels_error_inv`).
-/

namespace ImageLabeling

namespace Pyramid

/-- A list whose elements all have results. -/
theorem mapM_eq_ok_inv {α β ε : Type} {f : α → Except ε β} {list : List α} {results : List β}
    (h : list.mapM f = .ok results) : List.Forall₂ (fun a b => f a = .ok b) list results := by
  induction list generalizing results with
  | nil =>
    cases h
    exact .nil
  | cons a list ih =>
    rw [List.mapM_cons] at h
    cases ha : f a with
    | error e =>
      rw [ha] at h
      cases h
    | ok b =>
      cases hlist : list.mapM f with
      | error e =>
        rw [ha, hlist] at h
        cases h
      | ok rest =>
        rw [ha, hlist] at h
        cases h
        exact .cons ha (ih hlist)

/-- Every result is that of an element. -/
theorem exists_of_mem_mapM {α β ε : Type} {f : α → Except ε β} {list : List α} {results : List β}
    (h : list.mapM f = .ok results) {b : β} (hb : b ∈ results) : ∃ a ∈ list, f a = .ok b := by
  have hall := mapM_eq_ok_inv h
  clear h
  induction hall with
  | nil => cases hb
  | @cons a b' list results ha hrest ih =>
    rcases List.mem_cons.1 hb with rfl | hb
    · exact ⟨a, List.mem_cons_self, ha⟩
    · obtain ⟨a', ha', hresult⟩ := ih hb
      exact ⟨a', List.mem_cons_of_mem _ ha', hresult⟩

/-- A list one of whose elements has no result. -/
theorem mapM_eq_error_inv {α β ε : Type} {f : α → Except ε β} {list : List α} {e : ε}
    (h : list.mapM f = .error e) : ∃ a ∈ list, f a = .error e := by
  induction list with
  | nil => cases h
  | cons a list ih =>
    rw [List.mapM_cons] at h
    cases ha : f a with
    | error e' =>
      rw [ha] at h
      cases h
      exact ⟨a, List.mem_cons_self, ha⟩
    | ok b =>
      cases hlist : list.mapM f with
      | error e' =>
        rw [ha, hlist] at h
        cases h
        obtain ⟨a', hmem, ha'⟩ := ih hlist
        exact ⟨a', List.mem_cons_of_mem _ hmem, ha'⟩
      | ok rest =>
        rw [ha, hlist] at h
        cases h

variable [Resizer] {image : Raster} {level : Level}

theorem level_ok_inv {scale : Float32} (h : Pyramid.level image scale = .ok level) :
    level.scale = scale ∧ 0 < level.width ∧ 0 < level.height := by
  unfold Pyramid.level at h
  dsimp only at h
  split at h
  · cases h
  · rename_i hsize
    cases h
    rw [not_or] at hsize
    exact ⟨rfl, Nat.pos_of_ne_zero hsize.1, Nat.pos_of_ne_zero hsize.2⟩

/-- The sides of a level have 32 bits. -/
theorem sides_lt_of_level {scale : Float32} (h : Pyramid.level image scale = .ok level) :
    level.width < 2 ^ 32 ∧ level.height < 2 ^ 32 := by
  unfold Pyramid.level at h
  dsimp only at h
  split at h
  · cases h
  · cases h
    exact ⟨UInt32.toNat_lt _, UInt32.toNat_lt _⟩

theorem mapM_level_ok_inv {scales : List Float32} {levels : List Level}
    (h : scales.mapM (Pyramid.level image) = .ok levels) :
    levels.map Level.scale = scales ∧ ∀ level ∈ levels, 0 < level.width ∧ 0 < level.height := by
  have hlevels := mapM_eq_ok_inv h
  clear h
  induction hlevels with
  | nil => exact ⟨rfl, fun _ hlevel => nomatch hlevel⟩
  | cons hlevel hrest ih =>
    obtain ⟨hscale, hsize⟩ := level_ok_inv hlevel
    obtain ⟨hscales, hsizes⟩ := ih
    refine ⟨by rw [List.map_cons, hscale, hscales], ?_⟩
    exact List.forall_mem_cons.2 ⟨hsize, hsizes⟩

variable {scales : Scales} {pixels : Array UInt8} {width height : Nat}

/-- A pyramid is that of the image in its buffer. -/
theorem ofPixels_of_ok (h : Raster.ofPixels pixels width height = .ok image) :
    Pyramid.ofPixels scales pixels width height =
      (scales.list.mapM (Pyramid.level image)).mapError .failure := by
  rw [Pyramid.ofPixels, h]
  rfl

theorem ofPixels_of_error {fault : Fault} (h : Raster.ofPixels pixels width height = .error fault) :
    Pyramid.ofPixels scales pixels width height = .error fault := by
  rw [Pyramid.ofPixels, h]
  rfl

/-- A pyramid has a level with pixels for each scale, in order. -/
theorem ofPixels_ok_inv {levels : List Level}
    (h : Pyramid.ofPixels scales pixels width height = .ok levels) :
    levels.map Level.scale = scales.list ∧
      ∀ level ∈ levels, 0 < level.width ∧ 0 < level.height := by
  cases himage : Raster.ofPixels pixels width height with
  | error fault =>
    rw [ofPixels_of_error himage] at h
    cases h
  | ok image =>
    rw [ofPixels_of_ok himage] at h
    cases hlevels : scales.list.mapM (Pyramid.level image) with
    | error failure =>
      rw [hlevels] at h
      cases h
    | ok levels =>
      rw [hlevels] at h
      cases h
      exact mapM_level_ok_inv hlevels

/-- Every level of a pyramid is that of an image. -/
theorem exists_level_of_mem {levels : List Level}
    (h : Pyramid.ofPixels scales pixels width height = .ok levels) (hlevel : level ∈ levels) :
    ∃ image scale, Pyramid.level image scale = .ok level := by
  cases himage : Raster.ofPixels pixels width height with
  | error fault =>
    rw [ofPixels_of_error himage] at h
    cases h
  | ok image =>
    rw [ofPixels_of_ok himage] at h
    cases hlevels : scales.list.mapM (Pyramid.level image) with
    | error failure =>
      rw [hlevels] at h
      cases h
    | ok levels =>
      rw [hlevels] at h
      cases h
      obtain ⟨scale, -, hscale⟩ := exists_of_mem_mapM hlevels hlevel
      exact ⟨image, scale, hscale⟩

/-- The pyramid of an image whose size 64 bits hold is built or refused. -/
theorem ofPixels_error_inv {fault : Fault}
    (h : Pyramid.ofPixels scales pixels width height = .error fault) :
    (∃ failure, fault = .failure failure) ∨
      fault = .crash .overflow ∧ wordLimit ≤ width * height * 3 := by
  cases himage : Raster.ofPixels pixels width height with
  | error fault' =>
    rw [ofPixels_of_error himage] at h
    cases h
    cases fault with
    | failure failure => exact .inl ⟨failure, rfl⟩
    | crash crash =>
      obtain ⟨rfl, hsize⟩ := Raster.ofPixels_eq_crash_iff.1 himage
      exact .inr ⟨rfl, by rwa [Nat.mul_comm]⟩
  | ok image =>
    rw [ofPixels_of_ok himage] at h
    cases hlevels : scales.list.mapM (Pyramid.level image) with
    | error failure =>
      rw [hlevels] at h
      cases h
      exact .inl ⟨failure, rfl⟩
    | ok levels =>
      rw [hlevels] at h
      cases h

end Pyramid

end ImageLabeling
