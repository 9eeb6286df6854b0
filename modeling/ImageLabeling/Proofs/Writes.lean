import ImageLabeling.Tensor
import Mathlib.Data.List.Perm.Subperm

/-!
# Stores filled place by place

A loop that fills the store of a tensor is the list of its writes, each a place and an element, in
the order in which they are made. The writes fill the tensor (`Fills`) if every place is written
exactly once and the store holds the tensor's elements in the end. It is enough that there are as
many writes as places, that no place is left out and that no write is wrong (`fills_of_covers`); a
batch is filled by as many writes as it has elements, if they are just those of its elements to
their places (`fills_batch`).
-/

namespace ImageLabeling

open Number

/-- A store after writes, in order. A write outside the store is lost. -/
def writeAll (store : Array Float32) (writes : List (Nat × Float32)) : Array Float32 :=
  writes.foldl (fun store write => store.setIfInBounds write.1 write.2) store

/-- Writes into a store of zeros that give the elements of a tensor, each place being written
once. -/
structure Fills (writes : List (Nat × Float32)) (t : Tensor) : Prop where
  once : (writes.map Prod.fst).Perm (List.range t.data.size)
  stored : writeAll (Array.replicate t.data.size 0) writes = t.data

/-- Places that right writes go to hold what is right, and the others what they held before. -/
theorem getElem?_writeAll {data store : Array Float32} {writes : List (Nat × Float32)}
    (hsize : store.size = data.size) (hright : ∀ write ∈ writes, data[write.1]? = some write.2)
    (i : Nat) :
    (writeAll store writes)[i]? = if i ∈ writes.map Prod.fst then data[i]? else store[i]? := by
  induction writes generalizing store with
  | nil => simp [writeAll]
  | cons write writes ih =>
    obtain ⟨hwrite, hrest⟩ := List.forall_mem_cons.1 hright
    have hsize' : (store.setIfInBounds write.1 write.2).size = data.size := by simpa using hsize
    have hnext := ih hsize' hrest
    have hbound : write.1 < store.size := by
      rw [hsize]
      exact (Array.getElem?_eq_some_iff.1 hwrite).1
    rw [writeAll, List.foldl_cons, ← writeAll, hnext, Array.getElem?_setIfInBounds]
    by_cases hi : write.1 = i
    · subst hi
      simp [hbound, hwrite]
    · rw [if_neg hi, List.map_cons]
      simp only [List.mem_cons, Ne.symm hi, false_or]

/-- Right writes, as many as there are places, fill a tensor if they leave no place out. -/
theorem fills_of_covers {writes : List (Nat × Float32)} {t : Tensor}
    (hlength : writes.length = t.data.size)
    (hcovers : ∀ i < t.data.size, i ∈ writes.map Prod.fst)
    (hright : ∀ write ∈ writes, t.data[write.1]? = some write.2) : Fills writes t where
  once := by
    have hsubperm : (List.range t.data.size).Subperm (writes.map Prod.fst) := by
      apply List.nodup_range.subperm
      intro i hi
      exact hcovers i (List.mem_range.1 hi)
    apply (hsubperm.perm_of_length_le _).symm
    simp [hlength]
  stored := by
    apply Array.ext_getElem?
    intro i
    rw [getElem?_writeAll (by simp) hright]
    split
    case isTrue => rfl
    case isFalse hout =>
      have hi : t.data.size ≤ i := Nat.le_of_not_lt fun hi => hout (hcovers i hi)
      simp [hi]

namespace Tensor

/-- A batch stores its elements at their places. -/
theorem getElem?_batch {n c h w : Nat} (f : Nat → Nat → Nat → Nat → Float32) {b k y x : Nat}
    (hb : b < n) (hk : k < c) (hy : y < h) (hx : x < w) :
    (batch n c h w f).data[b * (c * (h * w)) + (k * (h * w) + (y * w + x))]? =
      some (f b k y x) := by
  have hplace : b * (c * (h * w)) + (k * (h * w) + (y * w + x)) < (batch n c h w f).data.size := by
    rw [size_data]
    simpa [batch] using digit_lt hb (digit_lt hk (digit_lt hy hx))
  have hget := get_batch f hb hk hy hx
  simp only [get, batch, offset, volume_cons, volume_nil, Nat.mul_one, Nat.add_zero]
    at hget hplace ⊢
  rw [Array.getD, dif_pos hplace] at hget
  rw [Array.getElem?_eq_getElem hplace]
  exact congrArg some hget

/-- Every place of a batch is the place of an element. -/
theorem exists_place {n c h w i : Nat} (hi : i < n * (c * (h * w))) :
    ∃ b < n, ∃ k < c, ∃ y < h, ∃ x < w,
      i = b * (c * (h * w)) + (k * (h * w) + (y * w + x)) := by
  have hpos : 0 < c * (h * w) := Nat.pos_of_lt_mul_left hi
  have hhw : 0 < h * w := Nat.pos_of_mul_pos_left hpos
  have hw : 0 < w := Nat.pos_of_mul_pos_left hhw
  refine ⟨i / (c * (h * w)), Nat.div_lt_of_lt_mul (by rwa [Nat.mul_comm]),
    i % (c * (h * w)) / (h * w), (Nat.div_lt_iff_lt_mul hhw).2 (Nat.mod_lt i hpos),
    i % (c * (h * w)) % (h * w) / w, (Nat.div_lt_iff_lt_mul hw).2 (Nat.mod_lt _ hhw),
    i % (c * (h * w)) % (h * w) % w, Nat.mod_lt _ hw, ?_⟩
  rw [Nat.div_add_mod', Nat.div_add_mod', Nat.div_add_mod']

end Tensor

/-- **A batch is filled by the writes of its elements to their places**, in any order. -/
theorem fills_batch {n c h w : Nat} {f : Nat → Nat → Nat → Nat → Float32}
    {writes : List (Nat × Float32)} (hlength : writes.length = n * (c * (h * w)))
    (hwrites : ∀ write, write ∈ writes ↔ ∃ b < n, ∃ k < c, ∃ y < h, ∃ x < w,
      write = (b * (c * (h * w)) + (k * (h * w) + (y * w + x)), f b k y x)) :
    Fills writes (Tensor.batch n c h w f) := by
  have hsize : (Tensor.batch n c h w f).data.size = n * (c * (h * w)) := by
    rw [Tensor.size_data]
    simp [Tensor.batch]
  apply fills_of_covers
  · rw [hlength, hsize]
  · intro i hi
    rw [hsize] at hi
    obtain ⟨b, hb, k, hk, y, hy, x, hx, rfl⟩ := Tensor.exists_place hi
    exact List.mem_map.2 ⟨_, (hwrites _).2 ⟨b, hb, k, hk, y, hy, x, hx, rfl⟩, rfl⟩
  · intro write hwrite
    obtain ⟨b, hb, k, hk, y, hy, x, hx, rfl⟩ := (hwrites write).1 hwrite
    exact Tensor.getElem?_batch f hb hk hy hx

end ImageLabeling
