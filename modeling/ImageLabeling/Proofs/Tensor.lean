import ImageLabeling.Tensor

/-!
# Batches

A batch is determined by its elements inside its axes (`batch_congr`). `Tensor.exchange` exchanges
the two entries of a batch of two.
-/

namespace ImageLabeling.Tensor

open Number

/-- Batches with the same elements are the same. -/
theorem batch_congr {n c h w : Nat} {f g : Nat → Nat → Nat → Nat → Float32}
    (hfg : ∀ b k y x, b < n → k < c → y < h → x < w → f b k y x = g b k y x) :
    batch n c h w f = batch n c h w g := by
  have hdata : (batch n c h w f).data = (batch n c h w g).data := by
    apply Array.ext
    · rw [size_data, size_data]
      rfl
    · intro i hi hi'
      have hlt : i < n * (c * (h * w)) := by
        rw [size_data] at hi
        simpa [batch] using hi
      have hpos : 0 < c * (h * w) := Nat.pos_of_lt_mul_left hlt
      have hc : 0 < c := Nat.pos_of_mul_pos_right hpos
      have hhw : 0 < h * w := Nat.pos_of_mul_pos_left hpos
      have hh : 0 < h := Nat.pos_of_mul_pos_right hhw
      have hw : 0 < w := Nat.pos_of_mul_pos_left hhw
      simp only [batch, Array.getElem_ofFn]
      exact hfg _ _ _ _ (Nat.div_lt_of_lt_mul (by rwa [Nat.mul_comm])) (Nat.mod_lt _ hc)
        (Nat.mod_lt _ hh) (Nat.mod_lt _ hw)
  simp only [batch, Tensor.mk.injEq, true_and]
  exact hdata

/-- The batch of two with its entries exchanged; any other tensor stays as it is. -/
def exchange (t : Tensor) : Tensor :=
  match t.shape with
  | [2, c, h, w] => batch 2 c h w fun b k y x => t.get [1 - b, k, y, x]
  | _ => t

theorem exchange_eq {t : Tensor} {c h w : Nat} (hshape : t.shape = [2, c, h, w]) :
    t.exchange = batch 2 c h w fun b k y x => t.get [1 - b, k, y, x] := by
  simp only [exchange, hshape]

theorem get_exchange {t : Tensor} {c h w b k y x : Nat} (hshape : t.shape = [2, c, h, w])
    (hb : b < 2) (hk : k < c) (hy : y < h) (hx : x < w) :
    t.exchange.get [b, k, y, x] = t.get [1 - b, k, y, x] := by
  rw [exchange_eq hshape, get_batch _ hb hk hy hx]

end ImageLabeling.Tensor
