import ImageLabeling.Number.Binary
import Mathlib

/-!
# Single-precision numbers

Facts about all `Float32` read off its model, infinities and NaN included: addition is commutative
(`single_add_comm`), and nothing is less than a NaN (`single_not_lt_of_isNaN`).
-/

namespace ImageLabeling.Number

open Float.Model Float.Model.UnpackedFloat

/-! ## Addition -/

theorem add_comm_unpacked (S : Format) (a b : UnpackedFloat) :
    UnpackedFloat.add S a b = UnpackedFloat.add S b a := by
  cases a with
  | notANumber => cases b <;> rfl
  | infinity s =>
    cases b with
    | infinity s' => cases s <;> cases s' <;> rfl
    | _ => rfl
  | zero s =>
    cases b with
    | zero s' => cases s <;> cases s' <;> rfl
    | _ => rfl
  | finite s m e hm =>
    cases b with
    | finite s' m' e' hm' => simp only [UnpackedFloat.add, Int.min_comm e e', Int.add_comm]
    | _ => rfl

/-- Addition is commutative, as all NaNs are one. -/
theorem single_add_comm (a b : Float32) : a + b = b + a := by
  show Float32.ofModel (.pack (UnpackedFloat.add _ _ _)) =
    Float32.ofModel (.pack (UnpackedFloat.add _ _ _))
  rw [add_comm_unpacked]

/-! ## Order -/

theorem lt_iff_compare (a b : Float32) :
    a < b ↔ UnpackedFloat.compare a.toModel.unpack b.toModel.unpack = some .lt := by
  show (decide (a.toModel < b.toModel) = true) ↔ _
  rw [decide_eq_true_iff]
  show (UnpackedFloat.compare _ _ == some Ordering.lt) = true ↔ _
  exact beq_iff_eq

/-- Nothing is less than a NaN. -/
theorem single_not_lt_of_isNaN (a : Float32) {b : Float32} (h : b.isNaN = true) : ¬ a < b := by
  have hb : b.toModel.unpack.isNaN = true := h
  rw [lt_iff_compare]
  generalize a.toModel.unpack = a at *
  generalize b.toModel.unpack = b at *
  cases b with
  | notANumber => cases a <;> simp [UnpackedFloat.compare]
  | _ => simp [UnpackedFloat.isNaN] at hb

end ImageLabeling.Number
