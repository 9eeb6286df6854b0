import ImageLabeling.Proofs.Number.Single

/-!
# The order of single-precision numbers

To compare two numbers is to compare their places in a linear order (`place`), as long as neither
is NaN: first their kinds, from negative infinity up to infinity, then exponents, then
significands (`compare_eq_place`). So the order of numbers is transitive and, NaN aside, total.
-/

namespace ImageLabeling.Number

open Float.Model Float.Model.UnpackedFloat

/-! ## Places -/

/-- The kind of a number, and the exponent and the significand that order those of its kind. -/
def placeOf : UnpackedFloat → Int ×ₗ Int ×ₗ Int
  | .infinity .negative => toLex (-2, toLex (0, 0))
  | .finite .negative m e _ => toLex (-1, toLex (-e, -m))
  | .zero _ | .notANumber => toLex (0, toLex (0, 0))
  | .finite .positive m e _ => toLex (1, toLex (e, m))
  | .infinity .positive => toLex (2, toLex (0, 0))

theorem compare_toLex {α β : Type} [LinearOrder α] [LinearOrder β] (a b : α) (x y : β) :
    compare (toLex (a, x)) (toLex (b, y)) = (compare a b).then (compare x y) := by
  rw [Prod.Lex.compare_def]
  rfl

theorem compare_natCast (m n : Nat) : compare (m : Int) n = compare m n := by
  simp [compare, compareOfLessAndEq]

theorem compare_neg (a b : Int) : compare (-a) (-b) = compare b a := by
  simp [compare, compareOfLessAndEq, eq_comm]

/-- **Numbers compare as their places do.** -/
theorem compare_eq_place {a b : UnpackedFloat} (ha : a.isNaN = false) (hb : b.isNaN = false) :
    UnpackedFloat.compare a b = some (compare (placeOf a) (placeOf b)) := by
  cases a with
  | notANumber => cases ha
  | infinity s =>
    cases b with
    | notANumber => cases hb
    | infinity s' => cases s <;> cases s' <;> rfl
    | zero s' => cases s <;> rfl
    | finite s' m e hm => cases s <;> cases s' <;> rfl
  | zero s =>
    cases b with
    | notANumber => cases hb
    | infinity s' => cases s' <;> rfl
    | zero s' => rfl
    | finite s' m e hm => cases s' <;> rfl
  | finite s m e hm =>
    cases b with
    | notANumber => cases hb
    | infinity s' => cases s <;> cases s' <;> rfl
    | zero s' => cases s <;> rfl
    | finite s' m' e' hm' =>
      cases s <;> cases s'
      case negative.negative =>
        simp [UnpackedFloat.compare, placeOf, compare_toLex, compare_neg, compare_natCast,
          Ordering.swap_then, Int.compare_swap, Nat.compare_swap]
      case negative.positive => rfl
      case positive.negative => rfl
      case positive.positive =>
        simp [UnpackedFloat.compare, placeOf, compare_toLex, compare_natCast]

/-- The place of a single-precision number. -/
def place (x : Float32) : Int ×ₗ Int ×ₗ Int :=
  placeOf x.toModel.unpack

/-! ## Comparisons -/

theorem isNaN_of_compare_eq_some {a b : UnpackedFloat} {o : Ordering}
    (h : UnpackedFloat.compare a b = some o) : a.isNaN = false ∧ b.isNaN = false := by
  cases a with
  | notANumber => cases b <;> cases h
  | _ =>
    cases b with
    | notANumber => simp [UnpackedFloat.compare] at h
    | _ => exact ⟨rfl, rfl⟩

theorem single_lt_iff {a b : Float32} :
    a < b ↔ a.isNaN = false ∧ b.isNaN = false ∧ place a < place b := by
  rw [lt_iff_compare]
  constructor
  · intro h
    obtain ⟨ha, hb⟩ := isNaN_of_compare_eq_some h
    rw [compare_eq_place ha hb, Option.some.injEq, compare_lt_iff_lt] at h
    exact ⟨ha, hb, h⟩
  · rintro ⟨ha, hb, h⟩
    rw [compare_eq_place ha hb, Option.some.injEq, compare_lt_iff_lt]
    exact h

theorem le_iff_compare (a b : Float32) :
    a ≤ b ↔ (UnpackedFloat.compare a.toModel.unpack b.toModel.unpack).any (·.isLE) = true := by
  show (decide (a.toModel ≤ b.toModel) = true) ↔ _
  rw [decide_eq_true_iff]
  rfl

theorem single_le_iff {a b : Float32} :
    a ≤ b ↔ a.isNaN = false ∧ b.isNaN = false ∧ place a ≤ place b := by
  rw [le_iff_compare, Option.any_eq_true]
  constructor
  · rintro ⟨o, ho, horder⟩
    obtain ⟨ha, hb⟩ := isNaN_of_compare_eq_some ho
    rw [compare_eq_place ha hb, Option.some.injEq] at ho
    rw [← ho, Ordering.isLE_iff_ne_gt] at horder
    exact ⟨ha, hb, compare_le_iff_le.1 horder⟩
  · rintro ⟨ha, hb, h⟩
    refine ⟨_, compare_eq_place ha hb, ?_⟩
    rw [Ordering.isLE_iff_ne_gt]
    exact compare_le_iff_le.2 h

variable {a b c : Float32}

theorem single_lt_of_le_of_lt (hab : a ≤ b) (hbc : b < c) : a < c := by
  obtain ⟨ha, hb, hab⟩ := single_le_iff.1 hab
  obtain ⟨hb, hc, hbc⟩ := single_lt_iff.1 hbc
  exact single_lt_iff.2 ⟨ha, hc, hab.trans_lt hbc⟩

theorem single_le_trans (hab : a ≤ b) (hbc : b ≤ c) : a ≤ c := by
  obtain ⟨ha, hb, hab⟩ := single_le_iff.1 hab
  obtain ⟨hb, hc, hbc⟩ := single_le_iff.1 hbc
  exact single_le_iff.2 ⟨ha, hc, hab.trans hbc⟩

theorem single_le_of_lt (hab : a < b) : a ≤ b := by
  obtain ⟨ha, hb, hab⟩ := single_lt_iff.1 hab
  exact single_le_iff.2 ⟨ha, hb, hab.le⟩

theorem single_le_refl (ha : a.isNaN = false) : a ≤ a :=
  single_le_iff.2 ⟨ha, ha, le_rfl⟩

theorem single_not_lt_of_le (hab : a ≤ b) : ¬ b < a := fun hba =>
  (single_le_iff.1 hab).2.2.not_gt (single_lt_iff.1 hba).2.2

/-- NaN aside, one of two numbers is at most the other. -/
theorem single_le_of_not_lt (ha : a.isNaN = false) (hb : b.isNaN = false) (h : ¬ a < b) :
    b ≤ a := by
  refine single_le_iff.2 ⟨hb, ha, not_lt.1 fun hlt => h ?_⟩
  exact single_lt_iff.2 ⟨ha, hb, hlt⟩

end ImageLabeling.Number
