import ImageLabeling.Number.Decimal
import ImageLabeling.Proofs.Number.Whole

/-!
# The shape of decimal texts

A text with a fixed number of places is digits, a point and that many digits (`IsDecimal`), unless
the number is negative, infinite or NaN (`isDecimal_fixedText`).
-/

namespace ImageLabeling.Number

/-- Digits, a point, and as many digits as there are places. -/
def IsDecimal (places : Nat) (cs : List Char) : Prop :=
  ∃ whole fraction, cs = whole ++ '.' :: fraction ∧ whole ≠ [] ∧ fraction.length = places ∧
    ∀ c ∈ whole ++ fraction, c.isDigit = true

theorem toList_padDigits (width n : Nat) : (padDigits width n).toList =
    List.replicate (width - (toString n).length) '0' ++ (toString n).toList := by
  simp [padDigits]

theorem isDecimal_pointText {places : Nat} (h : 0 < places) (n : Nat) :
    IsDecimal places (pointText places n).toList := by
  have hrest : (toString (n % 10 ^ places)).length ≤ places := by
    rw [Nat.toString_eq_repr, Nat.length_repr_le_iff h]
    exact Nat.mod_lt n (Nat.pow_pos (by decide))
  refine ⟨(toString (n / 10 ^ places)).toList, (padDigits places (n % 10 ^ places)).toList, ?_, ?_,
    ?_, ?_⟩
  · rw [pointText, if_neg h.ne']
    simp
  · simp [Nat.toDigits_ne_nil]
  · rw [toList_padDigits, List.length_append, List.length_replicate, String.length_toList]
    omega
  · intro c hc
    rw [toList_padDigits, List.mem_append] at hc
    rcases hc with hwhole | hfraction
    · exact isDigit_of_mem_padded 0 hwhole
    · exact isDigit_of_mem_padded _ hfraction

theorem isDecimal_fixedText {places : Nat} (h : 0 < places) (m : Nat) (q : Int) :
    IsDecimal places ((Value.finite false m q).fixedText places).toList := by
  simp only [Value.fixedText, Bool.false_eq_true, if_false, String.empty_append]
  exact isDecimal_pointText h _

end ImageLabeling.Number
