import ImageLabeling.Number.Literal
import Mathlib.Tactic

/-!
# Written whole numbers

A reader of whole numbers accepts exactly what a grammar allows: digits whose value is within the
limit (`readDigits_eq_ok_iff`), with an optional plus sign before them (`readUnsigned_eq_ok_iff`).
The value may be checked digit by digit, since it never falls while digits are read.
-/

namespace ImageLabeling.Number

theorem digit?_of_isDigit {c : Char} (h : c.isDigit = true) :
    digit? c = some (c.toNat - '0'.toNat) := by
  rw [digit?, if_pos]
  · rfl
  · simpa [Char.isDigit, Char.le_def] using h

theorem digit?_eq_none {c : Char} (h : c.isDigit = false) : digit? c = none := by
  rw [digit?, if_neg]
  simpa [Char.isDigit, Char.le_def] using h

/-- A number is written with digits, also with zeros in front. -/
theorem isDigit_of_mem_padded (zeros : Nat) {n : Nat} {c : Char}
    (h : c ∈ List.replicate zeros '0' ++ (toString n).toList) : c.isDigit = true := by
  rw [Nat.toString_eq_repr, Nat.toList_repr] at h
  rcases List.mem_append.1 h with hzero | hdigit
  · rw [List.eq_of_mem_replicate hzero]
    decide
  · exact Nat.isDigit_of_mem_toDigits (by decide) (by decide) hdigit

/-- Digits never make a number smaller. -/
theorem le_ofDigitChars (cs : List Char) (n : Nat) : n ≤ Nat.ofDigitChars 10 cs n := by
  induction cs generalizing n with
  | nil => exact Nat.le_refl n
  | cons c cs ih =>
    rw [Nat.ofDigitChars_cons]
    exact Nat.le_trans (by omega) (ih _)

/-- **Digits are read exactly if their value is within the limit.** -/
theorem readDigits_eq_ok_iff {limit n m : Nat} {excess : WholeFault} {cs : List Char}
    (hn : n ≤ limit) :
    readDigits limit excess n cs = .ok m ↔
      (∀ c ∈ cs, c.isDigit = true) ∧ Nat.ofDigitChars 10 cs n = m ∧ m ≤ limit := by
  induction cs generalizing n with
  | nil =>
    rw [readDigits, Nat.ofDigitChars_nil, Except.ok.injEq]
    constructor
    · rintro rfl
      exact ⟨nofun, rfl, hn⟩
    · exact fun h => h.2.1
  | cons c cs ih =>
    rw [readDigits, Nat.ofDigitChars_cons, List.forall_mem_cons]
    cases hc : c.isDigit with
    | false =>
      rw [digit?_eq_none hc]
      simp
    | true =>
      rw [digit?_of_isDigit hc]
      dsimp only
      split
      case isTrue hle =>
        rw [ih hle]
        simp
      case isFalse hlimit =>
        constructor
        · intro h
          cases h
        · rintro ⟨-, rfl, hm⟩
          exact absurd (Nat.le_trans (le_ofDigitChars cs _) hm) hlimit

/-- A natural number in writing: an optional plus sign and one or more decimal digits. -/
def IsNumeral (cs : List Char) (n : Nat) : Prop :=
  ∃ sign digits, cs = sign ++ digits ∧ (sign = [] ∨ sign = ['+']) ∧ digits ≠ [] ∧
    (∀ c ∈ digits, c.isDigit = true) ∧ Nat.ofDigitChars 10 digits 0 = n

/-- A numeral is its digits, or its digits after a sign. -/
theorem isNumeral_cons {c : Char} {cs : List Char} {n : Nat} :
    IsNumeral (c :: cs) n ↔
      (if c = '+' then cs ≠ [] ∧ (∀ d ∈ cs, d.isDigit = true) ∧ Nat.ofDigitChars 10 cs 0 = n
        else (∀ d ∈ c :: cs, d.isDigit = true) ∧ Nat.ofDigitChars 10 (c :: cs) 0 = n) := by
  constructor
  · rintro ⟨sign, digits, hcs, rfl | rfl, hne, hdigits, hvalue⟩
    · rw [List.nil_append] at hcs
      rw [if_neg, hcs]
      · exact ⟨hdigits, hvalue⟩
      · rintro rfl
        have := hdigits '+' (hcs ▸ List.mem_cons_self ..)
        revert this
        decide
    · obtain ⟨rfl, rfl⟩ := List.cons.inj hcs
      rw [if_pos rfl]
      exact ⟨hne, hdigits, hvalue⟩
  · intro h
    split at h
    case isTrue hsign =>
      exact ⟨['+'], cs, by rw [hsign]; rfl, .inr rfl, h⟩
    case isFalse => exact ⟨[], c :: cs, rfl, .inl rfl, List.cons_ne_nil _ _, h⟩

/-- **A natural number is read exactly from a numeral whose value fits.** -/
theorem readUnsigned_eq_ok_iff {bits n : Nat} {cs : List Char} :
    readUnsigned bits cs = .ok n ↔ IsNumeral cs n ∧ n < 2 ^ bits := by
  have hpos : 0 < 2 ^ bits := Nat.two_pow_pos bits
  have hlt : n ≤ 2 ^ bits - 1 ↔ n < 2 ^ bits := by omega
  cases cs with
  | nil =>
    constructor
    · intro h
      cases h
    · rintro ⟨⟨sign, digits, hcs, -, hne, -⟩, -⟩
      exact absurd (List.append_eq_nil_iff.1 hcs.symm).2 hne
  | cons c cs =>
    rw [isNumeral_cons]
    by_cases hsign : c = '+'
    · subst hsign
      rw [if_pos rfl]
      cases cs with
      | nil =>
        constructor
        · intro h
          cases h
        · rintro ⟨⟨hne, -⟩, -⟩
          exact absurd rfl hne
      | cons d cs =>
        rw [readUnsigned, readDigits_eq_ok_iff (Nat.zero_le _), hlt]
        · simp [and_assoc]
        · simp
    · rw [if_neg hsign, readUnsigned, readDigits_eq_ok_iff (Nat.zero_le _), hlt, and_assoc]
      · simp
      · simp [hsign]
      · simp [hsign]

end ImageLabeling.Number
