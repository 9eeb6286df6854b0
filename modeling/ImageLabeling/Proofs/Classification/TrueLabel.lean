import ImageLabeling.Classification.Accuracy
import ImageLabeling.Proofs.Number.Whole
import ImageLabeling.Source

/-!
# Labels in names

A picture is labeled exactly if its name begins with a numeral of at most 64 bits and an underscore
(`trueLabel_of_pictureName`). The reader takes what stands before the first underscore and never
checks that there is one: a name without underscore is no numeral, since the ending of a picture
name has a dot (`not_isNumeral_pictureName`).
-/

namespace ImageLabeling

open Number

/-! ## Before the first underscore -/

theorem labelPart_append {p : String} (h : '_' ∉ p.toList) (rest : String) :
    labelPart (p ++ "_" ++ rest) = p.toList := by
  have hpart : ∀ c ∈ p.toList, decide (c ≠ '_') = true := by
    intro c hc
    rw [decide_eq_true_eq]
    rintro rfl
    exact h hc
  rw [labelPart, String.toList_append, String.toList_append, List.append_assoc,
    List.takeWhile_append_of_pos hpart]
  simp

/-- What stands before the first underscore is the whole name if there is none. -/
theorem labelPart_cases (name : String) :
    (∃ p rest, name = p ++ "_" ++ rest ∧ labelPart name = p.toList) ∨
      labelPart name = name.toList := by
  have hsplit := List.takeWhile_append_dropWhile (p := (· ≠ '_')) (l := name.toList)
  cases hrest : name.toList.dropWhile (· ≠ '_') with
  | nil =>
    rw [hrest, List.append_nil] at hsplit
    exact .inr hsplit
  | cons c rest =>
    have hc : c = '_' := by
      have hhead := List.head?_dropWhile_not (fun c => decide (c ≠ '_')) name.toList
      rw [hrest] at hhead
      simpa using hhead
    refine .inl ⟨String.ofList (labelPart name), String.ofList rest, ?_, ?_⟩
    · rw [← String.toList_inj, String.toList_append, String.toList_append, String.toList_ofList,
        String.toList_ofList, ← hsplit, hrest, hc]
      simp [labelPart]
    · rw [String.toList_ofList]

/-! ## Numerals and names -/

/-- A numeral has no other characters than digits and a sign. -/
theorem notMem_of_isNumeral {cs : List Char} {n : Nat} (h : IsNumeral cs n) {c : Char}
    (hdigit : c.isDigit = false) (hsign : c ≠ '+') : c ∉ cs := by
  obtain ⟨sign, digits, rfl, hsigns, -, hdigits, -⟩ := h
  rw [List.mem_append, not_or]
  constructor
  · rcases hsigns with rfl | rfl
    · exact List.not_mem_nil
    · rwa [List.mem_singleton]
  · intro hc
    rw [hdigits c hc] at hdigit
    cases hdigit

/-- The name of a picture is no numeral. -/
theorem not_isNumeral_pictureName {name : String} (h : Source.isPictureName name = true) (n : Nat) :
    ¬ IsNumeral name.toList n := by
  obtain ⟨ending, hending, hsuffix⟩ := List.any_eq_true.1 h
  have hdot : ∀ ending ∈ Source.pictureEndings, '.' ∈ ending.toList := by decide
  intro hnumeral
  exact notMem_of_isNumeral hnumeral (by decide) (by decide)
    ((List.isSuffixOf_iff_suffix.1 hsuffix).subset (hdot ending hending))

/-- A number is written as a numeral, with or without zeros in front. -/
theorem isNumeral_toString (zeros n : Nat) :
    IsNumeral (List.replicate zeros '0' ++ (toString n).toList) n := by
  refine ⟨[], List.replicate zeros '0' ++ (toString n).toList, rfl, .inl rfl, ?_,
    fun c hc => isDigit_of_mem_padded zeros hc, ?_⟩
  · simp [Nat.toDigits_ne_nil]
  · rw [Nat.toString_eq_repr, Nat.toList_repr, Nat.ofDigitChars_append,
      Nat.ofDigitChars_replicate_zero, Nat.mul_zero, Nat.ofDigitChars_ten_toDigits]

/-! ## Labels -/

theorem trueLabel_eq_ok_iff {name : String} {n : Nat} :
    trueLabel name = .ok n ↔ IsNumeral (labelPart name) n ∧ n < 2 ^ 64 := by
  rw [← readUnsigned_eq_ok_iff, trueLabel]
  cases readUnsigned 64 (labelPart name) with
  | error fault => simp [Except.mapError]
  | ok m => simp [Except.mapError]

/-- A name is labeled or refused as a whole. -/
theorem trueLabel_eq_error_iff {name : String} :
    trueLabel name = .error (.invalidLabel name) ↔ ∀ n, trueLabel name ≠ .ok n := by
  rw [trueLabel]
  cases readUnsigned 64 (labelPart name) with
  | error fault => simp [Except.mapError]
  | ok m => simp [Except.mapError]

/-- **The label of a picture** is the number that its name begins with, before an underscore; a
picture whose name does not begin so has none. Whatever follows, a number below the limit is read
back from a picture name that begins with it, with or without zeros in front. -/
theorem trueLabel_of_pictureName {name : String} (h : Source.isPictureName name = true) :
    (∀ n, trueLabel name = .ok n ↔
      ∃ p rest, name = p ++ "_" ++ rest ∧ IsNumeral p.toList n ∧ n < 2 ^ 64) ∧
    (trueLabel name = .error (.invalidLabel name) ↔
      ¬ ∃ n p rest, name = p ++ "_" ++ rest ∧ IsNumeral p.toList n ∧ n < 2 ^ 64) ∧
    ∀ n < 2 ^ 64, ∀ zeros rest,
      name = String.ofList (List.replicate zeros '0') ++ toString n ++ "_" ++ rest →
      trueLabel name = .ok n := by
  have hgrammar : ∀ n, trueLabel name = .ok n ↔
      ∃ p rest, name = p ++ "_" ++ rest ∧ IsNumeral p.toList n ∧ n < 2 ^ 64 := by
    intro n
    rw [trueLabel_eq_ok_iff]
    constructor
    · rintro ⟨hnumeral, hlt⟩
      rcases labelPart_cases name with ⟨p, rest, hname, hpart⟩ | hwhole
      · exact ⟨p, rest, hname, hpart ▸ hnumeral, hlt⟩
      · exact absurd (hwhole ▸ hnumeral) (not_isNumeral_pictureName h n)
    · rintro ⟨p, rest, rfl, hnumeral, hlt⟩
      rw [labelPart_append (notMem_of_isNumeral hnumeral (by decide) (by decide))]
      exact ⟨hnumeral, hlt⟩
  refine ⟨hgrammar, ?_, fun n hn zeros rest hname => (hgrammar n).2 ⟨_, rest, hname, ?_, hn⟩⟩
  · rw [trueLabel_eq_error_iff, not_exists]
    exact forall_congr' fun n => not_congr (hgrammar n)
  · rw [String.toList_append, String.toList_ofList]
    exact isNumeral_toString zeros n

/-- The largest label, with a zero in front. -/
theorem trueLabel_of_pictureName_largest :
    Source.isPictureName "018446744073709551615_cat.JPEG" = true ∧
    trueLabel "018446744073709551615_cat.JPEG" = .ok 18446744073709551615 := by
  have h : Source.isPictureName "018446744073709551615_cat.JPEG" = true := by decide
  obtain ⟨-, -, hread⟩ := trueLabel_of_pictureName h
  exact ⟨h, hread 18446744073709551615 (by decide) 1 "cat.JPEG" (by decide +kernel)⟩

end ImageLabeling
