import ImageLabeling.Text.Utf8
import Mathlib

/-!
# Texts and their bytes

Reading bytes as text undoes writing, and nothing else is read as text: `text?_eq_some_iff`. Both
halves go through what a character is spelled with (`Spells`), one to four bytes with six bits of
the code in each byte after the first: what is spelled is read back (`Spells.decode`), and what is
read was spelled (`readChar_inv`).
-/

namespace ImageLabeling.Utf8

/-! ## Leading bytes and the bytes that follow -/

/-- What a leading byte announces, by its code. -/
theorem lead_ofNat : ∀ k < 256, lead (UInt8.ofNat k) =
    if k < 0x80 then some (0, k, 0x80, 0xbf)
    else if k < 0xc2 then none
    else if k < 0xe0 then some (1, k - 0xc0, 0x80, 0xbf)
    else if k < 0xf0 then
      some (2, k - 0xe0, if k = 0xe0 then 0xa0 else 0x80, if k = 0xed then 0x9f else 0xbf)
    else if k < 0xf5 then
      some (3, k - 0xf0, if k = 0xf0 then 0x90 else 0x80, if k = 0xf4 then 0x8f else 0xbf)
    else none := by
  decide +kernel

/-- A byte that continues a character adds its six bits. -/
theorem readTail_cons {n code d : Nat} {low high : UInt8} (rest : List UInt8) (hd : d < 64)
    (hlow : low.toNat ≤ d + 0x80) (hhigh : d + 0x80 ≤ high.toNat) :
    readTail (n + 1) low high code (UInt8.ofNat (d + 0x80) :: rest) =
      readTail n 0x80 0xbf (64 * code + d) rest := by
  have hbyte : (UInt8.ofNat (d + 0x80)).toNat = d + 0x80 := by
    rw [UInt8.toNat_ofNat']
    omega
  rw [readTail, if_pos, hbyte, Nat.add_sub_cancel]
  simp only [UInt8.le_iff_toNat_le, hbyte]
  exact ⟨hlow, hhigh⟩

theorem readTail_cons_inner {n code d : Nat} (rest : List UInt8) (hd : d < 64) :
    readTail (n + 1) 0x80 0xbf code (UInt8.ofNat (d + 0x80) :: rest) =
      readTail n 0x80 0xbf (64 * code + d) rest :=
  readTail_cons rest hd (Nat.le_add_left ..) (show d + 0x80 ≤ 0xbf by omega)

/-- Where a character is completed, the next byte continued it. -/
theorem readTail_succ_inv {n code : Nat} {low high : UInt8} {bytes after : List UInt8} {c : Char}
    (hlow : 0x80 ≤ low.toNat) (hhigh : high.toNat ≤ 0xbf)
    (h : readTail (n + 1) low high code bytes = (some c, after)) :
    ∃ d rest, bytes = UInt8.ofNat (d + 0x80) :: rest ∧ d < 64 ∧
      low.toNat ≤ d + 0x80 ∧ d + 0x80 ≤ high.toNat ∧
      readTail n 0x80 0xbf (64 * code + d) rest = (some c, after) := by
  cases bytes with
  | nil => cases h
  | cons b rest =>
    rw [readTail] at h
    split at h
    · rename_i hrange
      simp only [UInt8.le_iff_toNat_le] at hrange
      refine ⟨b.toNat - 0x80, rest, ?_, by omega, by omega, by omega, h⟩
      rw [Nat.sub_add_cancel (by omega), UInt8.ofNat_toNat]
    · cases h

theorem readTail_inner_inv {n code : Nat} {bytes after : List UInt8} {c : Char}
    (h : readTail (n + 1) 0x80 0xbf code bytes = (some c, after)) :
    ∃ d rest, bytes = UInt8.ofNat (d + 0x80) :: rest ∧ d < 64 ∧
      readTail n 0x80 0xbf (64 * code + d) rest = (some c, after) := by
  obtain ⟨d, rest, hbytes, hd, -, -, hrest⟩ := readTail_succ_inv (by decide) (by decide) h
  exact ⟨d, rest, hbytes, hd, hrest⟩

/-! ## Characters of one to four bytes -/

/-- The code of a character and its bytes: each byte that continues the character holds six bits,
there are no more bytes than the code needs, and surrogates are no characters. -/
inductive Spells : Nat → List UInt8 → Prop
  | one {v : Nat} (hv : v < 0x80) : Spells v [UInt8.ofNat v]
  | two {a d : Nat} (hlong : 2 ≤ a) (ha : a < 32) (hd : d < 64) :
    Spells (64 * a + d) [UInt8.ofNat (a + 0xc0), UInt8.ofNat (d + 0x80)]
  | three {a d e : Nat} (hlong : a = 0 → 0x20 ≤ d) (hscalar : a = 0xd → d < 0x20) (ha : a < 16)
    (hd : d < 64) (he : e < 64) :
    Spells (64 * (64 * a + d) + e)
      [UInt8.ofNat (a + 0xe0), UInt8.ofNat (d + 0x80), UInt8.ofNat (e + 0x80)]
  | four {a d e f : Nat} (hlong : a = 0 → 0x10 ≤ d) (hscalar : a = 4 → d < 0x10) (ha : a < 5)
    (hd : d < 64) (he : e < 64) (hf : f < 64) :
    Spells (64 * (64 * (64 * a + d) + e) + f)
      [UInt8.ofNat (a + 0xf0), UInt8.ofNat (d + 0x80), UInt8.ofNat (e + 0x80),
        UInt8.ofNat (f + 0x80)]

variable {v : Nat} {bytes : List UInt8}

theorem Spells.isValidChar (h : Spells v bytes) : v.isValidChar := by
  cases h with
  | one hv => exact .inl (by omega)
  | two => exact .inl (by omega)
  | three => unfold Nat.isValidChar; omega
  | four => exact .inr ⟨by omega, by omega⟩

theorem Spells.encodeChar (h : Spells v bytes) :
    String.utf8EncodeChar (Char.ofNat v) = bytes := by
  have hcode : (Char.ofNat v).val.toNat = v := by
    have := Char.toNat_ofNat v
    rwa [if_pos h.isValidChar] at this
  simp only [String.utf8EncodeChar, hcode]
  cases h with
  | one hv => rw [if_pos (by omega)]
  | @two a d =>
    have ha : (64 * a + d) / 64 % 32 = a := by omega
    have hd : (64 * a + d) % 64 = d := by omega
    rw [if_neg (by omega), if_pos (by omega), ha, hd]
  | @three a d e =>
    have ha : (64 * (64 * a + d) + e) / 4096 % 16 = a := by omega
    have hd : (64 * (64 * a + d) + e) / 64 % 64 = d := by omega
    have he : (64 * (64 * a + d) + e) % 64 = e := by omega
    rw [if_neg (by omega), if_neg (by omega), if_pos (by omega), ha, hd, he]
  | @four a d e f =>
    have ha : (64 * (64 * (64 * a + d) + e) + f) / 262144 % 8 = a := by omega
    have hd : (64 * (64 * (64 * a + d) + e) + f) / 4096 % 64 = d := by omega
    have he : (64 * (64 * (64 * a + d) + e) + f) / 64 % 64 = e := by omega
    have hf : (64 * (64 * (64 * a + d) + e) + f) % 64 = f := by omega
    rw [if_neg (by omega), if_neg (by omega), if_neg (by omega), ha, hd, he, hf]

theorem exists_spells (c : Char) : ∃ bytes, Spells c.toNat bytes := by
  have hvalid : c.toNat < 0xd800 ∨ 0xdfff < c.toNat ∧ c.toNat < 0x110000 := c.valid
  generalize c.toNat = v at hvalid
  by_cases hone : v < 0x80
  · exact ⟨_, .one hone⟩
  · by_cases htwo : v < 0x800
    · rw [show v = 64 * (v / 64) + v % 64 by omega]
      exact ⟨_, .two (by omega) (by omega) (by omega)⟩
    · by_cases hthree : v < 0x10000
      · rw [show v = 64 * (64 * (v / 4096) + v / 64 % 64) + v % 64 by omega]
        exact ⟨_, .three (by omega) (by omega) (by omega) (by omega) (by omega)⟩
      · rw [show v = 64 * (64 * (64 * (v / 262144) + v / 4096 % 64) + v / 64 % 64) + v % 64 by
          omega]
        exact ⟨_, .four (by omega) (by omega) (by omega) (by omega) (by omega) (by omega)⟩

/-- A character is read from its bytes, whatever follows. -/
theorem Spells.decode (h : Spells v bytes) (rest : List UInt8) :
    Utf8.decode (bytes ++ rest) = some (Char.ofNat v) :: Utf8.decode rest := by
  cases h with
  | one hv =>
    rw [List.cons_append, List.nil_append, Utf8.decode, readChar, lead_ofNat _ (by omega),
      if_pos hv]
    rfl
  | two =>
    rw [List.cons_append, List.cons_append, List.nil_append, Utf8.decode, readChar,
      lead_ofNat _ (by omega), if_neg (by omega), if_neg (by omega), if_pos (by omega),
      Nat.add_sub_cancel]
    dsimp only
    rw [readTail_cons_inner rest (by omega)]
    rfl
  | three =>
    rw [List.cons_append, List.cons_append, List.cons_append, List.nil_append, Utf8.decode,
      readChar, lead_ofNat _ (by omega), if_neg (by omega), if_neg (by omega), if_neg (by omega),
      if_pos (by omega), Nat.add_sub_cancel]
    dsimp only
    rw [readTail_cons _ (by omega) ?_ ?_, readTail_cons_inner rest (by omega)]
    · rfl
    · split
      · show 0xa0 ≤ _
        omega
      · exact Nat.le_add_left ..
    · split
      · show _ ≤ 0x9f
        omega
      · show _ ≤ 0xbf
        omega
  | four =>
    rw [List.cons_append, List.cons_append, List.cons_append, List.cons_append, List.nil_append,
      Utf8.decode, readChar, lead_ofNat _ (by omega), if_neg (by omega), if_neg (by omega),
      if_neg (by omega), if_neg (by omega), if_pos (by omega), Nat.add_sub_cancel]
    dsimp only
    rw [readTail_cons _ (by omega) ?_ ?_, readTail_cons_inner _ (by omega),
      readTail_cons_inner rest (by omega)]
    · rfl
    · split
      · show 0x90 ≤ _
        omega
      · exact Nat.le_add_left ..
    · split
      · show _ ≤ 0x8f
        omega
      · show _ ≤ 0xbf
        omega

/-- What is read as a character is spelled by the bytes that are read. -/
theorem readChar_inv {b : UInt8} {rest after : List UInt8} {c : Char}
    (h : readChar b rest = (some c, after)) :
    ∃ v bytes, Spells v bytes ∧ c = Char.ofNat v ∧ b :: rest = bytes ++ after := by
  obtain ⟨k, hk, rfl⟩ : ∃ k < 256, UInt8.ofNat k = b := ⟨b.toNat, b.toNat_lt, UInt8.ofNat_toNat⟩
  rw [readChar, lead_ofNat k hk] at h
  by_cases hone : k < 0x80
  · rw [if_pos hone] at h
    cases h
    exact ⟨k, _, .one hone, rfl, rfl⟩
  by_cases hnone : k < 0xc2
  · rw [if_neg hone, if_pos hnone] at h
    cases h
  by_cases htwo : k < 0xe0
  · rw [if_neg hone, if_neg hnone, if_pos htwo] at h
    obtain ⟨d, rest, rfl, hd, hread⟩ := readTail_inner_inv h
    cases hread
    obtain ⟨a, rfl⟩ := Nat.exists_eq_add_of_le' (show 0xc0 ≤ k by omega)
    rw [Nat.add_sub_cancel]
    exact ⟨_, _, .two (by omega) (by omega) hd, rfl, rfl⟩
  by_cases hthree : k < 0xf0
  · rw [if_neg hone, if_neg hnone, if_neg htwo, if_pos hthree] at h
    obtain ⟨a, rfl⟩ := Nat.exists_eq_add_of_le' (show 0xe0 ≤ k by omega)
    rw [Nat.add_sub_cancel] at h
    obtain ⟨d, rest, rfl, hd, hlow, hhigh, hread⟩ :=
      readTail_succ_inv (by split <;> decide) (by split <;> decide) h
    obtain ⟨e, rest, rfl, he, hread⟩ := readTail_inner_inv hread
    cases hread
    refine ⟨_, _, .three (fun ha => ?_) (fun ha => ?_) (by omega) hd he, rfl, rfl⟩
    · subst ha
      change 0xa0 ≤ _ at hlow
      omega
    · subst ha
      change _ ≤ 0x9f at hhigh
      omega
  by_cases hfour : k < 0xf5
  · rw [if_neg hone, if_neg hnone, if_neg htwo, if_neg hthree, if_pos hfour] at h
    obtain ⟨a, rfl⟩ := Nat.exists_eq_add_of_le' (show 0xf0 ≤ k by omega)
    rw [Nat.add_sub_cancel] at h
    obtain ⟨d, rest, rfl, hd, hlow, hhigh, hread⟩ :=
      readTail_succ_inv (by split <;> decide) (by split <;> decide) h
    obtain ⟨e, rest, rfl, he, hread⟩ := readTail_inner_inv hread
    obtain ⟨f, rest, rfl, hf, hread⟩ := readTail_inner_inv hread
    cases hread
    refine ⟨_, _, .four (fun ha => ?_) (fun ha => ?_) (by omega) hd he hf, rfl, rfl⟩
    · subst ha
      change 0x90 ≤ _ at hlow
      omega
    · subst ha
      change _ ≤ 0x8f at hhigh
      omega
  · rw [if_neg hone, if_neg hnone, if_neg htwo, if_neg hthree, if_neg hfour] at h
    cases h

/-! ## Texts -/

theorem decode_encode (text : String) : decode (encode text) = text.toList.map some := by
  rw [encode]
  induction text.toList with
  | nil => rw [List.flatMap_nil, decode, List.map_nil]
  | cons c rest ih =>
    obtain ⟨bytes, hbytes⟩ := exists_spells c
    have hencode := hbytes.encodeChar
    have hdecode := hbytes.decode (rest.flatMap String.utf8EncodeChar)
    rw [Char.ofNat_toNat] at hencode hdecode
    rw [List.flatMap_cons, hencode, hdecode, ih, List.map_cons]

theorem eq_of_decode_eq {chars : List Char} (h : decode bytes = chars.map some) :
    bytes = chars.flatMap String.utf8EncodeChar := by
  fun_induction decode bytes generalizing chars with
  | case1 =>
    rw [List.map_eq_nil_iff.1 h.symm, List.flatMap_nil]
  | case2 b rest ih =>
    cases chars with
    | nil => cases h
    | cons c chars =>
      rw [List.map_cons, List.cons.injEq] at h
      obtain ⟨v, bytes, hbytes, rfl, hread⟩ := readChar_inv (Prod.ext h.1 rfl)
      rw [hread, List.flatMap_cons, hbytes.encodeChar]
      exact congrArg (bytes ++ ·) (ih h.2)

theorem mapM_id_eq_some_iff {α : Type} {xs : List (Option α)} {ys : List α} :
    xs.mapM id = some ys ↔ xs = ys.map some := by
  induction xs generalizing ys with
  | nil => cases ys <;> simp
  | cons x xs ih =>
    cases x with
    | none => cases ys <;> simp
    | some a =>
      rw [List.mapM_cons]
      cases ys with
      | nil => simp [Option.bind_eq_some_iff]
      | cons y ys =>
        simp only [id_eq, Option.pure_def, Option.bind_eq_bind, Option.bind_some,
          Option.bind_eq_some_iff, ih, Option.some.injEq, List.cons.injEq, List.map_cons]
        constructor
        · rintro ⟨zs, rfl, rfl, rfl⟩
          exact ⟨rfl, rfl⟩
        · rintro ⟨rfl, rfl⟩
          exact ⟨ys, rfl, rfl, rfl⟩

/-- **A byte sequence is text exactly if some text is written so**, and it is that text. -/
theorem text?_eq_some_iff {text : String} : text? bytes = some text ↔ bytes = encode text := by
  unfold text?
  constructor
  · intro h
    obtain ⟨chars, hchars, rfl⟩ := Option.map_eq_some_iff.1 h
    rw [encode, String.toList_ofList]
    exact eq_of_decode_eq (mapM_id_eq_some_iff.1 hchars)
  · rintro rfl
    rw [mapM_id_eq_some_iff.2 (decode_encode text), Option.map_some, String.ofList_toList]

theorem text?_encode (text : String) : text? (encode text) = some text :=
  text?_eq_some_iff.2 rfl

theorem encode_injective {a b : String} (h : encode a = encode b) : a = b :=
  Option.some.inj (by rw [← text?_encode, ← text?_encode, h])

theorem encode_append (a b : String) : encode (a ++ b) = encode a ++ encode b := by
  simp [encode]

end ImageLabeling.Utf8
