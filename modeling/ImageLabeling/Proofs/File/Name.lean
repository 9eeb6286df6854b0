import ImageLabeling.Proofs.Text.Lines
import ImageLabeling.Proofs.Text.Utf8
import ImageLabeling.Source
import Mathlib

/-!
# Names of results

What is written in a directory is named after the stem of an image, and the stem after whatever a
list says. A stem has no slash (`slash_notMem_stem`): it is part of one piece of a path, and neither
reading it as text nor writing it again brings in a slash. A name (`FilePath.IsName`) joined to a
path stands for one entry below it (`FilePath.IsName.components_join`).
-/

namespace ImageLabeling

/-! ## Slashes in texts -/

namespace Utf8

/-- Only the slash is spelled with the byte of a slash. -/
theorem Spells.eq_slash {v : Nat} {bytes : List UInt8} (h : Spells v bytes)
    (hslash : FilePath.slash ∈ bytes) : v = '/'.toNat := by
  have hbyte : ∀ n < 256, FilePath.slash = UInt8.ofNat n → n = 0x2f := by
    intro n hn hslash
    have := congrArg UInt8.toNat hslash
    rw [UInt8.toNat_ofNat_of_lt' hn] at this
    exact this.symm
  -- all bytes of longer characters are past those of a single byte
  cases h with
  | one hv => exact hbyte v (by omega) (List.mem_singleton.1 hslash)
  | two | three | four =>
    simp only [List.mem_cons, List.not_mem_nil, or_false] at hslash
    casesm* _ ∨ _
    all_goals
      rename_i hslash
      have := hbyte _ (by omega) hslash
      omega

/-- Only the slash is written with the byte of a slash. -/
theorem eq_slash_of_mem_encodeChar {c : Char} (h : FilePath.slash ∈ String.utf8EncodeChar c) :
    c = '/' := by
  obtain ⟨bytes, hbytes⟩ := exists_spells c
  have hencode := hbytes.encodeChar
  rw [Char.ofNat_toNat] at hencode
  exact Char.toNat_inj.1 (hbytes.eq_slash (hencode ▸ h))

theorem slash_mem_of_mem_encode {text : String} (h : FilePath.slash ∈ encode text) :
    '/' ∈ text.toList := by
  obtain ⟨c, hc, hbyte⟩ := List.mem_flatMap.1 h
  exact eq_slash_of_mem_encodeChar hbyte ▸ hc

/-- Only the byte of a slash is read as one. -/
theorem eq_slash_of_readChar {b : UInt8} {rest : List UInt8}
    (h : (readChar b rest).1 = some '/') : b = FilePath.slash := by
  obtain ⟨v, bytes, hbytes, hchar, hread⟩ := readChar_inv (Prod.ext h rfl)
  have hencode : [FilePath.slash] = bytes := by
    rw [← hbytes.encodeChar, ← hchar]
    decide
  rw [← hencode] at hread
  exact (List.cons.inj hread).1

theorem mem_of_mem_readTail {n code : Nat} {low high : UInt8} {bytes : List UInt8} {b : UInt8}
    (h : b ∈ (readTail n low high code bytes).2) : b ∈ bytes := by
  fun_induction readTail n low high code bytes with
  | case1 | case2 | case4 => exact h
  | case3 n low high code b' rest hrange ih => exact List.mem_cons_of_mem _ (ih h)

theorem mem_of_mem_readChar {b b' : UInt8} {rest : List UInt8} (h : b ∈ (readChar b' rest).2) :
    b ∈ rest := by
  unfold readChar at h
  split at h
  · exact h
  · exact mem_of_mem_readTail h

theorem slash_mem_of_mem_decode {bytes : List UInt8} (h : some '/' ∈ decode bytes) :
    FilePath.slash ∈ bytes := by
  fun_induction decode bytes with
  | case1 => cases h
  | case2 b rest ih =>
    rcases List.mem_cons.1 h with hfirst | hrest
    · exact List.mem_cons.2 (.inl (eq_slash_of_readChar hfirst.symm).symm)
    · exact List.mem_cons_of_mem _ (mem_of_mem_readChar (ih hrest))

theorem slash_mem_of_mem_lossy {bytes : List UInt8} (h : '/' ∈ (lossy bytes).toList) :
    FilePath.slash ∈ bytes := by
  rw [lossy, String.toList_ofList] at h
  obtain ⟨c, hc, hslash⟩ := List.mem_map.1 h
  cases c with
  | none => cases hslash
  | some c =>
    cases hslash
    exact slash_mem_of_mem_decode hc

end Utf8

/-! ## Names -/

namespace FilePath

/-- A name for an entry of a directory: neither dots that lead elsewhere nor a path of several
pieces. -/
structure IsName (name : FileName) : Prop where
  nonblank : isBlankPiece name = false
  ne_up : name ≠ [dot, dot]
  no_slash : slash ∉ name

variable {name : FileName}

theorem IsName.ne_nil (h : IsName name) : name ≠ [] := by
  rintro rfl
  cases h.nonblank

theorem IsName.splitSlash (h : IsName name) : splitSlash name = [name] :=
  List.splitOn_eq_singleton h.no_slash

theorem IsName.relative (h : IsName name) : (⟨name⟩ : FilePath).isAbsolute = false := by
  cases name with
  | nil => rfl
  | cons b rest =>
    have hb : b ≠ slash := by
      rintro rfl
      exact h.no_slash (List.mem_cons_self ..)
    simp [isAbsolute, hb]

/-- A name that begins with another byte than a dot and has no slash. -/
theorem isName_cons {b : UInt8} {rest : FileName} (hdot : b ≠ dot) (hslash : slash ∉ b :: rest) :
    IsName (b :: rest) where
  nonblank := by simp [isBlankPiece, hdot]
  ne_up := by simp [hdot]
  no_slash := hslash

/-- A name joined to a path stands behind the slash at the end of the path, or behind a new one. -/
theorem IsName.join (h : IsName name) (p : FilePath) :
    p.bytes = [] ∧ p.join ⟨name⟩ = ⟨name⟩ ∨
      ∃ start, p.join ⟨name⟩ = ⟨start ++ slash :: name⟩ ∧
        (p.bytes = start ++ [slash] ∨ p.bytes = start ∧ start ≠ []) := by
  obtain ⟨bytes⟩ := p
  rw [FilePath.join, h.relative]
  dsimp only
  by_cases hnil : bytes = []
  · subst hnil
    exact .inl ⟨rfl, rfl⟩
  · refine .inr ?_
    by_cases hlast : bytes.getLast? = some slash
    · obtain ⟨start, rfl⟩ := List.getLast?_eq_some_iff.1 hlast
      refine ⟨start, ?_, .inl rfl⟩
      simp
    · exact ⟨bytes, by simp [hnil, hlast], .inr ⟨rfl, hnil⟩⟩

theorem isAbsolute_join {p : FilePath} {start rest : List UInt8}
    (h : p.bytes = start ++ [slash] ∨ p.bytes = start ∧ start ≠ []) :
    (⟨start ++ slash :: rest⟩ : FilePath).isAbsolute = p.isAbsolute := by
  rcases h with hbytes | ⟨hbytes, hstart⟩
  · rw [isAbsolute, isAbsolute, hbytes]
    cases start <;> rfl
  · rw [isAbsolute, isAbsolute, hbytes, List.head?_append_of_ne_nil _ hstart]

/-! ## Components -/

theorem filter_dropBlankEnd (pieces : List (List UInt8)) :
    (dropBlankEnd pieces).filter (!isBlankPiece ·) = pieces.filter (!isBlankPiece ·) := by
  have hfilter : ∀ reversed : List (List UInt8),
      (reversed.dropWhile isBlankPiece).filter (!isBlankPiece ·) =
        reversed.filter (!isBlankPiece ·) := by
    intro reversed
    induction reversed with
    | nil => rfl
    | cons piece rest ih =>
      by_cases hblank : isBlankPiece piece = true
      · simp [hblank, ih]
      · simp [hblank]
  rw [dropBlankEnd, List.filter_reverse, hfilter, List.filter_reverse, List.reverse_reverse]

/-- What the anchor of a path stands for. -/
def anchored (anchor : List UInt8) : List PathComponent :=
  if anchor = [slash] then [.root] else if anchor = [dot] then [.here] else []

/-- What the pieces behind the anchor stand for. -/
def ordinary (bytes : List UInt8) : List PathComponent :=
  ((FilePath.splitSlash bytes).filter (!isBlankPiece ·)).map component

theorem components_eq (p : FilePath) :
    p.components = anchored p.splitAnchor.1 ++ ordinary p.splitAnchor.2 := by
  simp only [components, pieces, filter_dropBlankEnd, anchored, ordinary]

theorem ordinary_append (a b : List UInt8) :
    ordinary (a ++ slash :: b) = ordinary a ++ ordinary b := by
  simp only [ordinary, FilePath.splitSlash, List.splitOn_append_cons_self, List.filter_append,
    List.map_append]

theorem IsName.ordinary (h : IsName name) : FilePath.ordinary name = [.name name] := by
  simp [FilePath.ordinary, h.splitSlash, h.nonblank, component, h.ne_up]

/-- A slash and more behind a path do not change its anchor. -/
theorem splitAnchor_append {start : List UInt8} (hstart : start ≠ []) (bytes : List UInt8) :
    (⟨start ++ slash :: bytes⟩ : FilePath).splitAnchor =
      ((⟨start⟩ : FilePath).splitAnchor.1,
        (⟨start⟩ : FilePath).splitAnchor.2 ++ slash :: bytes) := by
  obtain ⟨b, rest, rfl⟩ := List.exists_cons_of_ne_nil hstart
  have hhead : (FilePath.splitSlash (b :: (rest ++ slash :: bytes))).head? =
      (FilePath.splitSlash (b :: rest)).head? := by
    rw [← List.cons_append, FilePath.splitSlash, List.splitOn_append_cons_self,
      List.head?_append_of_ne_nil _ (List.splitOn_ne_nil _ _)]
    rfl
  by_cases habsolute : b = slash
  · simp [splitAnchor, isAbsolute, habsolute]
  · by_cases hhere : (FilePath.splitSlash (b :: rest)).head? = some [dot]
    · simp [splitAnchor, isAbsolute, habsolute, hhead, hhere]
    · simp [splitAnchor, isAbsolute, habsolute, hhead, hhere]

theorem components_append {start : List UInt8} (hstart : start ≠ []) (bytes : List UInt8) :
    (⟨start ++ slash :: bytes⟩ : FilePath).components =
      (⟨start⟩ : FilePath).components ++ ordinary bytes := by
  rw [components_eq, components_eq, splitAnchor_append hstart, ordinary_append, List.append_assoc]

theorem components_root (bytes : List UInt8) :
    (⟨slash :: bytes⟩ : FilePath).components = .root :: ordinary bytes := by
  rw [components_eq]
  rfl

/-- A relative path joined to a path leads on from there. -/
theorem components_join {p q : FilePath} (hp : p.bytes ≠ []) (hq : q.isAbsolute = false) :
    (p.join q).components = p.components ++ ordinary q.bytes := by
  obtain ⟨bytes⟩ := p
  rw [FilePath.join, hq]
  by_cases hlast : bytes.getLast? = some slash
  · obtain ⟨start, rfl⟩ := List.getLast?_eq_some_iff.1 hlast
    simp only [List.getLast?_concat, or_true, if_true, List.append_assoc, List.singleton_append,
      Bool.false_eq_true, if_false]
    by_cases hstart : start = []
    · subst hstart
      rw [List.nil_append, List.nil_append, components_root, components_root]
      rfl
    · rw [components_append hstart, components_append hstart, List.append_assoc]
      rfl
  · rw [if_neg Bool.false_ne_true, if_neg (not_or.2 ⟨hp, hlast⟩), components_append hp]

/-- **A name joined to a path stands for one entry below it.** -/
theorem IsName.components_join (h : IsName name) (p : FilePath) :
    (p.join ⟨name⟩).components = p.components ++ [.name name] := by
  by_cases hp : p.bytes = []
  · have hjoin : p.join ⟨name⟩ = ⟨name⟩ := by simp [FilePath.join, h.relative, hp]
    have hanchor : (⟨name⟩ : FilePath).splitAnchor = ([], name) := by
      have hdot : name ≠ [dot] := by
        rintro rfl
        cases h.nonblank
      simp [splitAnchor, h.relative, h.splitSlash, hdot]
    obtain ⟨bytes⟩ := p
    subst hp
    rw [hjoin, components_eq, hanchor, h.ordinary]
    rfl
  · rw [FilePath.components_join hp h.relative, h.ordinary]

end FilePath

/-! ## Stems -/

namespace FilePath

theorem slash_notMem_of_mem_splitSlash {bytes piece : List UInt8} (h : piece ∈ splitSlash bytes) :
    slash ∉ piece :=
  Text.notMem_of_mem_splitOn h

theorem slash_notMem_fileName {p : FilePath} {name : FileName} (h : p.fileName? = some name) :
    slash ∉ name := by
  unfold fileName? at h
  split at h
  · cases h
  · rename_i piece hlast
    split at h
    · cases h
    · cases h
      have hmem := List.mem_of_getLast? hlast
      have hsplit : name ∈ splitSlash p.splitAnchor.2 := by
        have hreverse := (List.dropWhile_sublist isBlankPiece).subset (List.mem_reverse.1 hmem)
        exact List.mem_reverse.1 hreverse
      exact slash_notMem_of_mem_splitSlash hsplit

theorem splitName_subset (name : FileName) : (splitName name).1 ⊆ name := by
  unfold splitName
  dsimp only
  split
  · exact fun _ h => h
  · intro b hb
    exact List.mem_reverse.1 (List.mem_of_mem_drop (List.mem_reverse.1 hb))

end FilePath

namespace Source

/-- **A stem is a single piece of a path**, whatever path it is taken from. -/
theorem slash_notMem_stem (path : FilePath) : FilePath.slash ∉ Utf8.encode (stem path) := by
  intro hslash
  have hchar := Utf8.slash_mem_of_mem_encode hslash
  unfold stem FilePath.fileStem? at hchar
  cases hname : path.fileName? with
  | none =>
    rw [hname] at hchar
    exact absurd hchar (by decide)
  | some name =>
    rw [hname] at hchar
    exact FilePath.slash_notMem_fileName hname
      (FilePath.splitName_subset name (Utf8.slash_mem_of_mem_lossy hchar))

end Source

end ImageLabeling
