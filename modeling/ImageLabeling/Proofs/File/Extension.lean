import ImageLabeling.Proofs.File.Name
import Mathlib

/-!
# Last names and extensions

The name that a path ends with is its last component (`fileName?_eq_some_iff`), with nothing behind
it in the bytes of the path but slashes and dots (`exists_endsWith`). It has an extension if
there is a dot behind its first byte (`splitName_snd_isSome_iff`).
-/

namespace ImageLabeling.FilePath

variable {p : FilePath} {name : FileName}

/-! ## Pieces that name nothing -/

theorem isBlankPiece_iff {piece : List UInt8} :
    isBlankPiece piece = true ↔ piece = [] ∨ piece = [dot] := by
  simp [isBlankPiece]

theorem dropBlankEnd_cases (pieces : List (List UInt8)) :
    dropBlankEnd pieces = [] ∧ (∀ b ∈ pieces, isBlankPiece b = true) ∨
      ∃ init piece blanks, pieces = init ++ piece :: blanks ∧
        dropBlankEnd pieces = init ++ [piece] ∧ isBlankPiece piece = false ∧
        ∀ b ∈ blanks, isBlankPiece b = true := by
  induction pieces using List.reverseRecOn with
  | nil => exact .inl ⟨rfl, by simp⟩
  | append_singleton pieces last ih =>
    by_cases hlast : isBlankPiece last = true
    · have hdrop : dropBlankEnd (pieces ++ [last]) = dropBlankEnd pieces :=
        List.rdropWhile_concat_pos isBlankPiece pieces last hlast
      rw [hdrop]
      rcases ih with ⟨hnil, hblank⟩ | ⟨init, piece, blanks, rfl, hpieces, hpiece, hblanks⟩
      · exact .inl ⟨hnil, by simpa [or_imp, forall_and] using ⟨hblank, hlast⟩⟩
      · exact .inr ⟨init, piece, blanks ++ [last], by simp, hpieces, hpiece,
          by simpa [or_imp, forall_and] using ⟨hblanks, hlast⟩⟩
    · exact .inr ⟨pieces, last, [], rfl, List.rdropWhile_concat_neg isBlankPiece pieces last hlast,
        Bool.not_eq_true _ ▸ hlast, by simp⟩

theorem joinSlash_cons_of_ne_nil (piece : List UInt8) {pieces : List (List UInt8)}
    (h : pieces ≠ []) : joinSlash (piece :: pieces) = piece ++ slash :: joinSlash pieces := by
  obtain ⟨next, pieces, rfl⟩ := List.exists_cons_of_ne_nil h
  simp [joinSlash, List.intercalate_cons_cons]

theorem joinSlash_cons (piece : List UInt8) (pieces : List (List UInt8)) :
    joinSlash (piece :: pieces) = piece ++ pieces.flatMap (slash :: ·) := by
  induction pieces generalizing piece with
  | nil => simp [joinSlash]
  | cons next pieces ih =>
    rw [joinSlash_cons_of_ne_nil _ (List.cons_ne_nil _ _), ih, List.flatMap_cons]
    rfl

theorem joinSlash_append_cons (init : List (List UInt8)) (piece : List UInt8)
    (after : List (List UInt8)) :
    joinSlash (init ++ piece :: after) =
      init.flatMap (· ++ [slash]) ++ piece ++ after.flatMap (slash :: ·) := by
  induction init with
  | nil => exact joinSlash_cons piece after
  | cons first init ih =>
    rw [List.cons_append, joinSlash_cons_of_ne_nil _ (by simp), ih]
    simp

theorem joinSlash_splitSlash (bytes : List UInt8) : joinSlash (splitSlash bytes) = bytes :=
  List.intercalate_splitOn ..

/-! ## Components of joined paths -/

theorem splitAnchor_cases (p : FilePath) :
    (∃ rest, p.bytes = slash :: rest ∧ p.splitAnchor = ([slash], rest)) ∨
    (∃ rest, p.bytes = dot :: rest ∧ (splitSlash rest).head? = some [] ∧ p.isAbsolute = false ∧
      p.splitAnchor = ([dot], rest)) ∨
    p.isAbsolute = false ∧ p.splitAnchor = ([], p.bytes) := by
  obtain ⟨bytes⟩ := p
  by_cases habsolute : (⟨bytes⟩ : FilePath).isAbsolute = true
  · obtain ⟨rest, rfl⟩ : ∃ rest, bytes = slash :: rest := by
      simpa [isAbsolute, List.head?_eq_some_iff] using habsolute
    exact .inl ⟨rest, rfl, rfl⟩
  · by_cases hhere : (splitSlash bytes).head? = some [dot]
    · obtain ⟨pieces, hpieces⟩ := List.head?_eq_some_iff.1 hhere
      have hbytes : bytes = dot :: pieces.flatMap (slash :: ·) := by
        rw [← joinSlash_splitSlash bytes, hpieces, joinSlash_cons]
        rfl
      refine .inr (.inl ⟨pieces.flatMap (slash :: ·), hbytes, ?_, by simpa using habsolute, ?_⟩)
      · cases pieces with
        | nil => rfl
        | cons next pieces =>
          rw [List.flatMap_cons, List.cons_append, splitSlash, ← List.nil_append (slash :: _),
            List.splitOn_append_cons_self]
          rfl
      · rw [splitAnchor, if_neg habsolute, if_pos (beq_iff_eq.2 hhere)]
        dsimp only
        rw [hbytes]
        rfl
    · exact .inr (.inr ⟨by simpa using habsolute, by simp [splitAnchor, habsolute, hhere]⟩)

theorem bytes_eq_splitAnchor (p : FilePath) : p.bytes = p.splitAnchor.1 ++ p.splitAnchor.2 := by
  rcases splitAnchor_cases p with ⟨rest, hbytes, hp⟩ | ⟨rest, hbytes, -, -, hp⟩ | ⟨-, hp⟩
  · rw [hp, hbytes]
    rfl
  · rw [hp, hbytes]
    rfl
  · rw [hp]
    rfl

/-- An anchor names nothing. -/
theorem ordinary_splitAnchor (p : FilePath) : ordinary p.splitAnchor.2 = ordinary p.bytes := by
  rcases splitAnchor_cases p with
    ⟨rest, hbytes, hsplit⟩ | ⟨rest, hbytes, hhead, -, hsplit⟩ | ⟨-, hsplit⟩
  · rw [hsplit, hbytes, ← List.nil_append (slash :: rest), ordinary_append]
    rfl
  · obtain ⟨pieces, hpieces⟩ := List.head?_eq_some_iff.1 hhead
    have hdot : splitSlash (dot :: rest) = [dot] :: pieces := by
      rw [splitSlash, List.splitOn_cons_eq_if_modifyHead, if_neg (by decide)]
      exact congrArg (List.modifyHead (dot :: ·)) hpieces
    rw [hsplit, hbytes]
    simp only [ordinary, hdot, hpieces]
    rfl
  · rw [hsplit]

/-- Without the dot in front, a relative path means what its pieces stand for. -/
theorem filter_components (h : p.isAbsolute = false) :
    p.components.filter (· ≠ .here) = ordinary p.bytes := by
  have hordinary : (ordinary p.bytes).filter (· ≠ .here) = ordinary p.bytes := by
    rw [List.filter_eq_self]
    intro c hc
    obtain ⟨piece, -, rfl⟩ := List.mem_map.1 hc
    unfold component
    split <;> simp
  rw [components_eq, ordinary_splitAnchor, List.filter_append, hordinary]
  rcases splitAnchor_cases p with ⟨rest, hbytes, -⟩ | ⟨rest, -, -, -, hsplit⟩ | ⟨-, hsplit⟩
  · rw [isAbsolute, hbytes] at h
    cases h
  · rw [hsplit]
    rfl
  · rw [hsplit]
    rfl

/-! ## Last names -/

theorem components_eq_anchored (h : p.pieces = []) :
    p.components = anchored p.splitAnchor.1 := by
  have hcomponents : p.components = anchored p.splitAnchor.1 ++
      (p.pieces.filter (!isBlankPiece ·)).map component := rfl
  rw [hcomponents, h]
  exact List.append_nil _

theorem components_eq_concat {init : List (List UInt8)} {piece : List UInt8}
    (h : p.pieces = init ++ [piece]) (hpiece : isBlankPiece piece = false) :
    p.components = anchored p.splitAnchor.1 ++ (init.filter (!isBlankPiece ·)).map component ++
      [component piece] := by
  have hcomponents : p.components = anchored p.splitAnchor.1 ++
      (p.pieces.filter (!isBlankPiece ·)).map component := rfl
  rw [hcomponents, h, List.filter_append, List.filter_singleton, hpiece, List.map_append,
    ← List.append_assoc]
  rfl

/-- **The name that a path ends with is its last component**, if that is an ordinary name. -/
theorem fileName?_eq_some_iff :
    p.fileName? = some name ↔ p.components.getLast? = some (.name name) := by
  rcases dropBlankEnd_cases (splitSlash p.splitAnchor.2) with
    ⟨hnil, -⟩ | ⟨init, piece, blanks, -, hpieces, hpiece, -⟩
  · have hnone : p.fileName? = none := by rw [fileName?, show p.pieces = [] from hnil]; rfl
    rw [hnone, components_eq_anchored hnil]
    unfold anchored
    split
    · simp
    · split <;> simp
  · have hpieces : p.pieces = init ++ [piece] := hpieces
    rw [fileName?, hpieces, List.getLast?_concat, components_eq_concat hpieces hpiece,
      List.getLast?_concat, component]
    dsimp only
    split <;> simp

theorem join_eq_right {p q : FilePath} (h : q.isAbsolute = true ∨ p.bytes = []) :
    p.join q = q := by
  rcases h with hq | hp
  · rw [join, if_pos hq]
  · simp [join, hp]

/-- A path ends with the same name wherever it is seen from. -/
theorem fileName?_join (p : FilePath) {q : FilePath} (h : q.fileName? = some name) :
    (p.join q).fileName? = some name := by
  by_cases halone : q.isAbsolute = true ∨ p.bytes = []
  · rw [join_eq_right halone, h]
  · obtain ⟨hq, hp⟩ := not_or.1 halone
    rw [Bool.not_eq_true] at hq
    obtain ⟨init, hcomponents⟩ := List.getLast?_eq_some_iff.1 (fileName?_eq_some_iff.1 h)
    rw [fileName?_eq_some_iff, components_join hp hq, ← filter_components hq, hcomponents,
      List.filter_append, ← List.append_assoc]
    exact List.getLast?_concat

/-- A path that ends with a name: behind it, there is nothing but slashes and dots. -/
structure EndsWith (p : FilePath) (start : List UInt8) (name : FileName) (after : List UInt8) :
    Prop where
  bytes_eq : p.bytes = start ++ name ++ after
  start_eq : start = [] ∨ start.getLast? = some slash
  isName : IsName name
  after_eq : ∃ blanks : List (List UInt8), after = blanks.flatMap (slash :: ·) ∧
    ∀ b ∈ blanks, b = [] ∨ b = [dot]

theorem components_append_blanks {start : List UInt8} (hstart : start ≠ [])
    {blanks : List (List UInt8)} (h : ∀ b ∈ blanks, b = [] ∨ b = [dot]) :
    (⟨start ++ blanks.flatMap (slash :: ·)⟩ : FilePath).components =
      (⟨start⟩ : FilePath).components := by
  induction blanks generalizing start with
  | nil => simp
  | cons b blanks ih =>
    obtain ⟨hb, hblanks⟩ := List.forall_mem_cons.1 h
    have hnil : ordinary b = [] := by rcases hb with rfl | rfl <;> rfl
    rw [List.flatMap_cons, ← List.append_assoc, ih (by simp) hblanks, components_append hstart,
      hnil, List.append_nil]

theorem EndsWith.components_eq {start after : List UInt8} (h : p.EndsWith start name after) :
    p.components = (⟨start⟩ : FilePath).components ++ [.name name] := by
  obtain ⟨bytes⟩ := p
  obtain ⟨hbytes, hstart, hname, blanks, rfl, hblanks⟩ := h
  have hjoin : (⟨start⟩ : FilePath).join ⟨name⟩ = ⟨start ++ name⟩ := by
    simp [join, hname.relative, hstart]
  rw [show bytes = _ from hbytes, components_append_blanks (by simp [hname.ne_nil]) hblanks,
    ← hjoin, hname.components_join]

theorem EndsWith.fileName?_eq {start after : List UInt8} (h : p.EndsWith start name after) :
    p.fileName? = some name := by
  rw [fileName?_eq_some_iff, h.components_eq, List.getLast?_concat]

/-- Every path that ends with an ordinary name has it in front of the slashes and dots that trimming
takes away. -/
theorem exists_endsWith (h : p.fileName? = some name) :
    ∃ start after, p.EndsWith start name after ∧ p.trimmed.bytes = start ++ name := by
  unfold fileName? at h
  rcases dropBlankEnd_cases (splitSlash p.splitAnchor.2) with
    ⟨hnil, -⟩ | ⟨init, piece, blanks, hsplit, hpieces, hpiece, hblanks⟩
  · rw [show p.pieces = [] from hnil] at h
    cases h
  have hpieces : p.pieces = init ++ [piece] := hpieces
  rw [hpieces, List.getLast?_concat] at h
  dsimp only at h
  split at h
  · cases h
  rename_i hup
  cases h
  have hrest : p.splitAnchor.2 =
      init.flatMap (· ++ [slash]) ++ name ++ blanks.flatMap (slash :: ·) := by
    rw [← joinSlash_splitSlash p.splitAnchor.2, hsplit, joinSlash_append_cons]
  have hmem : name ∈ splitSlash p.splitAnchor.2 := by simp [hsplit]
  refine ⟨p.splitAnchor.1 ++ init.flatMap (· ++ [slash]), blanks.flatMap (slash :: ·),
    ⟨?_, ?_, ⟨hpiece, hup, slash_notMem_of_mem_splitSlash hmem⟩, blanks, rfl,
      fun b hb => isBlankPiece_iff.1 (hblanks b hb)⟩, ?_⟩
  · rw [bytes_eq_splitAnchor p, hrest]
    simp only [List.append_assoc]
  · rcases List.eq_nil_or_concat' init with rfl | ⟨init, last, rfl⟩
    · -- a dot in front is a piece of its own, so that a name cannot follow it at once
      rcases splitAnchor_cases p with ⟨rest, -, hp⟩ | ⟨rest, -, hhead, -, hp⟩ | ⟨-, hp⟩
      · exact .inr (by simp [hp])
      · rw [hp] at hsplit
        rw [hsplit] at hhead
        cases hhead
        cases hpiece
      · exact .inl (by simp [hp])
    · exact .inr (by simp)
  · rw [trimmed, hpieces, ofPieces, joinSlash_append_cons]
    simp

/-! ## Extensions -/

theorem ne_dot_of_notMem {bytes : List UInt8} (h : dot ∉ bytes) :
    ∀ c ∈ bytes, decide (c ≠ dot) = true := by
  intro c hc
  rw [decide_eq_true_eq]
  rintro rfl
  exact h hc

/-- What stands behind the last dot is short if that is not the first byte. -/
theorem length_takeWhile_lt_iff (b : UInt8) {tail : List UInt8} :
    ((b :: tail).reverse.takeWhile (· ≠ dot)).length < tail.length ↔ dot ∈ tail := by
  rw [List.reverse_cons]
  constructor
  · intro hlt
    by_contra hmem
    rw [List.takeWhile_append_of_pos (ne_dot_of_notMem (by simpa using hmem)),
      List.length_append, List.length_reverse] at hlt
    omega
  · intro hmem
    obtain ⟨last, first, hreverse, hlast⟩ := List.eq_append_cons_of_mem (List.mem_reverse.2 hmem)
    have hsum := congrArg List.length hreverse
    rw [List.length_reverse, List.length_append, List.length_cons] at hsum
    rw [hreverse, List.append_assoc, List.takeWhile_append_of_pos (ne_dot_of_notMem hlast),
      List.cons_append, List.takeWhile_cons_of_neg (by simp), List.append_nil]
    omega

/-- **A name has an extension if there is a dot behind its first byte.** -/
theorem splitName_snd_isSome_iff : (splitName name).2.isSome = true ↔ dot ∈ name.tail := by
  cases name with
  | nil => decide
  | cons b tail =>
    rw [List.tail_cons, ← length_takeWhile_lt_iff b, splitName]
    split
    case isTrue hstem =>
      rw [List.reverse_eq_nil_iff, List.drop_eq_nil_iff, List.length_reverse,
        List.length_cons] at hstem
      simp only [Option.isSome_none, Bool.false_eq_true, false_iff]
      omega
    case isFalse hstem =>
      rw [List.reverse_eq_nil_iff, List.drop_eq_nil_iff, List.length_reverse,
        List.length_cons] at hstem
      simp only [Option.isSome_some, true_iff]
      omega

theorem extension?_isSome_iff :
    p.extension?.isSome = true ↔ ∃ name, p.fileName? = some name ∧ dot ∈ name.tail := by
  unfold extension?
  cases p.fileName? with
  | none => simp
  | some name => simp [splitName_snd_isSome_iff]

theorem IsName.append_extension (h : IsName name) {extension : List UInt8}
    (hextension : slash ∉ extension) : IsName (name ++ dot :: extension) where
  nonblank := by
    obtain ⟨b, rest, rfl⟩ := List.exists_cons_of_ne_nil h.ne_nil
    simp [isBlankPiece]
  ne_up := by
    obtain ⟨b, rest, rfl⟩ := List.exists_cons_of_ne_nil h.ne_nil
    intro hup
    rw [List.cons_append, List.cons.injEq] at hup
    obtain ⟨rfl, hrest⟩ := hup
    have hnil : rest = [] := by
      have := congrArg List.length hrest
      simp only [List.length_append, List.length_cons, List.length_nil] at this
      exact List.length_eq_zero_iff.1 (by omega)
    subst hnil
    exact absurd h.nonblank (by decide)
  no_slash := by simp [h.no_slash, hextension, show slash ≠ dot by decide]

/-- **A name without an extension gets one**, in the place of what was behind the name. -/
theorem exists_endsWith_withDefaultExtension (h : p.fileName? = some name) (hdot : dot ∉ name.tail)
    {extension : String} (hextension : slash ∉ Utf8.encode extension) :
    ∃ start after, p.EndsWith start name after ∧
      (p.withDefaultExtension extension).EndsWith start
        (name ++ dot :: Utf8.encode extension) [] := by
  have hnone : p.extension? = none := by
    rw [extension?, h, Option.bind_some, ← Option.not_isSome_iff_eq_none, splitName_snd_isSome_iff]
    exact hdot
  obtain ⟨start, after, hends, htrimmed⟩ := exists_endsWith h
  refine ⟨start, after, hends, ?_, hends.start_eq, hends.isName.append_extension hextension, [],
    rfl, by simp⟩
  rw [withDefaultExtension, h, hnone]
  simp [htrimmed]

/-- A path with an extension, or without a last name, stays. -/
theorem withDefaultExtension_self (h : ∀ name, p.fileName? = some name → dot ∈ name.tail)
    (extension : String) : p.withDefaultExtension extension = p := by
  unfold withDefaultExtension
  split
  case h_1 name hname hnone =>
    have hsome := extension?_isSome_iff.2 ⟨name, hname, h name hname⟩
    rw [hnone] at hsome
    cases hsome
  case h_2 => rfl

/-- With a default for it, the last name has an extension. -/
theorem dot_mem_of_withDefaultExtension {extension : String}
    (hextension : slash ∉ Utf8.encode extension)
    (h : (p.withDefaultExtension extension).fileName? = some name) : dot ∈ name.tail := by
  by_cases hp : ∀ name, p.fileName? = some name → dot ∈ name.tail
  · rw [withDefaultExtension_self hp] at h
    exact hp name h
  · push Not at hp
    obtain ⟨bare, hbare, hdot⟩ := hp
    obtain ⟨start, after, hends, hends'⟩ :=
      exists_endsWith_withDefaultExtension hbare hdot hextension
    rw [hends'.fileName?_eq, Option.some.injEq] at h
    obtain ⟨b, rest, hcons⟩ := List.exists_cons_of_ne_nil hends.isName.ne_nil
    rw [← h, hcons]
    simp

/-! ## Parents -/

theorem filter_blanks {pieces : List (List UInt8)} (h : ∀ b ∈ pieces, isBlankPiece b = true) :
    pieces.filter (!isBlankPiece ·) = [] := by
  rw [List.filter_eq_nil_iff]
  intro b hb
  simp [h b hb]

/-- The pieces of a path up to one that names something are a path, from which the other pieces lead
on. -/
theorem components_of_split {above after : List (List UInt8)} {last : List UInt8}
    (hsplit : splitSlash p.splitAnchor.2 = above ++ last :: after)
    (hlast : isBlankPiece last = false) (hafter : after ≠ []) :
    p.components = (ofPieces p.splitAnchor.1 (above ++ [last])).components ++
      (after.filter (!isBlankPiece ·)).map component := by
  have hbytes : p.bytes =
      (ofPieces p.splitAnchor.1 (above ++ [last])).bytes ++ slash :: joinSlash after := by
    obtain ⟨next, after, rfl⟩ := List.exists_cons_of_ne_nil hafter
    rw [bytes_eq_splitAnchor, ← joinSlash_splitSlash p.splitAnchor.2, hsplit, ofPieces,
      joinSlash_append_cons, joinSlash_append_cons, joinSlash_cons]
    simp
  have hordinary : ordinary (joinSlash after) =
      (after.filter (!isBlankPiece ·)).map component := by
    have hfree : ∀ piece ∈ after, slash ∉ piece := by
      intro piece hpiece
      have hmem : piece ∈ splitSlash p.splitAnchor.2 := by
        rw [hsplit]
        exact List.mem_append_right _ (List.mem_cons_of_mem _ hpiece)
      exact slash_notMem_of_mem_splitSlash hmem
    rw [ordinary, splitSlash, joinSlash, List.splitOn_intercalate slash hfree hafter]
  have hstart : (ofPieces p.splitAnchor.1 (above ++ [last])).bytes ≠ [] := by
    have hne : last ≠ [] := by
      rintro rfl
      cases hlast
    simp [ofPieces, joinSlash_append_cons, hne]
  have happend := components_append hstart (joinSlash after)
  rwa [← hbytes, hordinary] at happend

/-- **A parent is the path without its last component**; without any, it is empty. -/
theorem components_parent (p : FilePath) :
    (p.parent?.getD ⟨[]⟩).components = p.components.dropLast := by
  have hanchored : (⟨p.splitAnchor.1⟩ : FilePath).components = anchored p.splitAnchor.1 ∧
      (⟨[]⟩ : FilePath).components = (anchored p.splitAnchor.1).dropLast := by
    rcases splitAnchor_cases p with ⟨_, -, hp⟩ | ⟨_, -, -, -, hp⟩ | ⟨-, hp⟩ <;>
      exact hp ▸ ⟨rfl, rfl⟩
  rcases dropBlankEnd_cases (splitSlash p.splitAnchor.2) with
    ⟨hnil, -⟩ | ⟨init, piece, blanks, hsplit, hpieces, hpiece, hblanks⟩
  · have hnil : p.pieces = [] := hnil
    have hparent : p.parent?.getD ⟨[]⟩ = ⟨[]⟩ := by
      simp only [parent?, hnil, ne_eq, not_true_eq_false, if_false]
      split <;> rfl
    rw [hparent, components_eq_anchored hnil, hanchored.2]
  · have hpieces : p.pieces = init ++ [piece] := hpieces
    have hparent : p.parent?.getD ⟨[]⟩ = ofPieces p.splitAnchor.1 (dropBlankEnd init) := by
      simp [parent?, hpieces]
    rw [hparent]
    rcases dropBlankEnd_cases init with
      ⟨hnil, hinit⟩ | ⟨above, last, between, hinit, habove, hlast, hbetween⟩
    · rw [components_eq_concat hpieces hpiece, List.dropLast_concat, hnil, filter_blanks hinit,
        ofPieces, joinSlash, List.intercalate_nil, List.append_nil, hanchored.1]
      exact (List.append_nil _).symm
    · rw [hinit, List.append_assoc, List.cons_append] at hsplit
      rw [habove, components_of_split hsplit hlast (by simp), List.filter_append,
        filter_blanks hbetween, List.nil_append, List.filter_cons, hpiece, filter_blanks hblanks]
      exact List.dropLast_concat.symm

end ImageLabeling.FilePath
