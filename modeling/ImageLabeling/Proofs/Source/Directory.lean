import ImageLabeling.Proofs.File.Name
import ImageLabeling.Proofs.File.Tree
import ImageLabeling.Proofs.Text.Utf8

/-!
# The pictures of a directory

A directory lists each of its entries once, in any order (`FileSystem.Reordered`). Its pictures are
the regular files with a picture name, in ascending order of their names; since a name occurs once,
that order leaves no choice (`pictureNames_perm`), and a limit cuts the list after it was sorted.
Files whose names are no text are reported one by one, whatever the limit: `images_of_directory`.
-/

namespace ImageLabeling

namespace FileSystem

variable {fs fs' : FileSystem} {folder : Location} {name : FileName}

/-! ## Listings -/

/-- The name and the entry of a row of the table that stands right below a place. -/
def childOf? (folder : Location) (row : Location × FileEntry) : Option (FileName × FileEntry) :=
  match row.1.getLast? with
  | some name => if row.1.dropLast = folder then some (name, row.2) else none
  | none => none

theorem childOf?_eq_some_iff {row : Location × FileEntry} {entry : FileEntry} :
    childOf? folder row = some (name, entry) ↔ row = (folder ++ [name], entry) := by
  obtain ⟨place, found⟩ := row
  unfold childOf?
  constructor
  · intro h
    split at h
    · rename_i last hlast
      split at h
      · rename_i hparent
        cases h
        obtain ⟨above, habove⟩ := List.getLast?_eq_some_iff.1 hlast
        dsimp only at habove hparent
        rw [habove, List.dropLast_concat] at hparent
        rw [habove, hparent]
      · cases h
    · cases h
  · rintro ⟨⟩
    simp

/-- The listing of a place has the entries right below it. -/
theorem mem_children_iff {entry : FileEntry} :
    (name, entry) ∈ fs.children folder ↔ fs.lookup? (folder ++ [name]) = some entry := by
  rw [lookup?, if_neg (by simp), Table.get?_eq_some_iff, children, List.mem_filterMap]
  constructor
  · rintro ⟨row, hrow, hchild⟩
    exact childOf?_eq_some_iff.1 hchild ▸ hrow
  · intro hrow
    exact ⟨_, hrow, childOf?_eq_some_iff.2 rfl⟩

/-- No name is listed twice. -/
theorem nodup_children (fs : FileSystem) (folder : Location) :
    ((fs.children folder).map Prod.fst).Nodup := by
  refine List.Nodup.map_on ?_ (fs.entries.nodup_keys.of_map.filterMap ?_)
  · rintro ⟨name, entry⟩ hentry ⟨name', entry'⟩ hentry' hname
    cases hname
    rw [mem_children_iff] at hentry hentry'
    rw [Option.some.inj (hentry.symm.trans hentry')]
  · rintro row row' ⟨name, entry⟩ hrow hrow'
    exact (childOf?_eq_some_iff.1 hrow).trans (childOf?_eq_some_iff.1 hrow').symm

/-- The same entries in another order. -/
structure Reordered (fs fs' : FileSystem) : Prop where
  working : fs'.working = fs.working
  rows : fs'.entries.rows.Perm fs.entries.rows

theorem Reordered.lookup? (h : Reordered fs fs') (place : Location) :
    fs'.lookup? place = fs.lookup? place := by
  unfold FileSystem.lookup?
  split
  · rfl
  · ext entry
    rw [Table.get?_eq_some_iff, Table.get?_eq_some_iff, h.rows.mem_iff]

theorem Reordered.sameTree (h : Reordered fs fs') : SameTree fs fs' :=
  ⟨h.working, fun place => by rw [h.lookup?], fun place _ => by rw [h.lookup?]⟩

theorem Reordered.children (h : Reordered fs fs') (folder : Location) :
    (fs'.children folder).Perm (fs.children folder) :=
  h.rows.filterMap _

end FileSystem

namespace FilePath

/-- Names in one directory have different paths. -/
theorem IsName.join_injective {name other : FileName} (h : IsName name) (h' : IsName other)
    {p : FilePath} (heq : p.join ⟨name⟩ = p.join ⟨other⟩) : name = other := by
  unfold FilePath.join at heq
  rw [h.relative, h'.relative] at heq
  by_cases hend : p.bytes = [] ∨ p.bytes.getLast? = some slash
  · simpa [hend] using heq
  · simpa [hend] using heq

end FilePath

namespace Source

variable {listing listing' : List (FileName × FileEntry)} {name : FileName}

/-! ## Names of pictures -/

theorem mem_fileNames_iff :
    name ∈ fileNames listing ↔ ∃ content, (name, FileEntry.file content) ∈ listing := by
  unfold fileNames
  rw [List.mem_filterMap]
  constructor
  · rintro ⟨⟨other, entry⟩, hmem, hname⟩
    cases entry with
    | file content =>
      cases hname
      exact ⟨content, hmem⟩
    | directory | link => cases hname
  · rintro ⟨content, hmem⟩
    exact ⟨_, hmem, rfl⟩

theorem fileNames_sublist (listing : List (FileName × FileEntry)) :
    (fileNames listing).Sublist (listing.map Prod.fst) := by
  induction listing with
  | nil => exact .slnil
  | cons row listing ih =>
    obtain ⟨name, entry⟩ := row
    cases entry with
    | file content => exact ih.cons_cons name
    | directory | link => exact ih.cons name

/-- A picture name is a text with one of the endings. -/
theorem isPicture_iff :
    isPicture name = true ↔
      ∃ stem, ∃ ending ∈ pictureEndings, name = Utf8.encode (stem ++ ending) := by
  unfold isPicture
  rw [Option.any_eq_true]
  constructor
  · rintro ⟨text, htext, hends⟩
    obtain ⟨ending, hending, hsuffix⟩ := List.any_eq_true.1 hends
    obtain ⟨stem, hstem⟩ := List.isSuffixOf_iff_suffix.1 hsuffix
    refine ⟨String.ofList stem, ending, hending, ?_⟩
    have htoList : text = String.ofList stem ++ ending := by
      rw [← String.toList_inj, String.toList_append, String.toList_ofList, hstem]
    rw [Utf8.text?_eq_some_iff.1 htext, htoList]
  · rintro ⟨stem, ending, hending, rfl⟩
    refine ⟨_, Utf8.text?_encode _, List.any_eq_true.2 ⟨ending, hending, ?_⟩⟩
    rw [List.isSuffixOf_iff_suffix, String.toList_append]
    exact List.suffix_append ..

/-! ## Ascending order -/

theorem bytesLe_iff {a b : List UInt8} : bytesLe a b = true ↔ a ≤ b := by
  fun_induction bytesLe a b with
  | case1 => simp
  | case2 => simp
  | case3 a as b bs ih =>
    rw [List.cons_le_cons_iff, Bool.or_eq_true, Bool.and_eq_true, decide_eq_true_eq, beq_iff_eq, ih]

theorem pairwise_sorted (names : List FileName) :
    (names.mergeSort bytesLe).Pairwise (· ≤ ·) := by
  have hsorted : (names.mergeSort bytesLe).Pairwise fun a b => bytesLe a b = true := by
    refine List.pairwise_mergeSort (fun a b c hab hbc => ?_) (fun a b => ?_) names
    · rw [bytesLe_iff] at *
      exact List.le_trans hab hbc
    · rw [Bool.or_eq_true, bytesLe_iff, bytesLe_iff]
      exact List.le_total a b
  exact hsorted.imp bytesLe_iff.1

/-- Sorting leaves nothing of the order before. -/
theorem mergeSort_eq_of_perm {names names' : List FileName} (h : names.Perm names') :
    names.mergeSort bytesLe = names'.mergeSort bytesLe := by
  have hperm := (List.mergeSort_perm names bytesLe).trans
    (h.trans (List.mergeSort_perm names' bytesLe).symm)
  exact hperm.eq_of_pairwise (fun _ _ _ _ => List.le_antisymm) (pairwise_sorted _)
    (pairwise_sorted _)

/-! ## The pictures of a listing -/

/-- A limit takes the first of all pictures. -/
theorem pictureNames_eq (listing : List (FileName × FileEntry)) (limit : Option Nat) :
    pictureNames listing limit =
      limit.elim (pictureNames listing none) fun n => (pictureNames listing none).take n := by
  cases limit <;> rfl

theorem mem_pictureNames_iff :
    name ∈ pictureNames listing none ↔
      (∃ content, (name, FileEntry.file content) ∈ listing) ∧ isPicture name = true := by
  show name ∈ ((fileNames listing).filter isPicture).mergeSort bytesLe ↔ _
  rw [List.mem_mergeSort, List.mem_filter, mem_fileNames_iff]

/-- The names ascend strictly, as none is listed twice. -/
theorem pairwise_pictureNames (hnodup : (listing.map Prod.fst).Nodup) :
    (pictureNames listing none).Pairwise (· < ·) := by
  have hfiles : ((fileNames listing).filter isPicture).Nodup :=
    (hnodup.sublist (fileNames_sublist listing)).filter _
  have hsorted : (pictureNames listing none).Nodup := (List.mergeSort_perm _ _).nodup_iff.2 hfiles
  refine (pairwise_sorted _).imp₂ (fun a b hle hne => ?_) hsorted
  exact Std.lt_of_le_of_ne hle hne

/-- **The order of a listing makes no difference.** -/
theorem pictureNames_perm (h : listing'.Perm listing) (limit : Option Nat) :
    pictureNames listing' limit = pictureNames listing limit := by
  have hsame : pictureNames listing' none = pictureNames listing none :=
    mergeSort_eq_of_perm ((h.filterMap _).filter _)
  rw [pictureNames_eq, pictureNames_eq listing, hsame]

/-! ## The images of a directory -/

/-- The names of the files whose names are no text. -/
def unreadableNames (listing : List (FileName × FileEntry)) : List FileName :=
  (fileNames listing).filter fun name => (Utf8.text? name).isNone

theorem mem_unreadableNames_iff :
    name ∈ unreadableNames listing ↔
      (∃ content, (name, FileEntry.file content) ∈ listing) ∧ ∀ text, name ≠ Utf8.encode text := by
  rw [unreadableNames, List.mem_filter, mem_fileNames_iff, Option.isNone_iff_eq_none,
    Option.eq_none_iff_forall_ne_some]
  simp only [ne_eq, Utf8.text?_eq_some_iff]

theorem images_of_resolve {fs : FileSystem} {path : FilePath} {folder : Location}
    (hpath : fs.resolve true path = .ok folder) (hfolder : fs.lookup? folder = some .directory)
    (limit : Option Nat) :
    images fs (.directory path limit) =
      (nameWarnings path (fs.children folder),
        .ok ((pictureNames (fs.children folder) limit).map fun name => path.join ⟨name⟩)) := by
  simp only [images, hpath, hfolder, if_true]

/-- The names of all pictures right below a place, in ascending order of their bytes. -/
structure IsPictureList (fs : FileSystem) (folder : Location) (names : List FileName) : Prop where
  ascending : names.Pairwise (· < ·)
  mem_iff : ∀ name, name ∈ names ↔
    (∃ content, fs.lookup? (folder ++ [name]) = some (.file content)) ∧
      ∃ stem, ∃ ending ∈ [".JPEG", ".jpg", ".png"], name = Utf8.encode (stem ++ ending)

/-- The names of all files right below a place that are no text, each once. -/
structure IsUnreadableList (fs : FileSystem) (folder : Location) (names : List FileName) :
    Prop where
  nodup : names.Nodup
  mem_iff : ∀ name, name ∈ names ↔
    (∃ content, fs.lookup? (folder ++ [name]) = some (.file content)) ∧
      ∀ text, name ≠ Utf8.encode text

theorem isPictureList_children (fs : FileSystem) (folder : Location) :
    IsPictureList fs folder (pictureNames (fs.children folder) none) where
  ascending := pairwise_pictureNames (fs.nodup_children folder)
  mem_iff name := by
    simp only [mem_pictureNames_iff, FileSystem.mem_children_iff, isPicture_iff]
    rfl

theorem isUnreadableList_children (fs : FileSystem) (folder : Location) :
    IsUnreadableList fs folder (unreadableNames (fs.children folder)) where
  nodup := ((fs.nodup_children folder).sublist (fileNames_sublist _)).filter _
  mem_iff name := by
    simp only [mem_unreadableNames_iff, FileSystem.mem_children_iff]

/-- **The images of a directory** are its pictures in ascending order, of which a limit takes the
first ones; every file whose name is no text is reported once, whatever the limit. The order of the
listing makes no difference, except for the order of the reports. -/
theorem images_of_directory {fs : FileSystem} {path : FilePath} {folder : Location}
    (hpath : fs.resolve true path = .ok folder) (hfolder : fs.lookup? folder = some .directory) :
    ∃ names unreadable,
      IsPictureList fs folder names ∧ IsUnreadableList fs folder unreadable ∧
      (∀ limit, images fs (.directory path limit) =
        (unreadable.map fun name =>
          ⟨.warn, "Skipping non UTF-8 file name", [("path", (path.join ⟨name⟩).display)]⟩,
        .ok ((limit.elim names fun n => names.take n).map fun name => path.join ⟨name⟩))) ∧
      ((∀ name ∈ names, FilePath.IsName name) →
        (names.map fun name => path.join ⟨name⟩).Nodup) ∧
      ∀ fs', fs.Reordered fs' → ∀ limit,
        (images fs' (.directory path limit)).2 = (images fs (.directory path limit)).2 ∧
        (images fs' (.directory path limit)).1.Perm (images fs (.directory path limit)).1 := by
  have hlist := isPictureList_children fs folder
  refine ⟨_, _, hlist, isUnreadableList_children fs folder, fun limit => ?_, fun hnames => ?_,
    fun fs' hfs' limit => ?_⟩
  · rw [images_of_resolve hpath hfolder, pictureNames_eq]
    rfl
  · have hnodup : (pictureNames (fs.children folder) none).Nodup :=
      hlist.ascending.imp Std.ne_of_lt
    exact hnodup.map_on fun a ha b hb => (hnames a ha).join_injective (hnames b hb)
  · have hpath' : fs'.resolve true path = .ok folder := hfs'.sameTree.resolve hpath
    have hfolder' : fs'.lookup? folder = some .directory := by rw [hfs'.lookup?, hfolder]
    have hlisting := hfs'.children folder
    rw [images_of_resolve hpath hfolder, images_of_resolve hpath' hfolder',
      pictureNames_perm hlisting]
    exact ⟨rfl, ((hlisting.filterMap _).filter _).map _⟩

/-- A directory with files, a directory and a link under picture names, and a name that is no
text. -/
def mixedDirectory : FileSystem where
  entries := ((((((Table.empty.put [Utf8.encode "d"] .directory).put
    [Utf8.encode "d", Utf8.encode "b.png"] (.file (.bytes []))).put
    [Utf8.encode "d", 0xff :: Utf8.encode ".png"] (.file (.bytes []))).put
    [Utf8.encode "d", Utf8.encode "a.JPEG"] (.file (.bytes []))).put
    [Utf8.encode "d", Utf8.encode "n.jpg"] .directory).put
    [Utf8.encode "d", Utf8.encode "l.jpg"] (.link (.ofString "b.png"))).put
    [Utf8.encode "d", Utf8.encode "a.JPG"] (.file (.bytes []))
  working := []

/-- In whatever order its entries are listed, the first picture of the directory is the first by
name, and one name is reported. -/
theorem images_of_directory_mixed :
    mixedDirectory.resolve true (.ofString "d") = .ok [Utf8.encode "d"] ∧
    mixedDirectory.lookup? [Utf8.encode "d"] = some .directory ∧
    ∀ fs, mixedDirectory.Reordered fs →
      (images fs (.directory (.ofString "d") (some 1))).2.toOption = some [.ofString "d/a.JPEG"] ∧
      (images fs (.directory (.ofString "d") (some 1))).1.length = 1 := by
  have hpath : mixedDirectory.resolve true (.ofString "d") = .ok [Utf8.encode "d"] := by
    decide +kernel
  have hfolder : mixedDirectory.lookup? [Utf8.encode "d"] = some .directory := by decide +kernel
  obtain ⟨_, _, -, -, -, -, hreordered⟩ := images_of_directory hpath hfolder
  refine ⟨hpath, hfolder, fun fs hfs => ?_⟩
  obtain ⟨himages, hevents⟩ := hreordered fs hfs (some 1)
  rw [himages, hevents.length_eq]
  constructor
  · cbv
  · cbv

end Source

end ImageLabeling
