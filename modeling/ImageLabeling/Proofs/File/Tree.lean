import ImageLabeling.File.System
import ImageLabeling.Timing

/-!
# Writing files in a tree

In a *grounded* file system every entry stands in a directory. There a path that can be written to
leads to a place where a file is or can be put (`Grounded.writeLocation_ok_inv`), and putting files
changes neither the directories nor the links (`SameTree`), so every path keeps leading where it
led (`SameTree.resolve_iff`); making more directories only lets more paths lead somewhere
(`Extends.resolve`). What is read after a write follows: the content that was written
(`Writable.find?_put_self`), or what was there before (`Writable.find?_put_of_ne`). Where a path is
written to depends on the tree alone (`SameTree.writePlace?`), so several writes are one list of
files to put (`putAll`).
-/

namespace ImageLabeling

namespace FileSystem

/-- Every entry stands in a directory. -/
def Grounded (fs : FileSystem) : Prop :=
  ∀ place entry, fs.lookup? place = some entry → fs.lookup? place.dropLast = some .directory

/-- It is enough to look at the rows of the table. -/
theorem grounded_of_rows {fs : FileSystem}
    (h : ∀ row ∈ fs.entries.rows, fs.lookup? row.1.dropLast = some .directory) :
    fs.Grounded := by
  intro place entry hentry
  by_cases hroot : place = []
  · simp [hroot, lookup?]
  · rw [lookup?, if_neg hroot] at hentry
    exact h (place, entry) (Table.mem_of_get?_eq_some hentry)

/-! ## Where walks end -/

/-- The place is in a directory, and is no link if links at the end were followed. -/
structure Stands (fs : FileSystem) (follow : Bool) (place : Location) : Prop where
  parent : fs.lookup? place.dropLast = some .directory
  solid : follow = true → ∀ target, fs.lookup? place ≠ some (.link target)

variable {fs fs' : FileSystem} {follow : Bool}

theorem lookup?_root (fs : FileSystem) : fs.lookup? [] = some .directory := by
  simp [lookup?]

theorem Grounded.stands (hfs : fs.Grounded) {place : Location}
    (h : fs.lookup? place = some .directory) : fs.Stands follow place where
  parent := hfs place .directory h
  solid _ target hlink := by
    rw [h] at hlink
    cases hlink

theorem Grounded.stands_up (hfs : fs.Grounded) {place : Location}
    (h : fs.lookup? place = some .directory) : fs.Stands follow place.dropLast :=
  hfs.stands (hfs place .directory h)

theorem stands_name {place : Location} {piece : List UInt8}
    (h : fs.lookup? place = some .directory)
    (hsolid : follow = true → ∀ target, fs.lookup? (place ++ [piece]) ≠ some (.link target)) :
    fs.Stands follow (place ++ [piece]) where
  parent := by rwa [List.dropLast_concat]
  solid := hsolid

theorem Grounded.descend_stands (hfs : fs.Grounded)
    {jump : Location → List (List UInt8) → Except PathFault Location}
    (hjump : ∀ place pieces last, fs.Stands follow place → jump place pieces = .ok last →
      fs.Stands follow last)
    {place last : Location} {pieces : List (List UInt8)}
    (hstart : pieces = [] → fs.Stands follow place)
    (h : fs.descend follow jump place pieces = .ok last) : fs.Stands follow last := by
  fun_induction descend fs follow jump place pieces with
  | case1 place =>
    cases h
    exact hstart rfl
  | case2 | case5 | case7 | case10 => cases h
  | case3 place piece rest hdirectory hblank ih => exact ih (fun _ => hfs.stands hdirectory) h
  | case4 place rest hdirectory hblank ih => exact ih (fun _ => hfs.stands_up hdirectory) h
  | case6 place piece rest hdirectory hblank hup hlength target hlink hend =>
    cases h
    refine stands_name hdirectory fun hfollow => ?_
    rw [hend.2] at hfollow
    cases hfollow
  | case8 place piece rest hdirectory hblank hup hlength target hlink hend htarget =>
    refine hjump _ _ _ ?_ h
    split
    · exact hfs.stands fs.lookup?_root
    · exact hfs.stands hdirectory
  | case9 place piece rest hdirectory hblank hup hlength hsolid ih =>
    exact ih (fun _ => stands_name hdirectory fun _ target hlink => hsolid target hlink) h

/-- A walk ends in a directory, whatever links it follows. -/
theorem Grounded.walk_stands (hfs : fs.Grounded) {links : Nat} {place last : Location}
    {pieces : List (List UInt8)} (hstart : pieces = [] → fs.Stands follow place)
    (h : fs.walk follow links place pieces = .ok last) : fs.Stands follow last := by
  induction links generalizing place pieces last with
  | zero =>
    refine hfs.descend_stands ?_ hstart h
    intro _ _ _ _ hjump
    cases hjump
  | succ links ih =>
    refine hfs.descend_stands ?_ hstart h
    intro place pieces last hplace hjump
    exact ih (fun _ => hplace) hjump

theorem resolve_eq_ok_iff {path : FilePath} {place : Location} :
    fs.resolve follow path = .ok place ↔
      (path.bytes ≠ [] ∧ path.bytes.length < maxPathLength ∧ 0 ∉ path.bytes) ∧
        fs.walk follow maxLinks (if path.isAbsolute then [] else fs.working)
          (FilePath.splitSlash path.bytes) = .ok place := by
  unfold resolve
  split
  case isTrue hnil => simp [hnil]
  case isFalse hnil =>
    split
    case isTrue hlength => simp [Nat.not_lt.2 hlength]
    case isFalse hlength =>
      split
      case isTrue hzero => simp [hzero]
      case isFalse hzero => simp [hnil, Nat.lt_of_not_le hlength, hzero]

theorem Grounded.resolve_stands (hfs : fs.Grounded) {path : FilePath} {place : Location}
    (h : fs.resolve follow path = .ok place) : fs.Stands follow place :=
  hfs.walk_stands (fun hnil => absurd hnil (List.splitOn_ne_nil _ _)) (resolve_eq_ok_iff.1 h).2

/-! ## Places for files -/

/-- A place in a directory where a file is or can be put. -/
structure Writable (fs : FileSystem) (place : Location) : Prop where
  parent : fs.lookup? place.dropLast = some .directory
  vacant : ∀ entry, fs.lookup? place = some entry → ∃ content, entry = .file content

theorem Writable.ne_root {place : Location} (h : fs.Writable place) : place ≠ [] := by
  rintro rfl
  obtain ⟨content, hcontent⟩ := h.vacant .directory fs.lookup?_root
  cases hcontent

/-- Writing puts the file where its path leads, which is a place for files. -/
theorem Grounded.writeLocation_ok_inv (hfs : fs.Grounded) {path : FilePath} {place : Location}
    (h : fs.writeLocation path = .ok place) :
    fs.resolve true path = .ok place ∧ fs.Writable place := by
  unfold writeLocation at h
  cases hplace : fs.resolve true path with
  | error fault =>
    rw [hplace] at h
    cases h
  | ok found =>
    rw [hplace] at h
    change (if fs.lookup? found = some .directory then Except.error PathFault.isDirectory
      else .ok found) = .ok place at h
    split at h
    · cases h
    · rename_i hdirectory
      cases h
      have hstands := hfs.resolve_stands hplace
      refine ⟨rfl, hstands.parent, ?_⟩
      intro entry hentry
      cases entry with
      | directory => exact absurd hentry hdirectory
      | link target => exact absurd hentry (hstands.solid rfl target)
      | file content => exact ⟨content, rfl⟩

/-- A write puts the file at the place for it. -/
theorem Grounded.write_ok_inv (hfs : fs.Grounded) {path : FilePath} {content : FileContent}
    (h : fs.write path content = .ok fs') :
    ∃ place, fs.resolve true path = .ok place ∧ fs.Writable place ∧
      fs' = fs.put place (.file content) := by
  unfold write at h
  cases hplace : fs.writeLocation path with
  | error fault =>
    rw [hplace] at h
    cases h
  | ok place =>
    rw [hplace] at h
    cases h
    obtain ⟨hresolve, hwritable⟩ := hfs.writeLocation_ok_inv hplace
    exact ⟨place, hresolve, hwritable, rfl⟩

/-- A new timing log is an empty file at the place for it. -/
theorem Grounded.create_ok_inv (hfs : fs.Grounded) {path : FilePath} {log : Timing.Log}
    (h : Timing.Log.create fs path = .ok (fs', log)) :
    fs.resolve true path = .ok log.location ∧ fs.Writable log.location ∧
      fs' = fs.put log.location (.file (.bytes [])) := by
  obtain ⟨place, hplace, rfl, rfl⟩ := Timing.Log.create_eq_ok_iff.1 h
  obtain ⟨hresolve, hwritable⟩ := hfs.writeLocation_ok_inv hplace
  exact ⟨hresolve, hwritable, rfl⟩

theorem Grounded.put (hfs : fs.Grounded) {place : Location} (h : fs.Writable place)
    (content : FileContent) : (fs.put place (.file content)).Grounded := by
  intro other entry hother
  have hparent : ∀ parent, fs.lookup? parent = some .directory →
      (fs.put place (.file content)).lookup? parent = some .directory := by
    intro parent hdirectory
    rw [lookup?_put _ _ _ h.ne_root, if_neg, hdirectory]
    rintro rfl
    obtain ⟨_, hfile⟩ := h.vacant .directory hdirectory
    cases hfile
  rw [lookup?_put _ _ _ h.ne_root] at hother
  split at hother
  · rename_i heq
    exact hparent _ (heq ▸ h.parent)
  · exact hparent _ (hfs other entry hother)

/-! ## Making directories -/

theorem Grounded.put_directory (hfs : fs.Grounded) {place : Location}
    (hparent : fs.lookup? place.dropLast = some .directory) (hnone : fs.lookup? place = none) :
    (fs.put place .directory).Grounded := by
  have hroot : place ≠ [] := by
    rintro rfl
    rw [fs.lookup?_root] at hnone
    cases hnone
  intro other entry hother
  have hput : ∀ parent, fs.lookup? parent = some .directory →
      (fs.put place .directory).lookup? parent = some .directory := by
    intro parent hdirectory
    rw [lookup?_put _ _ _ hroot, hdirectory, ite_self]
  rw [lookup?_put _ _ _ hroot] at hother
  split at hother
  · rename_i heq
    exact hput _ (heq ▸ hparent)
  · exact hput _ (hfs other entry hother)

theorem Grounded.makeDirectory (hfs : fs.Grounded) {path : FilePath}
    (h : fs.makeDirectory path = .ok fs') : fs'.Grounded := by
  unfold FileSystem.makeDirectory at h
  extract_lets slashless at h
  generalize (if slashless.bytes = [] then path else slashless) = bare at h
  cases hplace : fs.resolve false bare with
  | error fault =>
    rw [hplace] at h
    cases h
  | ok place =>
    rw [hplace] at h
    change (if (fs.lookup? place).isSome then Except.error PathFault.exists
      else .ok (fs.put place .directory)) = .ok fs' at h
    split at h
    · cases h
    · rename_i hnone
      cases h
      exact hfs.put_directory (hfs.resolve_stands hplace).parent (by simpa using hnone)

theorem Grounded.makeAll (hfs : fs.Grounded) (paths : List FilePath) :
    (fs.makeAll paths).1.Grounded := by
  induction paths generalizing fs with
  | nil => exact hfs
  | cons path above ih =>
    unfold FileSystem.makeAll
    split
    · exact hfs
    · cases hfirst : fs.makeDirectory path with
      | ok made => exact hfs.makeDirectory hfirst
      | error fault =>
        cases fault with
        | missing =>
          have habove := ih hfs
          rcases hmade : fs.makeAll above with ⟨made, fault | _⟩
          · rw [hmade] at habove
            exact habove
          · rw [hmade] at habove
            dsimp only
            cases hagain : made.makeDirectory path with
            | ok again => exact habove.makeDirectory hagain
            | error fault => exact habove
        | _ => exact hfs

theorem Grounded.makeTree (hfs : fs.Grounded) (path : FilePath) :
    (fs.makeTree path).1.Grounded :=
  hfs.makeAll path.ancestors

/-! ## The tree of directories and links -/

/-- The second file system has all directories of the first, and the same links. -/
structure Extends (fs fs' : FileSystem) : Prop where
  working : fs'.working = fs.working
  directory : ∀ place, fs.lookup? place = some .directory → fs'.lookup? place = some .directory
  link : ∀ place target,
    fs'.lookup? place = some (.link target) ↔ fs.lookup? place = some (.link target)

theorem Extends.descend (h : Extends fs fs')
    {jump jump' : Location → List (List UInt8) → Except PathFault Location}
    (hjump : ∀ place pieces last, jump place pieces = .ok last → jump' place pieces = .ok last)
    {place last : Location} {pieces : List (List UInt8)}
    (hwalk : fs.descend follow jump place pieces = .ok last) :
    fs'.descend follow jump' place pieces = .ok last := by
  fun_induction FileSystem.descend fs follow jump place pieces with
  | case1 place => exact hwalk
  | case2 | case5 | case7 | case10 => cases hwalk
  | case3 place piece rest hdirectory hblank ih =>
    simp only [FileSystem.descend, h.directory place hdirectory, hblank, if_true]
    exact ih hwalk
  | case4 place rest hdirectory hblank ih =>
    simp only [FileSystem.descend, h.directory place hdirectory, hblank, if_true]
    exact ih hwalk
  | case6 place piece rest hdirectory hblank hup hlength target hlink hend =>
    simp only [FileSystem.descend, h.directory place hdirectory, hblank, hup, hlength,
      (h.link _ target).2 hlink, hend, if_false]
    exact hwalk
  | case8 place piece rest hdirectory hblank hup hlength target hlink hend htarget =>
    simp only [FileSystem.descend, h.directory place hdirectory, hblank, hup, hlength,
      (h.link _ target).2 hlink, hend, htarget, if_false]
    exact hjump _ _ _ hwalk
  | case9 place piece rest hdirectory hblank hup hlength hsolid ih =>
    simp only [FileSystem.descend, h.directory place hdirectory, hblank, hup, hlength,
      if_false]
    cases hentry : fs'.lookup? (place ++ [piece]) with
    | none => exact ih hwalk
    | some entry =>
      cases entry with
      | directory | file => exact ih hwalk
      | link target => exact absurd ((h.link _ target).1 hentry) (hsolid target)

theorem Extends.walk (h : Extends fs fs') {links : Nat} {place last : Location}
    {pieces : List (List UInt8)} (hwalk : fs.walk follow links place pieces = .ok last) :
    fs'.walk follow links place pieces = .ok last := by
  induction links generalizing place pieces last with
  | zero =>
    refine h.descend ?_ hwalk
    intro _ _ _ hjump
    exact hjump
  | succ links ih => exact h.descend (fun place pieces last hjump => ih hjump) hwalk

/-- **A path that leads somewhere still leads there.** -/
theorem Extends.resolve (h : Extends fs fs') {path : FilePath} {place : Location}
    (hpath : fs.resolve follow path = .ok place) : fs'.resolve follow path = .ok place := by
  obtain ⟨hvalid, hwalk⟩ := resolve_eq_ok_iff.1 hpath
  rw [resolve_eq_ok_iff, h.working]
  exact ⟨hvalid, h.walk hwalk⟩

/-- Two file systems that differ in their files only. -/
structure SameTree (fs fs' : FileSystem) : Prop where
  working : fs'.working = fs.working
  directory : ∀ place, fs'.lookup? place = some .directory ↔ fs.lookup? place = some .directory
  link : ∀ place target,
    fs'.lookup? place = some (.link target) ↔ fs.lookup? place = some (.link target)

theorem SameTree.extends (h : SameTree fs fs') : Extends fs fs' :=
  ⟨h.working, fun place => (h.directory place).2, h.link⟩

theorem SameTree.refl (fs : FileSystem) : SameTree fs fs :=
  ⟨rfl, fun _ => Iff.rfl, fun _ _ => Iff.rfl⟩

theorem SameTree.symm (h : SameTree fs fs') : SameTree fs' fs :=
  ⟨h.working.symm, fun place => (h.directory place).symm,
    fun place target => (h.link place target).symm⟩

theorem SameTree.trans {fs'' : FileSystem} (h : SameTree fs fs') (h' : SameTree fs' fs'') :
    SameTree fs fs'' :=
  ⟨h'.working.trans h.working, fun place => (h'.directory place).trans (h.directory place),
    fun place target => (h'.link place target).trans (h.link place target)⟩

theorem Writable.sameTree {place : Location} (h : fs.Writable place) (content : FileContent) :
    SameTree fs (fs.put place (.file content)) := by
  have hvacant : ∀ entry, (∀ content, entry ≠ .file content) →
      ∀ other, (fs.put place (.file content)).lookup? other = some entry ↔
        fs.lookup? other = some entry := by
    intro entry hentry other
    rw [lookup?_put _ _ _ h.ne_root]
    split
    · rename_i heq
      subst heq
      constructor
      · intro hput
        cases hput
        exact absurd rfl (hentry content)
      · intro hother
        obtain ⟨content', hfile⟩ := h.vacant entry hother
        exact absurd hfile (hentry content')
    · exact Iff.rfl
  exact ⟨rfl, hvacant _ fun _ => FileEntry.noConfusion,
    fun other target => hvacant _ (fun _ => FileEntry.noConfusion) other⟩

/-- **Files do not decide where a path leads.** -/
theorem SameTree.resolve (h : SameTree fs fs') {path : FilePath} {place : Location}
    (hpath : fs.resolve follow path = .ok place) : fs'.resolve follow path = .ok place :=
  h.extends.resolve hpath

theorem SameTree.resolve_iff (h : SameTree fs fs') {path : FilePath} {place : Location} :
    fs'.resolve follow path = .ok place ↔ fs.resolve follow path = .ok place :=
  ⟨h.symm.resolve, h.resolve⟩

/-! ## Reading after writing -/

theorem find?_of_resolve {path : FilePath} {place : Location}
    (h : fs.resolve true path = .ok place) : fs.find? path = fs.lookup? place := by
  rw [find?, h]

theorem find?_eq_some_iff {path : FilePath} {entry : FileEntry} :
    fs.find? path = some entry ↔
      ∃ place, fs.resolve true path = .ok place ∧ fs.lookup? place = some entry := by
  unfold find?
  cases h : fs.resolve true path with
  | error fault => simp
  | ok place => simp

/-- Where a file was put, that file is found. -/
theorem Writable.find?_put_self {place : Location} (h : fs.Writable place) (content : FileContent)
    {path : FilePath} (hpath : fs.resolve true path = .ok place) :
    (fs.put place (.file content)).find? path = some (.file content) := by
  rw [find?_of_resolve ((h.sameTree content).resolve hpath), lookup?_put _ _ _ h.ne_root,
    if_pos rfl]

/-- Paths that lead elsewhere keep what they led to. -/
theorem Writable.find?_put_of_ne {place : Location} (h : fs.Writable place)
    (content : FileContent) {path : FilePath} (hpath : fs.resolve true path ≠ .ok place) :
    (fs.put place (.file content)).find? path = fs.find? path := by
  have htree := h.sameTree content
  ext entry
  rw [find?_eq_some_iff, find?_eq_some_iff]
  constructor
  · rintro ⟨other, hother, hentry⟩
    rw [htree.resolve_iff] at hother
    rw [lookup?_put _ _ _ h.ne_root, if_neg] at hentry
    · exact ⟨other, hother, hentry⟩
    · rintro rfl
      exact hpath hother
  · rintro ⟨other, hother, hentry⟩
    refine ⟨other, htree.resolve hother, ?_⟩
    rw [lookup?_put _ _ _ h.ne_root, if_neg]
    · exact hentry
    · rintro rfl
      exact hpath hother

/-- A file that is found can be written. -/
theorem write_of_find? {path : FilePath} {old : FileContent}
    (h : fs.find? path = some (.file old)) (content : FileContent) :
    ∃ files, fs.write path content = .ok files := by
  obtain ⟨place, hplace, hfile⟩ := find?_eq_some_iff.1 h
  have hlocation : fs.writeLocation path = .ok place := by
    unfold writeLocation
    rw [hplace]
    show (if fs.lookup? place = some .directory then Except.error PathFault.isDirectory
      else .ok place) = .ok place
    rw [hfile]
    rfl
  rw [write, hlocation]
  exact ⟨_, rfl⟩

/-- Finishing a timing log changes the file of the log alone. -/
theorem Grounded.finish (hfs : fs.Grounded) (log : Timing.Log) :
    fs.SameTree (log.finish fs) ∧ ∀ path, fs.resolve true path ≠ .ok log.location →
      (log.finish fs).find? path = fs.find? path := by
  unfold Timing.Log.finish
  cases hentry : fs.lookup? log.location with
  | none => exact ⟨.refl fs, fun _ _ => rfl⟩
  | some entry =>
    cases entry with
    | directory | link => exact ⟨.refl fs, fun _ _ => rfl⟩
    | file content =>
      have hwritable : fs.Writable log.location := by
        refine ⟨hfs _ _ hentry, ?_⟩
        intro entry hother
        exact ⟨content, Option.some.inj (hother.symm.trans hentry)⟩
      exact ⟨hwritable.sameTree _, fun path hpath => hwritable.find?_put_of_ne _ hpath⟩

/-- What a path leads to stays if its place does. -/
theorem SameTree.find?_eq (h : SameTree fs fs') {path : FilePath}
    (hplace : ∀ place, fs.resolve true path = .ok place → fs'.lookup? place = fs.lookup? place) :
    fs'.find? path = fs.find? path := by
  ext entry
  simp only [find?_eq_some_iff, h.resolve_iff]
  constructor
  · rintro ⟨place, hresolve, hentry⟩
    exact ⟨place, hresolve, hplace place hresolve ▸ hentry⟩
  · rintro ⟨place, hresolve, hentry⟩
    exact ⟨place, hresolve, (hplace place hresolve).trans hentry⟩

/-- An empty timing log is finished with its text. -/
theorem Grounded.find?_finish (hfs : fs.Grounded) {log : Timing.Log}
    (hempty : fs.lookup? log.location = some (.file (.bytes []))) {path : FilePath}
    (hpath : fs.resolve true path = .ok log.location) :
    (log.finish fs).find? path = some (.file (.bytes (Utf8.encode log.text))) := by
  have hwritable : fs.Writable log.location := by
    refine ⟨hfs _ _ hempty, fun entry hentry => ?_⟩
    exact ⟨_, Option.some.inj (hentry.symm.trans hempty)⟩
  unfold Timing.Log.finish
  rw [hempty]
  dsimp only
  rw [FileContent.overwrite_empty]
  exact hwritable.find?_put_self _ hpath

/-! ## Several writes -/

/-- The place that writing to a path puts a file, if there is one. -/
def writePlace? (fs : FileSystem) (path : FilePath) : Option Location :=
  (fs.writeLocation path).toOption

theorem writePlace?_eq_some_iff {path : FilePath} {place : Location} :
    fs.writePlace? path = some place ↔
      fs.resolve true path = .ok place ∧ fs.lookup? place ≠ some .directory := by
  unfold writePlace? writeLocation
  cases hplace : fs.resolve true path with
  | error fault =>
    constructor
    · intro h
      cases h
    · rintro ⟨h, -⟩
      cases h
  | ok found =>
    show (if fs.lookup? found = some .directory then Except.error PathFault.isDirectory
      else .ok found).toOption = some place ↔ _
    by_cases hdirectory : fs.lookup? found = some .directory
    · rw [if_pos hdirectory]
      constructor
      · intro h
        cases h
      · rintro ⟨h, hne⟩
        cases h
        exact absurd hdirectory hne
    · rw [if_neg hdirectory]
      constructor
      · intro h
        cases h
        exact ⟨rfl, hdirectory⟩
      · rintro ⟨h, -⟩
        cases h
        rfl

/-- Files do not decide where a file is put. -/
theorem SameTree.writePlace? (h : SameTree fs fs') (path : FilePath) :
    fs'.writePlace? path = fs.writePlace? path := by
  ext place
  rw [writePlace?_eq_some_iff, writePlace?_eq_some_iff, h.resolve_iff, Ne, h.directory]

theorem write_eq_ok_iff {path : FilePath} {content : FileContent} :
    fs.write path content = .ok fs' ↔
      ∃ place, fs.writePlace? path = some place ∧ fs' = fs.put place (.file content) := by
  unfold write writePlace?
  cases fs.writeLocation path with
  | error fault =>
    constructor
    · intro h
      cases h
    · rintro ⟨place, h, -⟩
      cases h
  | ok place =>
    constructor
    · intro h
      cases h
      exact ⟨place, rfl, rfl⟩
    · rintro ⟨place', h, rfl⟩
      cases h
      rfl

theorem write_error_iff {path : FilePath} {content : FileContent} :
    (∃ e, fs.write path content = .error e) ↔ fs.writePlace? path = none := by
  unfold write writePlace?
  cases fs.writeLocation path with
  | error fault => exact ⟨fun _ => rfl, fun _ => ⟨fault, rfl⟩⟩
  | ok place =>
    constructor
    · rintro ⟨e, h⟩
      cases h
    · intro h
      cases h

theorem Grounded.write_place_inv (hfs : fs.Grounded) {path : FilePath} {content : FileContent}
    (h : fs.write path content = .ok fs') :
    ∃ place, fs.writePlace? path = some place ∧ fs.SameTree fs' ∧
      fs' = fs.put place (.file content) := by
  obtain ⟨place, hplace, hwritable, rfl⟩ := hfs.write_ok_inv h
  refine ⟨place, writePlace?_eq_some_iff.2 ⟨hplace, fun hdirectory => ?_⟩,
    hwritable.sameTree content, rfl⟩
  obtain ⟨content, hfile⟩ := hwritable.vacant _ hdirectory
  cases hfile

/-- The files put in their places one after another. -/
def putAll (fs : FileSystem) (files : List (Location × FileContent)) : FileSystem :=
  files.foldl (fun fs file => fs.put file.1 (.file file.2)) fs

/-- Files that are put elsewhere do not matter, and of the others the last one is found. -/
theorem lookup?_putAll {files : List (Location × FileContent)} (hroot : ∀ file ∈ files, file.1 ≠ [])
    (place : Location) :
    (∀ file ∈ files, file.1 ≠ place) ∧
        (∀ fs : FileSystem, (fs.putAll files).lookup? place = fs.lookup? place) ∨
      (∃ file ∈ files, file.1 = place) ∧
        ∃ content, ∀ fs : FileSystem, (fs.putAll files).lookup? place = some (.file content) := by
  induction files with
  | nil => exact .inl ⟨fun _ h => (nomatch h), fun _ => rfl⟩
  | cons file files ih =>
    obtain ⟨hfile, hroot⟩ := List.forall_mem_cons.1 hroot
    rcases ih hroot with ⟨hmiss, hsame⟩ | ⟨⟨other, hother, hplace⟩, hlast⟩
    · by_cases hhere : file.1 = place
      · refine .inr ⟨⟨file, List.mem_cons_self .., hhere⟩, file.2, fun fs => ?_⟩
        exact (hsame _).trans ((lookup?_put _ _ _ hfile).trans (if_pos hhere.symm))
      · refine .inl ⟨List.forall_mem_cons.2 ⟨hhere, hmiss⟩, fun fs => ?_⟩
        exact (hsame _).trans ((lookup?_put _ _ _ hfile).trans (if_neg (Ne.symm hhere)))
    · obtain ⟨content, hcontent⟩ := hlast
      exact .inr ⟨⟨other, List.mem_cons_of_mem _ hother, hplace⟩, content, fun fs => hcontent _⟩

/-- The two paths do not lead to one place. -/
def Apart (fs : FileSystem) (p q : FilePath) : Prop :=
  ∀ place, fs.resolve true p = .ok place → fs.resolve true q ≠ .ok place

theorem apart_iff {p q : FilePath} :
    fs.Apart p q ↔ (fs.resolve true p).toOption = none ∨
      (fs.resolve true p).toOption ≠ (fs.resolve true q).toOption := by
  unfold Apart
  cases fs.resolve true p with
  | error fault => exact ⟨fun _ => .inl rfl, fun _ _ h => nomatch h⟩
  | ok place =>
    cases fs.resolve true q with
    | error fault => exact ⟨fun _ => .inr nofun, fun _ _ _ h => nomatch h⟩
    | ok place' =>
      constructor
      · intro h
        refine .inr fun hsame => h place rfl ?_
        rw [Option.some.inj hsame]
      · rintro (hnone | hne) _ hplace hplace'
        · cases hnone
        · cases hplace
          cases hplace'
          exact hne rfl

instance (fs : FileSystem) (p q : FilePath) : Decidable (fs.Apart p q) :=
  decidable_of_iff _ apart_iff.symm

end FileSystem

end ImageLabeling
