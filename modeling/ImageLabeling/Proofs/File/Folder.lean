import ImageLabeling.Proofs.File.Name
import ImageLabeling.Proofs.File.Tree

/-!
# Entries of one directory

Making directories adds directories where nothing stood and changes nothing else (`Deepened`). A
path to a name in a directory leads to the entry of that name or to nothing, as long as the entry is
no link (`resolve_join`). So files that are opened for writing by names in one directory
(`Opened`) are entries of that directory, and everything else stays as it was
(`Opened.confined`).
-/

namespace ImageLabeling

/-- Whether an entry leads elsewhere. -/
def FileEntry.isLink : FileEntry → Bool
  | link _ => true
  | directory | file _ => false

namespace FileSystem

variable {fs fs' : FileSystem}

/-! ## Making directories -/

/-- Directories were made where nothing stood, and nothing else changed. -/
structure Deepened (fs fs' : FileSystem) : Prop where
  working : fs'.working = fs.working
  entry : ∀ place, fs'.lookup? place = fs.lookup? place ∨
    fs.lookup? place = none ∧ fs'.lookup? place = some .directory

theorem Deepened.refl (fs : FileSystem) : Deepened fs fs :=
  ⟨rfl, fun _ => .inl rfl⟩

theorem Deepened.trans {fs'' : FileSystem} (h : Deepened fs fs') (h' : Deepened fs' fs'') :
    Deepened fs fs'' := by
  refine ⟨h'.working.trans h.working, fun place => ?_⟩
  rcases h'.entry place with hsame' | ⟨hnone', hmade'⟩
  · rw [hsame']
    exact h.entry place
  · rcases h.entry place with hsame | ⟨hnone, -⟩
    · exact .inr ⟨hsame.symm.trans hnone', hmade'⟩
    · exact .inr ⟨hnone, hmade'⟩

/-- Entries other than directories are the same. -/
theorem Deepened.lookup?_iff (h : Deepened fs fs') {place : Location} {entry : FileEntry}
    (hentry : entry ≠ .directory) :
    fs'.lookup? place = some entry ↔ fs.lookup? place = some entry := by
  rcases h.entry place with hsame | ⟨hnone, hmade⟩
  · rw [hsame]
  · rw [hnone, hmade]
    constructor
    · intro hdirectory
      exact absurd (Option.some.inj hdirectory).symm hentry
    · intro hother
      cases hother

theorem Deepened.extends (h : Deepened fs fs') : Extends fs fs' where
  working := h.working
  directory place hdirectory := by
    rcases h.entry place with hsame | ⟨-, hmade⟩
    · rw [hsame, hdirectory]
    · exact hmade
  link _ _ := h.lookup?_iff FileEntry.noConfusion

theorem deepened_makeDirectory {path : FilePath} (h : fs.makeDirectory path = .ok fs') :
    Deepened fs fs' := by
  unfold FileSystem.makeDirectory at h
  extract_lets slashless at h
  generalize (if slashless.bytes = [] then path else slashless) = bare at h
  cases hplace : fs.resolve false bare with
  | error fault =>
    rw [hplace] at h
    cases h
  | ok place =>
    rw [hplace] at h
    change (if (fs.lookup? place).isSome then Except.error PathFault.exists
      else .ok (fs.put place .directory)) = .ok fs' at h
    split at h
    · cases h
    · rename_i hnone
      cases h
      have hnone : fs.lookup? place = none := by simpa using hnone
      have hroot : place ≠ [] := by
        rintro rfl
        rw [fs.lookup?_root] at hnone
        cases hnone
      refine ⟨rfl, fun other => ?_⟩
      rw [lookup?_put _ _ _ hroot]
      split
      · rename_i heq
        exact .inr ⟨heq ▸ hnone, rfl⟩
      · exact .inl rfl

theorem deepened_makeAll (paths : List FilePath) (fs : FileSystem) :
    Deepened fs (fs.makeAll paths).1 := by
  induction paths generalizing fs with
  | nil => exact .refl fs
  | cons path above ih =>
    unfold FileSystem.makeAll
    split
    · exact .refl fs
    · cases hfirst : fs.makeDirectory path with
      | ok made => exact deepened_makeDirectory hfirst
      | error fault =>
        cases fault with
        | missing =>
          have habove := ih fs
          rcases hmade : fs.makeAll above with ⟨made, fault | _⟩
          · rw [hmade] at habove
            exact habove
          · rw [hmade] at habove
            dsimp only
            cases hagain : made.makeDirectory path with
            | ok again => exact habove.trans (deepened_makeDirectory hagain)
            | error fault => exact habove
        | _ => exact .refl fs

theorem deepened_makeTree (fs : FileSystem) (path : FilePath) :
    Deepened fs (fs.makeTree path).1 :=
  deepened_makeAll path.ancestors fs

/-! ## Names in a directory -/

/-- The place of the directory for names that are joined to a path: the working directory if the
path is empty. -/
def folder? (fs : FileSystem) (path : FilePath) : Option Location :=
  if path.bytes = [] then some fs.working else (fs.resolve true path).toOption

/-- A walk along a name in a directory comes to its entry, or there is a link to follow. -/
structure Enters (fs : FileSystem) (folder : Location) (name : FileName) (last : Location) :
    Prop where
  directory : fs.lookup? folder = some .directory
  entry : last = folder ++ [name] ∨ ∃ target, fs.lookup? (folder ++ [name]) = some (.link target)

section Walks

variable {jump : Location → List (List UInt8) → Except PathFault Location} {links : Nat}
  {name : FileName} {place folder last : Location} {pieces : List (List UInt8)}

/-- A walk that ends with a name comes to a directory first. It leads to the entry of that name
there, unless that is a link. -/
theorem descend_name (hname : FilePath.IsName name)
    (hjump : ∀ place pieces last, jump place (pieces ++ [name]) = .ok last →
      ∃ folder, jump place pieces = .ok folder ∧ fs.Enters folder name last)
    (h : fs.descend true jump place (pieces ++ [name]) = .ok last) :
    ∃ folder, fs.descend true jump place pieces = .ok folder ∧ fs.Enters folder name last := by
  fun_induction descend fs true jump place pieces with
  | case1 place =>
    refine ⟨place, rfl, ?_⟩
    simp only [List.nil_append, descend, hname.nonblank, hname.ne_up, if_false] at h
    split at h
    case h_1 | h_3 => cases h
    case h_2 hdirectory =>
      refine ⟨hdirectory, ?_⟩
      simp only [Bool.false_eq_true, if_false] at h
      split at h
      · cases h
      · split at h
        case h_1 target hlink => exact .inr ⟨target, hlink⟩
        case h_2 =>
          cases h
          exact .inl rfl
  | case2 place piece rest hnone =>
    simp only [List.cons_append, descend, hnone] at h
    cases h
  | case3 place piece rest hdirectory hblank ih =>
    simp only [List.cons_append, descend, hdirectory, hblank, if_true] at h
    exact ih h
  | case4 place rest hdirectory hblank ih =>
    simp only [List.cons_append, descend, hdirectory, hblank, if_true] at h
    exact ih h
  | case5 place piece rest hdirectory hblank hup hlength =>
    simp only [List.cons_append, descend, hdirectory, hblank, hup, hlength, if_true] at h
    cases h
  | case6 place piece rest hdirectory hblank hup hlength target hlink hend => cases hend.2
  | case7 place piece rest hdirectory hblank hup hlength target hlink hend htarget =>
    simp only [List.cons_append, descend, hdirectory, hblank, hup, hlength, hlink, htarget,
      if_false, if_true, Bool.true_eq_false, and_false] at h
    cases h
  | case8 place piece rest hdirectory hblank hup hlength target hlink hend htarget =>
    simp only [List.cons_append, descend, hdirectory, hblank, hup, hlength, hlink, htarget,
      if_false, Bool.true_eq_false, and_false, ← List.append_assoc] at h
    exact hjump _ _ _ h
  | case9 place piece rest hdirectory hblank hup hlength hsolid ih =>
    simp only [List.cons_append, descend, hdirectory, hblank, hup, hlength, if_false] at h
    exact ih h
  | case10 place piece rest entry hne hentry =>
    rw [List.cons_append, descend, hentry] at h
    cases entry with
    | directory => exact absurd rfl hne
    | file | link => cases h

/-- What names nothing can be added to a walk that comes to a directory. -/
theorem descend_blank
    (hjump : ∀ place pieces folder, jump place pieces = .ok folder →
      fs.lookup? folder = some .directory → jump place (pieces ++ [[]]) = .ok folder)
    (h : fs.descend true jump place pieces = .ok folder)
    (hfolder : fs.lookup? folder = some .directory) :
    fs.descend true jump place (pieces ++ [[]]) = .ok folder := by
  fun_induction descend fs true jump place pieces with
  | case1 place =>
    cases h
    simp only [List.nil_append, descend, hfolder, FilePath.isBlankPiece]
    rfl
  | case2 | case5 | case7 | case10 => cases h
  | case3 place piece rest hdirectory hblank ih =>
    simp only [List.cons_append, descend, hdirectory, hblank, if_true]
    exact ih h
  | case4 place rest hdirectory hblank ih =>
    simp only [List.cons_append, descend, hdirectory, hblank, if_true]
    exact ih h
  | case6 place piece rest hdirectory hblank hup hlength target hlink hend => cases hend.2
  | case8 place piece rest hdirectory hblank hup hlength target hlink hend htarget =>
    simp only [List.cons_append, descend, hdirectory, hblank, hup, hlength, hlink, htarget,
      if_false, Bool.true_eq_false, and_false, ← List.append_assoc]
    exact hjump _ _ _ h hfolder
  | case9 place piece rest hdirectory hblank hup hlength hsolid ih =>
    simp only [List.cons_append, descend, hdirectory, hblank, hup, hlength, if_false]
    exact ih h

theorem walk_name (hname : FilePath.IsName name)
    (h : fs.walk true links place (pieces ++ [name]) = .ok last) :
    ∃ folder, fs.walk true links place pieces = .ok folder ∧ fs.Enters folder name last := by
  induction links generalizing place pieces last with
  | zero =>
    refine descend_name hname (fun _ _ _ hjump => ?_) h
    cases hjump
  | succ links ih =>
    refine descend_name hname (fun place pieces last hjump => ?_) h
    exact ih hjump

theorem walk_blank (h : fs.walk true links place pieces = .ok folder)
    (hfolder : fs.lookup? folder = some .directory) :
    fs.walk true links place (pieces ++ [[]]) = .ok folder := by
  induction links generalizing place pieces folder with
  | zero =>
    refine descend_blank (fun _ _ _ hjump => ?_) h hfolder
    cases hjump
  | succ links ih => exact descend_blank (fun _ _ _ hjump hfolder => ih hjump hfolder) h hfolder

theorem walk_nil (follow : Bool) : fs.walk follow links place [] = .ok place := by
  cases links <;> rfl

/-- A slash at the end of a path to a directory makes no difference. -/
theorem resolve_of_walk {path : FilePath} {start : List UInt8}
    (hbytes : path.bytes = start ++ [FilePath.slash] ∨ path.bytes = start ∧ start ≠ [])
    (hlength : start.length + 1 < maxPathLength) (hzero : 0 ∉ start)
    (hwalk : fs.walk true maxLinks (if path.isAbsolute then [] else fs.working)
      (FilePath.splitSlash start) = .ok folder)
    (hfolder : fs.lookup? folder = some .directory) : fs.resolve true path = .ok folder := by
  rw [resolve_eq_ok_iff]
  rcases hbytes with hbytes | ⟨hbytes, hstart⟩
  · rw [hbytes]
    refine ⟨⟨by simp, by simpa using hlength, ?_⟩, ?_⟩
    · simp [hzero, FilePath.slash]
    · rw [FilePath.splitSlash, List.splitOn_append_cons_self]
      exact walk_blank hwalk hfolder
  · rw [hbytes]
    exact ⟨⟨hstart, by omega, hzero⟩, hwalk⟩

/-- A path to a name leads into the directory of that path. -/
theorem resolve_join (hname : FilePath.IsName name) {path : FilePath}
    (h : fs.resolve true (path.join ⟨name⟩) = .ok last) :
    ∃ folder, fs.folder? path = some folder ∧ fs.Enters folder name last := by
  obtain ⟨⟨-, hlength, hzero⟩, hwalk⟩ := resolve_eq_ok_iff.1 h
  rcases hname.join path with ⟨hnil, hjoin⟩ | ⟨start, hjoin, hbytes⟩
  · -- a name in the working directory
    rw [hjoin, hname.relative, hname.splitSlash, ← List.nil_append [name]] at hwalk
    obtain ⟨folder, hfolder, henters⟩ := walk_name hname hwalk
    rw [walk_nil] at hfolder
    cases hfolder
    exact ⟨fs.working, if_pos hnil, henters⟩
  · -- the last of several pieces
    rw [hjoin] at hlength hzero
    simp only [List.length_append, List.length_cons, List.mem_append, List.mem_cons,
      not_or] at hlength hzero
    rw [hjoin, FilePath.isAbsolute_join hbytes, FilePath.splitSlash,
      List.splitOn_append_cons_self, ← FilePath.splitSlash, ← FilePath.splitSlash,
      hname.splitSlash] at hwalk
    obtain ⟨folder, hfolder, henters⟩ := walk_name hname hwalk
    have hresolve : fs.resolve true path = .ok folder :=
      resolve_of_walk hbytes (by omega) hzero.1 hfolder henters.directory
    have hnil : path.bytes ≠ [] := (resolve_eq_ok_iff.1 hresolve).1.1
    refine ⟨folder, ?_, henters⟩
    rw [folder?, if_neg hnil, hresolve]
    rfl

end Walks

/-! ## Files opened in a directory -/

/-- What the files can be after some of these paths were opened for writing: every change puts a
file where one of them led when it was opened. -/
inductive Opened (paths : List FilePath) (fs : FileSystem) : FileSystem → Prop
  | start : Opened paths fs fs
  | put {earlier current : FileSystem} {path : FilePath} {place : Location}
    (content : FileContent) (hearlier : Opened paths fs earlier) (hpath : path ∈ paths)
    (hplace : earlier.writeLocation path = .ok place) (hcurrent : Opened paths fs current) :
    Opened paths fs (current.put place (.file content))

theorem Opened.mono {paths more : List FilePath} (h : Opened paths fs fs') (hmore : paths ⊆ more) :
    Opened more fs fs' := by
  induction h with
  | start => exact .start
  | put content _ hpath hplace _ ihearlier ihcurrent =>
    exact .put content ihearlier (hmore hpath) hplace ihcurrent

/-- A log is written where its path led when it was opened. -/
theorem Opened.finish {paths : List FilePath} {path : FilePath} {log : Timing.Log}
    (h : Opened paths fs fs') (hpath : path ∈ paths)
    (hplace : fs.writeLocation path = .ok log.location) : Opened paths fs (log.finish fs') := by
  unfold Timing.Log.finish
  split
  · exact .put _ .start hpath hplace h
  · exact h

theorem Opened.write {paths : List FilePath} {path : FilePath} {content : FileContent}
    {after : FileSystem} (h : Opened paths fs fs') (hpath : path ∈ paths)
    (hwrite : fs'.write path content = .ok after) : Opened paths fs after := by
  unfold FileSystem.write at hwrite
  cases hplace : fs'.writeLocation path with
  | error fault =>
    rw [hplace] at hwrite
    cases hwrite
  | ok place =>
    rw [hplace] at hwrite
    cases hwrite
    exact h.put content hpath hplace h

theorem create_eq_ok_inv {path : FilePath} {log : Timing.Log}
    (h : Timing.Log.create fs path = .ok (fs', log)) :
    fs.writeLocation path = .ok log.location ∧
      fs' = fs.put log.location (.file (.bytes [])) := by
  obtain ⟨place, hplace, rfl, rfl⟩ := Timing.Log.create_eq_ok_iff.1 h
  exact ⟨hplace, rfl⟩

/-- The entry is in the directory of the path, under one of the names. -/
def Names (fs : FileSystem) (path : FilePath) (names : List FileName) (place : Location) : Prop :=
  ∃ folder, fs.folder? path = some folder ∧ ∃ name ∈ names, place = folder ++ [name]

/-- No entry of the directory of the path is a link. -/
def Unlinked (fs : FileSystem) (path : FilePath) : Prop :=
  ∀ folder, fs.folder? path = some folder →
    ∀ name target, fs.lookup? (folder ++ [name]) ≠ some (.link target)

/-- It is enough that the table has no links. -/
theorem unlinked_of_rows (h : ∀ row ∈ fs.entries.rows, row.2.isLink = false) (path : FilePath) :
    fs.Unlinked path := by
  intro folder _ name target hlink
  rw [lookup?, if_neg (by simp)] at hlink
  cases h _ (Table.mem_of_get?_eq_some hlink)

theorem SameTree.writable {place : Location} (h : SameTree fs fs') (hplace : fs.Writable place) :
    fs'.Writable place := by
  refine ⟨(h.directory _).2 hplace.parent, fun entry hentry => ?_⟩
  have hfile : ∀ other, fs.lookup? place = some other → (∀ content, other ≠ .file content) →
      False := by
    intro other hother hne
    obtain ⟨content, hcontent⟩ := hplace.vacant other hother
    exact hne content hcontent
  cases entry with
  | file content => exact ⟨content, rfl⟩
  | directory => exact (hfile _ ((h.directory _).1 hentry) fun _ => FileEntry.noConfusion).elim
  | link target => exact (hfile _ ((h.link _ _).1 hentry) fun _ => FileEntry.noConfusion).elim

/-- A name in a directory without links is written in that directory. -/
theorem Unlinked.writable {path : FilePath} {names : List FileName} {name : FileName}
    {place : Location} (h : fs.Unlinked path) (hname : FilePath.IsName name) (hmem : name ∈ names)
    (hplace : fs.writePlace? (path.join ⟨name⟩) = some place) :
    fs.Writable place ∧ fs.Names path names place := by
  obtain ⟨hresolve, hdirectory⟩ := writePlace?_eq_some_iff.1 hplace
  obtain ⟨folder, hfolder, hparent, rfl | ⟨target, hlink⟩⟩ := resolve_join hname hresolve
  · refine ⟨⟨?_, fun entry hentry => ?_⟩, folder, hfolder, name, hmem, rfl⟩
    · rwa [List.dropLast_concat]
    · cases entry with
      | file content => exact ⟨content, rfl⟩
      | directory => exact absurd hentry hdirectory
      | link target => exact absurd hentry (h folder hfolder name target)
  · exact absurd hlink (h folder hfolder name target)

/-- **What is opened by names in a directory without links stays in that directory.** -/
theorem Opened.confined {path : FilePath} {names : List FileName}
    (hnames : ∀ name ∈ names, FilePath.IsName name) (hlinks : fs.Unlinked path)
    (h : Opened (names.map fun name => path.join ⟨name⟩) fs fs') :
    fs.SameTree fs' ∧ ∀ place, ¬ fs.Names path names place →
      fs'.lookup? place = fs.lookup? place := by
  induction h with
  | start => exact ⟨.refl fs, fun _ _ => rfl⟩
  | @put earlier current opened place content _ hpath hplace _ ihearlier ihcurrent =>
    obtain ⟨name, hmem, rfl⟩ := List.mem_map.1 hpath
    have hplace : fs.writePlace? (path.join ⟨name⟩) = some place := by
      rw [← ihearlier.1.writePlace?, writePlace?, hplace]
      rfl
    obtain ⟨hwritable, hname⟩ := hlinks.writable (hnames name hmem) hmem hplace
    obtain ⟨htree, hsame⟩ := ihcurrent
    have hcurrent := htree.writable hwritable
    refine ⟨htree.trans (hcurrent.sameTree content), fun other hother => ?_⟩
    rw [lookup?_put _ _ _ hcurrent.ne_root, if_neg, hsame other hother]
    rintro rfl
    exact hother hname

end FileSystem

end ImageLabeling
