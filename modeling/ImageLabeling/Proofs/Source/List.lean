import ImageLabeling.Proofs.File.Extension
import ImageLabeling.Proofs.Text.Lines
import ImageLabeling.Proofs.Text.Utf8
import ImageLabeling.Source
import Mathlib

/-!
# The pictures of a list

A list names a picture on each line that is not blank, however it is laid out. The path of an entry
is the entry as seen from the data root, with an extension if its last name has none
(`IsEntryPath`); names with an extension are read back as they were written: `images_of_list`.
-/

namespace ImageLabeling.Source

open FilePath (slash dot)

/-! ## Paths of entries -/

theorem slash_notMem_jpg : slash ∉ Utf8.encode "jpg" := by decide

/-- The path that the entry `e` stands for below `root`. -/
structure IsEntryPath (root e p : FilePath) : Prop where
  alone : e.isAbsolute = true ∨ root.bytes = [] → root.join e = e
  relative : e.isAbsolute = false → root.bytes ≠ [] →
    (root.join e).components = root.components ++ e.components.filter (· ≠ .here)
  /-- A last name without an extension gets one, and nothing is left behind it. -/
  bare : ∀ name, (root.join e).components.getLast? = some (.name name) → dot ∉ name.tail →
    p.components = (root.join e).components.dropLast ++ [.name (name ++ Utf8.encode ".jpg")] ∧
    ∃ start after, (root.join e).EndsWith start name after ∧
      p.bytes = start ++ name ++ Utf8.encode ".jpg"
  /-- A path with an extension, or without a last name, stays. -/
  other : (∀ name, (root.join e).components.getLast? = some (.name name) → dot ∈ name.tail) →
    p = root.join e
  extended : ∀ name, p.components.getLast? = some (.name name) →
    ∃ extension, p.extension? = some extension

theorem isEntryPath (root e : FilePath) :
    IsEntryPath root e ((root.join e).withDefaultExtension "jpg") where
  alone := FilePath.join_eq_right
  relative he hroot := by rw [FilePath.components_join hroot he, FilePath.filter_components he]
  bare name hname hdot := by
    obtain ⟨start, after, hends, hends'⟩ := FilePath.exists_endsWith_withDefaultExtension
      (FilePath.fileName?_eq_some_iff.2 hname) hdot slash_notMem_jpg
    refine ⟨?_, start, after, hends, ?_⟩
    · rw [hends'.components_eq, hends.components_eq, List.dropLast_concat]
      rfl
    · rw [hends'.bytes_eq, List.append_nil, ← List.append_assoc]
      rfl
  other h := FilePath.withDefaultExtension_self
    (fun name hname => h name (FilePath.fileName?_eq_some_iff.1 hname)) "jpg"
  extended name hname := by
    rw [← Option.isSome_iff_exists, FilePath.extension?_isSome_iff]
    have hfile := FilePath.fileName?_eq_some_iff.2 hname
    exact ⟨name, hfile, FilePath.dot_mem_of_withDefaultExtension slash_notMem_jpg hfile⟩

/-- Every line that is not blank has its path. -/
theorem forall₂_listPaths (root : FilePath) (text : List Char) :
    List.Forall₂
      (fun line => IsEntryPath root (.ofString (String.ofList (Text.trimChars line))))
      ((Text.lines text).filter fun line => Text.trimChars line ≠ []) (listPaths root text) := by
  rw [listPaths, List.filter_map, List.map_map, List.forall₂_map_right_iff]
  refine List.forall₂_same.2 fun line _ => ?_
  rw [Function.comp_apply, entryPath]
  exact isEntryPath root (.ofString (String.ofList (Text.trimChars line)))

/-! ## Names in a list -/

/-- A name that a line can hold as it is, with an extension. -/
structure IsListName (name : String) : Prop where
  extension : (FilePath.ofString name).extension?.isSome = true
  line : '\n' ∉ name.toList
  head : ∀ c ∈ name.toList.head?, Text.isBlank c = false
  last : ∀ c ∈ name.toList.getLast?, Text.isBlank c = false

theorem IsListName.ne_nil {name : String} (h : IsListName name) : name.toList ≠ [] := by
  intro hnil
  have hname : name = "" := String.toList_eq_nil_iff.1 hnil
  have := h.extension
  rw [hname] at this
  exact absurd this (by decide)

/-- A name with an extension stands for itself. -/
theorem entryPath_of_isListName {name : String} (h : IsListName name) (root : FilePath) :
    entryPath root name.toList = root.join (.ofString name) := by
  obtain ⟨last, hlast, hdot⟩ := FilePath.extension?_isSome_iff.1 h.extension
  rw [entryPath, String.ofList_toList]
  refine FilePath.withDefaultExtension_self (fun name hname => ?_) "jpg"
  rw [FilePath.fileName?_join root hlast, Option.some.injEq] at hname
  exact hname ▸ hdot

theorem listPaths_eq (root : FilePath) (text : List Char) :
    listPaths root text = (Text.entries text).map (entryPath root) := by
  rw [listPaths, Text.entries_eq]

theorem listPaths_written {names : List String} (h : ∀ name ∈ names, IsListName name)
    (root : FilePath) :
    listPaths root (names.flatMap fun name => name.toList ++ ['\n']) =
      names.map fun name => root.join (.ofString name) := by
  have hentries : Text.entries ((names.map String.toList).flatMap (· ++ ['\n'])) =
      names.map String.toList := by
    refine Text.entries_written fun line hline => ?_
    obtain ⟨name, hname, rfl⟩ := List.mem_map.1 hline
    have hname := h name hname
    exact ⟨hname.line, hname.ne_nil, Text.trimChars_self hname.head hname.last⟩
  rw [List.flatMap_map] at hentries
  rw [listPaths_eq, hentries, List.map_map]
  refine List.map_congr_left fun name hname => ?_
  rw [Function.comp_apply, entryPath_of_isListName (h name hname)]

/-! ## Lists -/

theorem images_of_content {fs : FileSystem} {path : FilePath} {text : String}
    (h : fs.content? path = some (.bytes (Utf8.encode text))) (root : FilePath) :
    images fs (.list path root) = ([], .ok (listPaths root text.toList)) := by
  simp only [images, h, Utf8.text?_encode]

/-- **The pictures of a list.** A list that is text has one path for each line that is not blank, in
the order of the lines, and every other layout of the text has the same paths. Names with an
extension, written one to a line, are read back below the data root; without a data root, that is
the directory of the list. -/
theorem images_of_list {fs : FileSystem} {path : FilePath} {text : String} (root : FilePath)
    (h : fs.content? path = some (.bytes (Utf8.encode text))) :
    ∃ paths, images fs (.list path root) = ([], .ok paths) ∧
      List.Forall₂
        (fun line => IsEntryPath root (.ofString (String.ofList (Text.trimChars line))))
        ((Text.lines text.toList).filter fun line => Text.trimChars line ≠ []) paths ∧
      paths.length =
        ((Text.lines text.toList).filter fun line => Text.trimChars line ≠ []).length ∧
      (∀ fs' path' text', Text.Relaid text.toList text'.toList →
        fs'.content? path' = some (.bytes (Utf8.encode text')) →
        images fs' (.list path' root) = ([], .ok paths)) ∧
      (∀ names : List String, (∀ name ∈ names, IsListName name) →
        text.toList = names.flatMap (fun name => name.toList ++ ['\n']) →
        paths = names.map fun name => root.join (.ofString name)) ∧
      ofFlags none (some path) (some root) = .ok (.list path root) ∧
      ∃ directory, ofFlags none (some path) none = .ok (.list path directory) ∧
        directory.components = path.components.dropLast := by
  have hpaths := forall₂_listPaths root text.toList
  refine ⟨_, images_of_content h root, hpaths, hpaths.length_eq.symm,
    fun fs' path' text' hrelaid h' => ?_, fun names hnames htext => ?_, rfl,
    _, rfl, FilePath.components_parent path⟩
  · rw [images_of_content h' root, listPaths_eq, listPaths_eq, hrelaid.entries]
  · rw [htext, listPaths_written hnames]

example : listPaths (.ofString "/data/cihp") "person_1/.\n\n  sub/person_2.png  \r\n".toList =
    [.ofString "/data/cihp/person_1.jpg", .ofString "/data/cihp/sub/person_2.png"] := by
  decide +kernel

/-- A directory with one list. -/
def listDirectory (text : String) : FileSystem where
  entries := Table.empty.put [Utf8.encode "val.txt"] (.file (.bytes (Utf8.encode text)))
  working := []

/-- Two names in a list, and the same list with carriage returns. -/
theorem images_of_list_two :
    (listDirectory "a.png\nb/c.png\n").content? (.ofString "val.txt") =
      some (.bytes (Utf8.encode "a.png\nb/c.png\n")) ∧
    images (listDirectory "a.png\r\nb/c.png\r\n") (.list (.ofString "val.txt") (.ofString "/d")) =
      ([], .ok [.ofString "/d/a.png", .ofString "/d/b/c.png"]) := by
  have hcontent : ∀ text : String, (listDirectory text).content? (.ofString "val.txt") =
      some (.bytes (Utf8.encode text)) := fun text => by rfl
  have hnames : ∀ name ∈ ["a.png", "b/c.png"], IsListName name := by
    intro name hname
    simp only [List.mem_cons, List.not_mem_nil, or_false] at hname
    rcases hname with rfl | rfl
    all_goals
      refine ⟨by decide, by decide, ?_, ?_⟩
      all_goals
        rintro c ⟨⟩
        decide
  obtain ⟨paths, -, -, -, hrelaid, hwritten, -⟩ :=
    images_of_list (.ofString "/d") (hcontent "a.png\nb/c.png\n")
  have hreturns : Text.Relaid "a.png\nb/c.png\n".toList "a.png\r\nb/c.png\r\n".toList :=
    .returns "a.png\nb/c.png\n".toList
  refine ⟨hcontent _, ?_⟩
  rw [hrelaid _ _ _ hreturns (hcontent _), hwritten _ hnames (by decide)]
  rfl

end ImageLabeling.Source
