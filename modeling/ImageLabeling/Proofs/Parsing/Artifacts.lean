import ImageLabeling.Proofs.Parsing.Saving
import ImageLabeling.Proofs.Text.Utf8

/-!
# The files of a parsing run

The results of an image are named after its stem, so they are told apart from those of another
image exactly if the stems differ (`coloursPath_inj`, `labelsPath_inj`), and the two kinds of
results never have the same name. Within a run the last image with a stem keeps its files
(`KeepsLast`), and every image keeps its own exactly if no two stems are the same
(`artifacts_of_run`).
-/

namespace ImageLabeling

/-! ## Names -/

namespace FilePath

/-- The entries of a directory are named after what begins every path in it. -/
theorem child_eq_append (p : FilePath) : ∃ start, ∀ name, (ofString name).isAbsolute = false →
    p.child name = ⟨start ++ Utf8.encode name⟩ := by
  by_cases h : p.bytes = [] ∨ p.bytes.getLast? = some slash
  · refine ⟨p.bytes, fun name hname => ?_⟩
    rw [child, join, hname, if_pos h]
    rfl
  · refine ⟨p.bytes ++ [slash], fun name hname => ?_⟩
    rw [child, join, hname, if_neg h]
    simp [ofString]

theorem child_inj {p : FilePath} {a b : String} (ha : (ofString a).isAbsolute = false)
    (hb : (ofString b).isAbsolute = false) (h : p.child a = p.child b) : a = b := by
  obtain ⟨start, hchild⟩ := p.child_eq_append
  rw [hchild a ha, hchild b hb, FilePath.mk.injEq] at h
  exact Utf8.encode_injective (List.append_cancel_left h)

/-- The text begins with byte `b`, which is not a slash. -/
structure Begins (b : UInt8) (lead : String) : Prop where
  head : ∃ rest, Utf8.encode lead = b :: rest
  ne_slash : b ≠ slash

variable {p : FilePath} {b b' : UInt8} {lead lead' : String}

/-- A name that begins so is not a path from the root. -/
theorem Begins.relative (h : Begins b lead) (name : String) :
    (ofString (lead ++ name)).isAbsolute = false := by
  obtain ⟨rest, hrest⟩ := h.head
  simp [isAbsolute, ofString, Utf8.encode_append, hrest, h.ne_slash]

theorem Begins.child_inj (h : Begins b lead) {x y : String}
    (heq : p.child (lead ++ x) = p.child (lead ++ y)) : x = y := by
  have happend := FilePath.child_inj (h.relative x) (h.relative y) heq
  simpa using happend

/-- Names whose first bytes differ lead to different entries. -/
theorem Begins.child_ne (h : Begins b lead) (h' : Begins b' lead') (hne : b ≠ b')
    (x y : String) : p.child (lead ++ x) ≠ p.child (lead' ++ y) := by
  intro heq
  obtain ⟨rest, hrest⟩ := h.head
  obtain ⟨rest', hrest'⟩ := h'.head
  have hbytes := congrArg Utf8.encode (FilePath.child_inj (h.relative x) (h'.relative y) heq)
  rw [Utf8.encode_append, Utf8.encode_append, hrest, hrest'] at hbytes
  exact hne (List.cons.inj hbytes).1

end FilePath

namespace Parsing

open Session

variable {σ : Type} {job : Job}

theorem coloursPath_eq (job : Job) (path : FilePath) :
    coloursPath job path =
      job.outputDirectory.child ("parsed_" ++ (Source.stem path ++ ".png")) := by
  rw [coloursPath, ← String.append_assoc]
  rfl

theorem labelsPath_eq (job : Job) (path : FilePath) :
    labelsPath job path = job.outputDirectory.child ("label_" ++ (Source.stem path ++ ".png")) := by
  rw [labelsPath, ← String.append_assoc]
  rfl

theorem timingPath_eq (job : Job) (device : Device) :
    timingPath job device =
      job.outputDirectory.child ("time_parsing_" ++ (device.name ++ ".txt")) := by
  rw [timingPath, ← String.append_assoc]
  rfl

theorem begins_parsed : FilePath.Begins 0x70 "parsed_" :=
  ⟨⟨Utf8.encode "arsed_", by decide +kernel⟩, by decide⟩

theorem begins_label : FilePath.Begins 0x6c "label_" :=
  ⟨⟨Utf8.encode "abel_", by decide +kernel⟩, by decide⟩

theorem begins_time : FilePath.Begins 0x74 "time_parsing_" :=
  ⟨⟨Utf8.encode "ime_parsing_", by decide +kernel⟩, by decide⟩

/-- Results of the same kind have the same name exactly if the stems are the same. -/
theorem coloursPath_inj {a b : FilePath} :
    coloursPath job a = coloursPath job b ↔ Source.stem a = Source.stem b := by
  rw [coloursPath_eq, coloursPath_eq]
  constructor
  · intro h
    simpa using begins_parsed.child_inj h
  · intro h
    rw [h]

theorem labelsPath_inj {a b : FilePath} :
    labelsPath job a = labelsPath job b ↔ Source.stem a = Source.stem b := by
  rw [labelsPath_eq, labelsPath_eq]
  constructor
  · intro h
    simpa using begins_label.child_inj h
  · intro h
    rw [h]

theorem nodup_coloursPath_iff (job : Job) (done : List (Turn σ Progress)) :
    (done.map fun turn => coloursPath job turn.path).Nodup ↔
      (done.map fun turn => Source.stem turn.path).Nodup := by
  simp only [List.Nodup, List.pairwise_map, ne_eq, coloursPath_inj]

theorem nodup_labelsPath_iff (job : Job) (done : List (Turn σ Progress)) :
    (done.map fun turn => labelsPath job turn.path).Nodup ↔
      (done.map fun turn => Source.stem turn.path).Nodup := by
  simp only [List.Nodup, List.pairwise_map, ne_eq, labelsPath_inj]

theorem coloursPath_ne_labelsPath (a b : FilePath) : coloursPath job a ≠ labelsPath job b := by
  rw [coloursPath_eq, labelsPath_eq]
  exact begins_parsed.child_ne begins_label (by decide) _ _

theorem timingPath_ne_coloursPath (device : Device) (a : FilePath) :
    timingPath job device ≠ coloursPath job a := by
  rw [timingPath_eq, coloursPath_eq]
  exact begins_time.child_ne begins_parsed (by decide) _ _

theorem timingPath_ne_labelsPath (device : Device) (a : FilePath) :
    timingPath job device ≠ labelsPath job a := by
  rw [timingPath_eq, labelsPath_eq]
  exact begins_time.child_ne begins_label (by decide) _ _

/-! ## One image -/

/-- The two files of an image hold the pictures of a label map. -/
structure Holds (job : Job) (files : FileSystem) (path : FilePath) (labels : LabelMap) :
    Prop where
  colours : files.find? (coloursPath job path) = some (.file (coloursContent labels))
  labels : files.find? (labelsPath job path) = some (.file (labelsContent labels))

/-- Paths that lead to the same place are the same. -/
def Unaliased (fs : FileSystem) (paths : List FilePath) : Prop :=
  ∀ p ∈ paths, ∀ q ∈ paths, ∀ place, fs.resolve true p = .ok place →
    fs.resolve true q = .ok place → p = q

theorem Unaliased.mono {fs : FileSystem} {paths fewer : List FilePath} (h : Unaliased fs paths)
    (hfewer : fewer ⊆ paths) : Unaliased fs fewer :=
  fun p hp q hq => h p (hfewer hp) q (hfewer hq)

theorem Unaliased.sameTree {fs fs' : FileSystem} {paths : List FilePath} (h : Unaliased fs paths)
    (htree : fs.SameTree fs') : Unaliased fs' paths := by
  intro p hp q hq place hplace hplace'
  exact h p hp q hq place (htree.resolve_iff.1 hplace) (htree.resolve_iff.1 hplace')

/-- The files for the results of images. -/
def artifactPaths (job : Job) (images : List FilePath) : List FilePath :=
  images.flatMap fun path => [coloursPath job path, labelsPath job path]

theorem artifactPaths_append (images images' : List FilePath) :
    artifactPaths job (images ++ images') = artifactPaths job images ++ artifactPaths job images' :=
  List.flatMap_append

theorem coloursPath_mem {images : List FilePath} {path : FilePath} (h : path ∈ images) :
    coloursPath job path ∈ artifactPaths job images :=
  List.mem_flatMap.2 ⟨path, h, List.mem_cons_self ..⟩

theorem labelsPath_mem {images : List FilePath} {path : FilePath} (h : path ∈ images) :
    labelsPath job path ∈ artifactPaths job images :=
  List.mem_flatMap.2 ⟨path, h, List.mem_cons_of_mem _ (List.mem_cons_self ..)⟩

section

variable [Resizer] {path : FilePath} {s : Session σ} {r : Except Fault Parsed}
  {files : FileSystem}

/-- Files that are in another place than the results of an image stay as they were. -/
theorem Outcome.find?_of_ne (h : Outcome job path s r files) (hfs : s.files.Grounded)
    {other : FilePath}
    (hcolours : ∀ place, s.files.resolve true other = .ok place →
      s.files.resolve true (coloursPath job path) ≠ .ok place)
    (hlabels : ∀ place, s.files.resolve true other = .ok place →
      s.files.resolve true (labelsPath job path) ≠ .ok place) :
    files.find? other = s.files.find? other := by
  cases h with
  | unlabelled | unsaved => rfl
  | halfSaved fault labels _ hsome hfirst =>
    obtain ⟨place, hplace, hwritable, rfl⟩ := hfs.write_ok_inv hfirst
    exact hwritable.find?_put_of_ne _ fun h => hcolours place h hplace
  | saved elapsed labels half _ hsome hfirst hsecond =>
    obtain ⟨place, hplace, hwritable, rfl⟩ := hfs.write_ok_inv hfirst
    have htree := hwritable.sameTree (coloursContent labels)
    obtain ⟨place', hplace', hwritable', rfl⟩ := (hfs.put hwritable _).write_ok_inv hsecond
    rw [htree.resolve_iff] at hplace'
    rw [hwritable'.find?_put_of_ne, hwritable.find?_put_of_ne]
    · exact fun h => hcolours place h hplace
    · intro h
      exact hlabels place' (htree.resolve_iff.1 h) hplace'

/-- A saved image holds its results, unless they go to one place. -/
theorem Outcome.holds {parsed : Parsed} (h : Outcome job path s (.ok parsed) files)
    (hfs : s.files.Grounded)
    (hapart : ∀ place, s.files.resolve true (coloursPath job path) = .ok place →
      s.files.resolve true (labelsPath job path) ≠ .ok place) :
    ∃ labels, labelled job path s = some labels ∧ Holds job files path labels := by
  cases h with
  | saved elapsed labels half _ hsome hfirst hsecond =>
    obtain ⟨place, hplace, hwritable, rfl⟩ := hfs.write_ok_inv hfirst
    have htree := hwritable.sameTree (coloursContent labels)
    obtain ⟨place', hplace', hwritable', rfl⟩ := (hfs.put hwritable _).write_ok_inv hsecond
    refine ⟨labels, hsome, ?_, hwritable'.find?_put_self _ hplace'⟩
    rw [hwritable'.find?_put_of_ne, hwritable.find?_put_self _ hplace]
    intro h
    exact hapart place' (htree.resolve_iff.1 h) (htree.resolve_iff.1 hplace')

theorem Outcome.ok_paths {parsed : Parsed} (h : Outcome job path s (.ok parsed) files) :
    parsed.colours = coloursPath job path ∧ parsed.labels = labelsPath job path := by
  cases h with
  | saved =>
    constructor
    · dsimp only
    · dsimp only

/-- An image that fails does not touch results that are already there. -/
theorem Outcome.error_of_file {fault : Fault} (h : Outcome job path s (.error fault) files)
    (hfs : s.files.Grounded) {content : FileContent}
    (hfile : s.files.find? (labelsPath job path) = some (.file content)) : files = s.files := by
  cases h with
  | unlabelled | unsaved => rfl
  | halfSaved _ labels _ hsome hfirst hsecond =>
    obtain ⟨place, hplace, hwritable, rfl⟩ := hfs.write_ok_inv hfirst
    obtain ⟨e, he⟩ := hsecond
    have hstill : ∃ old, (s.files.put place (.file (coloursContent labels))).find?
        (labelsPath job path) = some (.file old) := by
      by_cases hsame : s.files.resolve true (labelsPath job path) = .ok place
      · exact ⟨_, hwritable.find?_put_self _ hsame⟩
      · exact ⟨content, (hwritable.find?_put_of_ne _ hsame).trans hfile⟩
    obtain ⟨old, hold⟩ := hstill
    obtain ⟨after, hafter⟩ := FileSystem.write_of_find? hold (labelsContent labels)
    rw [he] at hafter
    cases hafter

/-- Results that are already there survive an image with another stem. -/
theorem Outcome.holds_of_ne (h : Outcome job path s r files) (hfs : s.files.Grounded)
    {images : List FilePath} (hun : Unaliased s.files (artifactPaths job images))
    {other : FilePath} (hother : other ∈ images) (hpath : path ∈ images)
    (hne : Source.stem path ≠ Source.stem other) {labels : LabelMap}
    (hheld : Holds job s.files other labels) : Holds job files other labels := by
  constructor
  · rw [h.find?_of_ne hfs, hheld.colours]
    · intro place hplace hsame
      exact hne.symm (coloursPath_inj.1
        (hun _ (coloursPath_mem hother) _ (coloursPath_mem hpath) place hplace hsame))
    · intro place hplace hsame
      exact coloursPath_ne_labelsPath _ _
        (hun _ (coloursPath_mem hother) _ (labelsPath_mem hpath) place hplace hsame)
  · rw [h.find?_of_ne hfs, hheld.labels]
    · intro place hplace hsame
      exact coloursPath_ne_labelsPath _ _
        (hun _ (coloursPath_mem hpath) _ (labelsPath_mem hother) place hsame hplace)
    · intro place hplace hsame
      exact hne.symm (labelsPath_inj.1
        (hun _ (labelsPath_mem hother) _ (labelsPath_mem hpath) place hplace hsame))

/-- Results that are already there are lost only to a later image with the same stem. -/
theorem Outcome.keeps (h : Outcome job path s r files) (hfs : s.files.Grounded)
    {images : List FilePath} (hun : Unaliased s.files (artifactPaths job images))
    {other : FilePath} (hother : other ∈ images) (hpath : path ∈ images)
    (hne : ∀ parsed, r = .ok parsed → Source.stem path ≠ Source.stem other) {labels : LabelMap}
    (hheld : Holds job s.files other labels) : Holds job files other labels := by
  by_cases hstem : Source.stem path = Source.stem other
  · cases r with
    | ok parsed => exact absurd hstem (hne parsed rfl)
    | error fault =>
      have hfile := (congrArg _ (labelsPath_inj.2 hstem)).trans hheld.labels
      rwa [h.error_of_file hfs hfile]
  · exact h.holds_of_ne hfs hun hother hpath hstem hheld

/-! ## All images -/

/-- Of the saved images with one stem the last one holds its results. -/
def KeepsLast (job : Job) (done : List (Turn σ Progress)) (files : FileSystem) : Prop :=
  ∀ before turn after, done = before ++ turn :: after → processed job turn = true →
    (∀ later ∈ after, processed job later = true →
      Source.stem later.path ≠ Source.stem turn.path) →
    ∃ labels, labelled job turn.path turn.session = some labels ∧ Holds job files turn.path labels

theorem keepsLast_nil (files : FileSystem) : KeepsLast (σ := σ) job [] files := by
  intro before turn after hsplit
  exact absurd hsplit.symm (by simp)

/-- One more turn takes the results of the images with its stem, if it is saved. -/
theorem KeepsLast.append {done : List (Turn σ Progress)} {progress : Progress}
    (h : KeepsLast job done s.files) (hfs : s.files.Grounded)
    (houtcome : Outcome job path s r files) (hsaves : processed job ⟨path, progress, s⟩ = r.isOk)
    (hun : Unaliased s.files (artifactPaths job (done.map Turn.path ++ [path]))) :
    KeepsLast job (done ++ [⟨path, progress, s⟩]) files := by
  intro before turn after hsplit hsaved hlast
  have hmem : path ∈ done.map Turn.path ++ [path] := by simp
  rcases List.eq_nil_or_concat after with rfl | ⟨after', later, rfl⟩
  · -- the turn is the one that was just made
    obtain ⟨rfl, hturn⟩ := List.append_inj' hsplit rfl
    obtain rfl := List.singleton_inj.1 hturn
    rw [hsaves] at hsaved
    cases r with
    | error fault => cases hsaved
    | ok parsed =>
      refine houtcome.holds hfs fun place hplace hsame => ?_
      exact coloursPath_ne_labelsPath _ _
        (hun _ (coloursPath_mem hmem) _ (labelsPath_mem hmem) place hplace hsame)
  · obtain ⟨rfl, hlater⟩ : done = before ++ turn :: after' ∧
        [(⟨path, progress, s⟩ : Turn σ Progress)] = [later] := by
      rw [List.concat_eq_append, ← List.cons_append, ← List.append_assoc] at hsplit
      exact List.append_inj' hsplit rfl
    obtain rfl := List.singleton_inj.1 hlater
    obtain ⟨labels, hlabels, hheld⟩ :=
      h before turn after' rfl hsaved fun later hlater => hlast later (by simp [hlater])
    have hturn : turn.path ∈ (before ++ turn :: after').map Turn.path ++ [path] := by simp
    refine ⟨labels, hlabels, houtcome.keeps hfs hun hturn hmem ?_ hheld⟩
    rintro parsed rfl
    exact hlast ⟨path, progress, s⟩ (by simp) hsaves

/-- What the turns so far have left behind, in a tree that does not change. -/
structure Recorded (job : Job) (log : Timing.Log) (tree : FileSystem)
    (done : List (Turn σ Progress)) (progress : Progress) (s : Session σ) : Prop where
  grounded : s.files.Grounded
  sameTree : tree.SameTree s.files
  location : progress.log.location = log.location
  colours : progress.outputs.map Parsed.colours =
    (done.filter (processed job)).map fun turn => coloursPath job turn.path
  labels : progress.outputs.map Parsed.labels =
    (done.filter (processed job)).map fun turn => labelsPath job turn.path
  last : Unaliased tree (artifactPaths job (done.map Turn.path)) → KeepsLast job done s.files

theorem Recorded.step {log : Timing.Log} {tree : FileSystem} {done : List (Turn σ Progress)}
    {progress next : Progress} {t : Session σ} (h : Recorded job log tree done progress s)
    (hstep : step job progress path s = (.ok next, t)) :
    Recorded job log tree (done ++ [⟨path, progress, s⟩]) next t := by
  obtain ⟨hlocation, hcases⟩ := step_inv hstep
  obtain ⟨hgrounded, htree⟩ := step_tree hstep h.grounded
  refine ⟨hgrounded, h.sameTree.trans htree, hlocation.trans h.location, ?_, ?_, fun hun => ?_⟩
  · rw [List.filter_append, List.map_append, ← h.colours]
    rcases hcases with ⟨parsed, hsaved, houtcome, houtputs, -⟩ | ⟨fault, hsaved, -, houtputs, -⟩
    · simp [houtputs, hsaved, houtcome.ok_paths.1]
    · simp [houtputs, hsaved]
  · rw [List.filter_append, List.map_append, ← h.labels]
    rcases hcases with ⟨parsed, hsaved, houtcome, houtputs, -⟩ | ⟨fault, hsaved, -, houtputs, -⟩
    · simp [houtputs, hsaved, houtcome.ok_paths.2]
    · simp [houtputs, hsaved]
  · rw [List.map_append] at hun
    have hlast : KeepsLast job done s.files := by
      refine h.last (hun.mono ?_)
      rw [artifactPaths_append]
      exact List.subset_append_left _ _
    have hfiles := hun.sameTree h.sameTree
    rcases hcases with ⟨parsed, hsaved, houtcome, -⟩ | ⟨fault, hsaved, houtcome, -⟩
    · exact hlast.append h.grounded houtcome hsaved hfiles
    · exact hlast.append h.grounded houtcome hsaved hfiles

/-- The timing log, which is written last, takes nobody's results. -/
theorem Recorded.keepsLast_finish {log : Timing.Log} {tree : FileSystem}
    {done : List (Turn σ Progress)} {progress : Progress} {device : Device}
    (h : Recorded job log tree done progress s)
    (hlog : s.files.resolve true (timingPath job device) = .ok progress.log.location)
    (hun : Unaliased s.files (timingPath job device :: artifactPaths job (done.map Turn.path))) :
    KeepsLast job done (progress.log.finish s.files) := by
  intro before turn after hsplit hsaved hlater
  have hmem : turn.path ∈ done.map Turn.path := by simp [hsplit]
  have hresults : Unaliased tree (artifactPaths job (done.map Turn.path)) :=
    (hun.mono (List.subset_cons_self _ _)).sameTree h.sameTree.symm
  obtain ⟨-, hfind⟩ := h.grounded.finish progress.log
  obtain ⟨labels, hlabels, hheld⟩ := h.last hresults before turn after hsplit hsaved hlater
  refine ⟨labels, hlabels, ?_, ?_⟩
  · rw [hfind, hheld.colours]
    intro hplace
    exact timingPath_ne_coloursPath _ _ (hun _ (List.mem_cons_self ..) _
      (List.mem_cons_of_mem _ (coloursPath_mem hmem)) _ hlog hplace)
  · rw [hfind, hheld.labels]
    intro hplace
    exact timingPath_ne_labelsPath _ _ (hun _ (List.mem_cons_self ..) _
      (List.mem_cons_of_mem _ (labelsPath_mem hmem)) _ hlog hplace)

/-- The results of the saved images of a run: no two have the same name, and every image has its
own. -/
structure OneEach (job : Job) (done : List (Turn σ Progress)) (outputs : List Parsed)
    (files : FileSystem) : Prop where
  colours : (outputs.map Parsed.colours).Nodup
  labels : (outputs.map Parsed.labels).Nodup
  apart : ∀ a ∈ outputs, ∀ b ∈ outputs, a.colours ≠ b.labels
  kept : ∀ turn ∈ done, processed job turn = true →
    ∃ labels, labelled job turn.path turn.session = some labels ∧
      Holds job files turn.path labels

/-- In a list without repeated stems every saved image is the last one with its stem. -/
theorem last_of_nodup {done before after : List (Turn σ Progress)} {turn : Turn σ Progress}
    (h : ((done.filter (processed job)).map fun turn => Source.stem turn.path).Nodup)
    (hsplit : done = before ++ turn :: after) (hsaved : processed job turn = true) :
    ∀ later ∈ after, processed job later = true →
      Source.stem later.path ≠ Source.stem turn.path := by
  intro later hlater hsaved' hsame
  rw [hsplit, List.filter_append, List.filter_cons_of_pos hsaved, List.map_append,
    List.map_cons] at h
  have hfresh := (List.nodup_cons.1 (List.nodup_append.1 h).2.1).1
  exact hfresh (List.mem_map.2 ⟨later, List.mem_filter.2 ⟨hlater, hsaved'⟩, hsame⟩)

/-- Without repeated stems every image has its results, under names of their own. -/
theorem oneEach_of_nodup {done : List (Turn σ Progress)} {outputs : List Parsed}
    {files : FileSystem} (hlast : KeepsLast job done files)
    (hcolours : outputs.map Parsed.colours =
      (done.filter (processed job)).map fun turn => coloursPath job turn.path)
    (hlabels : outputs.map Parsed.labels =
      (done.filter (processed job)).map fun turn => labelsPath job turn.path)
    (hnodup : ((done.filter (processed job)).map fun turn => Source.stem turn.path).Nodup) :
    OneEach job done outputs files where
  colours := by
    rw [hcolours]
    exact (nodup_coloursPath_iff _ _).2 hnodup
  labels := by
    rw [hlabels]
    exact (nodup_labelsPath_iff _ _).2 hnodup
  apart a ha b hb := by
    have ha' := List.mem_map_of_mem (f := Parsed.colours) ha
    have hb' := List.mem_map_of_mem (f := Parsed.labels) hb
    rw [hcolours] at ha'
    rw [hlabels] at hb'
    obtain ⟨turn, -, hturn⟩ := List.mem_map.1 ha'
    obtain ⟨turn', -, hturn'⟩ := List.mem_map.1 hb'
    rw [← hturn, ← hturn']
    exact coloursPath_ne_labelsPath _ _
  kept turn hturn hsaved := by
    obtain ⟨before, after, hsplit⟩ := List.append_of_mem hturn
    exact hlast before turn after hsplit hsaved (last_of_nodup hnodup hsplit hsaved)

/-- A run leaves behind what its turns have recorded, and its timing log. -/
theorem recorded_of_run {source : Source} {summary : Summary} {t : Session σ}
    (hfs : s.files.Grounded) (h : run job source s = (.ok summary, t)) :
    ∃ log tree progress v, Recorded job log tree (runTurns job source s) progress v ∧
      v.files.resolve true (timingPath job s.network.device) = .ok progress.log.location ∧
      summary.outputs = progress.outputs ∧ t.files = progress.log.finish v.files := by
  obtain ⟨⟨images, log⟩, u, hstart, -⟩ := bind_ok_inv h
  obtain ⟨_, hfault, -⟩ | ⟨progress, v, hloop, hsummary, hfiles, -⟩ := run_inv hstart h
  · cases hfault
  cases hsummary
  obtain ⟨hgrounded, hnetwork, hlog⟩ := start_inv hstart hfs
  have hbegin : Recorded job log u.files [] { log } u :=
    ⟨hgrounded, .refl _, rfl, rfl, rfl, fun _ => keepsLast_nil _⟩
  have hrecorded : Recorded job log u.files (runTurns job source s) progress v := by
    rw [runTurns_of_start hstart]
    exact turns_induct (fun _ _ _ _ _ _ hdone hstep => hdone.step hstep) hloop hbegin
  refine ⟨log, u.files, progress, v, hrecorded, ?_, rfl, hfiles⟩
  rw [hrecorded.location]
  exact hrecorded.sameTree.resolve hlog

/-- **Every image keeps its results exactly if no two saved images have the same stem**, as long
as different names lead to different files. Of the images with one stem the last keeps them. -/
theorem artifacts_of_run {source : Source} {summary : Summary} {t : Session σ}
    (hfs : s.files.Grounded) (h : run job source s = (.ok summary, t)) :
    let done := runTurns job source s
    let stems := (done.filter (processed job)).map fun turn => Source.stem turn.path
    let names := timingPath job s.network.device :: artifactPaths job (done.map Turn.path)
    summary.outputs.map Parsed.colours =
        (done.filter (processed job)).map (fun turn => coloursPath job turn.path) ∧
      summary.outputs.map Parsed.labels =
        (done.filter (processed job)).map (fun turn => labelsPath job turn.path) ∧
      (OneEach job done summary.outputs t.files → stems.Nodup) ∧
      (Unaliased t.files names →
        (OneEach job done summary.outputs t.files ↔ stems.Nodup) ∧
        KeepsLast job done t.files) := by
  intro done stems names
  obtain ⟨log, tree, progress, v, hrecorded, hlog, houtputs, hfiles⟩ := recorded_of_run hfs h
  have hcolours := hrecorded.colours
  have hlabels := hrecorded.labels
  rw [← houtputs] at hcolours hlabels
  have hstems : OneEach job done summary.outputs t.files → stems.Nodup := by
    intro heach
    have hnodup := heach.colours
    rwa [hcolours, nodup_coloursPath_iff] at hnodup
  refine ⟨hcolours, hlabels, hstems, fun hun => ?_⟩
  have hlast : KeepsLast job done t.files := by
    obtain ⟨hfinal, -⟩ := hrecorded.grounded.finish progress.log
    rw [hfiles] at hun ⊢
    exact hrecorded.keepsLast_finish hlog (hun.sameTree hfinal.symm)
  exact ⟨⟨hstems, oneEach_of_nodup hlast hcolours hlabels⟩, hlast⟩

end

/-- A session with two pictures of one name in two directories, and a list of both. -/
def namesakeSession : Session Unit where
  files := ⟨((((Table.empty.put [Utf8.encode "a"] .directory).put
    [Utf8.encode "a", Utf8.encode "x.png"]
    (.file (.picture ⟨.png, .rgb, .eight, 1, 1, #[0, 0, 0]⟩))).put [Utf8.encode "b"] .directory).put
    [Utf8.encode "b", Utf8.encode "x.png"]
    (.file (.picture ⟨.png, .rgb, .eight, 2, 1, #[0, 0, 0, 0, 0, 0]⟩))).put [Utf8.encode "list"]
    (.file (.bytes (Utf8.encode "a/x.png\nb/x.png"))), []⟩
  network := ⟨.cpu, fun input state =>
    (.ok (Tensor.batch 2 20 1 (input.shape.getD 3 0) fun _ _ _ _ => 0), state)⟩
  state := ()
  clock _ := .zero

theorem grounded_namesakeSession : namesakeSession.files.Grounded :=
  FileSystem.grounded_of_rows (by decide +kernel)

/-- The two images are both reported as saved, under the names of one. -/
theorem artifacts_of_run_namesakes :
    ∃ summary t, run plainJob (.list (.ofString "list") ⟨[]⟩) namesakeSession = (.ok summary, t) ∧
      summary.outputs.length = 2 ∧ summary.failed = 0 ∧
      ¬ OneEach plainJob (runTurns plainJob (.list (.ofString "list") ⟨[]⟩) namesakeSession)
        summary.outputs t.files := by
  have hends : ends (fun summary _ => summary.outputs.map Parsed.colours ==
        [.ofString "out/parsed_x.png", .ofString "out/parsed_x.png"] && summary.failed == 0)
      (run plainJob (.list (.ofString "list") ⟨[]⟩)) namesakeSession = true := by
    decide +kernel
  obtain ⟨summary, t, hrun, hcheck⟩ := ends_inv hends
  simp only [Bool.and_eq_true, beq_iff_eq] at hcheck
  obtain ⟨hnames, hfailed⟩ := hcheck
  obtain ⟨hcolours, -, hstems, -⟩ := artifacts_of_run grounded_namesakeSession hrun
  refine ⟨summary, t, hrun, ?_, hfailed, ?_⟩
  · simpa using congrArg List.length hnames
  · intro heach
    have hnodup := (nodup_coloursPath_iff plainJob _).2 (hstems heach)
    rw [← hcolours, hnames] at hnodup
    simp at hnodup

end Parsing

end ImageLabeling
