import ImageLabeling.Proofs.Parsing.Artifacts
import ImageLabeling.Proofs.Parsing.Crashes

/-!
# Images that do not disturb each other

What processing an image does to the files is to put what it writes (`written`), and that depends
on its labels and on the tree alone (`written_congr`). If no result of an image stands where a path
of another leads (`Separate`), then an image finds its file as it was at the beginning of the run
and its results stay as they were written (`Isolated`). So two runs that start alike treat an image
alike, whatever else they process: `agree_of_loops`.
-/

namespace ImageLabeling.Parsing

open Session

variable {σ : Type} [Resizer] {job : Job} {path : FilePath} {s u : Session σ}

/-! ## What an image writes -/

/-- The files that processing an image writes, in order. -/
def written (job : Job) (path : FilePath) (s : Session σ) : List (Location × FileContent) :=
  match labelled job path s, s.files.writePlace? (coloursPath job path),
    s.files.writePlace? (labelsPath job path) with
  | some labels, some place, some place' =>
    [(place, coloursContent labels), (place', labelsContent labels)]
  | some labels, some place, none => [(place, coloursContent labels)]
  | _, _, _ => []

theorem written_congr (htree : s.files.SameTree u.files)
    (hlabelled : labelled job path u = labelled job path s) :
    written job path u = written job path s := by
  unfold written
  rw [hlabelled, htree.writePlace?, htree.writePlace?]

/-- What is written stands where the names of the results lead. -/
theorem place_of_written {file : Location × FileContent} (h : file ∈ written job path s) :
    ∃ artifact ∈ artifactPaths job [path], s.files.resolve true artifact = .ok file.1 ∧
      s.files.lookup? file.1 ≠ some .directory := by
  unfold written at h
  have hcolours : coloursPath job path ∈ artifactPaths job [path] := by simp [artifactPaths]
  have hlabels : labelsPath job path ∈ artifactPaths job [path] := by simp [artifactPaths]
  split at h
  · rename_i labels place place' _ hplace hplace'
    rcases List.mem_cons.1 h with rfl | h
    · exact ⟨_, hcolours, FileSystem.writePlace?_eq_some_iff.1 hplace⟩
    · obtain rfl := List.mem_singleton.1 h
      exact ⟨_, hlabels, FileSystem.writePlace?_eq_some_iff.1 hplace'⟩
  · rename_i labels place _ hplace _
    obtain rfl := List.mem_singleton.1 h
    exact ⟨_, hcolours, FileSystem.writePlace?_eq_some_iff.1 hplace⟩
  · cases h

theorem ne_root_of_written {file : Location × FileContent} (h : file ∈ written job path s) :
    file.1 ≠ [] := by
  obtain ⟨_, -, -, hdirectory⟩ := place_of_written h
  intro hroot
  rw [hroot] at hdirectory
  exact hdirectory s.files.lookup?_root

/-- **What processing an image does to the files**: it puts what it writes, which is two files
exactly if it succeeds. -/
theorem Outcome.files_eq {r : Except Fault Parsed} {files : FileSystem}
    (h : Outcome job path s r files) (hfs : s.files.Grounded) :
    files = s.files.putAll (written job path s) ∧
      r.isOk = decide ((written job path s).length = 2) := by
  cases h with
  | unlabelled fault hnone =>
    have hwritten : written job path s = [] := by
      unfold written
      rw [hnone]
    rw [hwritten]
    exact ⟨rfl, rfl⟩
  | unsaved fault labels hlabels hcolours =>
    have hwritten : written job path s = [] := by
      unfold written
      rw [hlabels, FileSystem.write_error_iff.1 hcolours]
    rw [hwritten]
    exact ⟨rfl, rfl⟩
  | halfSaved fault labels _ hlabels hcolours hindices =>
    obtain ⟨place, hplace, htree, rfl⟩ := hfs.write_place_inv hcolours
    have hrefused := FileSystem.write_error_iff.1 hindices
    rw [htree.writePlace?] at hrefused
    have hwritten : written job path s = [(place, coloursContent labels)] := by
      unfold written
      rw [hlabels, hplace, hrefused]
    rw [hwritten]
    exact ⟨rfl, rfl⟩
  | saved elapsed labels half _ hlabels hcolours hindices =>
    obtain ⟨place, hplace, htree, rfl⟩ := hfs.write_place_inv hcolours
    obtain ⟨place', hplace', rfl⟩ := FileSystem.write_eq_ok_iff.1 hindices
    rw [htree.writePlace?] at hplace'
    have hwritten : written job path s =
        [(place, coloursContent labels), (place', labelsContent labels)] := by
      unfold written
      rw [hlabels, hplace, hplace']
    rw [hwritten]
    exact ⟨rfl, rfl⟩

/-- The results of an image are saved exactly if it writes two files. -/
theorem processed_eq (turn : Turn σ Progress) (hfs : turn.session.files.Grounded) :
    processed job turn = decide ((written job turn.path turn.session).length = 2) := by
  rcases hprocess : processImage job turn.path turn.session with ⟨r, t⟩
  rw [← ((processImage_inv hprocess).files_eq hfs).2, processed, hprocess]
  cases r with
  | ok parsed => rfl
  | error fault => rfl

theorem step_files {progress next : Progress} {t : Session σ}
    (h : step job progress path s = (.ok next, t)) (hfs : s.files.Grounded) :
    t.files = s.files.putAll (written job path s) := by
  rcases (step_inv h).2 with ⟨parsed, -, houtcome, -⟩ | ⟨fault, -, houtcome, -⟩
  · exact (houtcome.files_eq hfs).1
  · exact (houtcome.files_eq hfs).1

/-- A place that no turn writes to keeps what it holds. -/
theorem lookup_of_loop {images : List FilePath} {progress last : Progress} {v : Session σ}
    (hfs : u.files.Grounded) (hloop : images.foldlM (step job) progress u = (.ok last, v)) :
    v.files.Grounded ∧ u.files.SameTree v.files ∧ ∀ place,
      (∀ turn ∈ turns (step job) progress images u,
        ∀ file ∈ written job turn.path turn.session, file.1 ≠ place) →
      v.files.lookup? place = u.files.lookup? place := by
  refine turns_induct (I := fun done _ s => s.files.Grounded ∧ u.files.SameTree s.files ∧ ∀ place,
    (∀ turn ∈ done, ∀ file ∈ written job turn.path turn.session, file.1 ≠ place) →
    s.files.lookup? place = u.files.lookup? place) ?_ hloop ⟨hfs, .refl _, fun _ _ => rfl⟩
  rintro done progress s path next t ⟨hgrounded, htree, hkept⟩ hstep
  obtain ⟨hgrounded', htree'⟩ := step_tree hstep hgrounded
  refine ⟨hgrounded', htree.trans htree', fun place hplace => ?_⟩
  rw [List.forall_mem_append] at hplace
  have hlast := hplace.2 ⟨path, progress, s⟩ (List.mem_singleton_self _)
  rw [step_files hstep hgrounded, ← hkept place hplace.1]
  rcases FileSystem.lookup?_putAll (fun _ => ne_root_of_written) place with
    ⟨-, hmiss⟩ | ⟨⟨file, hfile, hhere⟩, -⟩
  · exact hmiss _
  · exact absurd hhere (hlast file hfile)

/-! ## Isolation -/

/-- No result of an image goes to the place of an image, of a result of another image, or of the
timing log. -/
structure Separate (job : Job) (fs : FileSystem) (images : List FilePath) (log : Location) :
    Prop where
  inputs : ∀ p ∈ images, ∀ a ∈ artifactPaths job images, fs.Apart p a
  others : ∀ p ∈ images, ∀ q ∈ images, p ≠ q →
    ∀ a ∈ artifactPaths job [p], ∀ b ∈ artifactPaths job [q], fs.Apart a b
  log : ∀ a ∈ artifactPaths job images, fs.resolve true a ≠ .ok log

omit [Resizer] in
theorem artifactPaths_mono {images others : List FilePath} (h : others ⊆ images) :
    artifactPaths job others ⊆ artifactPaths job images := by
  intro a ha
  obtain ⟨p, hp, ha⟩ := List.mem_flatMap.1 ha
  exact List.mem_flatMap.2 ⟨p, h hp, ha⟩

instance (job : Job) (fs : FileSystem) (images : List FilePath) (log : Location) :
    Decidable (Separate job fs images log) :=
  decidable_of_iff ((∀ p ∈ images, ∀ a ∈ artifactPaths job images, fs.Apart p a) ∧
    (∀ p ∈ images, ∀ q ∈ images, p ≠ q →
      ∀ a ∈ artifactPaths job [p], ∀ b ∈ artifactPaths job [q], fs.Apart a b) ∧
    ∀ a ∈ artifactPaths job images, fs.resolve true a ≠ .ok log)
    ⟨fun ⟨inputs, others, log⟩ => ⟨inputs, others, log⟩,
      fun ⟨inputs, others, log⟩ => ⟨inputs, others, log⟩⟩

/-- After some images have been visited, every visited image has left in the places of its results
what it writes when it is visited first, and nothing else has changed. -/
structure Isolated (job : Job) (images : List FilePath) (u : Session σ) (visited : List FilePath)
    (s : Session σ) : Prop where
  grounded : s.files.Grounded
  sameTree : u.files.SameTree s.files
  network : s.network = u.network
  input : ∀ p ∈ images, ∀ place, u.files.resolve true p = .ok place →
    s.files.lookup? place = u.files.lookup? place
  artifact : ∀ p ∈ images, ∀ a ∈ artifactPaths job [p], ∀ place,
    u.files.resolve true a = .ok place →
    s.files.lookup? place =
      if p ∈ visited then (u.files.putAll (written job p u)).lookup? place
      else u.files.lookup? place

section

variable {images visited : List FilePath}

theorem isolated_nil (hfs : u.files.Grounded) : Isolated job images u [] u where
  grounded := hfs
  sameTree := .refl _
  network := rfl
  input _ _ _ _ := rfl
  artifact _ _ _ _ _ _ := rfl

/-- An image is labeled as if it were the first. -/
theorem Isolated.labelImage_eq (h : Isolated job images u visited s) (hpure : u.network.Pure)
    (hpath : path ∈ images) :
    (labelImage job path s).1.map Prod.fst = (labelImage job path u).1.map Prod.fst := by
  refine labelImage_congr hpure h.network ?_
  unfold FileSystem.loadImage FileSystem.content?
  rw [h.sameTree.find?_eq (h.input path hpath)]

theorem Isolated.written_eq (h : Isolated job images u visited s) (hpure : u.network.Pure)
    (hpath : path ∈ images) : written job path s = written job path u := by
  refine written_congr h.sameTree ?_
  rw [labelled_eq, labelled_eq, h.labelImage_eq hpure hpath]

/-- What an image writes is no file that another path leads to. -/
theorem miss_of_written {p : FilePath} {place : Location} (hp : u.files.resolve true p = .ok place)
    (hapart : ∀ a ∈ artifactPaths job [path], u.files.Apart p a) (fs : FileSystem) :
    (fs.putAll (written job path u)).lookup? place = fs.lookup? place := by
  rcases FileSystem.lookup?_putAll (fun _ => ne_root_of_written) place with
    ⟨-, hsame⟩ | ⟨⟨file, hfile, hplace⟩, -⟩
  · exact hsame fs
  · obtain ⟨a, ha, hresolve, -⟩ := place_of_written hfile
    exact absurd (hplace ▸ hresolve) (hapart a ha place hp)

theorem Isolated.turn {log : Location} (h : Isolated job images u visited s)
    (hpure : u.network.Pure) (hsep : Separate job u.files images log) (hpath : path ∈ images)
    {t : Session σ} (hnetwork : t.network = s.network)
    (hfiles : t.files = s.files.putAll (written job path s)) (hgrounded : t.files.Grounded)
    (htree : s.files.SameTree t.files) :
    Isolated job images u (visited ++ [path]) t where
  grounded := hgrounded
  sameTree := h.sameTree.trans htree
  network := hnetwork.trans h.network
  input p hp place hplace := by
    rw [hfiles, h.written_eq hpure hpath, miss_of_written hplace]
    · exact h.input p hp place hplace
    · intro a ha
      exact hsep.inputs p hp a (artifactPaths_mono (by simpa using hpath) ha)
  artifact p hp a ha place hplace := by
    have hold := h.artifact p hp a ha place hplace
    rw [hfiles, h.written_eq hpure hpath]
    by_cases hsame : p = path
    · subst hsame
      rw [if_pos (by simp)]
      rcases FileSystem.lookup?_putAll (fun _ => ne_root_of_written) place with
        ⟨-, hmiss⟩ | ⟨-, content, hhit⟩
      · rw [hmiss, hold, hmiss, ite_self]
      · rw [hhit, hhit]
    · have hvisited : p ∈ visited ++ [path] ↔ p ∈ visited := by simp [hsame]
      rw [miss_of_written hplace fun b hb => hsep.others p hp path hpath hsame a ha b hb, hold]
      simp only [hvisited]

theorem Isolated.step {log : Location} {progress next : Progress} {t : Session σ}
    (h : Isolated job images u visited s) (hpure : u.network.Pure)
    (hsep : Separate job u.files images log) (hpath : path ∈ images)
    (hstep : step job progress path s = (.ok next, t)) :
    Isolated job images u (visited ++ [path]) t := by
  obtain ⟨hgrounded, htree⟩ := step_tree hstep h.grounded
  exact h.turn hpure hsep hpath (step_books hstep).1 (step_files hstep h.grounded) hgrounded
    htree

/-- Every turn starts where the turns before have left only results of their own. -/
theorem isolated_of_mem_turns {log : Location} {progress : Progress} (hfs : u.files.Grounded)
    (hpure : u.network.Pure) (hsep : Separate job u.files images log) {turn : Turn σ Progress}
    (hturn : turn ∈ turns (step job) progress images u) :
    ∃ visited, Isolated job images u visited turn.session :=
  turn_invariant_mem (I := fun _ s => ∃ visited, Isolated job images u visited s)
    (fun _ _ path hpath _ _ ⟨visited, hvisited⟩ hstep =>
      ⟨visited ++ [path], hvisited.step hpure hsep hpath hstep⟩)
    ⟨[], isolated_nil hfs⟩ hturn

/-- All images of a run leave what they write when they are visited first. -/
theorem isolated_of_loop {log : Location} {progress last : Progress} (hfs : u.files.Grounded)
    (hpure : u.network.Pure) (hsep : Separate job u.files images log) {v : Session σ}
    (hloop : images.foldlM (step job) progress u = (.ok last, v)) :
    Isolated job images u images v := by
  have hall := turns_induct_mem (I := fun done _ s => Isolated job images u (done.map Turn.path) s)
    (fun done progress s path hpath next t hdone hstep => by
      rw [List.map_append]
      exact hdone.step hpure hsep hpath hstep)
    hloop (isolated_nil hfs)
  rwa [map_path_turns hloop] at hall

/-- **Images do not disturb each other.** An image that two runs have in common is treated alike by
both and gets the same results, if its file and those in the places of its results are the same. -/
theorem agree_of_loops {others : List FilePath} {log log' : Location}
    {progress progress' last last' : Progress} {u' v v' : Session σ}
    (hloop : images.foldlM (step job) progress u = (.ok last, v)) (hfs : u.files.Grounded)
    (hsep : Separate job u.files images log)
    (hloop' : others.foldlM (step job) progress' u' = (.ok last', v')) (hfs' : u'.files.Grounded)
    (hsep' : Separate job u'.files others log') (hpure : u.network.Pure)
    (hnetwork : u'.network = u.network) (htree : u.files.SameTree u'.files)
    (hpath : path ∈ images) (hpath' : path ∈ others)
    (hsame : ∀ p ∈ path :: artifactPaths job [path], u'.files.find? p = u.files.find? p) :
    (∀ turn ∈ turns (step job) progress images u, ∀ turn' ∈ turns (step job) progress' others u',
        turn.path = path → turn'.path = path → processed job turn' = processed job turn) ∧
      ∀ a ∈ artifactPaths job [path], v'.files.find? a = v.files.find? a := by
  have hpure' : u'.network.Pure := hnetwork ▸ hpure
  have hwritten : written job path u' = written job path u := by
    refine written_congr htree ?_
    have hload : u'.files.loadImage path = u.files.loadImage path := by
      unfold FileSystem.loadImage FileSystem.content?
      rw [hsame path (List.mem_cons_self ..)]
    rw [labelled_eq, labelled_eq, labelImage_congr hpure hnetwork hload]
  constructor
  · rintro turn hturn turn' hturn' rfl hpaths
    obtain ⟨visited, hisolated⟩ := isolated_of_mem_turns hfs hpure hsep hturn
    obtain ⟨visited', hisolated'⟩ := isolated_of_mem_turns hfs' hpure' hsep' hturn'
    rw [processed_eq turn' hisolated'.grounded, processed_eq turn hisolated.grounded, hpaths,
      hisolated'.written_eq hpure' hpath', hisolated.written_eq hpure hpath, hwritten]
  · intro a ha
    have hend := isolated_of_loop hfs hpure hsep hloop
    have hend' := isolated_of_loop hfs' hpure' hsep' hloop'
    have htrees : v.files.SameTree v'.files :=
      hend.sameTree.symm.trans (htree.trans hend'.sameTree)
    refine htrees.find?_eq fun place hplace => ?_
    have hplace := hend.sameTree.resolve_iff.1 hplace
    have hplace' := htree.resolve hplace
    rw [hend.artifact path hpath a ha place hplace, hend'.artifact path hpath' a ha place hplace',
      if_pos hpath, if_pos hpath', hwritten]
    rcases FileSystem.lookup?_putAll (fun _ => ne_root_of_written) place with
      ⟨-, hmiss⟩ | ⟨-, content, hhit⟩
    · have hbefore := hsame a (List.mem_cons_of_mem _ ha)
      rw [FileSystem.find?_of_resolve hplace, FileSystem.find?_of_resolve hplace'] at hbefore
      rw [hmiss, hmiss, hbefore]
    · rw [hhit, hhit]

end

end ImageLabeling.Parsing
