import ImageLabeling.Proofs.Parsing.Opening

/-!
# Where a parsing run writes

A run opens no other files for writing than its timing log and the two pictures of each image
(`opened_of_run`), all by names in its output directory (`isName_of_mem_fileNames`), whatever is
listed as an image. Unless an entry of that directory is a link, everything else stays as it was:
`confined_of_run`.
-/

namespace ImageLabeling.Parsing

open Session

variable {σ : Type} {job : Job} {source : Source} {path : FilePath} {s t : Session σ}

/-! ## Names of results -/

/-- The names that a run writes to: its timing log, and the two pictures of each image. -/
def fileNames (device : Device) (images : List FilePath) : List FileName :=
  Utf8.encode s!"time_parsing_{device.name}.txt" :: images.flatMap fun path =>
    [Utf8.encode s!"parsed_{Source.stem path}.png", Utf8.encode s!"label_{Source.stem path}.png"]

/-- The paths of these names in the output directory. -/
def filePaths (job : Job) (device : Device) (images : List FilePath) : List FilePath :=
  (fileNames device images).map fun name => job.outputDirectory.join ⟨name⟩

theorem filePaths_eq (job : Job) (device : Device) (images : List FilePath) :
    filePaths job device images = timingPath job device :: artifactPaths job images := by
  simp only [filePaths, fileNames, artifactPaths, List.map_cons, List.map_flatMap, List.map_nil]
  rfl

theorem isName_of_begins {b : UInt8} {lead : String} (h : FilePath.Begins b lead)
    (hdot : b ≠ FilePath.dot) {rest : String}
    (hlead : FilePath.slash ∉ Utf8.encode lead) (hrest : FilePath.slash ∉ Utf8.encode rest) :
    FilePath.IsName (Utf8.encode (lead ++ rest)) := by
  obtain ⟨tail, htail⟩ := h.head
  rw [Utf8.encode_append, htail, List.cons_append]
  refine FilePath.isName_cons hdot ?_
  rw [← List.cons_append, ← htail]
  simp [hlead, hrest]

/-- Whatever is listed as an image, its results are named by one piece of a path. -/
theorem isName_of_mem_fileNames {device : Device} {images : List FilePath} {name : FileName}
    (h : name ∈ fileNames device images) : FilePath.IsName name := by
  rcases List.mem_cons.1 h with rfl | h
  · rw [show s!"time_parsing_{device.name}.txt" = "time_parsing_" ++ (device.name ++ ".txt") from
      String.append_assoc]
    refine isName_of_begins begins_time (by decide) (by decide +kernel) ?_
    cases device <;> decide +kernel
  · obtain ⟨path, -, h⟩ := List.mem_flatMap.1 h
    have hstem : FilePath.slash ∉ Utf8.encode (Source.stem path ++ ".png") := by
      rw [Utf8.encode_append, List.mem_append]
      rintro (hslash | hslash)
      · exact Source.slash_notMem_stem path hslash
      · revert hslash
        decide +kernel
    rcases List.mem_cons.1 h with rfl | h
    · rw [show s!"parsed_{Source.stem path}.png" = "parsed_" ++ (Source.stem path ++ ".png") from
        String.append_assoc]
      exact isName_of_begins begins_parsed (by decide) (by decide +kernel) hstem
    · obtain rfl := List.mem_singleton.1 h
      rw [show s!"label_{Source.stem path}.png" = "label_" ++ (Source.stem path ++ ".png") from
        String.append_assoc]
      exact isName_of_begins begins_label (by decide) (by decide +kernel) hstem

/-! ## What a run opens -/

/-- The images of a source, or none if it does not resolve. -/
def listed (job : Job) (source : Source) (s : Session σ) : List FilePath :=
  (source.images (prepared job s)).2.toOption.getD []

section

variable [Resizer]

/-- Processing an image opens its two pictures at most. -/
theorem Outcome.opened {fs files : FileSystem} {paths : List FilePath} {r : Except Fault Parsed}
    (h : Outcome job path s r files) (hfs : fs.Opened paths s.files)
    (hpaths : ∀ p ∈ artifactPaths job [path], p ∈ paths) : fs.Opened paths files := by
  have hcolours := hpaths _ (coloursPath_mem (List.mem_singleton_self path))
  have hlabels := hpaths _ (labelsPath_mem (List.mem_singleton_self path))
  cases h with
  | unlabelled | unsaved => exact hfs
  | halfSaved fault labels _ hlabel hwrite => exact hfs.write hcolours hwrite
  | saved elapsed labels half _ hlabel hwrite hwrite' =>
    exact (hfs.write hcolours hwrite).write hlabels hwrite'

/-- A turn opens the two pictures of its image at most, and a crash the timing log. -/
theorem opened_of_step {fs : FileSystem} {paths : List FilePath} {progress : Progress}
    {timingLog : FilePath} (hfs : fs.Opened paths s.files)
    (hpaths : ∀ p ∈ artifactPaths job [path], p ∈ paths) (hlog : timingLog ∈ paths)
    (hplace : fs.writeLocation timingLog = .ok progress.log.location) :
    fs.Opened paths (step job progress path s).2.files := by
  rcases hstep : step job progress path s with ⟨fault | next, t⟩
  · obtain ⟨crash, u, rfl, hlabel, rfl⟩ := step_error_iff.1 hstep
    have hsame := (quiet_labelImage job path).same hlabel
    exact (hsame.files ▸ hfs).finish hlog hplace
  · rcases (step_inv hstep).2 with ⟨parsed, -, houtcome, -⟩ | ⟨fault, -, houtcome, -⟩
    · exact houtcome.opened hfs hpaths
    · exact houtcome.opened hfs hpaths

theorem opened_of_loop {fs : FileSystem} {paths images : List FilePath} {progress : Progress}
    {timingLog : FilePath} (hfs : fs.Opened paths s.files)
    (hpaths : ∀ p ∈ artifactPaths job images, p ∈ paths) (hlog : timingLog ∈ paths)
    (hplace : fs.writeLocation timingLog = .ok progress.log.location) :
    fs.Opened paths (images.foldlM (step job) progress s).2.files := by
  have hstep : ∀ (progress : Progress) (u : Session σ), ∀ path ∈ images,
      fs.Opened paths u.files ∧ fs.writeLocation timingLog = .ok progress.log.location →
        fs.Opened paths (step job progress path u).2.files :=
    fun progress u path hpath h => opened_of_step h.1
      (fun p hp => hpaths p (artifactPaths_mono (by simpa using hpath) hp)) hlog h.2
  refine foldlM_invariant (J := fun u => fs.Opened paths u.files) (fun _ _ h => h.1) hstep
    (fun progress u path hpath next v h hnext => ⟨?_, ?_⟩) ⟨hfs, hplace⟩
  · have hopened := hstep progress u path hpath h
    rwa [hnext] at hopened
  · rw [(step_inv hnext).1]
    exact h.2

/-- **A run opens its timing log and the pictures of its images, and nothing else.** -/
theorem opened_of_run {r : Except Fault Summary} (h : run job source s = (r, t)) :
    (prepared job s).Opened (filePaths job s.network.device (listed job source s)) t.files := by
  rw [filePaths_eq]
  rcases hstart : start job source s with ⟨fault | ⟨images, log⟩, u⟩
  · have hfiles := (start_opening hstart).1.files_eq
    unfold run at h
    rw [bind_error hstart] at h
    cases h
    rw [hfiles]
    exact .start
  · obtain ⟨hsource, hcreate, -, -⟩ := start_ok_inv hstart
    change (source.images (prepared job s)).2 = .ok images at hsource
    change Timing.Log.create (prepared job s) _ = _ at hcreate
    obtain ⟨hplace, hput⟩ := FileSystem.create_eq_ok_inv hcreate
    have hlisted : listed job source s = images := by
      rw [listed, hsource]
      rfl
    rw [hlisted]
    have hbegun : (prepared job s).Opened
        (timingPath job s.network.device :: artifactPaths job images) u.files := by
      rw [hput]
      exact FileSystem.Opened.start.put _ (List.mem_cons_self ..) hplace .start
    have hloop : (prepared job s).Opened _ (images.foldlM (step job) { log } u).2.files :=
      opened_of_loop hbegun (fun p hp => List.mem_cons_of_mem _ hp) (List.mem_cons_self ..) hplace
    obtain ⟨fault, -, hrest⟩ | ⟨last, v, hrest, -, hfiles, -⟩ := run_inv hstart h
    · rw [hrest] at hloop
      exact hloop
    · rw [hrest] at hloop
      have hkept := kept_of_loop (create_log_inv hcreate).2 hrest
      have hlocation : last.log.location = log.location := by rw [hkept.log]
      rw [hfiles]
      exact hloop.finish (List.mem_cons_self ..) (hlocation ▸ hplace)

/-! ## What stays -/

/-- **A run writes in its output directory only.** Every path that it opens for writing is the path
of that directory followed by one name, that of the timing log or of a picture of a listed image. If
no entry of the directory is a link, then every other file stays as it was, however the run ends. -/
theorem confined_of_run {r : Except Fault Summary} (h : run job source s = (r, t)) :
    let names := fileNames s.network.device (listed job source s)
    s.files.Deepened (prepared job s) ∧
    (prepared job s).Opened (names.map fun name => job.outputDirectory.join ⟨name⟩) t.files ∧
    (∀ name ∈ names, (job.outputDirectory.join ⟨name⟩).components =
      job.outputDirectory.components ++ [.name name]) ∧
    ((prepared job s).Unlinked job.outputDirectory →
      (∀ place, ¬ (prepared job s).Names job.outputDirectory names place →
        t.files.lookup? place = (prepared job s).lookup? place ∧
          ∀ content, t.files.lookup? place = some (.file content) ↔
            s.files.lookup? place = some (.file content)) ∧
      ∀ path place content, s.files.resolve true path = .ok place →
        ¬ (prepared job s).Names job.outputDirectory names place →
        s.files.lookup? place = some (.file content) →
        t.files.find? path = some (.file content)) := by
  intro names
  have hmade := FileSystem.deepened_makeTree s.files job.outputDirectory
  have hopened := opened_of_run h
  refine ⟨hmade, hopened, fun name hname => ?_, fun hlinks => ?_⟩
  · exact (isName_of_mem_fileNames hname).components_join _
  · obtain ⟨htree, hsame⟩ := hopened.confined (fun _ => isName_of_mem_fileNames) hlinks
    have hfiles : ∀ place, ¬ (prepared job s).Names job.outputDirectory names place →
        ∀ content, t.files.lookup? place = some (.file content) ↔
          s.files.lookup? place = some (.file content) := by
      intro place hplace content
      rw [hsame place hplace]
      exact hmade.lookup?_iff FileEntry.noConfusion
    refine ⟨fun place hplace => ⟨hsame place hplace, hfiles place hplace⟩, ?_⟩
    intro path place content hresolve hplace hfile
    rw [FileSystem.find?_of_resolve (htree.extends.resolve (hmade.extends.resolve hresolve))]
    exact (hfiles place hplace content).2 hfile

end

/-- A session whose list leads out of the working directory, to the root and into a file. -/
def strayingSession : Session Unit where
  files := ⟨(((Table.empty.put [Utf8.encode "home"] .directory).put
    [Utf8.encode "home", Utf8.encode "list"]
    (.file (.bytes (Utf8.encode "../x.png\n/y.png\n../x.png/\n..")))).put [Utf8.encode "x.png"]
    (.file (.picture ⟨.png, .rgb, .eight, 1, 1, #[0, 0, 0]⟩))).put [Utf8.encode "y.png"]
    (.file (.picture ⟨.png, .rgb, .eight, 1, 1, #[9, 9, 9]⟩)), [Utf8.encode "home"]⟩
  network := ⟨.cpu, fun _ state => (.ok (Tensor.batch 2 20 1 1 fun _ _ _ _ => 0), state)⟩
  state := ()
  clock _ := .zero

/-- Two of these images can be processed, and both stay as they are. -/
theorem confined_of_run_straying :
    let source : Source := .list (.ofString "list") ⟨[]⟩
    ∃ summary t, run plainJob source strayingSession = (.ok summary, t) ∧
      summary.outputs.length = 2 ∧ summary.failed = 2 ∧
      (∀ path ∈ [FilePath.ofString "../x.png", FilePath.ofString "/y.png"], ∃ picture,
        strayingSession.files.find? path = some (.file (.picture picture)) ∧
          t.files.find? path = some (.file (.picture picture))) := by
  intro source
  have hends : ends (fun summary _ => summary.outputs.length == 2 && summary.failed == 2)
      (run plainJob source) strayingSession = true := by
    decide +kernel
  obtain ⟨summary, t, hrun, hcheck⟩ := ends_inv hends
  simp only [Bool.and_eq_true, beq_iff_eq] at hcheck
  obtain ⟨-, -, -, hconfined⟩ := confined_of_run hrun
  have hlinks : (prepared plainJob strayingSession).Unlinked plainJob.outputDirectory :=
    FileSystem.unlinked_of_rows (by decide +kernel) _
  have hfolder : (prepared plainJob strayingSession).folder? plainJob.outputDirectory =
      some [Utf8.encode "home", Utf8.encode "out"] := by
    decide +kernel
  have hkept := (hconfined hlinks).2
  -- the pictures stand at the root, and the results two directories below it
  have houtside : ∀ name, ¬ (prepared plainJob strayingSession).Names plainJob.outputDirectory
      (fileNames strayingSession.network.device (listed plainJob source strayingSession))
      [name] := by
    rintro name ⟨folder, hplace, other, -, hname⟩
    cases hfolder.symm.trans hplace
    cases hname
  have hresolve : strayingSession.files.resolve true (.ofString "../x.png") =
        .ok [Utf8.encode "x.png"] ∧
      strayingSession.files.resolve true (.ofString "/y.png") = .ok [Utf8.encode "y.png"] := by
    decide +kernel
  refine ⟨summary, t, hrun, hcheck.1, hcheck.2, fun path hpath => ?_⟩
  rcases List.mem_cons.1 hpath with rfl | hpath
  · exact ⟨⟨.png, .rgb, .eight, 1, 1, #[0, 0, 0]⟩, by decide +kernel,
      hkept _ _ _ hresolve.1 (houtside _) (by decide +kernel)⟩
  · obtain rfl := List.mem_singleton.1 hpath
    exact ⟨⟨.png, .rgb, .eight, 1, 1, #[9, 9, 9]⟩, by decide +kernel,
      hkept _ _ _ hresolve.2 (houtside _) (by decide +kernel)⟩

end ImageLabeling.Parsing
