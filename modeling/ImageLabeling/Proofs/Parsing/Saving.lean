import ImageLabeling.Parsing.Run
import ImageLabeling.Proofs.File.Tree
import ImageLabeling.Proofs.Metrics
import ImageLabeling.Proofs.Turns

/-!
# What a parsing run saves

Labeling an image is quiet (`quiet_labelImage`), so the files change only when its label map is
saved, first as colours and then as grey values; `Outcome` lists the four ways this can end. Once it
has begun, a run ends as the loop over its images does (`run_inv`). A failed image leaves its two
files alone unless it was half saved, the first picture written and the second refused
(`HalfSaved`): `artifacts_of_failed_turn`.
-/

namespace ImageLabeling.Parsing

open Session

variable {σ : Type}

/-! ## Labeling -/

theorem quiet_sumLevels (acc : Accumulator) (forward : Duration) (levels : List Level) :
    Quiet (sumLevels acc forward levels : Run σ (Accumulator × Duration)) := by
  induction levels generalizing acc forward with
  | nil => exact quiet_pure (acc, forward)
  | cons level levels ih =>
    exact (quiet_infer _).bind fun output => quiet_measure.bind fun span =>
      (quiet_ofExcept _).bind fun fused => (quiet_ofFault _).bind fun acc => ih acc _

section

variable [Resizer]

theorem quiet_buildLevel (image : Raster) (scale : Float32) :
    Quiet (buildLevel image scale : Run σ Level) :=
  (quiet_ofExcept _).bind fun level => (quiet_report _).bind fun _ => quiet_pure level

theorem quiet_sumScales (job : Job) (image : Raster) :
    Quiet (sumScales job image : Run σ (Scores × Duration)) := by
  refine (quiet_ofFault _).bind fun image =>
    (quiet_mapM (quiet_buildLevel image) _).bind fun levels => ?_
  cases levels with
  | nil => exact quiet_throw _
  | cons first rest =>
    refine (quiet_sumLevels _ _ _).bind fun (acc, forward) => (quiet_report _).bind fun _ => ?_
    cases acc.sum with
    | none => exact quiet_throw _
    | some scores => exact quiet_pure (scores, forward)

theorem quiet_parseImage (job : Job) (image : Raster) :
    Quiet (parseImage job image : Run σ (LabelMap × Duration)) :=
  (quiet_sumScales job image).bind fun _ => quiet_pure _

theorem quiet_labelImage (job : Job) (path : FilePath) :
    Quiet (labelImage job path : Run σ (LabelMap × Duration)) :=
  (quiet_report _).bind fun _ => (quiet_load path).bind fun image => quiet_parseImage job image

/-! ## One image -/

/-- The label map of an image, if it can be labeled. -/
def labelled (job : Job) (path : FilePath) (s : Session σ) : Option LabelMap :=
  match (labelImage job path s).1 with
  | .ok (labels, _) => some labels
  | .error _ => none

/-- The picture of the colours of a label map. -/
def coloursContent (labels : LabelMap) : FileContent := .picture (.ofRaster labels.colours)

/-- The picture of the classes of a label map. -/
def labelsContent (labels : LabelMap) : FileContent := .picture labels.indices

omit [Resizer] in
/-- Saving stops at the first picture that cannot be written. -/
theorem saveLabels_cases (job : Job) (path : FilePath) (labels : LabelMap) (s : Session σ) :
    (∃ e fault, s.files.write (coloursPath job path) (coloursContent labels) = .error e ∧
      saveLabels job path labels s = (.error fault, s)) ∨
    (∃ half e fault, s.files.write (coloursPath job path) (coloursContent labels) = .ok half ∧
      half.write (labelsPath job path) (labelsContent labels) = .error e ∧
      saveLabels job path labels s = (.error fault, { s with files := half })) ∨
    ∃ half files, s.files.write (coloursPath job path) (coloursContent labels) = .ok half ∧
      half.write (labelsPath job path) (labelsContent labels) = .ok files ∧
      saveLabels job path labels s = (.ok (), { s with files }) := by
  unfold saveLabels
  cases hcolours : s.files.write (coloursPath job path) (coloursContent labels) with
  | error e =>
    refine .inl ⟨e, _, rfl, bind_error (save_error_iff.2 ⟨⟨e, hcolours⟩, rfl, rfl⟩) _⟩
  | ok half =>
    rw [← coloursContent, bind_ok (save_ok_iff.2 ⟨half, hcolours, rfl⟩)]
    cases hlabels : half.write (labelsPath job path) (labelsContent labels) with
    | error e =>
      exact .inr (.inl ⟨half, e, _, rfl, hlabels, save_error_iff.2 ⟨⟨e, hlabels⟩, rfl, rfl⟩⟩)
    | ok files =>
      exact .inr (.inr ⟨half, files, rfl, hlabels, save_ok_iff.2 ⟨files, hlabels, rfl⟩⟩)

/-- How processing an image ends, and which files it leaves behind. -/
inductive Outcome (job : Job) (path : FilePath) (s : Session σ) :
    Except Fault Parsed → FileSystem → Prop
  | unlabelled (fault : Fault) (hlabels : labelled job path s = none) :
    Outcome job path s (.error fault) s.files
  | unsaved (fault : Fault) (labels : LabelMap) (hlabels : labelled job path s = some labels)
    (hcolours : ∃ e, s.files.write (coloursPath job path) (coloursContent labels) = .error e) :
    Outcome job path s (.error fault) s.files
  | halfSaved (fault : Fault) (labels : LabelMap) (files : FileSystem)
    (hlabels : labelled job path s = some labels)
    (hcolours : s.files.write (coloursPath job path) (coloursContent labels) = .ok files)
    (hindices : ∃ e, files.write (labelsPath job path) (labelsContent labels) = .error e) :
    Outcome job path s (.error fault) files
  | saved (elapsed : Duration) (labels : LabelMap) (half files : FileSystem)
    (hlabels : labelled job path s = some labels)
    (hcolours : s.files.write (coloursPath job path) (coloursContent labels) = .ok half)
    (hindices : half.write (labelsPath job path) (labelsContent labels) = .ok files) :
    Outcome job path s (.ok ⟨coloursPath job path, labelsPath job path, elapsed⟩) files

theorem processImage_inv {job : Job} {path : FilePath} {s t : Session σ}
    {r : Except Fault Parsed} (h : processImage job path s = (r, t)) :
    Outcome job path s r t.files := by
  have hquiet : Quiet (labelImage job path : Run σ (LabelMap × Duration)) :=
    quiet_labelImage job path
  unfold processImage at h
  rcases hlabel : labelImage job path s with ⟨fault | ⟨labels, forward⟩, u⟩
  · have hnone : labelled job path s = none := by rw [labelled, hlabel]
    rw [bind_error hlabel] at h
    cases h
    rw [(hquiet.same hlabel).files]
    exact .unlabelled fault hnone
  · have hsome : labelled job path s = some labels := by rw [labelled, hlabel]
    have hfiles := (hquiet.same hlabel).files
    rw [bind_ok hlabel] at h
    dsimp only at h
    rcases saveLabels_cases job path labels u with
      ⟨e, fault, hcolours, hsave⟩ | ⟨half, e, fault, hcolours, hindices, hsave⟩ |
        ⟨half, files, hcolours, hindices, hsave⟩
    · rw [bind_error hsave] at h
      cases h
      rw [hfiles] at hcolours ⊢
      exact .unsaved fault labels hsome ⟨e, hcolours⟩
    · rw [bind_error hsave] at h
      cases h
      rw [hfiles] at hcolours
      exact .halfSaved fault labels half hsome hcolours ⟨e, hindices⟩
    · rw [bind_ok hsave] at h
      rw [hfiles] at hcolours
      cases h
      exact .saved _ labels half files hsome hcolours hindices

/-- Processing an image puts files where files can be. -/
theorem Outcome.tree {job : Job} {path : FilePath} {s : Session σ} {r : Except Fault Parsed}
    {files : FileSystem} (h : Outcome job path s r files) (hfs : s.files.Grounded) :
    files.Grounded ∧ s.files.SameTree files := by
  have hwrite : ∀ {before after : FileSystem} {path : FilePath} {content : FileContent},
      before.Grounded → before.write path content = .ok after →
        after.Grounded ∧ before.SameTree after := by
    intro before after path content hbefore hafter
    obtain ⟨place, -, hplace, rfl⟩ := hbefore.write_ok_inv hafter
    exact ⟨hbefore.put hplace content, hplace.sameTree content⟩
  cases h with
  | unlabelled | unsaved => exact ⟨hfs, .refl _⟩
  | halfSaved fault labels _ hlabels hcolours => exact hwrite hfs hcolours
  | saved elapsed labels half _ hlabels hcolours hindices =>
    obtain ⟨hhalf, htree⟩ := hwrite hfs hcolours
    obtain ⟨hfiles, htree'⟩ := hwrite hhalf hindices
    exact ⟨hfiles, htree.trans htree'⟩

/-- Processing an image measures one success if it succeeds and nothing if it fails. -/
theorem processImage_grows {job : Job} {path : FilePath} {s t : Session σ}
    {r : Except Fault Parsed} (h : processImage job path s = (r, t)) :
    t.network = s.network ∧
      Metrics.Grows (recorder s.network.device) r.isOk.toNat 0 s.metrics t.metrics := by
  have hquiet : Quiet (labelImage job path : Run σ (LabelMap × Duration)) :=
    quiet_labelImage job path
  unfold processImage at h
  rcases hlabel : labelImage job path s with ⟨fault | ⟨labels, forward⟩, u⟩
  · have hsame := hquiet.same hlabel
    rw [bind_error hlabel] at h
    cases h
    exact ⟨hsame.network, hsame.metrics ▸ .refl _ _⟩
  · have hsame := hquiet.same hlabel
    rw [bind_ok hlabel] at h
    dsimp only at h
    rw [← hsame.network, ← hsame.metrics]
    rcases saveLabels_cases job path labels u with
      ⟨e, fault, -, hsave⟩ | ⟨half, e, fault, -, -, hsave⟩ | ⟨half, files, -, -, hsave⟩
    · rw [bind_error hsave] at h
      cases h
      exact ⟨rfl, .refl _ _⟩
    · rw [bind_error hsave] at h
      cases h
      exact ⟨rfl, .refl _ _⟩
    · rw [bind_ok hsave] at h
      cases h
      exact ⟨rfl, Metrics.grows_recordSuccess _ _ _⟩

/-! ## All images -/

/-- Whether the results of the image of a turn are saved. -/
def processed (job : Job) (turn : Turn σ Progress) : Bool :=
  match (processImage job turn.path turn.session).1 with
  | .ok _ => true
  | .error _ => false

/-- A turn that ends books what has become of its image. -/
theorem step_ok_inv {job : Job} {progress next : Progress} {path : FilePath} {s t : Session σ}
    (h : step job progress path s = (.ok next, t)) :
    (∃ parsed u, processImage job path s = (.ok parsed, u) ∧
        processed job ⟨path, progress, s⟩ = true ∧
        book progress path (.ok parsed) u = (.ok next, t)) ∨
      ∃ failure u, processImage job path s = (.error (.failure failure), u) ∧
        processed job ⟨path, progress, s⟩ = false ∧
        book progress path (.error failure) u = (.ok next, t) := by
  obtain ⟨outcome, u, hheld, hbook⟩ := bind_ok_inv h
  rcases attempt_inv (holding_ok_iff.1 hheld) with
    ⟨parsed, rfl, hprocess⟩ | ⟨failure, rfl, hprocess⟩
  · exact .inl ⟨parsed, u, hprocess, by rw [processed, hprocess], hbook⟩
  · exact .inr ⟨failure, u, hprocess, by rw [processed, hprocess], hbook⟩

/-- A turn saves the results of its image or counts it as failed. -/
theorem step_inv {job : Job} {progress next : Progress} {path : FilePath} {s t : Session σ}
    (h : step job progress path s = (.ok next, t)) :
    next.log.location = progress.log.location ∧
      ((∃ parsed, processed job ⟨path, progress, s⟩ = true ∧
          Outcome job path s (.ok parsed) t.files ∧
          next.outputs = progress.outputs ++ [parsed] ∧ next.failed = progress.failed) ∨
        ∃ fault, processed job ⟨path, progress, s⟩ = false ∧
          Outcome job path s (.error fault) t.files ∧
          next.outputs = progress.outputs ∧ next.failed = progress.failed + 1) := by
  rcases step_ok_inv h with
    ⟨parsed, u, hprocess, hprocessed, hbook⟩ | ⟨failure, u, hprocess, hprocessed, hbook⟩
  · have houtcome := processImage_inv hprocess
    cases hbook
    exact ⟨rfl, .inl ⟨parsed, hprocessed, houtcome, rfl, rfl⟩⟩
  · have houtcome := processImage_inv hprocess
    cases hbook
    exact ⟨rfl, .inr ⟨_, hprocessed, houtcome, rfl, rfl⟩⟩

/-- What a turn adds to the books: an output with its entry in the timing log, or a failure. -/
theorem step_books {job : Job} {progress next : Progress} {path : FilePath} {s t : Session σ}
    (h : step job progress path s = (.ok next, t)) :
    t.network = s.network ∧
      ((∃ elapsed, processed job ⟨path, progress, s⟩ = true ∧
          next = { progress with
            outputs := progress.outputs ++ [⟨coloursPath job path, labelsPath job path, elapsed⟩]
            log := progress.log.record (logName path) elapsed } ∧
          Metrics.Grows (recorder s.network.device) 1 0 s.metrics t.metrics) ∨
        processed job ⟨path, progress, s⟩ = false ∧
          next = { progress with failed := progress.failed + 1 } ∧
          Metrics.Grows (recorder s.network.device) 0 1 s.metrics t.metrics) := by
  rcases step_ok_inv h with
    ⟨parsed, u, hprocess, hprocessed, hbook⟩ | ⟨failure, u, hprocess, hprocessed, hbook⟩
  · obtain ⟨hnetwork, hgrows⟩ := processImage_grows hprocess
    have houtcome := processImage_inv hprocess
    cases hbook
    cases houtcome with
    | saved elapsed => exact ⟨hnetwork, .inl ⟨elapsed, hprocessed, rfl, hgrows⟩⟩
  · obtain ⟨hnetwork, hgrows⟩ := processImage_grows hprocess
    cases hbook
    refine ⟨hnetwork, .inr ⟨hprocessed, rfl, ?_⟩⟩
    rw [← hnetwork] at hgrows ⊢
    exact hgrows.trans (Metrics.grows_recordFailure _ _)

theorem step_tree {job : Job} {progress next : Progress} {path : FilePath} {s t : Session σ}
    (h : step job progress path s = (.ok next, t)) (hfs : s.files.Grounded) :
    t.files.Grounded ∧ s.files.SameTree t.files := by
  rcases (step_inv h).2 with ⟨parsed, -, houtcome, -⟩ | ⟨fault, -, houtcome, -⟩
  · exact houtcome.tree hfs
  · exact houtcome.tree hfs

/-- The turns of a run. -/
def runTurns (job : Job) (source : Source) (s : Session σ) : List (Turn σ Progress) :=
  match start job source s with
  | (.ok (images, log), t) => turns (step job) { log } images t
  | (.error _, _) => []

section

variable {job : Job} {source : Source} {images : List FilePath} {log : Timing.Log}
  {s t u : Session σ}

theorem runTurns_of_start (hstart : start job source s = (.ok (images, log), u)) :
    runTurns job source s = turns (step job) { log } images u := by
  rw [runTurns, hstart]

theorem run_of_start (hstart : start job source s = (.ok (images, log), u)) :
    run job source s = (images.foldlM (step job) { log } >>= finish) u :=
  bind_ok hstart _

/-- Once it has begun, a run ends as the loop over its images does: brought down by one of them, or
with a summary. -/
theorem run_inv {r : Except Fault Summary} (hstart : start job source s = (.ok (images, log), u))
    (h : run job source s = (r, t)) :
    (∃ fault, r = .error fault ∧ images.foldlM (step job) { log } u = (.error fault, t)) ∨
      ∃ last v, images.foldlM (step job) { log } u = (.ok last, v) ∧
        r = .ok ⟨last.outputs, last.failed, last.log.path⟩ ∧
        t.files = last.log.finish v.files ∧ t.metrics = v.metrics := by
  rw [run_of_start hstart] at h
  rcases hloop : images.foldlM (step job) { log } u with ⟨fault | last, v⟩
  · rw [bind_error hloop] at h
    cases h
    exact .inl ⟨fault, rfl, rfl⟩
  · rw [bind_ok hloop] at h
    cases h
    exact .inr ⟨last, v, rfl, rfl, rfl, rfl⟩

end

end

theorem makeOutputDirectory_inv {job : Job} {s t : Session σ}
    (h : makeOutputDirectory job s = (.ok (), t)) :
    t = { s with files := (s.files.makeTree job.outputDirectory).1 } := by
  unfold makeOutputDirectory at h
  rw [bind_ok (show (get : Run σ (Session σ)) s = (.ok s, s) from rfl)] at h
  rcases hmade : s.files.makeTree job.outputDirectory with ⟨files, fault | made⟩
  · rw [hmade] at h
    cases h
  · rw [hmade] at h
    cases h
    rfl

theorem quiet_resolveSource (source : Source) :
    Quiet (resolveSource source : Run σ (List FilePath)) :=
  quiet_get.bind fun _ => (quiet_reportAll _).bind fun _ => quiet_ofExcept _

theorem resolveSource_ok_inv {source : Source} {images : List FilePath} {s t : Session σ}
    (h : resolveSource source s = (.ok images, t)) : (source.images s.files).2 = .ok images := by
  unfold resolveSource at h
  rw [bind_ok (show (get : Run σ (Session σ)) s = (.ok s, s) from rfl)] at h
  rcases hpaths : source.images s.files with ⟨events, paths⟩
  rw [hpaths] at h
  obtain ⟨_, u, -, h⟩ := bind_ok_inv h
  rw [ofExcept_apply] at h
  cases paths with
  | error failure => cases h
  | ok paths =>
    cases h
    rfl

/-- A run begins with the images of its source and an empty timing log. -/
theorem start_ok_inv {job : Job} {source : Source} {images : List FilePath} {log : Timing.Log}
    {s t : Session σ} (h : start job source s = (.ok (images, log), t)) :
    let made := (s.files.makeTree job.outputDirectory).1
    (source.images made).2 = .ok images ∧
      Timing.Log.create made (timingPath job s.network.device) = .ok (t.files, log) ∧
      t.network = s.network ∧ t.metrics = s.metrics := by
  intro made
  obtain ⟨⟨⟩, u, hmake, h⟩ := bind_ok_inv h
  obtain rfl := makeOutputDirectory_inv hmake
  obtain ⟨paths, v, hresolve, h⟩ := bind_ok_inv h
  obtain ⟨_, w, hreport, h⟩ := bind_ok_inv h
  have hsame := ((quiet_resolveSource source).same hresolve).trans ((quiet_report _).same hreport)
  obtain ⟨_, x, hget, h⟩ := bind_ok_inv h
  cases hget
  obtain ⟨created, y, hcreate, h⟩ := bind_ok_inv h
  cases h
  obtain ⟨files, hlog, rfl⟩ := createLog_ok_iff.1 hcreate
  rw [hsame.files, hsame.network] at hlog
  exact ⟨resolveSource_ok_inv hresolve, hlog, hsame.network, hsame.metrics⟩

/-- A run begins with a timing log at the place that its path leads to. -/
theorem start_inv {job : Job} {source : Source} {images : List FilePath} {log : Timing.Log}
    {s t : Session σ} (h : start job source s = (.ok (images, log), t)) (hfs : s.files.Grounded) :
    t.files.Grounded ∧ t.network = s.network ∧
      t.files.resolve true (timingPath job s.network.device) = .ok log.location := by
  obtain ⟨-, hcreate, hnetwork, -⟩ := start_ok_inv h
  have hmade := hfs.makeTree job.outputDirectory
  obtain ⟨hplace, hwritable, hfiles⟩ := hmade.create_ok_inv hcreate
  rw [hfiles]
  exact ⟨hmade.put hwritable _, hnetwork, (hwritable.sameTree _).resolve hplace⟩

section

variable [Resizer]

theorem grounded_of_mem_runTurns {job : Job} {source : Source} {s : Session σ}
    (hfs : s.files.Grounded) {turn : Turn σ Progress} (hturn : turn ∈ runTurns job source s) :
    turn.session.files.Grounded := by
  unfold runTurns at hturn
  rcases hstart : start job source s with ⟨fault | ⟨images, log⟩, t⟩
  · rw [hstart] at hturn
    cases hturn
  · rw [hstart] at hturn
    exact turn_invariant (I := fun _ u => u.files.Grounded)
      (fun _ _ _ _ _ hgrounded hstep => (step_tree hstep hgrounded).1)
      (start_inv hstart hfs).1 hturn

/-! ## Failed images -/

/-- The colours of an image could be written, and then its classes could not. -/
def HalfSaved (job : Job) (turn : Turn σ Progress) (labels : LabelMap) : Prop :=
  labelled job turn.path turn.session = some labels ∧
    ∃ half, turn.session.files.write (coloursPath job turn.path) (coloursContent labels) =
        .ok half ∧
      ∃ e, half.write (labelsPath job turn.path) (labelsContent labels) = .error e

/-- The file for the classes is not the one that was written for the colours. -/
theorem HalfSaved.files {job : Job} {turn : Turn σ Progress} {labels : LabelMap}
    (h : HalfSaved job turn labels) (hfs : turn.session.files.Grounded) {half : FileSystem}
    (hhalf : turn.session.files.write (coloursPath job turn.path) (coloursContent labels) =
      .ok half) :
    half.find? (coloursPath job turn.path) = some (.file (coloursContent labels)) ∧
      half.find? (labelsPath job turn.path) =
        turn.session.files.find? (labelsPath job turn.path) := by
  obtain ⟨-, half', hhalf', e, hindices⟩ := h
  rw [hhalf] at hhalf'
  cases hhalf'
  obtain ⟨place, hplace, hwritable, rfl⟩ := hfs.write_ok_inv hhalf
  refine ⟨hwritable.find?_put_self _ hplace, hwritable.find?_put_of_ne _ ?_⟩
  intro hsame
  obtain ⟨files, hwrite⟩ :=
    FileSystem.write_of_find? (hwritable.find?_put_self _ hsame) (labelsContent labels)
  rw [hindices] at hwrite
  cases hwrite

theorem HalfSaved.unique {job : Job} {turn : Turn σ Progress} {labels labels' : LabelMap}
    (h : HalfSaved job turn labels) (h' : HalfSaved job turn labels') : labels = labels' :=
  Option.some.inj (h.1.symm.trans h'.1)

/-- A failure changes no file, or comes from an image that was half saved. -/
theorem Outcome.error_inv {job : Job} {turn : Turn σ Progress} {fault : Fault}
    {files : FileSystem} (h : Outcome job turn.path turn.session (.error fault) files) :
    (files = turn.session.files ∧ ∀ labels, ¬ HalfSaved job turn labels) ∨
      ∃ labels, HalfSaved job turn labels ∧
        turn.session.files.write (coloursPath job turn.path) (coloursContent labels) =
          .ok files := by
  cases h with
  | unlabelled _ hnone =>
    refine .inl ⟨rfl, ?_⟩
    rintro labels ⟨hlabels, -⟩
    rw [hnone] at hlabels
    cases hlabels
  | unsaved _ labels hlabels hcolours =>
    refine .inl ⟨rfl, ?_⟩
    rintro labels' ⟨hlabels', half, hhalf, -⟩
    obtain ⟨e, he⟩ := hcolours
    cases hlabels.symm.trans hlabels'
    rw [he] at hhalf
    cases hhalf
  | halfSaved _ labels _ hlabels hcolours hindices =>
    obtain ⟨e, he⟩ := hindices
    exact .inr ⟨labels, ⟨hlabels, files, hcolours, e, he⟩, hcolours⟩

/-- **A failed image leaves its files alone unless it was half saved.** Then the file for its
colours holds them, which is no change exactly if the file held them before. -/
theorem artifacts_of_failed_turn {job : Job} {source : Source} {s t : Session σ}
    {turn : Turn σ Progress} {next : Progress} (hfs : s.files.Grounded)
    (hturn : turn ∈ runTurns job source s)
    (hstep : step job turn.progress turn.path turn.session = (.ok next, t))
    (hfailed : next.failed = turn.progress.failed + 1) :
    let before := turn.session.files
    ((∀ labels, ¬ HalfSaved job turn labels) → t.files = before) ∧
      (∀ labels, HalfSaved job turn labels →
        t.files.find? (coloursPath job turn.path) = some (.file (coloursContent labels)) ∧
          t.files.find? (labelsPath job turn.path) = before.find? (labelsPath job turn.path)) ∧
      ((∀ path ∈ [coloursPath job turn.path, labelsPath job turn.path],
          t.files.find? path = before.find? path) ↔
        ∀ labels, HalfSaved job turn labels →
          before.find? (coloursPath job turn.path) = some (.file (coloursContent labels))) := by
  intro before
  have hbefore : before.Grounded := grounded_of_mem_runTurns hfs hturn
  obtain ⟨fault, houtcome⟩ :
      ∃ fault, Outcome job turn.path turn.session (.error fault) t.files := by
    rcases (step_inv hstep).2 with ⟨parsed, -, -, -, hcount⟩ | ⟨fault, -, houtcome, -⟩
    · omega
    · exact ⟨fault, houtcome⟩
  rcases houtcome.error_inv with ⟨hsame, hnone⟩ | ⟨labels, hhalf, hwrite⟩
  · refine ⟨fun _ => hsame, fun labels hlabels => absurd hlabels (hnone labels), ?_⟩
    rw [hsame]
    exact ⟨fun _ labels hlabels => absurd hlabels (hnone labels), fun _ _ _ => rfl⟩
  · obtain ⟨hcolours, hindices⟩ := hhalf.files hbefore hwrite
    refine ⟨fun hnone => absurd hhalf (hnone labels), ?_, ?_⟩
    · intro labels' hhalf'
      obtain rfl := hhalf.unique hhalf'
      exact ⟨hcolours, hindices⟩
    · constructor
      · intro hkept labels' hhalf'
        obtain rfl := hhalf.unique hhalf'
        rw [← hkept _ (List.mem_cons_self ..), hcolours]
      · intro hheld path hpath
        rcases List.mem_cons.1 hpath with rfl | hpath
        · rw [hcolours, hheld labels hhalf]
        · obtain rfl := List.mem_singleton.1 hpath
          exact hindices

end

/-- A session with one picture, whose network has no preference for a class and whose output
directory has a directory in the place of the second result. -/
def blockedSession : Session Unit where
  files := ⟨((Table.empty.put [Utf8.encode "x.png"]
    (.file (.picture ⟨.png, .rgb, .eight, 1, 1, #[0, 0, 0]⟩))).put [Utf8.encode "out"]
    .directory).put [Utf8.encode "out", Utf8.encode "label_x.png"] .directory, []⟩
  network := ⟨.cpu, fun _ state => (.ok (Tensor.batch 2 20 1 1 fun _ _ _ _ => 0), state)⟩
  state := ()
  clock _ := .zero

/-- A job for images at their own size. -/
def plainJob : Job := ⟨⟨[1.0], by decide, by decide +kernel⟩, .ofString "out"⟩

theorem grounded_blockedSession : blockedSession.files.Grounded :=
  FileSystem.grounded_of_rows (by decide)

/-- The image of that session is counted as failed, and a picture of its colours appears. -/
theorem artifacts_of_failed_turn_blocked :
    ∃ turn ∈ runTurns plainJob (.single (.ofString "x.png")) blockedSession, ∃ next t,
      step plainJob turn.progress turn.path turn.session = (.ok next, t) ∧
        next.failed = turn.progress.failed + 1 ∧
        (∃ labels, HalfSaved plainJob turn labels) ∧
        t.files.find? (coloursPath plainJob turn.path) ≠
          turn.session.files.find? (coloursPath plainJob turn.path) := by
  have hends : ends (fun begun u => begun.1 == [.ofString "x.png"] &&
      ends (fun next t => next.failed == 1 &&
          t.files.isFile (coloursPath plainJob (.ofString "x.png")) &&
          !u.files.isFile (coloursPath plainJob (.ofString "x.png")))
        (step plainJob { log := begun.2 } (.ofString "x.png")) u)
      (start plainJob (.single (.ofString "x.png"))) blockedSession = true := by
    decide +kernel
  obtain ⟨⟨images, log⟩, u, hstart, hcheck⟩ := ends_inv hends
  simp only [Bool.and_eq_true, beq_iff_eq] at hcheck
  obtain ⟨rfl, hcheck⟩ := hcheck
  obtain ⟨next, t, hstep, hcheck⟩ := ends_inv hcheck
  simp only [Bool.and_eq_true, beq_iff_eq, Bool.not_eq_true'] at hcheck
  obtain ⟨⟨hfailed, hafter⟩, hbefore⟩ := hcheck
  have hne : t.files.find? (coloursPath plainJob (.ofString "x.png")) ≠
      u.files.find? (coloursPath plainJob (.ofString "x.png")) := by
    intro hsame
    rw [FileSystem.isFile, hsame, ← FileSystem.isFile, hbefore] at hafter
    cases hafter
  have hturn : (⟨.ofString "x.png", { log }, u⟩ : Turn Unit Progress) ∈
      runTurns plainJob (.single (.ofString "x.png")) blockedSession := by
    rw [runTurns, hstart]
    exact List.mem_cons_self ..
  refine ⟨_, hturn, next, t, hstep, hfailed, Classical.byContradiction fun hnone => ?_, hne⟩
  obtain ⟨hquiet, -, -⟩ := artifacts_of_failed_turn grounded_blockedSession hturn hstep hfailed
  rw [hquiet (not_exists.1 hnone)] at hne
  exact hne rfl

end ImageLabeling.Parsing
