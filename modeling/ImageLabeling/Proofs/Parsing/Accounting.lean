import ImageLabeling.Proofs.Parsing.Isolation

/-!
# The books of a parsing run

A run keeps its outputs, the number of failed images, a timing log and the measurements. A turn adds
to all of them alike (`Kept.step`), so they agree when the run ends: `books_of_run`. The timing log
is written last, to the file that was created for it, and holds these lines unless a picture was
written there in between. A run that is brought down writes it as well (`log_of_crashed_run`).
`accounting_of_run` adds that the images of a run do not disturb each other.
-/

namespace ImageLabeling.Parsing

open Session

section

variable {σ : Type} [Resizer] {job : Job} {path : FilePath} {s u : Session σ}

/-! ## The books -/

/-- The images of these turns whose results were saved. -/
def savedTurns (job : Job) (done : List (Turn σ Progress)) : List (Turn σ Progress) :=
  done.filter (processed job)

/-- The entries of the timing log for saved images. -/
def entries (saved : List (Turn σ Progress)) (outputs : List Parsed) : List (String × Duration) :=
  List.zipWith (fun turn parsed => (logName turn.path, parsed.elapsed)) saved outputs

/-- What the turns so far have added to the books of a run that began in session `u`. -/
structure Kept (job : Job) (log : Timing.Log) (u : Session σ) (done : List (Turn σ Progress))
    (progress : Progress) (s : Session σ) : Prop where
  network : s.network = u.network
  grows : Metrics.Grows (recorder u.network.device) progress.outputs.length progress.failed
    u.metrics s.metrics
  count : progress.outputs.length + progress.failed = done.length
  outputs : (progress.outputs.map fun parsed => (parsed.colours, parsed.labels)) =
    (savedTurns job done).map fun turn => (coloursPath job turn.path, labelsPath job turn.path)
  log : progress.log = { log with entries := entries (savedTurns job done) progress.outputs }

theorem kept_nil {log : Timing.Log} (hlog : log.entries = []) (u : Session σ) :
    Kept job log u [] { log } u where
  network := rfl
  grows := .refl _ _
  count := rfl
  outputs := rfl
  log := by
    rw [show entries (savedTurns job ([] : List (Turn σ Progress))) [] = log.entries from hlog.symm]

theorem Kept.length {log : Timing.Log} {done : List (Turn σ Progress)} {progress : Progress}
    (h : Kept job log u done progress s) :
    (savedTurns job done).length = progress.outputs.length := by
  simpa using (congrArg List.length h.outputs).symm

theorem Kept.step {log : Timing.Log} {done : List (Turn σ Progress)} {progress next : Progress}
    {t : Session σ} (h : Kept job log u done progress s)
    (hstep : step job progress path s = (.ok next, t)) :
    Kept job log u (done ++ [⟨path, progress, s⟩]) next t := by
  obtain ⟨hnetwork, hcases⟩ := step_books hstep
  rw [h.network] at hcases
  have hcount := h.count
  rcases hcases with ⟨elapsed, hsaved, rfl, hgrows⟩ | ⟨hsaved, rfl, hgrows⟩
  · have hturns : savedTurns job (done ++ [⟨path, progress, s⟩]) =
        savedTurns job done ++ [⟨path, progress, s⟩] := by
      simp [savedTurns, hsaved]
    have hall := h.grows.trans hgrows
    refine ⟨hnetwork.trans h.network, ?_, ?_, ?_, ?_⟩
    · rw [Nat.add_zero] at hall
      simpa using hall
    · simp only [List.length_append, List.length_singleton]
      omega
    · rw [hturns, List.map_append, List.map_append, h.outputs]
      rfl
    · rw [hturns, entries, List.zipWith_append h.length, h.log]
      rfl
  · have hturns : savedTurns job (done ++ [⟨path, progress, s⟩]) = savedTurns job done := by
      simp [savedTurns, hsaved]
    refine ⟨hnetwork.trans h.network, h.grows.trans hgrows, ?_, ?_, ?_⟩
    · rw [List.length_append, List.length_singleton, ← hcount, Nat.add_assoc]
    · rw [hturns, h.outputs]
    · rw [hturns, h.log]

/-- The lines of saved images in the timing log. -/
def logText (saved : List (Turn σ Progress)) (outputs : List Parsed) : String :=
  String.join (List.zipWith
    (fun turn parsed => Timing.entry (logName turn.path) parsed.elapsed ++ "\n") saved outputs)

omit [Resizer] in
theorem text_entries (log : Timing.Log) (saved : List (Turn σ Progress)) (outputs : List Parsed) :
    { log with entries := entries saved outputs }.text = logText saved outputs := by
  simp only [Timing.Log.text, entries, logText, List.map_zipWith]

/-- A run ends unless processing one of its images crashes. -/
theorem run_ok_iff {source : Source} {images : List FilePath} {log : Timing.Log}
    (hstart : start job source s = (.ok (images, log), u)) :
    (∃ summary t, run job source s = (.ok summary, t)) ↔
      ∀ turn ∈ runTurns job source s, ∀ crash t,
        processImage job turn.path turn.session ≠ (.error (.crash crash), t) := by
  constructor
  · rintro ⟨summary, t, h⟩ turn hturn crash v hcrash
    rw [runTurns_of_start hstart] at hturn
    have hfault := foldlM_error_of_mem hturn
      (step_error_iff.2 ⟨crash, v, rfl, processImage_crash_iff.1 hcrash, rfl⟩)
    obtain ⟨_, hnone, -⟩ | ⟨last, w, hloop, -⟩ := run_inv hstart h
    · cases hnone
    · cases hloop.symm.trans hfault
  · intro hnone
    rcases hrun : run job source s with ⟨r, t⟩
    obtain ⟨fault, -, hloop⟩ | ⟨last, v, -, rfl, -⟩ := run_inv hstart hrun
    · obtain ⟨turn, hturn, hstep⟩ := foldlM_error_iff.1 hloop
      obtain ⟨crash, w, -, hlabel, -⟩ := step_error_iff.1 hstep
      rw [← runTurns_of_start hstart] at hturn
      exact absurd (processImage_crash_iff.2 hlabel) (hnone turn hturn crash w)
    · exact ⟨_, t, rfl⟩

theorem run_ok_inv {source : Source} {images : List FilePath} {log : Timing.Log}
    {summary : Summary} {t : Session σ} (hstart : start job source s = (.ok (images, log), u))
    (h : run job source s = (.ok summary, t)) :
    ∃ last v, images.foldlM (step job) { log } u = (.ok last, v) ∧
      runTurns job source s = turns (step job) { log } images u ∧
      summary = ⟨last.outputs, last.failed, last.log.path⟩ ∧
      t.files = last.log.finish v.files ∧ t.metrics = v.metrics := by
  obtain ⟨_, hfault, -⟩ | ⟨last, v, hloop, hsummary, hfiles, hmetrics⟩ := run_inv hstart h
  · cases hfault
  · cases hsummary
    exact ⟨last, v, hloop, runTurns_of_start hstart, rfl, hfiles, hmetrics⟩

/-- What the turns of a run that began with these images have added to its books. -/
theorem kept_of_loop {images : List FilePath} {log : Timing.Log} {last : Progress} {v : Session σ}
    (hentries : log.entries = []) (hloop : images.foldlM (step job) { log } u = (.ok last, v)) :
    Kept job log u (turns (step job) { log } images u) last v :=
  turns_induct (fun _ _ _ _ _ _ hdone hstep => hdone.step hstep) hloop (kept_nil hentries u)

/-- What a run finds in its timing log when it writes it, after these images or some of them. -/
theorem find?_log_of_loop {source : Source} {images images' : List FilePath} {log : Timing.Log}
    {last : Progress} {v : Session σ} (hfs : s.files.Grounded)
    (hstart : start job source s = (.ok (images', log), u))
    (hloop : images.foldlM (step job) { log } u = (.ok last, v))
    (huntouched : ∀ turn ∈ turns (step job) { log } images u,
      ∀ file ∈ written job turn.path turn.session, file.1 ≠ log.location) :
    (last.log.finish v.files).find? log.path = some (.file (.bytes (Utf8.encode
      (logText (savedTurns job (turns (step job) { log } images u)) last.outputs)))) := by
  obtain ⟨-, hcreate, -, -⟩ := start_ok_inv hstart
  obtain ⟨hpath, hentries⟩ := create_log_inv hcreate
  obtain ⟨hgrounded, -, hlog⟩ := start_inv hstart hfs
  obtain ⟨hgrounded', htree, hkept⟩ := lookup_of_loop hgrounded hloop
  have hplace : last.log.location = log.location := by
    rw [(kept_of_loop hentries hloop).log]
  -- the file of the log is still empty when the log is written
  obtain ⟨-, hwritable, hempty⟩ := (hfs.makeTree _).create_ok_inv hcreate
  have hend : v.files.lookup? last.log.location = some (.file (.bytes [])) := by
    rw [hplace, hkept _ huntouched, hempty, FileSystem.lookup?_put _ _ _ hwritable.ne_root,
      if_pos rfl]
  have hresolve : v.files.resolve true log.path = .ok last.log.location := by
    rw [hplace, hpath]
    exact htree.resolve hlog
  rw [hgrounded'.find?_finish hend hresolve, (kept_of_loop hentries hloop).log, text_entries]

/-- The books of a run that began with these images and this timing log. -/
structure Books (job : Job) (images : List FilePath) (log : Timing.Log) (s : Session σ)
    (done : List (Turn σ Progress)) (summary : Summary) (t : Session σ) : Prop where
  visited : done.map Turn.path = images
  count : summary.outputs.length + summary.failed = images.length
  outputs : (summary.outputs.map fun parsed => (parsed.colours, parsed.labels)) =
    (savedTurns job done).map fun turn => (coloursPath job turn.path, labelsPath job turn.path)
  timing : (∀ turn ∈ done, ∀ file ∈ written job turn.path turn.session, file.1 ≠ log.location) →
    t.files.find? summary.timingLog =
      some (.file (.bytes (Utf8.encode (logText (savedTurns job done) summary.outputs))))
  metrics : Metrics.Grows (recorder s.network.device) summary.outputs.length summary.failed
    s.metrics t.metrics

theorem books_of_run {source : Source} {images : List FilePath} {log : Timing.Log}
    {summary : Summary} {t : Session σ} (hfs : s.files.Grounded)
    (hstart : start job source s = (.ok (images, log), u))
    (h : run job source s = (.ok summary, t)) :
    Books job images log s (runTurns job source s) summary t := by
  obtain ⟨-, hcreate, hnetwork, hmetrics⟩ := start_ok_inv hstart
  obtain ⟨last, v, hloop, hturns, rfl, hfiles, hmetrics'⟩ := run_ok_inv hstart h
  have hkept := kept_of_loop (create_log_inv hcreate).2 hloop
  have hvisited := map_path_turns hloop
  have htiming := find?_log_of_loop hfs hstart hloop
  rw [← hturns] at hkept hvisited htiming
  refine ⟨hvisited, ?_, hkept.outputs, fun huntouched => ?_, ?_⟩
  · rw [hkept.count, ← List.length_map (f := Turn.path), hvisited]
  · show t.files.find? last.log.path = _
    rw [hfiles, ← htiming huntouched, hkept.log]
  · have hgrows := hkept.grows
    rwa [hnetwork, hmetrics, ← hmetrics'] at hgrows

/-- **A run that crashes keeps the lines of its timing log.** They are those of the images that were
saved before the one that brought it down. -/
theorem log_of_crashed_run {source : Source} {images : List FilePath} {log : Timing.Log}
    {crash : Crash} {t : Session σ} (hfs : s.files.Grounded)
    (hstart : start job source s = (.ok (images, log), u))
    (h : run job source s = (.error (.crash crash), t)) :
    ∃ done turn, runTurns job source s = done ++ [turn] ∧
      (∃ v, processImage job turn.path turn.session = (.error (.crash crash), v)) ∧
      ((∀ turn ∈ done, ∀ file ∈ written job turn.path turn.session, file.1 ≠ log.location) →
        t.files.find? log.path = some (.file (.bytes (Utf8.encode
          (logText (savedTurns job done) turn.progress.outputs))))) := by
  obtain ⟨_, hfault, hloop⟩ | ⟨last, v, -, hnone, -⟩ := run_inv hstart h
  · cases hfault
    obtain ⟨done, turn, hsplit, hdone, hbefore, hstep⟩ := foldlM_error_inv hloop
    obtain ⟨crash', w, hcrash, hlabel, rfl⟩ := step_error_iff.1 hstep
    cases hcrash
    refine ⟨done, turn, (runTurns_of_start hstart).trans hsplit,
      ⟨w, processImage_crash_iff.2 hlabel⟩, fun huntouched => ?_⟩
    have hlog := find?_log_of_loop hfs hstart hbefore
    rw [hdone] at hlog
    rw [← hlog huntouched, ← ((quiet_labelImage job turn.path).same hlabel).files]
  · cases hnone

/-- Writing the timing log changes no results. -/
theorem find?_finish_of_loop {source : Source} {images : List FilePath} {log : Timing.Log}
    {last : Progress} {v : Session σ} (hstart : start job source s = (.ok (images, log), u))
    (hloop : images.foldlM (step job) { log } u = (.ok last, v)) (hfs : u.files.Grounded)
    (hsep : Separate job u.files images log.location) (hpath : path ∈ images) {a : FilePath}
    (ha : a ∈ artifactPaths job [path]) :
    (last.log.finish v.files).find? a = v.files.find? a := by
  obtain ⟨-, hcreate, -, -⟩ := start_ok_inv hstart
  obtain ⟨hgrounded, htree, -⟩ := lookup_of_loop hfs hloop
  have hkept := kept_of_loop (create_log_inv hcreate).2 hloop
  refine (hgrounded.finish last.log).2 a fun hplace => ?_
  rw [hkept.log] at hplace
  exact hsep.log a (artifactPaths_mono (by simpa using hpath) ha) (htree.resolve_iff.1 hplace)

/-- **The books of a run agree, and its images do not disturb each other.** A run ends unless
processing one of its images crashes. Then every image is either among the outputs or counted as
failed, the timing log has a line for each output, unless something else was written to its file,
and the measurements have grown alike. What an image leaves behind does not depend on the others. -/
theorem accounting_of_run {source : Source} {images : List FilePath} {log : Timing.Log}
    (hfs : s.files.Grounded) (hstart : start job source s = (.ok (images, log), u)) :
    let done := runTurns job source s
    (source.images (s.files.makeTree job.outputDirectory).1).2 = .ok images ∧
    ((∃ summary t, run job source s = (.ok summary, t)) ↔
      ∀ turn ∈ done, ∀ crash t,
        processImage job turn.path turn.session ≠ (.error (.crash crash), t)) ∧
    ∀ summary t, run job source s = (.ok summary, t) →
      Books job images log s done summary t ∧
      (s.network.Pure → Separate job u.files images log.location →
        ∀ source' s' others log' u' summary' t', s'.files.Grounded → s'.network = s.network →
          start job source' s' = (.ok (others, log'), u') →
          run job source' s' = (.ok summary', t') →
          u.files.SameTree u'.files → Separate job u'.files others log'.location →
          ∀ path ∈ images, path ∈ others →
            (∀ p ∈ path :: artifactPaths job [path], u'.files.find? p = u.files.find? p) →
            (∀ turn ∈ done, ∀ turn' ∈ runTurns job source' s', turn.path = path →
              turn'.path = path → processed job turn' = processed job turn) ∧
            ∀ a ∈ artifactPaths job [path], t'.files.find? a = t.files.find? a) := by
  intro done
  refine ⟨(start_ok_inv hstart).1, run_ok_iff hstart, fun summary t hrun => ?_⟩
  refine ⟨books_of_run hfs hstart hrun, ?_⟩
  intro hpure hsep source' s' others log' u' summary' t' hfs' hnetwork' hstart' hrun' htree hsep'
    path hpath hpath' hsame
  obtain ⟨hgrounded, hnetwork, -⟩ := start_inv hstart hfs
  obtain ⟨hgrounded', hnetwork'', -⟩ := start_inv hstart' hfs'
  obtain ⟨last, v, hloop, hturns, -, hfiles, -⟩ := run_ok_inv hstart hrun
  obtain ⟨last', v', hloop', hturns', -, hfiles', -⟩ := run_ok_inv hstart' hrun'
  obtain ⟨hprocessed, hartifacts⟩ := agree_of_loops hloop hgrounded hsep hloop' hgrounded' hsep'
    (hnetwork ▸ hpure) (by rw [hnetwork'', hnetwork', hnetwork]) htree hpath hpath' hsame
  rw [← hturns, ← hturns'] at hprocessed
  refine ⟨hprocessed, fun a ha => ?_⟩
  rw [hfiles, hfiles', find?_finish_of_loop hstart hloop hgrounded hsep hpath ha,
    find?_finish_of_loop hstart' hloop' hgrounded' hsep' hpath' ha]
  exact hartifacts a ha

end

/-- A session with a list of two pictures, the second of which is missing, whose timing log is a
link to the coloured labels of the first. -/
def linkedSession : Session Unit where
  files := ⟨(((Table.empty.put [Utf8.encode "x.png"]
    (.file (.picture ⟨.png, .rgb, .eight, 1, 1, #[0, 0, 0]⟩))).put [Utf8.encode "list"]
    (.file (.bytes (Utf8.encode "x.png\ny.png")))).put [Utf8.encode "out"]
    .directory).put [Utf8.encode "out", Utf8.encode "time_parsing_cpu.txt"]
    (.link (.ofString "parsed_x.png")), []⟩
  network := ⟨.cpu, fun _ state => (.ok (Tensor.batch 2 20 1 1 fun _ _ _ _ => 0), state)⟩
  state := ()
  clock _ := .zero

/-- That session with the second picture. -/
def completedSession : Session Unit :=
  { linkedSession with
    files := linkedSession.files.put [Utf8.encode "y.png"]
      (.file (.picture ⟨.png, .rgb, .eight, 1, 1, #[0, 0, 0]⟩)) }

/-- The first image of that session is saved, and its timing log is no text. What is left of its
coloured labels depends on whether the second image fails. -/
theorem timingLog_linked :
    let source : Source := .list (.ofString "list") ⟨[]⟩
    ∃ summary t summary' t', run plainJob source linkedSession = (.ok summary, t) ∧
      run plainJob source completedSession = (.ok summary', t') ∧
      (summary.outputs.length = 1 ∧ summary.failed = 1) ∧
      (summary'.outputs.length = 2 ∧ summary'.failed = 0) ∧
      (∀ bytes, t.files.find? summary.timingLog ≠ some (.file (.bytes bytes))) ∧
      t'.files.find? (coloursPath plainJob (.ofString "x.png")) ≠
        t.files.find? (coloursPath plainJob (.ofString "x.png")) := by
  intro source
  have hends : ends (fun summary t => summary.outputs.length == 1 && summary.failed == 1 &&
      decide (t.files.find? summary.timingLog = some (.file (.spoiled
        (Utf8.encode "x.png\t0.0000 ms\n") ⟨.png, .rgb, .eight, 1, 1, #[0, 0, 0]⟩))) &&
      ends (fun summary' t' => summary'.outputs.length == 2 && summary'.failed == 0 &&
        decide (t'.files.find? (coloursPath plainJob (.ofString "x.png")) ≠
          t.files.find? (coloursPath plainJob (.ofString "x.png"))))
        (run plainJob source) completedSession)
      (run plainJob source) linkedSession = true := by
    decide +kernel
  obtain ⟨summary, t, hrun, hcheck⟩ := ends_inv hends
  simp only [Bool.and_eq_true, beq_iff_eq, decide_eq_true_eq] at hcheck
  obtain ⟨⟨hcounts, hspoiled⟩, hends'⟩ := hcheck
  obtain ⟨summary', t', hrun', hcheck'⟩ := ends_inv hends'
  simp only [Bool.and_eq_true, beq_iff_eq, decide_eq_true_eq] at hcheck'
  obtain ⟨hcounts', hdiffer⟩ := hcheck'
  refine ⟨summary, t, summary', t', hrun, hrun', hcounts, hcounts', fun bytes hbytes => ?_, hdiffer⟩
  rw [hspoiled] at hbytes
  cases hbytes

/-- A session with two pictures and a list of three. -/
def gapSession : Session Unit where
  files := ⟨((Table.empty.put [Utf8.encode "a.png"]
    (.file (.picture ⟨.png, .rgb, .eight, 1, 1, #[0, 0, 0]⟩))).put [Utf8.encode "c.png"]
    (.file (.picture ⟨.png, .rgb, .eight, 1, 1, #[0, 0, 0]⟩))).put [Utf8.encode "list"]
    (.file (.bytes (Utf8.encode "a.png\nb.png\nc.png"))), []⟩
  network := ⟨.cpu, fun _ state => (.ok (Tensor.batch 2 20 1 1 fun _ _ _ _ => 0), state)⟩
  state := ()
  clock _ := .zero

theorem grounded_gapSession : gapSession.files.Grounded :=
  FileSystem.grounded_of_rows (by decide +kernel)

/-- The first and the last image of that list are saved, and the last one gets what it gets in a run
without the others. -/
theorem accounting_of_run_gap :
    let source : Source := .list (.ofString "list") ⟨[]⟩
    let last : FilePath := .ofString "c.png"
    ∃ summary t summary' t',
      run plainJob source gapSession = (.ok summary, t) ∧
      run plainJob (.single last) gapSession = (.ok summary', t') ∧
      summary.outputs.length = 2 ∧ summary.failed = 1 ∧
      t.files.find? summary.timingLog = some (.file (.bytes (Utf8.encode
        "a.png\t0.0000 ms\nc.png\t0.0000 ms\n"))) ∧
      ∀ a ∈ artifactPaths plainJob [last], t'.files.find? a = t.files.find? a := by
  intro source last
  have hbegins : ends (fun begun u =>
      decide (Separate plainJob u.files begun.1 begun.2.location) && begun.1.contains last &&
        ((turns (step plainJob) { log := begun.2 } begun.1 u).all fun turn =>
          (written plainJob turn.path turn.session).all fun file =>
            file.1 != begun.2.location) &&
        ends (fun begun' u' =>
          decide (u'.files = u.files ∧
            Separate plainJob u'.files begun'.1 begun'.2.location ∧ last ∈ begun'.1))
          (start plainJob (.single last)) gapSession)
      (start plainJob source) gapSession = true := by
    decide +kernel
  have hends : ends (fun summary _ => summary.outputs.length == 2 && summary.failed == 1 &&
      logText (savedTurns plainJob (runTurns plainJob source gapSession)) summary.outputs ==
        "a.png\t0.0000 ms\nc.png\t0.0000 ms\n")
      (run plainJob source) gapSession = true := by
    decide +kernel
  have hends' : ends (fun _ _ => true) (run plainJob (.single last)) gapSession = true := by
    decide +kernel
  obtain ⟨⟨images, log⟩, u, hstart, hcheck⟩ := ends_inv hbegins
  simp only [Bool.and_eq_true, decide_eq_true_eq, List.contains_iff_mem, List.all_eq_true,
    bne_iff_ne] at hcheck
  obtain ⟨⟨⟨hsep, hlast⟩, huntouched⟩, hcheck'⟩ := hcheck
  obtain ⟨⟨others, log'⟩, u', hstart', hcheck'⟩ := ends_inv hcheck'
  obtain ⟨hfiles, hsep', hlast'⟩ := of_decide_eq_true hcheck'
  obtain ⟨summary, t, hrun, hcounts⟩ := ends_inv hends
  obtain ⟨summary', t', hrun', -⟩ := ends_inv hends'
  simp only [Bool.and_eq_true, beq_iff_eq] at hcounts
  obtain ⟨⟨hsaved, hfailed⟩, htext⟩ := hcounts
  obtain ⟨-, -, hbooks⟩ := accounting_of_run grounded_gapSession hstart
  obtain ⟨hbooked, hisolated⟩ := hbooks summary t hrun
  obtain ⟨-, hartifacts⟩ := hisolated (fun _ _ _ => rfl) hsep (.single last) gapSession others log'
    u' summary' t' grounded_gapSession rfl hstart' hrun' (hfiles ▸ .refl _) hsep' last hlast hlast'
    fun p _ => by rw [hfiles]
  have htiming := hbooked.timing (runTurns_of_start hstart ▸ huntouched)
  rw [htext] at htiming
  exact ⟨summary, t, summary', t', hrun, hrun', hsaved, hfailed, htiming, hartifacts⟩

end ImageLabeling.Parsing
