import ImageLabeling.Proofs.File.Folder
import ImageLabeling.Proofs.Parsing.Accounting

/-!
# How a parsing run begins and ends

Opening a run makes the output directory, resolves the source and creates the timing log. It ends in
one of four ways (`Opening`), and whichever it is, it neither measures anything nor feeds anything
to the network (`start_opening`). Once a run is open no failure ends it: a failure of an image at
any stage is counted (`step_of_failure`). So a run fails exactly if it cannot be opened:
`ending_of_run`.
-/

namespace ImageLabeling.Parsing

open Session

variable {σ : Type} {job : Job} {source : Source} {s t : Session σ}

/-! ## Opening a run -/

/-- The files once the output directory has been made, as far as that was possible. -/
def prepared (job : Job) (s : Session σ) : FileSystem :=
  (s.files.makeTree job.outputDirectory).1

/-- How opening a run ends, and which files it leaves behind. -/
inductive Opening (job : Job) (source : Source) (s : Session σ) :
    Except Fault (List FilePath × Timing.Log) → FileSystem → Prop
  | noOutputDirectory (fault : PathFault)
    (hmake : (s.files.makeTree job.outputDirectory).2 = .error fault) :
    Opening job source s (.error (.failure (.noOutputDirectory job.outputDirectory)))
      (prepared job s)
  | noSource (failure : Failure) (hmake : (s.files.makeTree job.outputDirectory).2 = .ok ())
    (hsource : (source.images (prepared job s)).2 = .error failure) :
    Opening job source s (.error (.failure failure)) (prepared job s)
  | noTimingLog (images : List FilePath) (fault : PathFault)
    (hmake : (s.files.makeTree job.outputDirectory).2 = .ok ())
    (hsource : (source.images (prepared job s)).2 = .ok images)
    (hlog : Timing.Log.create (prepared job s) (timingPath job s.network.device) = .error fault) :
    Opening job source s
      (.error (.failure (.noTimingLog (timingPath job s.network.device)))) (prepared job s)
  | opened (images : List FilePath) (log : Timing.Log) (files : FileSystem)
    (hmake : (s.files.makeTree job.outputDirectory).2 = .ok ())
    (hsource : (source.images (prepared job s)).2 = .ok images)
    (hlog : Timing.Log.create (prepared job s) (timingPath job s.network.device) =
      .ok (files, log)) :
    Opening job source s (.ok (images, log)) files

theorem makeOutputDirectory_apply (job : Job) (s : Session σ) :
    makeOutputDirectory job s =
      ((s.files.makeTree job.outputDirectory).2.mapError fun _ =>
        .failure (.noOutputDirectory job.outputDirectory), { s with files := prepared job s }) := by
  unfold makeOutputDirectory prepared
  rw [bind_ok (show (get : Run σ (Session σ)) s = (.ok s, s) from rfl)]
  rcases s.files.makeTree job.outputDirectory with ⟨files, fault | made⟩ <;> rfl

theorem resolveSource_apply (source : Source) (s : Session σ) :
    resolveSource source s =
      ((source.images s.files).2.mapError .failure,
        s.told (source.images s.files).1) := by
  unfold resolveSource
  rw [bind_ok (show (get : Run σ (Session σ)) s = (.ok s, s) from rfl)]
  rcases source.images s.files with ⟨events, paths⟩
  exact (bind_ok rfl _).trans (ofExcept_apply _ _)

/-- **Opening a run ends in one of four ways**, before anything is fed to the network. -/
theorem start_opening {r : Except Fault (List FilePath × Timing.Log)}
    (h : start job source s = (r, t)) : Opening job source s r t.files ∧ Idle s t := by
  have hmade := makeOutputDirectory_apply job s
  unfold start at h
  cases hmake : (s.files.makeTree job.outputDirectory).2 with
  | error fault =>
    rw [hmake] at hmade
    rw [bind_error hmade] at h
    cases h
    exact ⟨.noOutputDirectory fault hmake, rfl, rfl, rfl⟩
  | ok made =>
    rw [hmake] at hmade
    rw [bind_ok hmade] at h
    have hresolved := resolveSource_apply source { s with files := prepared job s }
    dsimp only at hresolved
    cases hsource : (source.images (prepared job s)).2 with
    | error failure =>
      rw [hsource] at hresolved
      rw [bind_error hresolved] at h
      cases h
      exact ⟨.noSource failure hmake hsource, rfl, rfl, rfl⟩
    | ok images =>
      rw [hsource] at hresolved
      rw [bind_ok hresolved] at h
      generalize (⟨.info, "Human parsing starting", _⟩ : Event) = event at h
      rw [bind_ok (show report event _ = (.ok (), _) from rfl),
        bind_ok (show (get : Run σ (Session σ)) _ = (.ok _, _) from rfl)] at h
      dsimp only at h
      generalize hbegun : Session.told _ [event] = u at h
      have hfiles : u.files = prepared job s := by
        rw [← hbegun]
        rfl
      have hidle : Idle s u := by
        rw [← hbegun]
        exact ⟨rfl, rfl, rfl⟩
      rw [hidle.network] at h
      rcases hcreate : createLog (timingPath job s.network.device) u with ⟨fault | log, v⟩
      · rw [bind_error hcreate] at h
        obtain ⟨⟨e, he⟩, rfl, rfl⟩ := createLog_error_iff.1 hcreate
        cases h
        rw [hfiles] at he ⊢
        exact ⟨.noTimingLog images e hmake hsource he, hidle⟩
      · rw [bind_ok hcreate] at h
        obtain ⟨files, hlog, rfl⟩ := createLog_ok_iff.1 hcreate
        cases h
        rw [hfiles] at hlog
        exact ⟨.opened images log files hmake hsource hlog, hidle.network, hidle.state,
          hidle.metrics⟩

/-- A run that does not open leaves nothing behind but directories. -/
theorem Opening.files_eq {fault : Fault} {files : FileSystem}
    (h : Opening job source s (.error fault) files) : files = prepared job s := by
  cases h with
  | noOutputDirectory | noSource | noTimingLog => rfl

theorem Opening.deepened {fault : Fault} {files : FileSystem}
    (h : Opening job source s (.error fault) files) : s.files.Deepened files := by
  rw [h.files_eq]
  exact FileSystem.deepened_makeTree s.files job.outputDirectory

variable [Resizer]

/-! ## Whole runs -/

/-- How a run that does not crash ends. -/
structure Ending (job : Job) (source : Source) (s : Session σ) (r : Except Fault Summary)
    (t : Session σ) : Prop where
  fails_iff : (∃ fault, r = .error fault) ↔
    (∃ e, (s.files.makeTree job.outputDirectory).2 = .error e) ∨
      (∃ failure, (source.images (prepared job s)).2 = .error failure) ∨
      ∃ e, Timing.Log.create (prepared job s) (timingPath job s.network.device) = .error e
  fatal : ∀ fault, r = .error fault →
    Opening job source s (.error fault) t.files ∧ Idle s t ∧ s.files.Deepened t.files
  counted : ∀ turn ∈ runTurns job source s, ∀ failure u,
    processImage job turn.path turn.session = (.error (.failure failure), u) →
      ∃ next v, step job turn.progress turn.path turn.session = (.ok next, v) ∧
        next.outputs = turn.progress.outputs ∧ next.failed = turn.progress.failed + 1
  complete : ∀ summary, r = .ok summary → ∃ images,
    (source.images (prepared job s)).2 = .ok images ∧
      (runTurns job source s).map Turn.path = images ∧
      summary.outputs.length + summary.failed = images.length ∧
      summary.failed = (runTurns job source s).countP fun turn => processed job turn = false

theorem Kept.failed {log : Timing.Log} {u : Session σ} {done : List (Turn σ Progress)}
    {progress : Progress} (h : Kept job log u done progress s) :
    progress.failed = done.countP fun turn => processed job turn = false := by
  have hcount := h.count
  have hsaved := h.length
  rw [savedTurns, ← List.countP_eq_length_filter] at hsaved
  have hsplit := List.length_eq_countP_add_countP (processed job) (l := done)
  simp only [Bool.not_eq_true] at hsplit
  omega

/-- A run that has opened and does not crash has a summary. -/
theorem complete_of_start {images : List FilePath} {log : Timing.Log} {u : Session σ}
    {r : Except Fault Summary} (hstart : start job source s = (.ok (images, log), u))
    (h : run job source s = (r, t)) (hcrash : ∀ crash, r ≠ .error (.crash crash)) :
    ∃ summary, r = .ok summary := by
  obtain ⟨fault, rfl, hloop⟩ | ⟨last, v, -, hsummary, -⟩ := run_inv hstart h
  · obtain ⟨turn, -, hstep⟩ := foldlM_error_iff.1 hloop
    obtain ⟨crash, _, rfl, -⟩ := step_error_iff.1 hstep
    exact absurd rfl (hcrash crash)
  · exact ⟨_, hsummary⟩

theorem ending_of_run {r : Except Fault Summary} (h : run job source s = (r, t))
    (hcrash : ∀ crash, r ≠ .error (.crash crash)) : Ending job source s r t := by
  have hcounted : ∀ turn ∈ runTurns job source s, ∀ failure u,
      processImage job turn.path turn.session = (.error (.failure failure), u) →
        ∃ next v, step job turn.progress turn.path turn.session = (.ok next, v) ∧
          next.outputs = turn.progress.outputs ∧ next.failed = turn.progress.failed + 1 :=
    fun turn _ failure u hfailure => step_of_failure hfailure turn.progress
  rcases hstart : start job source s with ⟨fault | ⟨images, log⟩, u⟩
  · obtain ⟨hopening, hidle⟩ := start_opening hstart
    unfold run at h
    rw [bind_error hstart] at h
    cases h
    refine ⟨⟨fun _ => ?_, fun _ => ⟨fault, rfl⟩⟩, ?_, hcounted, fun _ => nofun⟩
    · generalize t.files = files at hopening
      generalize hr : (Except.error fault : Except Fault (List FilePath × Timing.Log)) = r
        at hopening
      cases hopening with
      | noOutputDirectory e hmake => exact .inl ⟨e, hmake⟩
      | noSource failure hmake hsource => exact .inr (.inl ⟨failure, hsource⟩)
      | noTimingLog images e hmake hsource hlog => exact .inr (.inr ⟨e, hlog⟩)
      | opened => cases hr
    · rintro fault' hfault
      cases hfault
      exact ⟨hopening, hidle, hopening.deepened⟩
  · obtain ⟨hopening, -⟩ := start_opening hstart
    obtain ⟨summary, rfl⟩ := complete_of_start hstart h hcrash
    obtain ⟨last, v, hloop, hturns, rfl, -⟩ := run_ok_inv hstart h
    obtain ⟨-, hcreate, -⟩ := start_ok_inv hstart
    have hkept := kept_of_loop (create_log_inv hcreate).2 hloop
    have hvisited := map_path_turns hloop
    rw [← hturns] at hkept hvisited
    generalize u.files = files at hopening
    cases hopening with
    | opened _ _ _ hmake hsource hlog =>
      refine ⟨⟨nofun, ?_⟩, nofun, hcounted, ?_⟩
      · rintro (⟨e, he⟩ | ⟨failure, hfailure⟩ | ⟨e, he⟩)
        · rw [hmake] at he
          cases he
        · rw [hsource] at hfailure
          cases hfailure
        · rw [hlog] at he
          cases he
      · rintro summary hsummary
        cases hsummary
        refine ⟨images, hsource, hvisited, ?_, hkept.failed⟩
        rw [← hvisited, List.length_map]
        exact hkept.count

end ImageLabeling.Parsing
