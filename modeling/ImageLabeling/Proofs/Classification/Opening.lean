import ImageLabeling.Proofs.Classification.Accounting

/-!
# How a classification run begins and ends

Opening a run only creates its timing log (`start_cases`). Once it is open no failure ends it: a
failure of an image at any stage is counted (`step_of_failure`), and booking a prediction can only
crash (`step_error_inv`). So a run fails exactly if its timing log cannot be created:
`ending_of_run`.
-/

namespace ImageLabeling.Classification

open Session

variable {σ : Type} {job : Job} {images : List FilePath} {path timingLog : FilePath}
  {s t u : Session σ}

/-- Opening a run ends in one of two ways, before anything is fed to the network. -/
theorem start_cases {r : Except Fault Timing.Log} (h : start job images timingLog s = (r, t)) :
    ((∃ e, Timing.Log.create s.files timingLog = .error e ∧
        r = .error (.failure (.noTimingLog timingLog)) ∧ t.files = s.files) ∨
      ∃ files log, Timing.Log.create s.files timingLog = .ok (files, log) ∧ r = .ok log) ∧
      Idle s t := by
  unfold start at h
  rw [bind_ok (show (get : Run σ (Session σ)) s = (.ok s, s) from rfl)] at h
  generalize (⟨.info, "Classification starting", _⟩ : Event) = event at h
  rw [bind_ok (show report event s = (.ok (), s.told [event]) from rfl)] at h
  cases r with
  | error fault =>
    obtain ⟨⟨e, he⟩, rfl, rfl⟩ := createLog_error_iff.1 h
    exact ⟨.inl ⟨e, he, rfl, rfl⟩, rfl, rfl, rfl⟩
  | ok log =>
    obtain ⟨files, hlog, rfl⟩ := createLog_ok_iff.1 h
    exact ⟨.inr ⟨files, log, hlog, rfl⟩, rfl, rfl, rfl⟩

variable [Resizer]

/-- A failing image is counted as failed, and the run goes on. -/
theorem step_of_failure {failure : Failure} (h : visit job path s = (.ok (.error failure), t))
    (progress : Progress) :
    ∃ u, step job progress path s =
      (.ok { progress with failed := progress.failed + 1 }, u) :=
  ⟨_, bind_ok (holding_ok_iff.2 h) _⟩

/-- How a run that does not crash ends. -/
structure Ending (job : Job) (images : List FilePath) (timingLog : FilePath) (s : Session σ)
    (r : Except Fault Summary) (t : Session σ) : Prop where
  fails_iff : (∃ fault, r = .error fault) ↔
    ∃ e, Timing.Log.create s.files timingLog = .error e
  fatal : ∀ fault, r = .error fault →
    fault = .failure (.noTimingLog timingLog) ∧ Idle s t ∧ t.files = s.files
  counted : ∀ turn ∈ runTurns job images timingLog s, ∀ failure u,
    visit job turn.path turn.session = (.ok (.error failure), u) →
      ∃ v, step job turn.progress turn.path turn.session =
        (.ok { turn.progress with failed := turn.progress.failed + 1 }, v)
  complete : ∀ summary, r = .ok summary →
    (runTurns job images timingLog s).map Turn.path = images ∧
      summary.processed + summary.failed = images.length ∧
      summary.failed = (runTurns job images timingLog s).countP fun turn =>
        (prediction job turn).isNone

theorem failed_of_run {summary : Summary}
    (h : run job images timingLog s = (.ok summary, t)) :
    summary.failed = (runTurns job images timingLog s).countP fun turn =>
      (prediction job turn).isNone := by
  have hfailed : summary.failed = _ := congrArg Counts.failed (tallied_of_run h).counts
  simp only [tally, List.countP_map] at hfailed
  rw [hfailed]
  refine List.countP_congr fun turn _ => ?_
  have hprocessed := isProcessed_outcome job turn.path turn.session
  rw [← map_label_prediction, Option.isSome_map] at hprocessed
  rw [Function.comp_apply, beq_iff_eq, ← Option.not_isSome, ← hprocessed]
  cases outcome job turn.path turn.session <;> simp [Outcome.isProcessed]

theorem ending_of_run {r : Except Fault Summary} (h : run job images timingLog s = (r, t))
    (hcrash : ∀ crash, r ≠ .error (.crash crash)) : Ending job images timingLog s r t := by
  rcases hstart : start job images timingLog s with ⟨fault | log, u⟩
  · obtain ⟨⟨e, hcreate, hfault, hfiles⟩ | ⟨_, _, -, hok⟩, hidle⟩ := start_cases hstart
    · unfold run at h
      rw [bind_error hstart] at h
      cases hfault
      cases h
      refine ⟨⟨fun _ => ⟨e, hcreate⟩, fun _ => ⟨_, rfl⟩⟩, ?_, ?_, fun _ => nofun⟩
      · rintro fault hfault
        cases hfault
        exact ⟨rfl, hidle, hfiles⟩
      · exact fun turn _ failure u hfailure => step_of_failure hfailure turn.progress
    · cases hok
  · obtain ⟨⟨_, -, hfault, -⟩ | ⟨files, log', hcreate, -⟩, -⟩ := start_cases hstart
    · cases hfault
    rcases run_inv hstart h with ⟨fault, rfl, hloop⟩ | ⟨last, v, -, rfl, -⟩
    · obtain ⟨turn, -, hstep⟩ := foldlM_error_iff.1 hloop
      obtain ⟨⟨crash, rfl⟩, -⟩ := step_error_inv hstep
      exact absurd rfl (hcrash crash)
    · have htallied := tallied_of_run h
      refine ⟨⟨nofun, fun ⟨e, he⟩ => ?_⟩, nofun, ?_, fun summary' hsummary => ?_⟩
      · rw [hcreate] at he
        cases he
      · exact fun turn _ failure u hfailure => step_of_failure hfailure turn.progress
      · cases hsummary
        exact ⟨htallied.visited, htallied.images, failed_of_run h⟩

end ImageLabeling.Classification
