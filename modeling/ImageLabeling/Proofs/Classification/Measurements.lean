import ImageLabeling.Classification.Run
import ImageLabeling.Proofs.Metrics
import ImageLabeling.Proofs.Turns

/-!
# What a classification run measures

A run counts an image as a success when its forward pass has been measured, which is before the
answer is read. So an image whose answer cannot be read (`misread`) is counted twice, as a success
and as a failure. Once it has begun, a run ends as the loop over its images does (`run_inv`), and
`measurements_of_run` gives the counts that it adds: they agree with its summary exactly if no image
was misread.
-/

namespace ImageLabeling

namespace Classification

open Session

variable {σ : Type}

/-! ## One image -/

section

variable [Resizer]

/-- The answer of the network for an image file. -/
def forwardPass (job : Job) (path : FilePath) : Run σ Tensor := do
  infer (← prepare job.model.transform (← load path))

theorem visit_eq (job : Job) (path : FilePath) :
    (visit job path : Run σ (Except Failure Prediction)) =
      attempt (forwardPass job path >>= judge job) := by
  simp only [visit, forwardPass, bind_assoc]
  rfl

theorem quiet_prepare (transform : Transform) (image : Raster) :
    Quiet (prepare transform image : Run σ Tensor) := by
  refine (quiet_ofFault _).bind fun image => (quiet_ofFault _).bind fun (width, height) => ?_
  show Quiet (if ¬(width < transform.crop ∨ height < transform.crop) then
    report (resizeEvent image width height transform.crop) >>= fun _ =>
      ofFault (transform.apply image) else ofFault (transform.apply image))
  split
  · exact (quiet_report _).bind fun _ => quiet_ofFault _
  · exact quiet_ofFault _

theorem quiet_forwardPass (job : Job) (path : FilePath) :
    Quiet (forwardPass job path : Run σ Tensor) :=
  (quiet_load path).bind fun image => (quiet_prepare _ image).bind fun input => quiet_infer input

end

/-- What is left of a judgement once its forward pass has been measured. -/
theorem judge_apply (job : Job) (output : Tensor) (s : Session σ) :
    judge job output s =
      (do
        let label ← ofExcept (topClass output)
        reportPrediction job output label
        pure ⟨label, s.clock s.measured⟩ : Run σ Prediction)
      { s with
        measured := s.measured + 1
        metrics := s.metrics.recordSuccess (recorder job.model s.network.device)
          (s.clock s.measured).seconds } := rfl

theorem quiet_reportPrediction (job : Job) (output : Tensor) (label : Nat) :
    Quiet (reportPrediction job output label : Run σ Unit) := by
  refine quiet_get.bind fun s => ?_
  split
  · exact (quiet_ofExcept _).bind fun _ => quiet_report _
  · exact quiet_pure ()

/-- Reporting the prediction for an answer that can be read does nothing but that. -/
theorem reportPrediction_of_readable (job : Job) {output : Tensor} {scores : List Float32}
    (h : classScores output = .ok scores) (label : Nat) (s : Session σ) :
    ∃ reported, reportPrediction job output label s = (.ok (), { s with reported }) := by
  have hranking : ranking job.exp output job.rankedClasses =
      .ok ((rankAll job.exp scores).take job.rankedClasses) := by
    rw [ranking, h]
    rfl
  unfold reportPrediction
  rw [bind_ok (show (get : Run σ (Session σ)) s = (.ok s, s) from rfl), hranking]
  split
  · exact ⟨_, rfl⟩
  · exact ⟨s.reported, rfl⟩

/-- Reading and reporting an answer changes neither files nor measurements. -/
theorem quiet_reading (job : Job) (output : Tensor) (forward : Duration) :
    Quiet (do
      let label ← ofExcept (topClass output)
      reportPrediction job output label
      pure ⟨label, forward⟩ : Run σ Prediction) :=
  (quiet_ofExcept _).bind fun label => (quiet_reportPrediction job output label).bind fun _ =>
    quiet_pure _

/-- The forward pass is measured as a success whether or not its answer can be read. -/
theorem judge_grows (job : Job) (output : Tensor) (s : Session σ) :
    (judge job output s).2.network = s.network ∧
      Metrics.Grows (recorder job.model s.network.device) 1 0 s.metrics
        (judge job output s).2.metrics := by
  rw [judge_apply]
  have hquiet := quiet_reading (σ := σ) job output (s.clock s.measured)
  refine ⟨(hquiet _).network, ?_⟩
  rw [(hquiet _).metrics]
  exact Metrics.grows_recordSuccess _ _ _

theorem judge_files (job : Job) (output : Tensor) (s : Session σ) :
    (judge job output s).2.files = s.files := by
  rw [judge_apply]
  exact (quiet_reading job output _ _).files

theorem judge_of_readable (job : Job) {output : Tensor} {scores : List Float32}
    (h : classScores output = .ok scores) (s : Session σ) :
    ∃ prediction t, judge job output s = (.ok prediction, t) ∧
      topClass output = .ok prediction.label := by
  have htop : topClass output = .ok (highest (0, Number.lowest) 0 scores) := by
    rw [topClass, h]
    rfl
  rw [judge_apply, htop]
  obtain ⟨_, hreport⟩ := reportPrediction_of_readable (σ := σ) job h
    (highest (0, Number.lowest) 0 scores) _
  exact ⟨_, _, (bind_ok rfl _).trans (bind_ok hreport _), rfl⟩

theorem judge_of_unreadable (job : Job) {output : Tensor} {failure : Failure}
    (h : classScores output = .error failure) (s : Session σ) :
    ∃ t, judge job output s = (.error (.failure failure), t) ∧
      topClass output = .error failure := by
  have htop : topClass output = .error failure := by
    rw [topClass, h]
    rfl
  rw [judge_apply, htop]
  exact ⟨_, rfl, rfl⟩

/-! ## Booking an outcome, opening a run -/

/-- A prediction is counted for the accuracy if the name of its image begins with a class. -/
theorem bookLabel_cases {progress next : Progress} {name : String} {label : Nat} {s t : Session σ}
    (h : bookLabel progress name label s = (.ok next, t)) :
    Same s t ∧
      ((∃ truth accuracy, trueLabel name = .ok truth ∧
        progress.accuracy.record label truth = .ok accuracy ∧ next = { progress with accuracy }) ∨
      ∃ failure, trueLabel name = .error failure ∧
        next = { progress with unlabeled := progress.unlabeled + 1 }) := by
  unfold bookLabel at h
  cases htruth : trueLabel name with
  | ok truth =>
    rw [htruth] at h
    obtain ⟨accuracy, u, haccuracy, hrest⟩ := bind_ok_inv h
    cases hrest
    refine ⟨(quiet_ofFault _).same haccuracy, .inl ⟨truth, accuracy, rfl, ?_, rfl⟩⟩
    rw [ofFault_apply] at haccuracy
    cases hrecord : progress.accuracy.record label truth with
    | ok recorded =>
      rw [hrecord] at haccuracy
      cases haccuracy
      rfl
    | error crash =>
      rw [hrecord] at haccuracy
      cases haccuracy
  | error failure =>
    rw [htruth] at h
    obtain ⟨_, u, hreport, hrest⟩ := bind_ok_inv h
    cases hrest
    exact ⟨(quiet_report _).same hreport, .inr ⟨failure, rfl, rfl⟩⟩

theorem bookLabel_inv {progress next : Progress} {name : String} {label : Nat} {s t : Session σ}
    (h : bookLabel progress name label s = (.ok next, t)) :
    next.processed = progress.processed ∧ next.failed = progress.failed ∧ Same s t := by
  obtain ⟨hsame, ⟨_, _, -, -, rfl⟩ | ⟨_, -, rfl⟩⟩ := bookLabel_cases h <;> exact ⟨rfl, rfl, hsame⟩

theorem book_error_inv {job : Job} {progress next : Progress} {path : FilePath}
    {failure : Failure} {s t : Session σ}
    (h : book job progress path (.error failure) s = (.ok next, t)) :
    next.processed = progress.processed ∧ next.failed = progress.failed + 1 ∧
      t.network = s.network ∧
      Metrics.Grows (recorder job.model s.network.device) 0 1 s.metrics t.metrics := by
  cases h
  exact ⟨rfl, rfl, rfl, Metrics.grows_recordFailure _ _⟩

theorem start_inv {job : Job} {images : List FilePath} {timingLog : FilePath} {log : Timing.Log}
    {s t : Session σ} (h : start job images timingLog s = (.ok log, t)) :
    t.network = s.network ∧ t.metrics = s.metrics := by
  obtain ⟨_, u, hget, h⟩ := bind_ok_inv h
  cases hget
  obtain ⟨_, v, hreport, h⟩ := bind_ok_inv h
  obtain ⟨files, -, rfl⟩ := createLog_ok_iff.1 h
  have hsame := (quiet_report _).same hreport
  exact ⟨hsame.network, hsame.metrics⟩

section

variable [Resizer]

/-! ## One turn -/

/-- Whether the network answers for the image of a turn and the answer cannot be read. -/
def misread (job : Job) (turn : Turn σ Progress) : Bool :=
  match (forwardPass job turn.path turn.session).1 with
  | .ok output =>
    match classScores output with
    | .ok _ => false
    | .error _ => true
  | .error _ => false

/-- What a visit returns, and what it has measured by then. -/
inductive Visited (job : Job) (turn : Turn σ Progress) :
    Except Failure Prediction → Session σ → Prop
  | classified (prediction : Prediction) (u : Session σ) (hread : misread job turn = false)
    (hgrows : Metrics.Grows (recorder job.model turn.session.network.device) 1 0
      turn.session.metrics u.metrics) : Visited job turn (.ok prediction) u
  | unanswered (failure : Failure) (u : Session σ) (hread : misread job turn = false)
    (hgrows : Metrics.Grows (recorder job.model turn.session.network.device) 0 0
      turn.session.metrics u.metrics) : Visited job turn (.error failure) u
  | misread (failure : Failure) (u : Session σ) (hread : misread job turn = true)
    (hgrows : Metrics.Grows (recorder job.model turn.session.network.device) 1 0
      turn.session.metrics u.metrics) : Visited job turn (.error failure) u

theorem visit_inv {job : Job} (turn : Turn σ Progress) {outcome : Except Failure Prediction}
    {u : Session σ} (h : visit job turn.path turn.session = (.ok outcome, u)) :
    u.network = turn.session.network ∧ Visited job turn outcome u := by
  rw [visit_eq] at h
  have hquiet : Quiet (forwardPass job turn.path : Run σ Tensor) :=
    quiet_forwardPass job turn.path
  rcases hpass : forwardPass job turn.path turn.session with ⟨fault | output, v⟩
  · -- the network does not answer
    have hsame := hquiet.same hpass
    have hread : misread job turn = false := by simp only [misread, hpass]
    rcases attempt_inv h with ⟨prediction, rfl, hbody⟩ | ⟨failure, rfl, hbody⟩
    · rw [bind_error hpass] at hbody
      cases hbody
    · rw [bind_error hpass] at hbody
      cases hbody
      exact ⟨hsame.network, .unanswered failure u hread (hsame.metrics ▸ .refl _ _)⟩
  · have hsame := hquiet.same hpass
    obtain ⟨hnetwork, hgrows⟩ := judge_grows job output v
    rw [hsame.network] at hnetwork hgrows
    rw [hsame.metrics] at hgrows
    cases hscores : classScores output with
    | ok scores =>
      have hread : misread job turn = false := by simp only [misread, hpass, hscores]
      obtain ⟨prediction, w, hjudge, -⟩ := judge_of_readable job hscores v
      rw [hjudge] at hnetwork hgrows
      rw [attempt_ok ((bind_ok hpass _).trans hjudge)] at h
      cases h
      exact ⟨hnetwork, .classified prediction u hread hgrows⟩
    | error failure =>
      have hread : misread job turn = true := by simp only [misread, hpass, hscores]
      obtain ⟨w, hjudge, -⟩ := judge_of_unreadable job hscores v
      rw [hjudge] at hnetwork hgrows
      rw [attempt_error ((bind_ok hpass _).trans hjudge)] at h
      cases h
      exact ⟨hnetwork, .misread failure u hread hgrows⟩

/-- A turn that ends visits its image and books the outcome. -/
theorem step_ok_inv {job : Job} {progress next : Progress} {path : FilePath} {s t : Session σ}
    (h : step job progress path s = (.ok next, t)) :
    ∃ outcome u, visit job path s = (.ok outcome, u) ∧
      book job progress path outcome u = (.ok next, t) := by
  obtain ⟨outcome, u, hvisit, hbook⟩ := bind_ok_inv h
  exact ⟨outcome, u, holding_ok_iff.1 hvisit, hbook⟩

/-- What a turn measures and counts: one success or one failure, or both if its answer is
misread, and then it is counted in the summary as a failure alone. -/
theorem step_grows {job : Job} {progress next : Progress} {path : FilePath} {s t : Session σ}
    (h : step job progress path s = (.ok next, t)) :
    t.network = s.network ∧
      ∃ a b, Metrics.Grows (recorder job.model s.network.device) a b s.metrics t.metrics ∧
        next.processed + (misread job ⟨path, progress, s⟩).toNat = progress.processed + a ∧
        next.failed = progress.failed + b ∧
        (misread job ⟨path, progress, s⟩).toNat ≤ b ∧
        a + b = 1 + (misread job ⟨path, progress, s⟩).toNat := by
  obtain ⟨outcome, u, hvisit, hbook⟩ := step_ok_inv h
  obtain ⟨hnetwork, hvisited⟩ := visit_inv ⟨path, progress, s⟩ hvisit
  cases hvisited with
  | classified prediction _ hread hgrows =>
    obtain ⟨hprocessed, hfailed, hsame⟩ := bookLabel_inv (holding_ok_iff.1 hbook)
    refine ⟨hsame.network.trans hnetwork, 1, 0, hsame.metrics ▸ hgrows, ?_, hfailed, ?_, ?_⟩
    all_goals simp [hread, hprocessed]
  | unanswered failure _ hread hgrows =>
    obtain ⟨hprocessed, hfailed, hagain, hbooked⟩ := book_error_inv hbook
    rw [hnetwork] at hagain hbooked
    refine ⟨hagain, 0, 1, hgrows.trans hbooked, ?_, hfailed, ?_, ?_⟩
    all_goals simp [hread, hprocessed]
  | misread failure _ hread hgrows =>
    obtain ⟨hprocessed, hfailed, hagain, hbooked⟩ := book_error_inv hbook
    rw [hnetwork] at hagain hbooked
    refine ⟨hagain, 1, 1, hgrows.trans hbooked, ?_, hfailed, ?_, ?_⟩
    all_goals simp [hread, hprocessed]

/-! ## All turns -/

/-- What the turns so far have counted and measured since the session `s₀`. -/
structure Booked (job : Job) (s₀ : Session σ) (done : List (Turn σ Progress))
    (progress : Progress) (s : Session σ) : Prop where
  network : s.network = s₀.network
  grows : Metrics.Grows (recorder job.model s₀.network.device)
    (progress.processed + done.countP (misread job)) progress.failed s₀.metrics s.metrics
  length : progress.processed + progress.failed = done.length
  misread_le : done.countP (misread job) ≤ progress.failed

theorem Booked.step {job : Job} {s₀ s t : Session σ} {done : List (Turn σ Progress)}
    {progress next : Progress} {path : FilePath} (h : Booked job s₀ done progress s)
    (hstep : step job progress path s = (.ok next, t)) :
    Booked job s₀ (done ++ [⟨path, progress, s⟩]) next t := by
  obtain ⟨hnetwork, a, b, hgrows, hprocessed, hfailed, hle, hsum⟩ := step_grows hstep
  have hcount : (done ++ [(⟨path, progress, s⟩ : Turn σ Progress)]).countP (misread job) =
      done.countP (misread job) + (misread job ⟨path, progress, s⟩).toNat := by
    rw [List.countP_append, List.countP_singleton]
    cases misread job ⟨path, progress, s⟩ <;> rfl
  have hlength := h.length
  have hmisread := h.misread_le
  rw [h.network] at hgrows
  refine ⟨hnetwork.trans h.network, ?_, ?_, ?_⟩
  · have hall := h.grows.trans hgrows
    rwa [← hfailed, Nat.add_right_comm, ← hprocessed, Nat.add_right_comm, Nat.add_assoc,
      ← hcount] at hall
  · rw [List.length_append, List.length_singleton]
    omega
  · omega

/-- The turns of a run. -/
def runTurns (job : Job) (images : List FilePath) (timingLog : FilePath) (s : Session σ) :
    List (Turn σ Progress) :=
  match start job images timingLog s with
  | (.ok log, t) => turns (step job) { log } images t
  | (.error _, _) => []

theorem runTurns_of_start {job : Job} {images : List FilePath} {timingLog : FilePath}
    {log : Timing.Log} {s u : Session σ} (hstart : start job images timingLog s = (.ok log, u)) :
    runTurns job images timingLog s = turns (step job) { log } images u := by
  rw [runTurns, hstart]

/-- Once it has begun, a run ends as the loop over its images does: brought down by one of them, or
with a summary. -/
theorem run_inv {job : Job} {images : List FilePath} {timingLog : FilePath} {log : Timing.Log}
    {s t u : Session σ} {r : Except Fault Summary}
    (hstart : start job images timingLog s = (.ok log, u))
    (h : run job images timingLog s = (r, t)) :
    (∃ fault, r = .error fault ∧ images.foldlM (step job) { log } u = (.error fault, t)) ∨
      ∃ last v, images.foldlM (step job) { log } u = (.ok last, v) ∧
        r = .ok ⟨job.model, last.accuracy, last.processed, last.failed, last.unlabeled,
          last.log.path⟩ ∧
        t.files = last.log.finish v.files ∧ t.metrics = v.metrics := by
  unfold run at h
  rw [bind_ok hstart] at h
  rcases hloop : images.foldlM (step job) { log } u with ⟨fault | last, v⟩
  · rw [bind_error hloop] at h
    cases h
    exact .inl ⟨fault, rfl, rfl⟩
  · rw [bind_ok hloop] at h
    cases h
    exact .inr ⟨last, v, rfl, rfl, rfl, rfl⟩

/-- **A run measures its summary, and every misread image as a success besides.** Its
measurements agree with the summary exactly if no image is misread. -/
theorem measurements_of_run {job : Job} {images : List FilePath} {timingLog : FilePath}
    {summary : Summary} {s t : Session σ}
    (h : run job images timingLog s = (.ok summary, t)) :
    let key := recorder job.model s.network.device
    let misreadings := (runTurns job images timingLog s).countP (misread job)
    Metrics.Grows key (summary.processed + misreadings) summary.failed s.metrics t.metrics ∧
      summary.processed + summary.failed = images.length ∧
      misreadings ≤ summary.failed ∧
      (Metrics.Grows key summary.processed summary.failed s.metrics t.metrics ↔
        ∀ turn ∈ runTurns job images timingLog s, misread job turn = false) := by
  intro key misreadings
  obtain ⟨log, u, hstart, -⟩ := bind_ok_inv h
  obtain ⟨_, hfault, -⟩ | ⟨progress, v, hloop, hsummary, -, hmeasured⟩ := run_inv hstart h
  · cases hfault
  cases hsummary
  obtain ⟨hnetwork, hmetrics⟩ := start_inv hstart
  have hturns := runTurns_of_start hstart
  have hbegin : Booked job s [] { log } u :=
    ⟨hnetwork, hmetrics ▸ Metrics.Grows.refl _ _, rfl, Nat.le_refl 0⟩
  have hbooked : Booked job s (runTurns job images timingLog s) progress v := by
    rw [hturns]
    exact turns_induct (fun _ _ _ _ _ _ hdone hstep => hdone.step hstep) hloop hbegin
  have hlength : (runTurns job images timingLog s).length = images.length := by
    rw [hturns, ← List.length_map (f := Turn.path), map_path_turns hloop]
  have hgrows : Metrics.Grows key (progress.processed + misreadings) progress.failed s.metrics
    t.metrics := hmeasured ▸ hbooked.grows
  refine ⟨hgrows, hbooked.length.trans hlength, hbooked.misread_le, ?_⟩
  have hnone : misreadings = 0 ↔ ∀ turn ∈ runTurns job images timingLog s,
      misread job turn = false := by
    simp [misreadings, List.countP_eq_zero]
  rw [← hnone]
  constructor
  · intro hagrees
    exact Nat.add_eq_left.1 (hgrows.unique hagrees).1
  · intro hzero
    rwa [hzero, Nat.add_zero] at hgrows

end

/-- A session with one picture, whose network answers every image with a column of scores. -/
def columnSession : Session Unit where
  files := ⟨Table.empty.put [Utf8.encode "x.png"]
    (.file (.picture ⟨.png, .rgb, .eight, 1, 1, #[0, 0, 0]⟩)), []⟩
  network := ⟨.cpu, fun _ state => (.ok ⟨[2, 1], #[0, 0], rfl⟩, state)⟩
  state := ()
  clock _ := .zero

/-- The image of that session is a success in the measurements and a failure in the summary. -/
theorem measurements_of_run_column :
    ∃ summary t, run ⟨.resNet, 5, Float32.exp⟩ [.ofString "x.png"] (.ofString "log")
        columnSession = (.ok summary, t) ∧ summary.processed = 0 ∧ summary.failed = 1 ∧
      Metrics.Grows (recorder .resNet .cpu) 1 1 columnSession.metrics t.metrics ∧
      ¬ Metrics.Grows (recorder .resNet .cpu) summary.processed summary.failed
        columnSession.metrics t.metrics := by
  have hends : ends (fun summary t => summary.processed == 0 && summary.failed == 1 &&
      (t.metrics.of (recorder .resNet .cpu)).images == 1)
      (run ⟨.resNet, 5, Float32.exp⟩ [.ofString "x.png"] (.ofString "log")) columnSession =
        true := by
    decide +kernel
  obtain ⟨summary, t, hrun, hcheck⟩ := ends_inv hends
  simp only [Bool.and_eq_true, beq_iff_eq] at hcheck
  obtain ⟨⟨hprocessed, hfailed⟩, himages⟩ := hcheck
  obtain ⟨hgrows, -, -, -⟩ := measurements_of_run hrun
  have hbefore : (columnSession.metrics.of (recorder .resNet .cpu)).images = 0 := rfl
  have hone : 1 = 0 + _ := himages.symm.trans (hbefore ▸ hgrows.images)
  rw [Nat.zero_add] at hone
  rw [← hone, hfailed] at hgrows
  refine ⟨summary, t, hrun, hprocessed, hfailed, hgrows, ?_⟩
  intro hagrees
  have hsuccesses := (hgrows.unique hagrees).1
  rw [hprocessed] at hsuccesses
  cases hsuccesses

end Classification

end ImageLabeling
