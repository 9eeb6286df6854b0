import ImageLabeling.Proofs.Parsing.Labeling

/-!
# What brings a parsing run down

Opening a run, saving its pictures and booking its images never crash, so a crash of a run comes
from labeling one of its images (`step_error_iff`). Labeling crashes if the first answer that cannot
be added is a pair of planes without pixels (`parseImage_outOfRange_iff`), since then a sample is
read that the planes do not have (`Scores.upsample_error_iff`). Every other bad answer makes its
image fail, and the run goes on: `outOfRange_of_run`.
-/

namespace ImageLabeling.Parsing

open Number Scores Session

variable {σ : Type}

/-! ## Steps that do not crash -/

theorem safe_saveLabels (job : Job) (path : FilePath) (labels : LabelMap) :
    Safe (saveLabels job path labels : Run σ Unit) :=
  (safe_save _ _ _).bind fun _ => safe_save _ _ _

theorem safe_makeOutputDirectory (job : Job) : Safe (makeOutputDirectory job : Run σ Unit) := by
  refine safe_get.bind fun s => ?_
  rcases s.files.makeTree job.outputDirectory with ⟨files, fault | made⟩
  · exact fun _ _ _ => nofun
  · exact fun _ _ _ => nofun

theorem safe_start (job : Job) (source : Source) :
    Safe (start job source : Run σ (List FilePath × Timing.Log)) := by
  refine (safe_makeOutputDirectory job).bind fun _ => ?_
  refine (show Safe (resolveSource source : Run σ _) from
    safe_get.bind fun s => (safe_reportAll _).bind fun _ => safe_ofExcept _).bind fun images => ?_
  exact (safe_report _).bind fun _ => safe_get.bind fun _ => (safe_createLog _).bind fun log =>
    safe_pure _

theorem safe_finish (progress : Progress) : Safe (finish progress : Run σ Summary) :=
  fun _ _ _ => nofun

/-- Booking an outcome always succeeds. -/
theorem book_runs (progress : Progress) (path : FilePath) (outcome : Except Failure Parsed)
    (s : Session σ) : ∃ next t, book progress path outcome s = (.ok next, t) := by
  cases outcome with
  | ok parsed => exact ⟨_, _, rfl⟩
  | error failure => exact ⟨_, _, rfl⟩

section

variable [Resizer]

theorem processImage_crash_iff {job : Job} {path : FilePath} {s t : Session σ} {crash : Crash} :
    processImage job path s = (.error (.crash crash), t) ↔
      labelImage job path s = (.error (.crash crash), t) := by
  refine Safe.bind_crash_iff fun (labels, forward) => ?_
  exact (safe_saveLabels job path labels).bind fun _ => safe_get.bind fun _ =>
    (safe_meter _).bind fun _ => safe_measure.bind fun _ => safe_pure _

/-- A turn ends in a fault exactly if labeling its image crashes, and then the timing log has been
written. -/
theorem step_error_iff {job : Job} {progress : Progress} {path : FilePath} {s t : Session σ}
    {fault : Fault} :
    step job progress path s = (.error fault, t) ↔
      ∃ crash u, fault = .crash crash ∧ labelImage job path s = (.error (.crash crash), u) ∧
        t = { u with files := progress.log.finish u.files } := by
  unfold step
  constructor
  · intro h
    rcases hheld : holding progress.log (attempt (processImage job path)) s with
      ⟨fault' | outcome, u⟩
    · rw [bind_error hheld] at h
      cases h
      obtain ⟨v, hattempt⟩ := holding_error_inv hheld
      obtain ⟨crash, rfl, hcrash⟩ := attempt_crash_iff.1 hattempt
      obtain ⟨w, hattempt', ht⟩ := holding_crash_iff.1 hheld
      cases hattempt.symm.trans hattempt'
      exact ⟨crash, v, rfl, processImage_crash_iff.1 hcrash, ht⟩
    · obtain ⟨next, v, hbook⟩ := book_runs progress path outcome u
      rw [bind_ok hheld, hbook] at h
      cases h
  · rintro ⟨crash, u, rfl, hlabel, ht⟩
    have hattempt := attempt_crash_iff.2 ⟨crash, rfl, processImage_crash_iff.2 hlabel⟩
    exact bind_error (holding_crash_iff.2 ⟨u, hattempt, ht⟩) _

/-! ## Answers without pixels -/

theorem parseImage_outOfRange_iff {job : Job} {image : Raster} {s t : Session σ}
    {r : Except Fault (LabelMap × Duration)} (h : parseImage job image s = (r, t)) :
    r = .error (.crash .outOfRange) ↔ Stops (Answered LacksPixels) job image s := by
  have hlabeling := parseImage_inv h
  obtain ⟨result, hresult⟩ : ∃ result, r.map Prod.fst = result := ⟨_, rfl⟩
  rw [hresult] at hlabeling
  constructor
  · rintro rfl
    cases hresult
    generalize t.state = state at hlabeling
    cases hlabeling with
    | unbuilt _ hpyramid =>
      rcases Pyramid.ofPixels_error_inv hpyramid with ⟨_, hfault⟩ | ⟨hfault, -⟩ <;> cases hfault
    | unsampled levels before later answer hpyramid hanswers hbefore hanswer =>
      exact ⟨levels, before, answer, later, hpyramid, hanswers, hbefore, hanswer⟩
  · intro hstops
    obtain ⟨answer, hlacks, ⟨hresult', -⟩ | ⟨failure, -, hnot⟩⟩ :=
      hlabeling.of_stops hstops fun _ => not_hasPixels_of_lacksPixels
    · exact eq_error_of_map (hresult.trans hresult')
    · exact absurd (hlacks.imp fun _ => LacksPixels.isPair) hnot

theorem Stops.congr {bad : Except String Tensor → Prop} {job : Job} {image : Raster}
    {s u : Session σ} (hsame : Same s u) (hstate : u.state = s.state) :
    Stops bad job image u ↔ Stops bad job image s := by
  unfold Stops
  rw [hsame.network, hstate]

theorem labelImage_outOfRange_iff {job : Job} {path : FilePath} {s : Session σ} :
    (∃ t, labelImage job path s = (.error (.crash .outOfRange), t)) ↔
      ∃ image, s.files.loadImage path = .ok image ∧ Stops (Answered LacksPixels) job image s := by
  obtain ⟨u, hsame, hstate, hlabel⟩ := labelImage_apply job path s
  rw [hlabel]
  cases s.files.loadImage path with
  | error failure =>
    constructor
    · rintro ⟨t, h⟩
      cases h
    · rintro ⟨image, himage, -⟩
      cases himage
  | ok image =>
    simp only [Except.ok.injEq, exists_eq_left', ← Stops.congr hsame hstate]
    rcases hparse : parseImage job image u with ⟨r, t⟩
    rw [← parseImage_outOfRange_iff hparse]
    constructor
    · rintro ⟨t', h⟩
      cases h
      rfl
    · rintro rfl
      exact ⟨t, rfl⟩

/-- An image that fails at any stage is counted as failed, and the run goes on. -/
theorem step_of_failure {job : Job} {path : FilePath} {s t : Session σ} {failure : Failure}
    (h : processImage job path s = (.error (.failure failure), t)) (progress : Progress) :
    ∃ next u, step job progress path s = (.ok next, u) ∧ next.outputs = progress.outputs ∧
      next.failed = progress.failed + 1 :=
  ⟨_, _, bind_ok (holding_ok_iff.2 (attempt_error h)) _, rfl, rfl⟩

theorem step_of_unlabelled {job : Job} {path : FilePath} {s t : Session σ} {failure : Failure}
    (h : labelImage job path s = (.error (.failure failure), t)) (progress : Progress) :
    ∃ next u, step job progress path s = (.ok next, u) ∧ next.outputs = progress.outputs ∧
      next.failed = progress.failed + 1 :=
  step_of_failure (bind_error h _) progress

theorem run_outOfRange_iff {job : Job} {source : Source} {s : Session σ} :
    (∃ t, run job source s = (.error (.crash .outOfRange), t)) ↔
      ∃ turn ∈ runTurns job source s, ∃ t,
        step job turn.progress turn.path turn.session = (.error (.crash .outOfRange), t) := by
  rcases hstart : start job source s with ⟨fault | ⟨images, log⟩, u⟩
  · rw [run, runTurns, hstart, bind_error hstart]
    constructor
    · rintro ⟨t, h⟩
      cases h
      exact absurd hstart (safe_start job source s _ _)
    · rintro ⟨turn, hturn, -⟩
      cases hturn
  · rw [run_of_start hstart, runTurns_of_start hstart]
    simp only [Safe.bind_crash_iff safe_finish, foldlM_error_iff]
    constructor
    · rintro ⟨t, turn, hturn, hstep⟩
      exact ⟨turn, hturn, t, hstep⟩
    · rintro ⟨turn, hturn, t, hstep⟩
      exact ⟨t, turn, hturn, hstep⟩

theorem parseImage_crash_inv {job : Job} {image : Raster} {s : Session σ} {crash : Crash}
    (h : (parseImage job image s).1 = .error (.crash crash)) :
    crash = .outOfRange ∨ crash = .overflow ∧ wordLimit ≤ image.width * image.height * 3 := by
  rcases hparse : parseImage job image s with ⟨r, t⟩
  rw [hparse] at h
  dsimp only at h
  subst h
  have hlabeling := parseImage_inv hparse
  change Labeling job image s (.error (.crash crash)) t.state at hlabeling
  generalize t.state = state at hlabeling
  cases hlabeling with
  | unbuilt _ hpyramid =>
    rcases Pyramid.ofPixels_error_inv hpyramid with ⟨_, hfault⟩ | ⟨hfault, hlarge⟩
    · cases hfault
    · cases hfault
      exact .inr ⟨rfl, hlarge⟩
  | unsampled => exact .inl rfl

/-- **A bad answer ends a run exactly if it is a pair of planes without pixels.** Any other answer
that cannot be added is counted as a failure of its image. An image whose bytes 64 bits can count
crashes for no other reason, and planes cannot be resized exactly if they lack a sample that is
read. -/
theorem outOfRange_of_run (job : Job) (source : Source) (s : Session σ) :
    ((∃ t, run job source s = (.error (.crash .outOfRange), t)) ↔
      ∃ turn ∈ runTurns job source s, ∃ image,
        turn.session.files.loadImage turn.path = .ok image ∧
          Stops (Answered LacksPixels) job image turn.session) ∧
    (∀ turn ∈ runTurns job source s, ∀ image,
      turn.session.files.loadImage turn.path = .ok image →
      Stops (fun answer => ¬ Answered IsPair answer) job image turn.session →
      ∃ next t, step job turn.progress turn.path turn.session = (.ok next, t) ∧
        next.outputs = turn.progress.outputs ∧ next.failed = turn.progress.failed + 1) ∧
    (∀ (image : Raster) (u : Session σ),
      ((parseImage job image u).1 = .error (.crash .outOfRange) ↔
        Stops (Answered LacksPixels) job image u) ∧
      ∀ crash, (parseImage job image u).1 = .error (.crash crash) →
        crash = .outOfRange ∨
          crash = .overflow ∧ wordLimit ≤ image.width * image.height * 3) ∧
    ∀ (planes : Scores) (height width : Nat),
      planes.upsample height width = .error .outOfRange ↔
        ¬ (planes.height = height ∧ planes.width = width) ∧
          ∃ c < planes.classes, ∃ y < height, ∃ x < width, ∃ i j,
            planes.ReadsAt height width y x i j ∧ ¬ (i < planes.height ∧ j < planes.width) := by
  refine ⟨?_, fun turn hturn image himage hstops => ?_, fun image u => ⟨?_, ?_⟩,
    fun planes height width => upsample_error_iff⟩
  · rw [run_outOfRange_iff]
    refine exists_congr fun turn => and_congr_right fun hturn => ?_
    rw [← labelImage_outOfRange_iff]
    simp [step_error_iff]
  · obtain ⟨u, hsame, hstate, hlabel⟩ := labelImage_apply job turn.path turn.session
    rw [himage] at hlabel
    dsimp only at hlabel
    rcases hparse : parseImage job image u with ⟨r, t⟩
    obtain ⟨answer, hnot, ⟨-, hlacks⟩ | ⟨failure, hresult, -⟩⟩ := (parseImage_inv hparse).of_stops
      ((Stops.congr hsame hstate).2 hstops)
        fun _ hnot hhas => hnot (hhas.imp fun _ => HasPixels.isPair)
    · exact absurd (hlacks.imp fun _ => LacksPixels.isPair) hnot
    · rw [hparse, eq_error_of_map hresult] at hlabel
      exact step_of_unlabelled hlabel turn.progress
  · rcases hparse : parseImage job image u with ⟨r, t⟩
    exact parseImage_outOfRange_iff hparse
  · intro crash hcrash
    exact parseImage_crash_inv hcrash

end

/-- A session with one picture, whose network answers with planes that have no rows. -/
def hollowSession : Session Unit where
  files := ⟨Table.empty.put [Utf8.encode "x.png"]
    (.file (.picture ⟨.png, .rgb, .eight, 1, 1, #[0, 0, 0]⟩)), []⟩
  network := ⟨.cpu, fun _ state => (.ok (Tensor.batch 2 partCount 0 1 fun _ _ _ _ => 0), state)⟩
  state := ()
  clock _ := .zero

/-- Instead of counting the image as failed, the run ends. -/
theorem outOfRange_of_run_hollow :
    (∃ t, run plainJob (.single (.ofString "x.png")) hollowSession =
        (.error (.crash .outOfRange), t)) ∧
      ∃ turn ∈ runTurns plainJob (.single (.ofString "x.png")) hollowSession, ∃ image,
        turn.session.files.loadImage turn.path = .ok image ∧
          Stops (Answered LacksPixels) plainJob image turn.session := by
  have hends : crash? (run plainJob (.single (.ofString "x.png"))) hollowSession =
      some .outOfRange := by
    decide +kernel
  have hcrash := crash?_inv hends
  exact ⟨hcrash, (outOfRange_of_run _ _ _).1.1 hcrash⟩

end ImageLabeling.Parsing
