import ImageLabeling.Proofs.Classification.Measurements
import ImageLabeling.Proofs.File.Tree

/-!
# The books of a classification run

A run keeps four counters and a timing log. Every image has an `Outcome`, and `tally` counts
outcomes. A step of a run adds the tally of one image (`step_inv`), so a whole run ends with the
tally of all of them. The timing log has a line for every prediction, also when the run is brought
down (`log_of_crashed_run`).

For a network without memory an outcome depends on the image file alone (`forwardPass_congr`). Then
a run is nothing but the tally of its list (`loop_runs`), and a tally neither depends on the order
of the list nor on where the list is cut in two.
-/

namespace ImageLabeling.Classification

open Session

variable {σ : Type} {job : Job} {path : FilePath} {s t u : Session σ}

/-! ## Counting outcomes -/

/-- What a run learns about an image: the class that is predicted for it and the one that its name
begins with. -/
inductive Outcome
  | failed
  | unlabeled (predicted : Nat)
  | labeled (predicted truth : Nat)
  deriving DecidableEq

namespace Outcome

def isProcessed : Outcome → Bool
  | failed => false
  | unlabeled _ | labeled _ _ => true

def isUnlabeled : Outcome → Bool
  | unlabeled _ => true
  | failed | labeled _ _ => false

def isLabeled : Outcome → Bool
  | labeled _ _ => true
  | failed | unlabeled _ => false

def isCorrect : Outcome → Bool
  | labeled predicted truth => predicted == truth
  | failed | unlabeled _ => false

end Outcome

/-- The counters of a run. -/
structure Counts where
  processed : Nat
  failed : Nat
  unlabeled : Nat
  accuracy : Accuracy
  deriving DecidableEq

instance : Add Counts where
  add c d := ⟨c.processed + d.processed, c.failed + d.failed, c.unlabeled + d.unlabeled,
    ⟨c.accuracy.correct + d.accuracy.correct, c.accuracy.total + d.accuracy.total⟩⟩

theorem Counts.add_assoc (c d e : Counts) : c + d + e = c + (d + e) := by
  have hadd : ∀ c d : Counts, c + d = ⟨c.processed + d.processed, c.failed + d.failed,
      c.unlabeled + d.unlabeled,
      ⟨c.accuracy.correct + d.accuracy.correct, c.accuracy.total + d.accuracy.total⟩⟩ :=
    fun _ _ => rfl
  simp only [hadd, Nat.add_assoc]

def Progress.counts (progress : Progress) : Counts :=
  ⟨progress.processed, progress.failed, progress.unlabeled, progress.accuracy⟩

def Summary.counts (summary : Summary) : Counts :=
  ⟨summary.processed, summary.failed, summary.unlabeled, summary.accuracy⟩

/-- The counters for a list of outcomes. -/
def tally (outcomes : List Outcome) : Counts where
  processed := outcomes.countP Outcome.isProcessed
  failed := outcomes.countP (· == .failed)
  unlabeled := outcomes.countP Outcome.isUnlabeled
  accuracy := ⟨outcomes.countP Outcome.isCorrect, outcomes.countP Outcome.isLabeled⟩

theorem tally_labeled (predicted truth : Nat) :
    tally [.labeled predicted truth] = ⟨1, 0, 0, ⟨(predicted == truth).toNat, 1⟩⟩ := by
  cases h : predicted == truth <;>
    simp [tally, Outcome.isProcessed, Outcome.isUnlabeled, Outcome.isLabeled, Outcome.isCorrect, h]

theorem tally_append (xs ys : List Outcome) : tally (xs ++ ys) = tally xs + tally ys := by
  simp only [tally, List.countP_append]
  rfl

theorem tally_perm {xs ys : List Outcome} (h : xs.Perm ys) : tally xs = tally ys := by
  simp only [tally, h.countP_eq]

theorem processed_add_failed_tally (outcomes : List Outcome) :
    (tally outcomes).processed + (tally outcomes).failed = outcomes.length := by
  rw [List.length_eq_countP_add_countP Outcome.isProcessed]
  refine congrArg _ (List.countP_congr fun o _ => ?_)
  cases o <;> simp [Outcome.isProcessed]

/-- Every processed image is either labeled or not. -/
theorem total_add_unlabeled_tally (outcomes : List Outcome) :
    (tally outcomes).accuracy.total + (tally outcomes).unlabeled = (tally outcomes).processed := by
  induction outcomes with
  | nil => rfl
  | cons o outcomes ih =>
    simp only [tally, List.countP_cons] at ih ⊢
    cases o <;> simp [Outcome.isLabeled, Outcome.isUnlabeled, Outcome.isProcessed] <;> omega

theorem correct_le_total_tally (outcomes : List Outcome) :
    (tally outcomes).accuracy.correct ≤ (tally outcomes).accuracy.total := by
  refine List.countP_mono_left fun o _ hcorrect => ?_
  cases o with
  | labeled predicted truth => rfl
  | failed | unlabeled predicted => exact hcorrect

theorem percent_eq_none_iff (a : Accuracy) : a.percent = none ↔ a.total = 0 := by
  unfold Accuracy.percent
  split <;> simp_all

/-! ## Judging and booking a prediction -/

theorem record_ok_inv {a b : Accuracy} {predicted truth : Nat}
    (h : a.record predicted truth = .ok b) :
    b = ⟨a.correct + (predicted == truth).toNat, a.total + 1⟩ ∧ b.total < 2 ^ 64 := by
  unfold Accuracy.record Accuracy.next at h
  by_cases htotal : a.total + 1 < 2 ^ 64 <;> by_cases hcorrect : a.correct + 1 < 2 ^ 64 <;>
    by_cases heq : predicted = truth <;> simp [htotal, hcorrect, heq, bind, Except.bind] at h
  all_goals
    subst h
    simp [heq, htotal]

theorem bookLabel_error_inv {progress : Progress} {name : String} {label : Nat} {fault : Fault}
    (h : bookLabel progress name label s = (.error fault, t)) :
    (∃ crash, fault = .crash crash) ∧ t.files = s.files := by
  unfold bookLabel at h
  cases htruth : trueLabel name with
  | error failure =>
    rw [htruth] at h
    cases h
  | ok truth =>
    rw [htruth] at h
    dsimp only at h
    cases hrecord : progress.accuracy.record label truth with
    | ok accuracy =>
      rw [hrecord] at h
      cases h
    | error crash =>
      rw [hrecord] at h
      cases h
      exact ⟨⟨crash, rfl⟩, rfl⟩

theorem safe_reportPrediction (job : Job) (output : Tensor) (label : Nat) :
    Safe (reportPrediction job output label : Run σ Unit) := by
  refine safe_get.bind fun s => ?_
  split
  · exact (safe_ofExcept _).bind fun _ => safe_report _
  · exact safe_pure ()

theorem safe_judge (job : Job) (output : Tensor) : Safe (judge job output : Run σ Prediction) :=
  safe_measure.bind fun _ => safe_get.bind fun _ => (safe_meter _).bind fun _ =>
    (safe_ofExcept _).bind fun label => (safe_reportPrediction job output label).bind fun _ =>
      safe_pure _

/-! ## Opening a run -/

/-- A run begins by creating its timing log. -/
theorem start_ok_inv {images : List FilePath} {timingLog : FilePath} {log : Timing.Log}
    (h : start job images timingLog s = (.ok log, u)) :
    Timing.Log.create s.files timingLog = .ok (u.files, log) ∧ u.network = s.network := by
  obtain ⟨_, v, hget, h⟩ := bind_ok_inv h
  cases hget
  obtain ⟨_, w, hreport, h⟩ := bind_ok_inv h
  cases hreport
  obtain ⟨files, hcreate, rfl⟩ := createLog_ok_iff.1 h
  exact ⟨hcreate, rfl⟩

theorem start_runs {files : FileSystem} {timingLog : FilePath} {log : Timing.Log}
    (h : Timing.Log.create s.files timingLog = .ok (files, log)) (job : Job)
    (images : List FilePath) :
    ∃ u, start job images timingLog s = (.ok log, u) ∧ u.files = files ∧
      u.network = s.network :=
  ⟨_, createLog_ok_iff.2 ⟨files, h, rfl⟩, rfl, rfl⟩

theorem safe_start (job : Job) (images : List FilePath) (timingLog : FilePath) :
    Safe (start job images timingLog : Run σ Timing.Log) :=
  safe_get.bind fun _ => (safe_report _).bind fun _ => safe_createLog timingLog

/-- What is found in the timing log of a run once it is written there. -/
theorem find?_log {images : List FilePath} {timingLog : FilePath} {log last : Timing.Log}
    (hfs : s.files.Grounded) (hstart : start job images timingLog s = (.ok log, u))
    (hlast : last.location = log.location) :
    (last.finish u.files).find? timingLog = some (.file (.bytes (Utf8.encode last.text))) := by
  obtain ⟨hresolve, hwritable, hput⟩ := hfs.create_ok_inv (start_ok_inv hstart).1
  have hempty : u.files.lookup? last.location = some (.file (.bytes [])) := by
    rw [hlast, hput, FileSystem.lookup?_put _ _ _ hwritable.ne_root, if_pos rfl]
  have hplace : u.files.resolve true timingLog = .ok last.location := by
    rw [hlast, hput]
    exact (hwritable.sameTree _).resolve hresolve
  have hgrounded : u.files.Grounded := by
    rw [hput]
    exact hfs.put hwritable _
  exact hgrounded.find?_finish hempty hplace

section

variable [Resizer]

/-! ## The outcome of one image -/

/-- The class that the answer for an image file ranks first, if there is one. -/
def answeredClass (job : Job) (path : FilePath) (s : Session σ) : Option Nat :=
  (forwardPass job path s).1.toOption.bind fun output => (topClass output).toOption

/-- The outcome of an image that is visited in this session. -/
def outcome (job : Job) (path : FilePath) (s : Session σ) : Outcome :=
  match answeredClass job path s, trueLabel (imageName path) with
  | none, _ => .failed
  | some predicted, .error _ => .unlabeled predicted
  | some predicted, .ok truth => .labeled predicted truth

theorem isProcessed_outcome (job : Job) (path : FilePath) (s : Session σ) :
    (outcome job path s).isProcessed = (answeredClass job path s).isSome := by
  unfold outcome
  cases answeredClass job path s with
  | none => rfl
  | some predicted => cases trueLabel (imageName path) <;> rfl

/-- The prediction that a turn makes. -/
def prediction (job : Job) (turn : Turn σ Progress) : Option Prediction :=
  match (visit job turn.path turn.session).1 with
  | .ok (.ok prediction) => some prediction
  | _ => none

/-- A turn predicts the class that the answer for its image ranks first. -/
theorem map_label_prediction (job : Job) (turn : Turn σ Progress) :
    (prediction job turn).map Prediction.label = answeredClass job turn.path turn.session := by
  unfold prediction answeredClass
  rw [visit_eq]
  rcases hpass : forwardPass job turn.path turn.session with ⟨(crash | failure) | output, v⟩
  · rw [attempt_crash_iff.2 ⟨crash, rfl, bind_error hpass _⟩]
    rfl
  · rw [attempt_error (bind_error hpass _)]
    rfl
  · cases hscores : classScores output with
    | ok scores =>
      obtain ⟨prediction, w, hjudge, htop⟩ := judge_of_readable job hscores v
      rw [attempt_ok ((bind_ok hpass _).trans hjudge)]
      simp [Except.toOption, htop]
    | error failure =>
      obtain ⟨w, hjudge, htop⟩ := judge_of_unreadable job hscores v
      rw [attempt_error ((bind_ok hpass _).trans hjudge)]
      simp [Except.toOption, htop]

/-- A visit writes no file. -/
theorem visit_keeps (job : Job) (path : FilePath) (s : Session σ) :
    (visit job path s).2.files = s.files ∧ (visit job path s).2.network = s.network := by
  rw [visit_eq, attempt_session, bind_apply]
  rcases hpass : forwardPass job path s with ⟨fault | output, v⟩
  · have hsame := (quiet_forwardPass job path).same hpass
    exact ⟨hsame.files, hsame.network⟩
  · have hsame := (quiet_forwardPass job path).same hpass
    exact ⟨(judge_files job output v).trans hsame.files,
      (judge_grows job output v).1.trans hsame.network⟩

/-! ## The books of one turn -/

/-- The entries of the timing log for these turns. -/
def entries (job : Job) (done : List (Turn σ Progress)) : List (String × Duration) :=
  done.filterMap fun turn =>
    (prediction job turn).map fun prediction => (imageName turn.path, prediction.forward)

/-- **A turn adds the outcome of its image** to the counters and its prediction to the log. -/
theorem step_inv {progress next : Progress} (h : step job progress path s = (.ok next, t)) :
    t.files = s.files ∧ t.network = s.network ∧
      next.counts = progress.counts + tally [outcome job path s] ∧
      next.log = { progress.log with
        entries := progress.log.entries ++ entries job [⟨path, progress, s⟩] } ∧
      (progress.accuracy.total < 2 ^ 64 → next.accuracy.total < 2 ^ 64) := by
  obtain ⟨result, v, hvisit, hbook⟩ := step_ok_inv h
  obtain ⟨hfiles, hnetwork⟩ := visit_keeps job path s
  rw [hvisit] at hfiles hnetwork
  have hlabel := map_label_prediction job (⟨path, progress, s⟩ : Turn σ Progress)
  cases result with
  | error failure =>
    have hnone : prediction job (⟨path, progress, s⟩ : Turn σ Progress) = none := by
      simp only [prediction, hvisit]
    rw [hnone] at hlabel
    cases hbook
    refine ⟨hfiles, hnetwork, ?_, ?_, id⟩
    · simp only [outcome, ← hlabel]
      rfl
    · simp [entries, hnone]
  | ok made =>
    have hsome : prediction job (⟨path, progress, s⟩ : Turn σ Progress) = some made := by
      simp only [prediction, hvisit]
    rw [hsome] at hlabel
    have hentries : entries job [(⟨path, progress, s⟩ : Turn σ Progress)] =
        [(imageName path, made.forward)] := by
      simp [entries, hsome]
    obtain ⟨hsame, hcases⟩ := bookLabel_cases (holding_ok_iff.1 hbook)
    refine ⟨hsame.files.trans hfiles, hsame.network.trans hnetwork, ?_⟩
    rw [hentries]
    rcases hcases with ⟨truth, accuracy, htruth, hrecord, rfl⟩ | ⟨failure, htruth, rfl⟩
    · obtain ⟨rfl, hbound⟩ := record_ok_inv hrecord
      refine ⟨?_, rfl, fun _ => hbound⟩
      simp only [outcome, ← hlabel, htruth, Option.map_some, tally_labeled]
      rfl
    · refine ⟨?_, rfl, id⟩
      simp only [outcome, ← hlabel, htruth]
      rfl

/-! ## The books of all turns -/

/-- What the turns so far have added to the books of a run that began in session `u`. -/
structure Tallied (job : Job) (log : Timing.Log) (u : Session σ) (done : List (Turn σ Progress))
    (progress : Progress) (s : Session σ) : Prop where
  files : s.files = u.files
  network : s.network = u.network
  counts : progress.counts = tally (done.map fun turn => outcome job turn.path turn.session)
  log : progress.log = { log with entries := entries job done }
  bound : progress.accuracy.total < 2 ^ 64

theorem tallied_nil {log : Timing.Log} (hlog : log.entries = []) (u : Session σ) :
    Tallied job log u [] { log } u where
  files := rfl
  network := rfl
  counts := rfl
  log := by
    rw [show entries job ([] : List (Turn σ Progress)) = log.entries from hlog.symm]
  bound := by
    show 0 < 2 ^ 64
    decide

theorem Tallied.step {log : Timing.Log} {done : List (Turn σ Progress)} {progress next : Progress}
    (h : Tallied job log u done progress s) (hstep : step job progress path s = (.ok next, t)) :
    Tallied job log u (done ++ [⟨path, progress, s⟩]) next t := by
  obtain ⟨hfiles, hnetwork, hcounts, hlog, hbound⟩ := step_inv hstep
  refine ⟨hfiles.trans h.files, hnetwork.trans h.network, ?_, ?_, hbound h.bound⟩
  · rw [hcounts, h.counts, List.map_append, tally_append]
    rfl
  · rw [hlog, h.log]
    simp only [entries, List.filterMap_append]

theorem tallied_of_loop {images : List FilePath} {log : Timing.Log} {last : Progress}
    {v : Session σ} (hlog : log.entries = [])
    (hloop : images.foldlM (step job) { log } u = (.ok last, v)) :
    Tallied job log u (turns (step job) { log } images u) last v :=
  turns_induct (fun _ _ _ _ _ _ hdone hstep => hdone.step hstep) hloop (tallied_nil hlog u)

/-- A run writes no file before its end. -/
theorem session_of_mem_turns {images : List FilePath} {progress : Progress}
    {turn : Turn σ Progress} (hturn : turn ∈ turns (step job) progress images u) :
    turn.session.files = u.files ∧ turn.session.network = u.network := by
  refine turn_invariant (I := fun _ v => v.files = u.files ∧ v.network = u.network) ?_ ⟨rfl, rfl⟩
    hturn
  intro progress s path next t hs hstep
  obtain ⟨hfiles, hnetwork, -⟩ := step_inv hstep
  exact ⟨hfiles.trans hs.1, hnetwork.trans hs.2⟩

/-! ## Runs that end -/

/-- Whether feeding an image file to the network does not crash. -/
def Steady (job : Job) (path : FilePath) (s : Session σ) : Prop :=
  ∀ crash, (forwardPass job path s).1 ≠ .error (.crash crash)

theorem visit_error_iff {fault : Fault} :
    visit job path s = (.error fault, t) ↔
      ∃ crash, fault = .crash crash ∧ forwardPass job path s = (.error (.crash crash), t) := by
  rw [visit_eq, attempt_crash_iff]
  simp only [Safe.bind_crash_iff (safe_judge job)]

theorem steady_of_step {progress next : Progress} (h : step job progress path s = (.ok next, t)) :
    Steady job path s := by
  intro crash hcrash
  obtain ⟨result, v, hvisit, -⟩ := step_ok_inv h
  rcases hpass : forwardPass job path s with ⟨r, w⟩
  rw [hpass] at hcrash
  cases hcrash
  have herror := visit_error_iff.2 ⟨crash, rfl, hpass⟩
  rw [hvisit] at herror
  cases herror

/-- No failure ends a turn. A crash does, and the timing log has been written by then, with the
prediction of the turn if there is one. -/
theorem step_error_inv {progress : Progress} {fault : Fault}
    (h : step job progress path s = (.error fault, t)) :
    (∃ crash, fault = .crash crash) ∧
      t.files = { progress.log with
        entries := progress.log.entries ++ entries job [⟨path, progress, s⟩] }.finish s.files := by
  obtain ⟨hfiles, -⟩ := visit_keeps job path s
  unfold step at h
  rcases hvisit : visit job path s with ⟨fault' | outcome, u⟩
  · -- the image brings the run down before there is a prediction
    have hnone : entries job [(⟨path, progress, s⟩ : Turn σ Progress)] = [] := by
      simp [entries, prediction, hvisit]
    obtain ⟨crash, rfl, -⟩ := visit_error_iff.1 hvisit
    rw [bind_error (holding_crash_iff.2 ⟨u, hvisit, rfl⟩)] at h
    cases h
    rw [hvisit] at hfiles
    rw [hnone, List.append_nil, ← hfiles]
    exact ⟨⟨crash, rfl⟩, rfl⟩
  · rw [bind_ok (holding_ok_iff.2 hvisit)] at h
    cases outcome with
    | error failure => cases h
    | ok made =>
      have hsome : entries job [(⟨path, progress, s⟩ : Turn σ Progress)] =
          [(imageName path, made.forward)] := by
        simp [entries, prediction, hvisit]
      obtain ⟨v, hbook⟩ := holding_error_inv h
      obtain ⟨⟨crash, rfl⟩, hbooked⟩ := bookLabel_error_inv hbook
      obtain ⟨w, hbook', rfl⟩ := holding_crash_iff.1 h
      cases hbook.symm.trans hbook'
      rw [hvisit] at hfiles
      rw [hsome, ← hfiles, ← hbooked]
      exact ⟨⟨crash, rfl⟩, rfl⟩

/-- A turn ends if its image does not crash and its counters fit in 64 bits. -/
theorem step_runs (progress : Progress) (hsteady : Steady job path s)
    (hle : progress.accuracy.correct ≤ progress.accuracy.total)
    (hbound : progress.accuracy.total + (tally [outcome job path s]).accuracy.total < 2 ^ 64) :
    ∃ next t, step job progress path s = (.ok next, t) := by
  have hlabel := map_label_prediction job (⟨path, progress, s⟩ : Turn σ Progress)
  rcases hvisit : visit job path s with ⟨fault | result, v⟩
  · obtain ⟨crash, rfl, hpass⟩ := visit_error_iff.1 hvisit
    exact absurd (congrArg Prod.fst hpass) (hsteady crash)
  · unfold step
    rw [bind_ok (holding_ok_iff.2 hvisit)]
    cases result with
    | error failure => exact ⟨_, _, rfl⟩
    | ok made =>
      have hsome : prediction job (⟨path, progress, s⟩ : Turn σ Progress) = some made := by
        simp only [prediction, hvisit]
      rw [hsome] at hlabel
      unfold book bookLabel
      cases htruth : trueLabel (imageName path) with
      | error failure => exact ⟨_, _, rfl⟩
      | ok truth =>
        simp only [outcome, ← hlabel, htruth, Option.map_some, tally_labeled] at hbound
        have hrecord := progress.accuracy.record_eq_ok made.label truth
          (Nat.lt_of_le_of_lt (Nat.add_le_add_right hle 1) hbound) hbound
        dsimp only
        rw [hrecord]
        exact ⟨_, _, rfl⟩

/-! ## Networks without memory -/

theorem prepare_congr (transform : Transform) (image : Raster) (s u : Session σ) :
    (prepare transform image u).1 = (prepare transform image s).1 := by
  unfold prepare
  rw [bind_apply, bind_apply, ofFault_apply, ofFault_apply]
  cases Raster.ofPixels image.bytes image.width image.height with
  | error fault => rfl
  | ok image =>
    dsimp only
    rw [bind_apply, bind_apply, ofFault_apply, ofFault_apply]
    cases (transform.resizedSize image).mapError Fault.crash with
    | error fault => rfl
    | ok size =>
      dsimp only
      split
      · let event := resizeEvent image size.1 size.2 transform.crop
        show (ofFault (transform.apply image) (u.told [event])).1 =
          (ofFault (transform.apply image) (s.told [event])).1
        rw [ofFault_apply, ofFault_apply]
      · rw [ofFault_apply, ofFault_apply]

/-- For a network without memory the answer for an image file depends on the file alone. -/
theorem forwardPass_congr (hpure : s.network.Pure) (hnetwork : u.network = s.network)
    (hload : u.files.loadImage path = s.files.loadImage path) :
    (forwardPass job path u).1 = (forwardPass job path s).1 := by
  unfold forwardPass
  rw [bind_apply, bind_apply, load_apply, load_apply, hload]
  cases s.files.loadImage path with
  | error failure => rfl
  | ok image =>
    show ((prepare job.model.transform image >>= infer) u).1 =
      ((prepare job.model.transform image >>= infer) s).1
    have hprepare := prepare_congr job.model.transform image s u
    rcases hs : prepare job.model.transform image s with ⟨r, v⟩
    rcases hu : prepare job.model.transform image u with ⟨r', w⟩
    rw [hs, hu] at hprepare
    obtain rfl : r' = r := hprepare
    cases r' with
    | error fault => rw [bind_error hs, bind_error hu]
    | ok input =>
      rw [bind_ok hs, bind_ok hu]
      have hsame := (quiet_prepare _ _).same hs
      have hsame' := (quiet_prepare _ _).same hu
      rw [infer_result, infer_result, hsame.network, hsame'.network, hnetwork,
        hpure input w.state v.state]

/-- The outcome of an image in session `s` is the one in a session with the same file. -/
theorem outcome_congr (job : Job) (hpure : s.network.Pure) (hnetwork : u.network = s.network)
    (hload : u.files.loadImage path = s.files.loadImage path) :
    outcome job path u = outcome job path s := by
  unfold outcome answeredClass
  rw [forwardPass_congr hpure hnetwork hload]

/-- Steady images give a run that ends with their tally, as long as it fits in 64 bits. -/
theorem loop_runs {images : List FilePath} (progress : Progress) (hpure : s.network.Pure)
    (hfiles : u.files = s.files) (hnetwork : u.network = s.network)
    (hsteady : ∀ path ∈ images, Steady job path s)
    (hle : progress.accuracy.correct ≤ progress.accuracy.total)
    (hbound : progress.accuracy.total +
      (tally (images.map fun path => outcome job path s)).accuracy.total < 2 ^ 64) :
    ∃ last t, images.foldlM (step job) progress u = (.ok last, t) ∧
      last.counts = progress.counts + tally (images.map fun path => outcome job path s) := by
  induction images generalizing progress u with
  | nil => exact ⟨progress, u, rfl, rfl⟩
  | cons path images ih =>
    have hload : u.files.loadImage path = s.files.loadImage path := by rw [hfiles]
    have houtcome := outcome_congr job hpure hnetwork hload
    have hcons : tally ((path :: images).map fun path => outcome job path s) =
        tally [outcome job path s] + tally (images.map fun path => outcome job path s) :=
      tally_append [outcome job path s] (images.map fun path => outcome job path s)
    have htotal : (tally ((path :: images).map fun path => outcome job path s)).accuracy.total =
        (tally [outcome job path s]).accuracy.total +
          (tally (images.map fun path => outcome job path s)).accuracy.total :=
      congrArg (·.accuracy.total) hcons
    have hfirst : Steady job path u := by
      intro crash hcrash
      rw [forwardPass_congr hpure hnetwork hload] at hcrash
      exact hsteady path (List.mem_cons_self ..) crash hcrash
    obtain ⟨next, v, hstep⟩ := step_runs progress hfirst hle
      (by rw [houtcome]; omega)
    obtain ⟨hfiles', hnetwork', hcounts, -, -⟩ := step_inv hstep
    rw [houtcome] at hcounts
    have hnext : next.accuracy.correct = progress.accuracy.correct +
        (tally [outcome job path s]).accuracy.correct :=
      congrArg (·.accuracy.correct) hcounts
    have hnext' : next.accuracy.total = progress.accuracy.total +
        (tally [outcome job path s]).accuracy.total :=
      congrArg (·.accuracy.total) hcounts
    have hmore := correct_le_total_tally [outcome job path s]
    obtain ⟨last, t, hloop, hlast⟩ := ih next (hfiles'.trans hfiles) (hnetwork'.trans hnetwork)
      (fun path hpath => hsteady path (List.mem_cons_of_mem _ hpath)) (by omega) (by omega)
    refine ⟨last, t, ?_, ?_⟩
    · rw [List.foldlM_cons, bind_ok hstep, hloop]
    · rw [hlast, hcounts, hcons, Counts.add_assoc]

/-! ## Whole runs -/

theorem run_ok_inv {images : List FilePath} {timingLog : FilePath} {summary : Summary}
    (h : run job images timingLog s = (.ok summary, t)) :
    ∃ log u last v, start job images timingLog s = (.ok log, u) ∧
      images.foldlM (step job) { log } u = (.ok last, v) ∧
      runTurns job images timingLog s = turns (step job) { log } images u ∧
      summary = ⟨job.model, last.accuracy, last.processed, last.failed, last.unlabeled,
        last.log.path⟩ ∧ t.files = last.log.finish v.files := by
  obtain ⟨log, u, hstart, -⟩ := bind_ok_inv h
  obtain ⟨_, hfault, -⟩ | ⟨last, v, hloop, hsummary, hfiles, -⟩ := run_inv hstart h
  · cases hfault
  · cases hsummary
    exact ⟨log, u, last, v, hstart, hloop, runTurns_of_start hstart, rfl, hfiles⟩

/-- The lines of a timing log with these entries. -/
def logText (entries : List (String × Duration)) : String :=
  String.join (entries.map fun (name, elapsed) => Timing.entry name elapsed ++ "\n")

/-- The books of a run over these images. -/
structure Tallies (job : Job) (images : List FilePath) (timingLog : FilePath) (s : Session σ)
    (done : List (Turn σ Progress)) (summary : Summary) (t : Session σ) : Prop where
  visited : done.map Turn.path = images
  counts : summary.counts = tally (done.map fun turn => outcome job turn.path turn.session)
  images : summary.processed + summary.failed = images.length
  labeled : summary.accuracy.total + summary.unlabeled = summary.processed
  correct : summary.accuracy.correct ≤ summary.accuracy.total
  percent : summary.accuracy.percent = none ↔
    ∀ turn ∈ done, (outcome job turn.path turn.session).isLabeled = false
  predictions : ∀ turn ∈ done,
    (prediction job turn).map Prediction.label = answeredClass job turn.path turn.session
  lines : (entries job done).length = summary.processed
  timing : s.files.Grounded →
    t.files.find? timingLog = some (.file (.bytes (Utf8.encode (logText (entries job done)))))

theorem length_entries (job : Job) (done : List (Turn σ Progress)) :
    (entries job done).length =
      (tally (done.map fun turn => outcome job turn.path turn.session)).processed := by
  unfold entries tally
  rw [List.length_filterMap_eq_countP, List.countP_map]
  refine List.countP_congr fun turn _ => ?_
  rw [Function.comp_apply, isProcessed_outcome, ← map_label_prediction, Option.isSome_map,
    Option.isSome_map]

theorem tallied_of_run {images : List FilePath} {timingLog : FilePath} {summary : Summary}
    (h : run job images timingLog s = (.ok summary, t)) :
    Tallies job images timingLog s (runTurns job images timingLog s) summary t := by
  obtain ⟨log, u, last, v, hstart, hloop, hturns, rfl, hfiles⟩ := run_ok_inv h
  obtain ⟨hcreate, -⟩ := start_ok_inv hstart
  obtain ⟨hpath, hentries⟩ := create_log_inv hcreate
  have htallied := tallied_of_loop hentries hloop
  have hvisited := map_path_turns hloop
  rw [← hturns] at htallied hvisited
  have hlength : (runTurns job images timingLog s).length = images.length := by
    rw [← List.length_map (f := Turn.path), hvisited]
  have hcounts := htallied.counts
  have hprocessed : last.processed = _ := congrArg Counts.processed hcounts
  have hfailed : last.failed = _ := congrArg Counts.failed hcounts
  have hunlabeled : last.unlabeled = _ := congrArg Counts.unlabeled hcounts
  have haccuracy : last.accuracy = _ := congrArg Counts.accuracy hcounts
  refine ⟨hvisited, hcounts, ?_, ?_, ?_, ?_, fun turn _ => map_label_prediction job turn, ?_, ?_⟩
  · show last.processed + last.failed = _
    rw [hprocessed, hfailed, processed_add_failed_tally, List.length_map, hlength]
  · show last.accuracy.total + last.unlabeled = last.processed
    rw [haccuracy, hunlabeled, hprocessed, total_add_unlabeled_tally]
  · show last.accuracy.correct ≤ last.accuracy.total
    rw [haccuracy]
    exact correct_le_total_tally _
  · show last.accuracy.percent = none ↔ _
    rw [percent_eq_none_iff, haccuracy]
    simp [tally, List.countP_eq_zero]
  · exact (length_entries job _).trans hprocessed.symm
  · intro hfs
    rw [hfiles, htallied.files, htallied.log]
    exact find?_log hfs hstart rfl

/-- **A run that crashes keeps the lines of its timing log.** They are those of all predictions,
also of one that could not be counted any more. -/
theorem log_of_crashed_run {images : List FilePath} {timingLog : FilePath} {crash : Crash}
    (hfs : s.files.Grounded) (h : run job images timingLog s = (.error (.crash crash), t)) :
    t.files.find? timingLog = some (.file (.bytes (Utf8.encode
      (logText (entries job (runTurns job images timingLog s)))))) := by
  rcases hstart : start job images timingLog s with ⟨fault | log, u⟩
  · rw [run, bind_error hstart] at h
    cases h
    exact absurd hstart (safe_start job images timingLog s _ _)
  obtain ⟨_, hfault, hloop⟩ | ⟨last, v, -, hnone, -⟩ := run_inv hstart h
  · cases hfault
    obtain ⟨done, turn, hsplit, hdone, hbefore, hstep⟩ := foldlM_error_inv hloop
    have htallied := tallied_of_loop (create_log_inv (start_ok_inv hstart).1).2 hbefore
    rw [hdone] at htallied
    have hentries : turn.progress.log.entries ++ entries job [turn] =
        entries job (done ++ [turn]) := by
      rw [htallied.log]
      simp only [entries, List.filterMap_append]
    rw [runTurns_of_start hstart, hsplit, (step_error_inv hstep).2, hentries, htallied.log, htallied.files]
    exact find?_log hfs hstart rfl
  · cases hnone

/-- For a network without memory a run that ends has the tally of its list, and its images are
steady. -/
theorem counts_of_run {images : List FilePath} {timingLog : FilePath} {summary : Summary}
    (hpure : s.network.Pure) (h : run job images timingLog s = (.ok summary, t)) :
    ∃ log u, Timing.Log.create s.files timingLog = .ok (u.files, log) ∧ u.network = s.network ∧
      (∀ path ∈ images, Steady job path u) ∧ summary.accuracy.total < 2 ^ 64 ∧
      summary.counts = tally (images.map fun path => outcome job path u) := by
  obtain ⟨log, u, last, v, hstart, hloop, hturns, rfl, -⟩ := run_ok_inv h
  obtain ⟨hcreate, hnetwork⟩ := start_ok_inv hstart
  have htallied := tallied_of_loop (create_log_inv hcreate).2 hloop
  have hvisited := map_path_turns hloop
  have hpure' : u.network.Pure := hnetwork ▸ hpure
  refine ⟨log, u, hcreate, hnetwork, fun path hpath => ?_, htallied.bound, ?_⟩
  · rw [← hvisited] at hpath
    obtain ⟨turn, hturn, rfl⟩ := List.mem_map.1 hpath
    obtain ⟨hfiles', hnetwork'⟩ := session_of_mem_turns hturn
    intro crash hcrash
    rcases hstep : step job turn.progress turn.path turn.session with ⟨fault | next, w⟩
    · have herror := foldlM_error_iff.2 ⟨turn, hturn, hstep⟩
      rw [hloop] at herror
      cases herror
    · refine steady_of_step hstep crash ?_
      rwa [forwardPass_congr hpure' hnetwork' (by rw [hfiles'])]
  · refine htallied.counts.trans (congrArg tally ?_)
    calc (turns (step job) { log } images u).map (fun turn => outcome job turn.path turn.session)
        = (turns (step job) { log } images u).map (fun turn => outcome job turn.path u) := by
          refine List.map_congr_left fun turn hturn => ?_
          obtain ⟨hfiles', hnetwork'⟩ := session_of_mem_turns hturn
          exact outcome_congr job hpure' hnetwork' (by rw [hfiles'])
      _ = ((turns (step job) { log } images u).map Turn.path).map fun path =>
            outcome job path u := by
          rw [List.map_map]
          rfl
      _ = images.map fun path => outcome job path u := by rw [hvisited]

theorem run_of_steady {images : List FilePath} {timingLog : FilePath} {log : Timing.Log}
    (hpure : u.network.Pure) (hcreate : Timing.Log.create s.files timingLog = .ok (u.files, log))
    (hnetwork : s.network = u.network) (hsteady : ∀ path ∈ images, Steady job path u)
    (hbound : (tally (images.map fun path => outcome job path u)).accuracy.total < 2 ^ 64) :
    ∃ summary t, run job images timingLog s = (.ok summary, t) ∧
      summary.counts = tally (images.map fun path => outcome job path u) := by
  obtain ⟨v, hstart, hfiles, hnetwork'⟩ := start_runs hcreate job images
  obtain ⟨last, w, hloop, hcounts⟩ := loop_runs { log } hpure hfiles
    (hnetwork'.trans hnetwork) hsteady (Nat.le_refl 0) (by simpa using hbound)
  unfold run
  rw [bind_ok hstart, bind_ok hloop]
  exact ⟨_, _, rfl, hcounts.trans (tally_append [] _).symm⟩

/-- **The books of a run agree, and count images one by one.** A run that ends has an entry in its
timing log for each processed image, and its counters are those of the outcomes of its images. If
the network has no memory, then they depend neither on the order of the images nor on whether they
are classified in one run or in two. -/
theorem tallies_of_run {images : List FilePath} {timingLog : FilePath} {summary : Summary}
    (h : run job images timingLog s = (.ok summary, t)) :
    Tallies job images timingLog s (runTurns job images timingLog s) summary t ∧
    (s.network.Pure → ∀ s', s'.files = s.files → s'.network = s.network →
      (∀ images', images'.Perm images → ∃ summary' t',
        run job images' timingLog s' = (.ok summary', t') ∧ summary'.counts = summary.counts) ∧
      ∀ s'' xs ys, s''.files = s.files → s''.network = s.network → images = xs ++ ys →
        ∃ summary' t' summary'' t'', run job xs timingLog s' = (.ok summary', t') ∧
          run job ys timingLog s'' = (.ok summary'', t'') ∧
          summary.counts = summary'.counts + summary''.counts) := by
  refine ⟨tallied_of_run h, fun hpure s' hfiles' hnetwork' => ?_⟩
  obtain ⟨log, u, hcreate, hnetwork, hsteady, hbound, hcounts⟩ := counts_of_run hpure h
  have hpure' : u.network.Pure := hnetwork ▸ hpure
  have htotal : summary.accuracy.total =
      (tally (images.map fun path => outcome job path u)).accuracy.total :=
    congrArg (·.accuracy.total) hcounts
  constructor
  · intro images' hperm
    have hsame := tally_perm (hperm.map fun path => outcome job path u)
    rw [htotal, ← hsame] at hbound
    rw [hcounts, ← hsame]
    exact run_of_steady hpure' (hfiles' ▸ hcreate) (hnetwork'.trans hnetwork.symm)
      (fun path hpath => hsteady path (hperm.mem_iff.1 hpath)) hbound
  · rintro s'' xs ys hfiles'' hnetwork'' rfl
    have hsum := hcounts
    rw [List.map_append, tally_append] at hsum
    have hsplit : summary.accuracy.total =
        (tally (xs.map fun path => outcome job path u)).accuracy.total +
          (tally (ys.map fun path => outcome job path u)).accuracy.total :=
      congrArg (·.accuracy.total) hsum
    obtain ⟨summary', t', hrun', hcounts'⟩ := run_of_steady hpure' (hfiles' ▸ hcreate)
      (hnetwork'.trans hnetwork.symm)
      (fun path hpath => hsteady path (List.mem_append_left _ hpath)) (by omega)
    obtain ⟨summary'', t'', hrun'', hcounts''⟩ := run_of_steady hpure' (hfiles'' ▸ hcreate)
      (hnetwork''.trans hnetwork.symm)
      (fun path hpath => hsteady path (List.mem_append_right _ hpath)) (by omega)
    exact ⟨summary', t', summary'', t'', hrun', hrun'', by rw [hsum, hcounts', hcounts'']⟩

end

/-- A session with three pictures, two of them labeled, whose network ranks class 1 first. -/
def secondClassSession : Session Unit where
  files := ⟨((Table.empty.put [Utf8.encode "1_a.png"]
    (.file (.picture ⟨.png, .rgb, .eight, 1, 1, #[0, 0, 0]⟩))).put [Utf8.encode "2_b.png"]
    (.file (.picture ⟨.png, .rgb, .eight, 1, 1, #[0, 0, 0]⟩))).put [Utf8.encode "c.png"]
    (.file (.picture ⟨.png, .rgb, .eight, 1, 1, #[0, 0, 0]⟩)), []⟩
  network := ⟨.cpu, fun _ state => (.ok ⟨[1, 2], #[0, 1], rfl⟩, state)⟩
  state := ()
  clock _ := .zero

/-- The three pictures of that session and a file that is not there. -/
def mixedImages : List FilePath :=
  [.ofString "1_a.png", .ofString "0_x.png", .ofString "c.png", .ofString "2_b.png"]

/-- One of the two labeled pictures of that session is classified correctly, backwards and in two
runs as well. -/
theorem tallies_of_run_secondClass :
    let job : Job := ⟨.resNet, 5, Float32.exp⟩
    let log : FilePath := .ofString "log"
    ∃ summary t, run job mixedImages log secondClassSession = (.ok summary, t) ∧
      summary.counts = ⟨3, 1, 1, ⟨1, 2⟩⟩ ∧
      t.files.find? log = some (.file (.bytes (Utf8.encode
        "1_a.png\t0.0000 ms\nc.png\t0.0000 ms\n2_b.png\t0.0000 ms\n"))) ∧
      (∃ summary' t', run job mixedImages.reverse log secondClassSession = (.ok summary', t') ∧
        summary'.counts = ⟨3, 1, 1, ⟨1, 2⟩⟩) ∧
      ∃ summary' t' summary'' t'',
        run job (mixedImages.take 1) log secondClassSession = (.ok summary', t') ∧
        run job (mixedImages.drop 1) log secondClassSession = (.ok summary'', t'') ∧
        ⟨3, 1, 1, ⟨1, 2⟩⟩ = summary'.counts + summary''.counts := by
  intro job log
  have hends : ends (fun summary _ => decide (summary.counts = ⟨3, 1, 1, ⟨1, 2⟩⟩))
      (run job mixedImages log) secondClassSession = true := by
    decide +kernel
  obtain ⟨summary, t, hrun, hcheck⟩ := ends_inv hends
  have hcounts := of_decide_eq_true hcheck
  have htext : logText (entries job (runTurns job mixedImages log secondClassSession)) =
      "1_a.png\t0.0000 ms\nc.png\t0.0000 ms\n2_b.png\t0.0000 ms\n" := by
    decide +kernel
  obtain ⟨htallies, hlaws⟩ := tallies_of_run hrun
  have hgrounded : secondClassSession.files.Grounded :=
    FileSystem.grounded_of_rows (by decide +kernel)
  obtain ⟨hperm, happend⟩ := hlaws (fun _ _ _ => rfl) secondClassSession rfl rfl
  rw [← hcounts, ← htext]
  exact ⟨summary, t, hrun, rfl, htallies.timing hgrounded, hperm _ (List.reverse_perm _),
    happend secondClassSession _ _ rfl rfl (List.take_append_drop 1 _).symm⟩

end ImageLabeling.Classification
