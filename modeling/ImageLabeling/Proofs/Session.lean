import ImageLabeling.Session

/-!
# Computations on sessions

How a `Run` acts on a session: `bind_apply` runs one computation after another, and `bind_ok_inv`
takes a result apart again. Most steps of a run are *quiet* (`Quiet`): whatever they return, files,
network and measurements stay as they were. A step that writes a file is not, and `save_ok_iff` and
`save_error_iff` say what it does. Most steps are `Safe` as well, which is never to crash; an
attempt crashes exactly if its body does (`attempt_crash_iff`), and what crashes while it holds a
timing log leaves the log written (`holding_crash_iff`).
-/

namespace ImageLabeling

/-- The answer to an input does not depend on the state. -/
def Network.Pure {σ : Type} (network : Network σ) : Prop :=
  ∀ input state state', (network.infer input state).1 = (network.infer input state').1

namespace Session

variable {σ α β : Type}

/-! ## Results -/

/-- The session goes from the first computation to the second, unless a fault ends the first. -/
theorem bind_apply (body : Run σ α) (f : α → Run σ β) (s : Session σ) :
    (body >>= f) s =
      match body s with
      | (.ok a, t) => f a t
      | (.error fault, t) => (.error fault, t) := by
  show (ExceptT.bind body f : Run σ β) s = _
  simp only [ExceptT.bind, ExceptT.mk, bind, StateT.bind, ExceptT.bindCont]
  rcases body s with ⟨a | fault, t⟩ <;> rfl

theorem bind_ok {body : Run σ α} {s t : Session σ} {a : α} (h : body s = (.ok a, t))
    (f : α → Run σ β) : (body >>= f) s = f a t := by
  rw [bind_apply, h]

theorem bind_error {body : Run σ α} {s t : Session σ} {fault : Fault}
    (h : body s = (.error fault, t)) (f : α → Run σ β) : (body >>= f) s = (.error fault, t) := by
  rw [bind_apply, h]

/-- A result of two computations in a row comes from a result of each. -/
theorem bind_ok_inv {body : Run σ α} {f : α → Run σ β} {s t : Session σ} {b : β}
    (h : (body >>= f) s = (.ok b, t)) : ∃ a u, body s = (.ok a, u) ∧ f a u = (.ok b, t) := by
  rw [bind_apply] at h
  rcases hbody : body s with ⟨fault | a, u⟩
  · rw [hbody] at h
    cases h
  · rw [hbody] at h
    exact ⟨a, u, rfl, h⟩

theorem attempt_ok {body : Run σ α} {s t : Session σ} {a : α} (h : body s = (.ok a, t)) :
    attempt body s = (.ok (.ok a), t) := by
  rw [attempt, h]

theorem attempt_error {body : Run σ α} {s t : Session σ} {failure : Failure}
    (h : body s = (.error (.failure failure), t)) :
    attempt body s = (.ok (.error failure), t) := by
  rw [attempt, h]

/-- An attempt leaves the session as its body does. -/
theorem attempt_session (body : Run σ α) (s : Session σ) : (attempt body s).2 = (body s).2 := by
  unfold attempt
  rcases body s with ⟨(crash | failure) | a, t⟩ <;> rfl

/-- A forward pass that is answered changes the state of the network alone. -/
theorem infer_runs {input output : Tensor} {s : Session σ}
    (h : (s.network.infer input s.state).1 = .ok output) :
    infer input s = (.ok output, { s with state := (s.network.infer input s.state).2 }) := by
  unfold infer
  rw [bind_ok (show (get : Run σ (Session σ)) s = (.ok s, s) from rfl)]
  rcases hinfer : s.network.infer input s.state with ⟨answer, state⟩
  rw [hinfer] at h
  dsimp only at h
  subst h
  rfl

/-- A forward pass that ends in an error changes the state of the network as well. -/
theorem infer_fails {input : Tensor} {message : String} {s : Session σ}
    (h : (s.network.infer input s.state).1 = .error message) :
    infer input s = (.error (.failure (.network message)),
      { s with state := (s.network.infer input s.state).2 }) := by
  unfold infer
  rw [bind_ok (show (get : Run σ (Session σ)) s = (.ok s, s) from rfl)]
  rcases hinfer : s.network.infer input s.state with ⟨answer, state⟩
  rw [hinfer] at h
  dsimp only at h
  subst h
  rfl

theorem infer_result (input : Tensor) (s : Session σ) :
    (infer input s).1 = (s.network.infer input s.state).1.mapError (.failure ∘ .network) := by
  cases h : (s.network.infer input s.state).1 with
  | ok output => exact congrArg Prod.fst (infer_runs h)
  | error message => exact congrArg Prod.fst (infer_fails h)

theorem ofExcept_apply (result : Except Failure α) (s : Session σ) :
    (ofExcept result : Run σ α) s = (result.mapError .failure, s) := by
  cases result <;> rfl

theorem ofFault_apply (result : Except Fault α) (s : Session σ) :
    (ofFault result : Run σ α) s = (result, s) := by
  cases result <;> rfl

theorem load_apply (path : FilePath) (s : Session σ) :
    load path s = ((s.files.loadImage path).mapError .failure, s) :=
  ofExcept_apply _ s

theorem eq_error_of_map {r : Except Fault α} {f : α → β} {fault : Fault}
    (h : r.map f = .error fault) : r = .error fault := by
  cases r with
  | error fault' =>
    cases h
    rfl
  | ok a => cases h

theorem exists_of_map_eq_ok {r : Except Fault α} {f : α → β} {b : β}
    (h : r.map f = .ok b) : ∃ a, r = .ok a ∧ f a = b := by
  cases r with
  | error fault => cases h
  | ok a =>
    cases h
    exact ⟨a, rfl, rfl⟩

/-- What an attempt gives back as a value is how its body ended. -/
theorem attempt_inv {body : Run σ α} {s t : Session σ} {outcome : Except Failure α}
    (h : attempt body s = (.ok outcome, t)) :
    (∃ a, outcome = .ok a ∧ body s = (.ok a, t)) ∨
      ∃ failure, outcome = .error failure ∧ body s = (.error (.failure failure), t) := by
  unfold attempt at h
  rcases hbody : body s with ⟨(crash | failure) | a, u⟩ <;> rw [hbody] at h <;> cases h
  · exact .inr ⟨failure, rfl, rfl⟩
  · exact .inl ⟨a, rfl, rfl⟩

theorem holding_ok_iff {log : Timing.Log} {body : Run σ α} {s t : Session σ} {a : α} :
    holding log body s = (.ok a, t) ↔ body s = (.ok a, t) := by
  unfold holding
  rcases body s with ⟨(crash | failure) | b, u⟩
  · exact ⟨nofun, nofun⟩
  · exact Iff.rfl
  · exact Iff.rfl

/-- A crash is that of the body, and the log has been written. -/
theorem holding_crash_iff {log : Timing.Log} {body : Run σ α} {s t : Session σ} {crash : Crash} :
    holding log body s = (.error (.crash crash), t) ↔
      ∃ u, body s = (.error (.crash crash), u) ∧ t = { u with files := log.finish u.files } := by
  unfold holding
  rcases body s with ⟨(crash' | failure) | b, u⟩
  · constructor
    · intro h
      cases h
      exact ⟨u, rfl, rfl⟩
    · rintro ⟨_, h, rfl⟩
      cases h
      rfl
  · exact ⟨nofun, nofun⟩
  · exact ⟨nofun, nofun⟩

theorem holding_error_inv {log : Timing.Log} {body : Run σ α} {s t : Session σ} {fault : Fault}
    (h : holding log body s = (.error fault, t)) : ∃ u, body s = (.error fault, u) := by
  unfold holding at h
  rcases hbody : body s with ⟨(crash | failure) | b, u⟩ <;> rw [hbody] at h <;> cases h
  · exact ⟨u, rfl⟩
  · exact ⟨t, rfl⟩

/-- Whether a computation has a result that passes a check. -/
def ends (check : α → Session σ → Bool) (body : Run σ α) (s : Session σ) : Bool :=
  match body s with
  | (.ok a, t) => check a t
  | (.error _, _) => false

theorem ends_inv {check : α → Session σ → Bool} {body : Run σ α} {s : Session σ}
    (h : ends check body s = true) : ∃ a t, body s = (.ok a, t) ∧ check a t = true := by
  unfold ends at h
  split at h
  · exact ⟨_, _, by assumption, h⟩
  · cases h

/-- The failure that a computation ends in, if it does. -/
def failure? (body : Run σ α) (s : Session σ) : Option Failure :=
  match body s with
  | (.ok _, _) => none
  | (.error (.crash _), _) => none
  | (.error (.failure failure), _) => some failure

theorem failure?_inv {body : Run σ α} {s : Session σ} {failure : Failure}
    (h : failure? body s = some failure) : ∃ t, body s = (.error (.failure failure), t) := by
  unfold failure? at h
  rcases hbody : body s with ⟨(crash | other) | a, t⟩
  · rw [hbody] at h
    cases h
  · rw [hbody] at h
    cases h
    exact ⟨t, rfl⟩
  · rw [hbody] at h
    cases h

/-- The crash that a computation ends in, if it does. -/
def crash? (body : Run σ α) (s : Session σ) : Option Crash :=
  match body s with
  | (.ok _, _) => none
  | (.error (.crash crash), _) => some crash
  | (.error (.failure _), _) => none

theorem crash?_inv {body : Run σ α} {s : Session σ} {crash : Crash}
    (h : crash? body s = some crash) : ∃ t, body s = (.error (.crash crash), t) := by
  unfold crash? at h
  rcases hbody : body s with ⟨(other | failure) | a, t⟩
  · rw [hbody] at h
    cases h
    exact ⟨t, rfl⟩
  · rw [hbody] at h
    cases h
  · rw [hbody] at h
    cases h

/-! ## Quiet computations -/

/-- Two sessions with the same files, network and measurements. -/
structure Same (s t : Session σ) : Prop where
  files : t.files = s.files
  network : t.network = s.network
  metrics : t.metrics = s.metrics

theorem Same.refl (s : Session σ) : Same s s := ⟨rfl, rfl, rfl⟩

theorem Same.trans {s t u : Session σ} (h : Same s t) (h' : Same t u) : Same s u :=
  ⟨h'.files.trans h.files, h'.network.trans h.network, h'.metrics.trans h.metrics⟩

/-- Nothing was fed to the network, and nothing measured. -/
structure Idle (s t : Session σ) : Prop where
  network : t.network = s.network
  state : t.state = s.state
  metrics : t.metrics = s.metrics

/-- The computation leaves files, network and measurements alone, whatever it returns. -/
def Quiet (body : Run σ α) : Prop :=
  ∀ s, Same s (body s).2

theorem Quiet.same {body : Run σ α} (h : Quiet body) {s t : Session σ} {r : Except Fault α}
    (hr : body s = (r, t)) : Same s t := by
  have := h s
  rwa [hr] at this

theorem quiet_pure (a : α) : Quiet (pure a : Run σ α) := Same.refl

theorem quiet_throw (fault : Fault) : Quiet (throw fault : Run σ α) := Same.refl

theorem quiet_get : Quiet (get : Run σ (Session σ)) := Same.refl

theorem Quiet.bind {body : Run σ α} {f : α → Run σ β} (hbody : Quiet body)
    (hf : ∀ a, Quiet (f a)) : Quiet (body >>= f) := by
  intro s
  rw [bind_apply]
  rcases h : body s with ⟨fault | a, t⟩
  · exact hbody.same h
  · exact (hbody.same h).trans (hf a t)

theorem quiet_reportAll (events : List Event) : Quiet (reportAll events : Run σ Unit) :=
  fun _ => ⟨rfl, rfl, rfl⟩

theorem quiet_report (event : Event) : Quiet (report event : Run σ Unit) :=
  quiet_reportAll [event]

theorem quiet_measure : Quiet (measure : Run σ Duration) := fun _ => ⟨rfl, rfl, rfl⟩

theorem quiet_infer (input : Tensor) : Quiet (infer input : Run σ Tensor) := by
  intro s
  unfold infer
  rw [bind_ok (show (get : Run σ (Session σ)) s = (.ok s, s) from rfl)]
  rcases s.network.infer input s.state with ⟨message | output, state⟩ <;> exact ⟨rfl, rfl, rfl⟩

theorem quiet_ofExcept (result : Except Failure α) : Quiet (ofExcept result : Run σ α) := by
  cases result with
  | ok a => exact quiet_pure a
  | error failure => exact quiet_throw _

theorem quiet_ofFault (result : Except Fault α) : Quiet (ofFault result : Run σ α) := by
  cases result with
  | ok a => exact quiet_pure a
  | error fault => exact quiet_throw fault

theorem quiet_load (path : FilePath) : Quiet (load path : Run σ Raster) :=
  quiet_get.bind fun _ => quiet_ofExcept _

theorem quiet_mapM {f : α → Run σ β} (hf : ∀ a, Quiet (f a)) (as : List α) :
    Quiet (as.mapM f) := by
  induction as with
  | nil => exact quiet_pure []
  | cons a as ih =>
    rw [List.mapM_cons]
    exact (hf a).bind fun b => ih.bind fun bs => quiet_pure (b :: bs)

/-! ## Writing -/

/-- Saving succeeds if the file can be written, and then changes the files alone. -/
theorem save_ok_iff {path : FilePath} {content : FileContent} {failure : Failure}
    {s t : Session σ} :
    save path content failure s = (.ok (), t) ↔
      ∃ files, s.files.write path content = .ok files ∧ t = { s with files } := by
  unfold save
  rw [bind_ok (show (get : Run σ (Session σ)) s = (.ok s, s) from rfl)]
  cases h : s.files.write path content with
  | ok files =>
    constructor
    · intro hsave
      cases hsave
      exact ⟨files, rfl, rfl⟩
    · rintro ⟨files', hfiles, rfl⟩
      cases hfiles
      rfl
  | error fault =>
    constructor
    · intro hsave
      cases hsave
    · rintro ⟨files', hfiles, -⟩
      cases hfiles

/-- Saving fails if the file cannot be written, and then changes nothing. -/
theorem save_error_iff {path : FilePath} {content : FileContent} {failure : Failure}
    {fault : Fault} {s t : Session σ} :
    save path content failure s = (.error fault, t) ↔
      (∃ e, s.files.write path content = .error e) ∧ fault = .failure failure ∧ t = s := by
  unfold save
  rw [bind_ok (show (get : Run σ (Session σ)) s = (.ok s, s) from rfl)]
  cases h : s.files.write path content with
  | ok files =>
    constructor
    · intro hsave
      cases hsave
    · rintro ⟨⟨e, he⟩, -⟩
      cases he
  | error e =>
    constructor
    · intro hsave
      cases hsave
      exact ⟨⟨e, rfl⟩, rfl, rfl⟩
    · rintro ⟨-, rfl, rfl⟩
      rfl

/-- Creating a timing log changes the files alone. -/
theorem createLog_ok_iff {path : FilePath} {log : Timing.Log} {s t : Session σ} :
    createLog path s = (.ok log, t) ↔
      ∃ files, Timing.Log.create s.files path = .ok (files, log) ∧ t = { s with files } := by
  unfold createLog
  rw [bind_ok (show (get : Run σ (Session σ)) s = (.ok s, s) from rfl)]
  cases hcreate : Timing.Log.create s.files path with
  | ok created =>
    obtain ⟨files, log'⟩ := created
    constructor
    · intro h
      cases h
      exact ⟨files, rfl, rfl⟩
    · rintro ⟨files', hfiles, rfl⟩
      cases hfiles
      rfl
  | error fault =>
    constructor
    · intro h
      cases h
    · rintro ⟨files', hfiles, -⟩
      cases hfiles

/-- Where no timing log can be created, nothing changes. -/
theorem createLog_error_iff {path : FilePath} {fault : Fault} {s t : Session σ} :
    createLog path s = (.error fault, t) ↔
      (∃ e, Timing.Log.create s.files path = .error e) ∧
        fault = .failure (.noTimingLog path) ∧ t = s := by
  unfold createLog
  rw [bind_ok (show (get : Run σ (Session σ)) s = (.ok s, s) from rfl)]
  cases hcreate : Timing.Log.create s.files path with
  | ok created =>
    constructor
    · intro h
      cases h
    · rintro ⟨⟨e, he⟩, -⟩
      cases he
  | error e =>
    constructor
    · intro h
      cases h
      exact ⟨⟨e, rfl⟩, rfl, rfl⟩
    · rintro ⟨-, rfl, rfl⟩
      rfl

/-- A new timing log has no entries. -/
theorem create_log_inv {fs fs' : FileSystem} {path : FilePath} {log : Timing.Log}
    (h : Timing.Log.create fs path = .ok (fs', log)) : log.path = path ∧ log.entries = [] := by
  obtain ⟨location, -, -, rfl⟩ := Timing.Log.create_eq_ok_iff.1 h
  exact ⟨rfl, rfl⟩

/-! ## Safe computations -/

/-- The computation has a result or fails, and never crashes. -/
def Safe (body : Run σ α) : Prop :=
  ∀ s crash t, body s ≠ (.error (.crash crash), t)

theorem safe_pure (a : α) : Safe (pure a : Run σ α) := fun _ _ _ => nofun

theorem safe_throw (failure : Failure) : Safe (throw (.failure failure) : Run σ α) :=
  fun _ _ _ => nofun

theorem safe_get : Safe (get : Run σ (Session σ)) := fun _ _ _ => nofun

theorem safe_report (event : Event) : Safe (report event : Run σ Unit) := fun _ _ _ => nofun

theorem safe_reportAll (events : List Event) : Safe (reportAll events : Run σ Unit) :=
  fun _ _ _ => nofun

theorem safe_measure : Safe (measure : Run σ Duration) := fun _ _ _ => nofun

theorem safe_meter (f : Metrics → Metrics) : Safe (meter f : Run σ Unit) := fun _ _ _ => nofun

theorem safe_ofExcept (result : Except Failure α) : Safe (ofExcept result : Run σ α) := by
  cases result with
  | ok a => exact safe_pure a
  | error failure => exact safe_throw failure

theorem Safe.bind {body : Run σ α} {f : α → Run σ β} (hbody : Safe body) (hf : ∀ a, Safe (f a)) :
    Safe (body >>= f) := by
  intro s crash t h
  rw [bind_apply] at h
  rcases hresult : body s with ⟨fault | a, u⟩
  · rw [hresult] at h
    cases h
    exact hbody s crash t hresult
  · rw [hresult] at h
    exact hf a u crash t h

theorem safe_save (path : FilePath) (content : FileContent) (failure : Failure) :
    Safe (save path content failure : Run σ Unit) := by
  intro s crash t h
  obtain ⟨-, hfault, -⟩ := save_error_iff.1 h
  cases hfault

theorem safe_createLog (path : FilePath) : Safe (createLog path : Run σ Timing.Log) := by
  refine safe_get.bind fun s => ?_
  cases Timing.Log.create s.files path with
  | ok created => exact fun _ _ _ => nofun
  | error fault => exact safe_throw _

theorem attempt_crash_iff {body : Run σ α} {s t : Session σ} {fault : Fault} :
    attempt body s = (.error fault, t) ↔
      ∃ crash, fault = .crash crash ∧ body s = (.error (.crash crash), t) := by
  unfold attempt
  rcases body s with ⟨(crash | failure) | a, u⟩
  · constructor
    · intro h
      cases h
      exact ⟨crash, rfl, rfl⟩
    · rintro ⟨_, rfl, h⟩
      cases h
      rfl
  · constructor
    · intro h
      cases h
    · rintro ⟨_, -, h⟩
      cases h
  · constructor
    · intro h
      cases h
    · rintro ⟨_, -, h⟩
      cases h

/-- Once a safe computation follows, a crash comes from what is before it. -/
theorem Safe.bind_crash_iff {body : Run σ α} {f : α → Run σ β} (hf : ∀ a, Safe (f a))
    {s t : Session σ} {crash : Crash} :
    (body >>= f) s = (.error (.crash crash), t) ↔ body s = (.error (.crash crash), t) := by
  rcases hbody : body s with ⟨fault | a, u⟩
  · rw [bind_error hbody]
    constructor
    · intro h
      cases h
      rfl
    · intro h
      cases h
      rfl
  · rw [bind_ok hbody]
    constructor
    · intro h
      exact absurd h (hf a u crash t)
    · intro h
      cases h

end Session

end ImageLabeling
