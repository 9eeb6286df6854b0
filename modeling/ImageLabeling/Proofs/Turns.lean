import ImageLabeling.Proofs.Session

/-!
# Runs image by image

A run visits its images in order, each from the progress and the session that the one before left
behind. `turns` lists these visits, whether or not all of them come to an end. `turns_induct`
carries a statement about the turns so far through a whole run, and `turn_invariant` one about the
session to the start of each turn. A run ends in a fault exactly if one of its turns does
(`foldlM_error_iff`), and up to there it is a run over fewer images (`foldlM_error_inv`).
-/

namespace ImageLabeling

open Session

variable {σ P : Type}

/-- One image of a run with the progress and the session that it starts from. -/
structure Turn (σ P : Type) where
  path : FilePath
  progress : P
  session : Session σ

/-- The turns of a run, up to the first one that ends it. -/
def turns (step : P → FilePath → Run σ P) (progress : P) :
    List FilePath → Session σ → List (Turn σ P)
  | [], _ => []
  | path :: rest, s =>
    ⟨path, progress, s⟩ ::
      match step progress path s with
      | (.ok next, t) => turns step next rest t
      | (.error _, _) => []

variable {step : P → FilePath → Run σ P} {paths : List FilePath} {progress last : P}
  {s t : Session σ}

theorem turns_cons {path : FilePath} {next : P} (h : step progress path s = (.ok next, t)) :
    turns step progress (path :: paths) s = ⟨path, progress, s⟩ :: turns step next paths t := by
  simp only [turns, h]

theorem turns_cons_error {path : FilePath} {fault : Fault}
    (h : step progress path s = (.error fault, t)) :
    turns step progress (path :: paths) s = [⟨path, progress, s⟩] := by
  simp only [turns, h]

/-- A run over several images does the first one and goes on from there. -/
theorem foldlM_cons_inv {path : FilePath}
    (h : (path :: paths).foldlM step progress s = (.ok last, t)) :
    ∃ next u, step progress path s = (.ok next, u) ∧ paths.foldlM step next u = (.ok last, t) := by
  rw [List.foldlM_cons] at h
  exact bind_ok_inv h

/-- **What every turn keeps up holds after the run**, of all its turns. -/
theorem turns_induct_mem {I : List (Turn σ P) → P → Session σ → Prop}
    (hstep : ∀ done progress s, ∀ path ∈ paths, ∀ next t, I done progress s →
      step progress path s = (.ok next, t) → I (done ++ [⟨path, progress, s⟩]) next t)
    (h : paths.foldlM step progress s = (.ok last, t)) (hstart : I [] progress s) :
    I (turns step progress paths s) last t := by
  suffices ∀ done, I done progress s → I (done ++ turns step progress paths s) last t by
    simpa using this [] hstart
  clear hstart
  induction paths generalizing progress s with
  | nil =>
    intro done hdone
    cases h
    simpa [turns] using hdone
  | cons path paths ih =>
    intro done hdone
    obtain ⟨next, u, hfirst, hrest⟩ := foldlM_cons_inv h
    have hnext := ih (fun done progress s path hpath => hstep done progress s path
      (List.mem_cons_of_mem _ hpath)) hrest _
      (hstep done progress s path (List.mem_cons_self ..) next u hdone hfirst)
    rw [turns_cons hfirst]
    simpa using hnext

theorem turns_induct {I : List (Turn σ P) → P → Session σ → Prop}
    (hstep : ∀ done progress s path next t, I done progress s →
      step progress path s = (.ok next, t) → I (done ++ [⟨path, progress, s⟩]) next t)
    (h : paths.foldlM step progress s = (.ok last, t)) (hstart : I [] progress s) :
    I (turns step progress paths s) last t :=
  turns_induct_mem (fun done progress s path _ => hstep done progress s path) h hstart

/-- What every turn that ends preserves holds at the start of each turn. -/
theorem turn_invariant_mem {I : P → Session σ → Prop}
    (hstep : ∀ progress s, ∀ path ∈ paths, ∀ next t, I progress s →
      step progress path s = (.ok next, t) → I next t)
    (hstart : I progress s) {turn : Turn σ P} (hturn : turn ∈ turns step progress paths s) :
    I turn.progress turn.session := by
  induction paths generalizing progress s with
  | nil => cases hturn
  | cons path paths ih =>
    rcases List.mem_cons.1 hturn with rfl | hturn
    · exact hstart
    · rcases hfirst : step progress path s with ⟨fault | next, u⟩
      · rw [hfirst] at hturn
        cases hturn
      · rw [hfirst] at hturn
        exact ih (fun progress s path hpath => hstep progress s path
          (List.mem_cons_of_mem _ hpath))
          (hstep progress s path (List.mem_cons_self ..) next u hstart hfirst) hturn

theorem turn_invariant {I : P → Session σ → Prop}
    (hstep : ∀ progress s path next t, I progress s → step progress path s = (.ok next, t) →
      I next t)
    (hstart : I progress s) {turn : Turn σ P} (hturn : turn ∈ turns step progress paths s) :
    I turn.progress turn.session :=
  turn_invariant_mem (fun progress s path _ => hstep progress s path) hstart hturn

/-- The turns of a run that ends are those of its images. -/
theorem map_path_turns (h : paths.foldlM step progress s = (.ok last, t)) :
    (turns step progress paths s).map Turn.path = paths := by
  induction paths generalizing progress s with
  | nil => rfl
  | cons path paths ih =>
    obtain ⟨next, u, hfirst, hrest⟩ := foldlM_cons_inv h
    rw [turns_cons hfirst, List.map_cons, ih hrest]

/-- What every turn leaves behind, however it ends, a run leaves behind, however it ends: `I` holds
where turns begin, `J` where they end. -/
theorem foldlM_invariant {I : P → Session σ → Prop} {J : Session σ → Prop}
    (hbegun : ∀ progress s, I progress s → J s)
    (hstep : ∀ progress s, ∀ path ∈ paths, I progress s → J (step progress path s).2)
    (hnext : ∀ progress s, ∀ path ∈ paths, ∀ next t, I progress s →
      step progress path s = (.ok next, t) → I next t)
    (hstart : I progress s) : J (paths.foldlM step progress s).2 := by
  induction paths generalizing progress s with
  | nil => exact hbegun progress s hstart
  | cons path paths ih =>
    have hfirst := hstep progress s path (List.mem_cons_self ..) hstart
    rw [List.foldlM_cons, bind_apply]
    rcases hresult : step progress path s with ⟨fault | next, t⟩
    · rwa [hresult] at hfirst
    · exact ih (fun progress s path hpath => hstep progress s path (List.mem_cons_of_mem _ hpath))
        (fun progress s path hpath => hnext progress s path (List.mem_cons_of_mem _ hpath))
        (hnext progress s path (List.mem_cons_self ..) next t hstart hresult)

/-- A run that ends in a fault has done the images before, as a run over them alone would. -/
theorem foldlM_error_inv {fault : Fault}
    (h : paths.foldlM step progress s = (.error fault, t)) :
    ∃ done turn, turns step progress paths s = done ++ [turn] ∧
      turns step progress (done.map Turn.path) s = done ∧
      (done.map Turn.path).foldlM step progress s = (.ok turn.progress, turn.session) ∧
      step turn.progress turn.path turn.session = (.error fault, t) := by
  induction paths generalizing progress s with
  | nil => cases h
  | cons path paths ih =>
    rw [List.foldlM_cons] at h
    rcases hfirst : step progress path s with ⟨fault' | next, u⟩
    · rw [bind_error hfirst] at h
      cases h
      exact ⟨[], ⟨path, progress, s⟩, turns_cons_error hfirst, rfl, rfl, hfirst⟩
    · rw [bind_ok hfirst] at h
      obtain ⟨done, turn, hturns, hdone, hloop, hlast⟩ := ih h
      refine ⟨⟨path, progress, s⟩ :: done, turn, ?_, ?_, ?_, hlast⟩
      · rw [turns_cons hfirst, hturns, List.cons_append]
      · rw [List.map_cons, turns_cons hfirst, hdone]
      · rw [List.map_cons, List.foldlM_cons, bind_ok hfirst, hloop]

theorem foldlM_error_of_mem {fault : Fault} {turn : Turn σ P}
    (hturn : turn ∈ turns step progress paths s)
    (h : step turn.progress turn.path turn.session = (.error fault, t)) :
    paths.foldlM step progress s = (.error fault, t) := by
  induction paths generalizing progress s with
  | nil => cases hturn
  | cons path paths ih =>
    rw [List.foldlM_cons]
    rcases hfirst : step progress path s with ⟨fault' | next, u⟩
    · rw [turns_cons_error hfirst, List.mem_singleton] at hturn
      subst hturn
      rw [bind_error hfirst, ← h, hfirst]
    · rw [turns_cons hfirst, List.mem_cons] at hturn
      rcases hturn with rfl | hturn
      · cases hfirst.symm.trans h
      · rw [bind_ok hfirst, ih hturn]

/-- A run ends in a fault exactly if one of its turns does. -/
theorem foldlM_error_iff {fault : Fault} :
    paths.foldlM step progress s = (.error fault, t) ↔
      ∃ turn ∈ turns step progress paths s,
        step turn.progress turn.path turn.session = (.error fault, t) := by
  constructor
  · intro h
    obtain ⟨done, turn, hturns, -, -, hlast⟩ := foldlM_error_inv h
    exact ⟨turn, hturns ▸ List.mem_append_right _ (List.mem_singleton_self _), hlast⟩
  · rintro ⟨turn, hturn, hlast⟩
    exact foldlM_error_of_mem hturn hlast

end ImageLabeling
