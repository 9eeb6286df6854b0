import ImageLabeling.Proofs.Parsing.Passes

/-!
# Sums of any planes

An accumulator takes planes of any size and any number of classes, as long as they can be resized
(`Scores.Resizable`). It is changed in place (`addInPlace`), and an addition that fails has not
changed it (`addInPlace_apply`). Planes are added if they have as many classes as the first ones
(`addInPlace_of_fits`), and refused otherwise (`addInPlace_of_misfit`), so any run of additions
leaves the planes that fit summed from left to right (`addEach_runs`, `sums_of_adds`).
-/

namespace ImageLabeling

namespace Accumulator

open Scores

/-! ## One addition -/

/-- Adds the scores of one scale to the accumulator in the state: the sum is changed first, then
the count. -/
def addInPlace (scores : Scores) : ExceptT Fault (StateM Accumulator) Unit := do
  let acc ← get
  match scores.upsample acc.height acc.width with
  | .error crash => throw (.crash crash)
  | .ok resized =>
    match acc.sum with
    | none => modify fun acc => { acc with sum := some resized }
    | some sum =>
      if sum.classes ≠ resized.classes then
        throw (.failure (.shapeMismatch "same class count at every scale" resized.shape))
      modify fun acc => { acc with sum := some (plus sum resized) }
    modify fun acc => { acc with seen := acc.seen + 1 }

/-- **An addition that fails leaves the accumulator as it was**, and one that succeeds leaves the
accumulator that it returns. -/
theorem addInPlace_apply (scores : Scores) (acc : Accumulator) :
    addInPlace scores acc =
      match acc.add scores with
      | .ok next => (.ok (), next)
      | .error fault => (.error fault, acc) := by
  change (match scores.upsample acc.height acc.width with | .error _ => _ | .ok _ => _ :
    ExceptT Fault (StateM Accumulator) Unit) _ = _
  cases hupsample : scores.upsample acc.height acc.width with
  | error crash =>
    rw [add, hupsample]
    rfl
  | ok resized =>
    rw [add_resized hupsample]
    cases hsum : acc.sum with
    | none => rfl
    | some sum =>
      by_cases hclasses : sum.classes = resized.classes
      · simp only [hclasses, ne_eq, not_true_eq_false, if_true, if_false]
        rfl
      · simp only [hclasses, ne_eq, not_false_eq_true, if_true, if_false]
        rfl

variable {acc : Accumulator} {s : Scores} {height width c : Nat}

theorem addInPlace_of_fits (h : s.Resizable acc.height acc.width) (hfits : acc.Fits s) :
    addInPlace s acc = (.ok (), acc.including (s.resized acc.height acc.width)) := by
  rw [addInPlace_apply, add_of_fits h hfits]

theorem addInPlace_of_misfit (h : s.Resizable acc.height acc.width) (hmisfit : ¬ acc.Fits s) :
    addInPlace s acc = (.error (mismatch acc.height acc.width s), acc) := by
  rw [addInPlace_apply, add_of_misfit h hmisfit]

theorem addInPlace_of_not_resizable (h : ¬ s.Resizable acc.height acc.width) :
    addInPlace s acc = (.error (.crash .outOfRange), acc) := by
  rw [addInPlace_apply, add_of_not_resizable h]

/-- An addition crashes exactly if the planes cannot be resized. -/
theorem addInPlace_crash_iff :
    (∃ crash, (addInPlace s acc).1 = .error (.crash crash)) ↔
      ¬ s.Resizable acc.height acc.width := by
  constructor
  · rintro ⟨crash, hcrash⟩ h
    by_cases hfits : acc.Fits s
    · rw [addInPlace_of_fits h hfits] at hcrash
      cases hcrash
    · rw [addInPlace_of_misfit h hfits] at hcrash
      cases hcrash
  · intro h
    exact ⟨.outOfRange, by rw [addInPlace_of_not_resizable h]⟩

/-! ## Any run of additions -/

/-- Adds planes one after another, and tells how each addition ended. -/
def addEach (planes : List Scores) : StateM Accumulator (List (Except Fault Unit)) :=
  planes.mapM fun s => (addInPlace s).run

theorem addEach_cons (s : Scores) (rest : List Scores) (acc : Accumulator) :
    addEach (s :: rest) acc =
      ((addInPlace s acc).1 :: (addEach rest (addInPlace s acc).2).1,
        (addEach rest (addInPlace s acc).2).2) := by
  rw [addEach, List.mapM_cons]
  rfl

/-- How an addition to a sum for `c` classes ends. -/
def outcome (height width c : Nat) (s : Scores) : Except Fault Unit :=
  if s.classes = c then .ok () else .error (mismatch height width s)

/-- Once there is a sum, the planes with as many classes are added to it and no others. -/
theorem addEach_runs {planes : List Scores} {sum : Scores} (hsum : acc.sum = some sum)
    (hc : sum.classes = c) (h : ∀ s ∈ planes, s.Resizable acc.height acc.width) :
    addEach planes acc = (planes.map (outcome acc.height acc.width c),
      acc.includingEach (planes.filter (·.classes = c))) := by
  induction planes generalizing acc sum with
  | nil => rfl
  | cons s rest ih =>
    obtain ⟨hs, hrest⟩ := List.forall_mem_cons.1 h
    rw [addEach_cons, List.map_cons, outcome]
    by_cases hclasses : s.classes = c
    · have hfits : acc.Fits s := by
        intro old hold
        rw [hsum] at hold
        cases hold
        exact hc.trans hclasses.symm
      have hnext := sum_including hsum (s.resized acc.height acc.width)
      rw [addInPlace_of_fits hs hfits, ih hnext hc hrest, if_pos hclasses,
        List.filter_cons_of_pos (by simpa using hclasses)]
      rfl
    · have hmisfit : ¬ acc.Fits s := fun hfits => hclasses ((hfits sum hsum).symm.trans hc)
      rw [addInPlace_of_misfit hs hmisfit, ih hsum hc hrest, if_neg hclasses,
        List.filter_cons_of_neg (by simpa using hclasses)]

theorem seen_includingEach (acc : Accumulator) (planes : List Scores) :
    (acc.includingEach planes).seen = acc.seen + planes.length := by
  induction planes generalizing acc with
  | nil => rfl
  | cons s rest ih =>
    have hrest := ih (acc.including (s.resized acc.height acc.width))
    simp only [includingEach, List.foldl_cons, List.length_cons] at hrest ⊢
    rw [hrest]
    simp only [Accumulator.including]
    omega

/-- The first planes are added whatever their number of classes, which the others then have to
have. -/
theorem addEach_first {first : Scores} {rest : List Scores}
    (h : ∀ s ∈ first :: rest, s.Resizable height width) :
    addEach (first :: rest) (empty height width) =
      ((first :: rest).map (outcome height width first.classes),
        (empty height width).includingEach
          ((first :: rest).filter (·.classes = first.classes))) := by
  obtain ⟨hfirst, hrest⟩ := List.forall_mem_cons.1 h
  have hfits : (empty height width).Fits first := fun _ hsum => nomatch hsum
  have hstart : addInPlace first (empty height width) =
      (.ok (), (empty height width).including (first.resized height width)) :=
    addInPlace_of_fits hfirst hfits
  have hclasses : (first.resized height width).classes = first.classes :=
    (shape_eq_iff.1 (shape_resized first height width)).1
  have hsum : ((empty height width).including (first.resized height width)).sum =
      some (first.resized height width) := rfl
  have hruns := addEach_runs hsum hclasses hrest
  rw [addEach_cons, hstart, hruns, List.map_cons, outcome, if_pos rfl,
    List.filter_cons_of_pos (by simp)]
  rfl

theorem countP_isOk_outcome (planes : List Scores) :
    (planes.map (outcome height width c)).countP Except.isOk =
      (planes.filter (·.classes = c)).length := by
  rw [List.countP_map, ← List.countP_eq_length_filter]
  refine List.countP_congr fun s _ => ?_
  simp only [Function.comp_apply, outcome]
  split
  case isTrue hclasses => simp [hclasses, Except.isOk, Except.toBool]
  case isFalse hclasses => simp [hclasses, Except.isOk, Except.toBool]

theorem mapM_upsample {planes : List Scores} (h : ∀ s ∈ planes, s.Resizable height width) :
    planes.mapM (·.upsample height width) = .ok (planes.map (·.resized height width)) := by
  induction planes with
  | nil => rfl
  | cons s rest ih =>
    obtain ⟨hs, hrest⟩ := List.forall_mem_cons.1 h
    rw [List.mapM_cons, upsample_of_resizable hs, ih hrest]
    rfl

/-- **Sums over any run of additions.** Changing the accumulator in place gives what adding to it
returns, and a failed addition leaves it as it was. An addition crashes exactly if the planes cannot
be resized. If all planes can be resized, those with as many classes as the first are added and the
others refused for their shape; the accumulator counts the additions that succeeded, has a sum as
soon as there are planes, and its sum has the classes of the first planes at the reference size and
adds up, from left to right, the resized planes that were added. -/
theorem sums_of_adds :
    (∀ acc s, addInPlace s acc =
      match acc.add s with
      | .ok next => (.ok (), next)
      | .error fault => (.error fault, acc)) ∧
    (∀ acc s, (∃ crash, (addInPlace s acc).1 = .error (.crash crash)) ↔
      ¬ s.Resizable acc.height acc.width) ∧
    (∀ acc s fault next, addInPlace s acc = (.error fault, next) → next = acc) ∧
    ∀ (height width : Nat) (planes : List Scores), (∀ s ∈ planes, s.Resizable height width) →
      ∃ results acc, addEach planes (empty height width) = (results, acc) ∧
        acc.seen = results.countP Except.isOk ∧
        (acc.sum = none ↔ planes = []) ∧
        ∀ first rest, planes = first :: rest →
          results = planes.map (outcome height width first.classes) ∧
          ∃ total resized, acc.sum = some total ∧
            total.shape = [first.classes, height, width] ∧
            (planes.filter (·.classes = first.classes)).mapM (·.upsample height width) =
              .ok resized ∧
            ∀ k < first.classes, ∀ y < height, ∀ x < width,
              total.score k y x = leftSum (resized.map (·.score k y x)) := by
  refine ⟨fun acc s => addInPlace_apply s acc, fun acc s => addInPlace_crash_iff,
    fun acc s fault next h => ?_, fun height width planes h => ?_⟩
  · rw [addInPlace_apply] at h
    split at h
    · cases h
    · cases h
      rfl
  · cases planes with
    | nil => exact ⟨[], _, rfl, rfl, by simp [empty], fun _ _ hcons => nomatch hcons⟩
    | cons first rest =>
      have hfilter : (first :: rest).filter (·.classes = first.classes) =
          first :: rest.filter (·.classes = first.classes) :=
        List.filter_cons_of_pos (by simp)
      -- after the first planes there is a sum, to which the others are added
      have hfirst : ((empty height width).including (first.resized height width)).sum =
          some (first.resized height width) := rfl
      obtain ⟨total, htotal, hshape, hscore⟩ := score_includingEach
        (rest.filter (·.classes = first.classes)) hfirst (shape_resized first height width)
      have hsum : ((empty height width).includingEach
          ((first :: rest).filter (·.classes = first.classes))).sum = some total := by
        rw [hfilter]
        exact htotal
      refine ⟨_, _, addEach_first h, ?_, ?_, ?_⟩
      · rw [countP_isOk_outcome, seen_includingEach]
        exact Nat.zero_add _
      · rw [hsum]
        simp
      · rintro _ _ ⟨⟩
        refine ⟨rfl, total, _, hsum, hshape,
          mapM_upsample fun s hs => h s (List.mem_of_mem_filter hs), fun k hk y hy x hx => ?_⟩
        rw [hscore k hk y hy x hx, hfilter, List.map_map, List.map_cons]
        rfl

/-- Planes with the same score everywhere. -/
def flat (classes height width : Nat) (v : Float32) : Scores :=
  ofFn classes height width fun _ _ _ => v

/-- With planes for one class, planes for two, and a single pixel for one class. -/
theorem sums_of_adds_flat :
    ∃ acc total, addEach [flat 1 2 2 1.0, flat 2 2 2 5.0, flat 1 1 1 2.0] (empty 2 2) =
        ([.ok (), .error (mismatch 2 2 (flat 2 2 2 5.0)), .ok ()], acc) ∧
      acc.seen = 2 ∧ acc.sum = some total ∧ ∀ y < 2, ∀ x < 2, total.score 0 y x = 3.0 := by
  obtain ⟨results, acc, hrun, hseen, -, hsum⟩ := sums_of_adds.2.2.2 2 2
    [flat 1 2 2 1.0, flat 2 2 2 5.0, flat 1 1 1 2.0] (by simp [Resizable, flat, ofFn])
  obtain ⟨rfl, total, resized, htotal, -, hresized, hscore⟩ := hsum _ _ rfl
  cases hresized
  have hsums : ∀ y < 2, ∀ x < 2, leftSum ([flat 1 2 2 1.0, (flat 1 1 1 2.0).blend 2 2].map
      (·.score 0 y x)) = 3.0 := by
    decide +kernel
  refine ⟨acc, total, hrun, hseen, htotal, fun y hy x hx => ?_⟩
  exact (hscore 0 (by decide) y hy x hx).trans (hsums y hy x hx)

end Accumulator

end ImageLabeling
