import ImageLabeling.Parsing.Run
import ImageLabeling.Proofs.Parsing.Planes
import ImageLabeling.Proofs.Session

/-!
# Forward passes

The levels of a pyramid go through the network one after another, and every answer is fused and
added before the next level is fed (`sumLevels_cons`). An answer with pixels is added, whatever
their number (`Ready.addAnswer_of_hasPixels`); one that is no pair of planes for all classes is
refused (`addAnswer_of_not_answered`); one without pixels leaves nothing to sample
(`Ready.addAnswer_of_lacksPixels`). So a sum uses all levels (`sumLevels_all`) or stops at the first
answer that cannot be added (`sumLevels_stops`), and its result depends on the answers alone
(`sumLevels_result`).
-/

namespace ImageLabeling

open Number Scores Session

variable {σ : Type}

/-! ## The network -/

namespace Network

variable {network : Network σ} {state : σ}

/-- The state of a network after these inputs. -/
def after (network : Network σ) (state : σ) (inputs : List Tensor) : σ :=
  inputs.foldl (fun state input => (network.infer input state).2) state

/-- The answers of a network to these inputs. -/
def answers (network : Network σ) (state : σ) : List Tensor → List (Except String Tensor)
  | [] => []
  | input :: rest =>
    (network.infer input state).1 :: network.answers (network.infer input state).2 rest

theorem length_answers (network : Network σ) (state : σ) (inputs : List Tensor) :
    (network.answers state inputs).length = inputs.length := by
  induction inputs generalizing state with
  | nil => rfl
  | cons input rest ih => rw [answers, List.length_cons, List.length_cons, ih]

/-- An answer among others is that to the input in its place. -/
theorem answers_eq_append_cons {inputs : List Tensor} {before later : List (Except String Tensor)}
    {answer : Except String Tensor}
    (h : network.answers state inputs = before ++ answer :: later) :
    ∃ first input last, inputs = first ++ input :: last ∧ network.answers state first = before ∧
      (network.infer input (network.after state first)).1 = answer := by
  induction before generalizing state inputs with
  | nil =>
    cases inputs with
    | nil => cases h
    | cons input last =>
      rw [answers, List.nil_append, List.cons.injEq] at h
      exact ⟨[], input, last, rfl, rfl, h.1⟩
  | cons head before ih =>
    cases inputs with
    | nil => cases h
    | cons input inputs =>
      rw [answers, List.cons_append, List.cons.injEq] at h
      obtain ⟨first, next, last, rfl, hbefore, hanswer⟩ := ih h.2
      refine ⟨input :: first, next, last, rfl, ?_, hanswer⟩
      rw [answers, h.1, hbefore]

theorem answers_replicate {input output : Tensor}
    (h : ∀ state, (network.infer input state).1 = .ok output) (n : Nat) (state : σ) :
    network.answers state (List.replicate n input) = List.replicate n (.ok output) := by
  induction n generalizing state with
  | zero => rfl
  | succ n ih => rw [List.replicate_succ, answers, h, ih, List.replicate_succ]

theorem Pure.answers (h : network.Pure) (inputs : List Tensor)
    (state state' : σ) : network.answers state inputs = network.answers state' inputs := by
  induction inputs generalizing state state' with
  | nil => rfl
  | cons input inputs ih => rw [Network.answers, Network.answers, h input state state', ih]

/-- The network with the inputs that it was given so far in its state. -/
def recording (network : Network σ) : Network (σ × List Tensor) where
  device := network.device
  infer input state :=
    let (answer, next) := network.infer input state.1
    (answer, next, state.2 ++ [input])

/-- The state after some inputs tells which they were, for networks that keep a record. -/
theorem after_recording (network : Network σ) (state : σ) (given inputs : List Tensor) :
    network.recording.after (state, given) inputs =
      (network.after state inputs, given ++ inputs) := by
  induction inputs generalizing state given with
  | nil => simp [after]
  | cons input inputs ih =>
    have h := ih (network.infer input state).2 (given ++ [input])
    rw [List.append_assoc] at h
    exact h

end Network

/-! ## One answer -/

/-- A batch of two with planes that have pixels, for all human-parsing classes. -/
def Scores.HasPixels (output : Tensor) : Prop :=
  ∃ h w, output.shape = [2, partCount, h, w] ∧ 0 < h ∧ 0 < w

/-- A batch of two with planes for all human-parsing classes, but without pixels. -/
def Scores.LacksPixels (output : Tensor) : Prop :=
  ∃ h w, output.shape = [2, partCount, h, w] ∧ (h = 0 ∨ w = 0)

theorem Scores.HasPixels.isPair {output : Tensor} (h : HasPixels output) : IsPair output := by
  obtain ⟨h, w, hshape, -⟩ := h
  exact ⟨h, w, hshape⟩

theorem Scores.LacksPixels.isPair {output : Tensor} (h : LacksPixels output) : IsPair output := by
  obtain ⟨h, w, hshape, -⟩ := h
  exact ⟨h, w, hshape⟩

/-- The network gives an output that is so. -/
def Answered (p : Tensor → Prop) (answer : Except String Tensor) : Prop :=
  ∃ output, answer = .ok output ∧ p output

theorem Answered.imp {p q : Tensor → Prop} {answer : Except String Tensor} (h : Answered p answer)
    (hpq : ∀ output, p output → q output) : Answered q answer := by
  obtain ⟨output, hanswer, houtput⟩ := h
  exact ⟨output, hanswer, hpq output houtput⟩

theorem outputs_of_answered {p : Tensor → Prop} {answers : List (Except String Tensor)}
    (h : ∀ answer ∈ answers, Answered p answer) :
    ∃ outputs : List Tensor, answers = outputs.map .ok ∧ ∀ output ∈ outputs, p output := by
  induction answers with
  | nil => exact ⟨[], rfl, fun _ houtput => nomatch houtput⟩
  | cons answer rest ih =>
    obtain ⟨⟨output, rfl, houtput⟩, hrest⟩ := List.forall_mem_cons.1 h
    obtain ⟨outputs, rfl, houtputs⟩ := ih hrest
    exact ⟨output :: outputs, rfl, List.forall_mem_cons.2 ⟨houtput, houtputs⟩⟩

theorem not_hasPixels_of_lacksPixels {answer : Except String Tensor}
    (h : Answered LacksPixels answer) : ¬ Answered HasPixels answer := by
  rintro ⟨output, rfl, h', w', hshape', hpixels⟩
  obtain ⟨_, houtput, h, w, hshape, hlacks⟩ := h
  cases houtput
  rw [hshape] at hshape'
  cases hshape'
  omega

/-- An answer has pixels, lacks pixels, or is no pair of planes at all. -/
theorem answer_cases (answer : Except String Tensor) :
    Answered HasPixels answer ∨ Answered LacksPixels answer ∨ ¬ Answered IsPair answer := by
  by_cases hpair : Answered IsPair answer
  · obtain ⟨output, hanswer, h, w, hshape⟩ := hpair
    by_cases hpixels : 0 < h ∧ 0 < w
    · exact .inl ⟨output, hanswer, h, w, hshape, hpixels⟩
    · exact .inr (.inl ⟨output, hanswer, h, w, hshape, by omega⟩)
  · exact .inr (.inr hpair)

/-- The sum of numbers from left to right. -/
def leftSum : List Float32 → Float32
  | [] => 0
  | first :: rest => rest.foldl (· + ·) first

/-- The score of a class at a pixel, summed over all answers at the given size. -/
def Scores.summedScore (height width : Nat) (outputs : List Tensor) (c y x : Nat) : Float32 :=
  leftSum (outputs.map fun output => ((fusedPlanes output).resized height width).score c y x)

namespace Accumulator

/-- Adds what the network answers for one scale. -/
def addAnswer (acc : Accumulator) : Except String Tensor → Except Fault Accumulator
  | .error message => .error (.failure (.network message))
  | .ok output =>
    match fuse output with
    | .error failure => .error (.failure failure)
    | .ok fused => acc.add fused

/-- The accumulator with one more stack of planes of its size. -/
def including (acc : Accumulator) (planes : Scores) : Accumulator :=
  { acc with sum := some (acc.sum.elim planes fun sum => plus sum planes), seen := acc.seen + 1 }

variable {acc : Accumulator} {s : Scores} {height width c : Nat}

/-! ## Planes that are added -/

/-- Planes that have been resized are added if they have as many classes as the sum so far. -/
theorem add_resized {acc : Accumulator} {scores resized : Scores}
    (h : scores.upsample acc.height acc.width = .ok resized) :
    acc.add scores =
      match acc.sum with
      | none => .ok { acc with sum := some resized, seen := acc.seen + 1 }
      | some sum =>
        if sum.classes = resized.classes then
          .ok { acc with sum := some (plus sum resized), seen := acc.seen + 1 }
        else
          .error (.failure (.shapeMismatch "same class count at every scale" resized.shape)) := by
  rw [add, h]
  rfl

/-- The planes have as many classes as the sum so far, if there is one. -/
def Fits (acc : Accumulator) (s : Scores) : Prop :=
  ∀ sum, acc.sum = some sum → sum.classes = s.classes

/-- What planes with another number of classes are refused with at a size. -/
def mismatch (height width : Nat) (s : Scores) : Fault :=
  .failure (.shapeMismatch "same class count at every scale" [s.classes, height, width])

theorem add_of_fits (h : s.Resizable acc.height acc.width) (hfits : acc.Fits s) :
    acc.add s = .ok (acc.including (s.resized acc.height acc.width)) := by
  rw [add_resized (upsample_of_resizable h), Accumulator.including]
  cases hsum : acc.sum with
  | none => rfl
  | some sum =>
    have hclasses : sum.classes = (s.resized acc.height acc.width).classes :=
      (hfits sum hsum).trans (shape_eq_iff.1 (shape_resized s _ _)).1.symm
    simp only [if_pos hclasses, Option.elim_some]

theorem add_of_misfit (h : s.Resizable acc.height acc.width) (hmisfit : ¬ acc.Fits s) :
    acc.add s = .error (mismatch acc.height acc.width s) := by
  obtain ⟨sum, hsum, hclasses⟩ : ∃ sum, acc.sum = some sum ∧ sum.classes ≠ s.classes := by
    simpa [Fits] using hmisfit
  have hresized := shape_resized s acc.height acc.width
  rw [← (shape_eq_iff.1 hresized).1] at hclasses
  rw [add_resized (upsample_of_resizable h), hsum]
  simp only [if_neg hclasses, hresized, mismatch]

theorem add_of_not_resizable (h : ¬ s.Resizable acc.height acc.width) :
    acc.add s = .error (.crash .outOfRange) := by
  rw [add, upsample_of_not_resizable h]
  rfl

theorem sum_including {sum : Scores} (hsum : acc.sum = some sum) (s : Scores) :
    (acc.including s).sum = some (plus sum s) := by
  rw [Accumulator.including, hsum]
  rfl

/-- The accumulator with these planes, brought to its size. -/
def includingEach (acc : Accumulator) (planes : List Scores) : Accumulator :=
  planes.foldl (fun acc s => acc.including (s.resized acc.height acc.width)) acc

theorem score_plus_of_shape {a b : Scores} (h : a.shape = [c, height, width]) {k y x : Nat}
    (hk : k < c) (hy : y < height) (hx : x < width) :
    (plus a b).score k y x = a.score k y x + b.score k y x := by
  obtain ⟨rfl, rfl, rfl⟩ := shape_eq_iff.1 h
  exact score_ofFn _ hk hy hx

/-- Planes are added to the sum from the left. -/
theorem score_includingEach {sum : Scores} (planes : List Scores) (hsum : acc.sum = some sum)
    (hshape : sum.shape = [c, acc.height, acc.width]) :
    ∃ total, (acc.includingEach planes).sum = some total ∧
      total.shape = [c, acc.height, acc.width] ∧
      ∀ k < c, ∀ y < acc.height, ∀ x < acc.width, total.score k y x =
        (planes.map fun s => (s.resized acc.height acc.width).score k y x).foldl (· + ·)
          (sum.score k y x) := by
  induction planes generalizing acc sum with
  | nil => exact ⟨sum, hsum, hshape, fun _ _ _ _ _ _ => rfl⟩
  | cons s rest ih =>
    have hnext := sum_including hsum (s.resized acc.height acc.width)
    obtain ⟨total, htotal, hshape', hscore⟩ := ih hnext hshape
    refine ⟨total, htotal, hshape', fun k hk y hy x hx => ?_⟩
    rw [hscore k hk y hy x hx, score_plus_of_shape hshape hk hy hx]
    rfl

/-! ## Answers that are added -/

/-- The accumulator has a size with pixels, and the planes summed so far have that size. -/
structure Ready (acc : Accumulator) : Prop where
  height_pos : 0 < acc.height
  width_pos : 0 < acc.width
  sized : ∀ sum, acc.sum = some sum → Sized acc.height acc.width sum

variable {output : Tensor} {outputs : List Tensor}

theorem Ready.including (h : acc.Ready) {planes : Scores}
    (hplanes : Sized acc.height acc.width planes) : (acc.including planes).Ready where
  height_pos := h.height_pos
  width_pos := h.width_pos
  sized sum hsum := by
    cases hold : acc.sum with
    | none =>
      simp only [Accumulator.including, hold, Option.elim_none, Option.some.injEq] at hsum
      exact hsum ▸ hplanes
    | some old =>
      simp only [Accumulator.including, hold, Option.elim_some, Option.some.injEq] at hsum
      exact hsum ▸ (h.sized old hold).plus planes

theorem addAnswer_of_not_isPair (h : ¬ IsPair output) :
    ∃ failure, acc.addAnswer (.ok output) = .error (.failure failure) :=
  ⟨misfit output.shape, by rw [addAnswer, fuse_error h]⟩

/-- An answer without pixels ends the run. -/
theorem Ready.addAnswer_of_lacksPixels (hacc : acc.Ready) (h : LacksPixels output) :
    acc.addAnswer (.ok output) = .error (.crash .outOfRange) := by
  obtain ⟨h, w, hshape, hpixels⟩ := h
  have hresizable : ¬ (fusedPlanes output).Resizable acc.height acc.width := by
    have hheight := hacc.height_pos
    have hwidth := hacc.width_pos
    have hsized := sized_fusedPlanes hshape
    rw [Resizable, hsized.classes, hsized.height, hsized.width, partCount]
    omega
  rw [addAnswer, fuse_eq_fusedPlanes ⟨h, w, hshape⟩]
  exact add_of_not_resizable hresizable

/-- An answer with pixels is added. -/
theorem Ready.addAnswer_of_hasPixels (hacc : acc.Ready) (h : HasPixels output) :
    acc.addAnswer (.ok output) =
      .ok (acc.including ((fusedPlanes output).resized acc.height acc.width)) := by
  obtain ⟨h, w, hshape, hheight, hwidth⟩ := h
  have hsized := sized_fusedPlanes hshape
  have hresizable : (fusedPlanes output).Resizable acc.height acc.width :=
    .inr (.inl ⟨hsized.height ▸ hheight, hsized.width ▸ hwidth⟩)
  have hfits : acc.Fits (fusedPlanes output) :=
    fun sum hsum => (hacc.sized sum hsum).classes.trans hsized.classes.symm
  rw [addAnswer, fuse_eq_fusedPlanes ⟨h, w, hshape⟩]
  exact add_of_fits hresizable hfits

/-- An answer that is not a pair cannot be added. -/
theorem addAnswer_of_not_answered {acc : Accumulator} {answer : Except String Tensor}
    (h : ¬ Answered IsPair answer) :
    ∃ failure, acc.addAnswer answer = .error (.failure failure) := by
  cases answer with
  | error message => exact ⟨_, rfl⟩
  | ok output => exact addAnswer_of_not_isPair fun hpair => h ⟨output, rfl, hpair⟩

/-- The accumulator with the planes of these answers, brought to its size. -/
def includingAll (acc : Accumulator) : List Tensor → Accumulator
  | [] => acc
  | output :: rest =>
    (acc.including ((fusedPlanes output).resized acc.height acc.width)).includingAll rest

theorem sized_resized_fusedPlanes (output : Tensor) (height width : Nat) :
    Sized height width ((fusedPlanes output).resized height width) :=
  Sized.resized ⟨rfl, rfl, rfl⟩ height width

/-- Answers with pixels are all added. -/
theorem Ready.foldlM_addAnswer (hacc : acc.Ready) (h : ∀ output ∈ outputs, HasPixels output) :
    (outputs.map Except.ok).foldlM addAnswer acc = .ok (acc.includingAll outputs) := by
  induction outputs generalizing acc with
  | nil => rfl
  | cons output rest ih =>
    rw [List.map_cons, List.foldlM_cons, hacc.addAnswer_of_hasPixels (h _ (List.mem_cons_self ..))]
    exact ih (hacc.including (sized_resized_fusedPlanes _ _ _))
      fun other hother => h other (List.mem_cons_of_mem _ hother)

theorem Ready.includingAll (hacc : acc.Ready) (outputs : List Tensor) :
    (acc.includingAll outputs).Ready := by
  induction outputs generalizing acc with
  | nil => exact hacc
  | cons output rest ih => exact ih (hacc.including (sized_resized_fusedPlanes _ _ _))

theorem Ready.empty {height width : Nat} (hheight : 0 < height) (hwidth : 0 < width) :
    (Accumulator.empty height width).Ready :=
  ⟨hheight, hwidth, fun _ hsum => nomatch hsum⟩

theorem includingAll_eq (acc : Accumulator) (outputs : List Tensor) :
    acc.includingAll outputs = acc.includingEach (outputs.map fusedPlanes) := by
  induction outputs generalizing acc with
  | nil => rfl
  | cons output rest ih => exact ih _

/-- Further answers are added to the sum from the left. -/
theorem Ready.score_includingAll {sum : Scores} (hacc : acc.Ready) (hsum : acc.sum = some sum)
    (outputs : List Tensor) :
    ∃ total, (acc.includingAll outputs).sum = some total ∧ Sized acc.height acc.width total ∧
      ∀ {c y x}, c < partCount → y < acc.height → x < acc.width →
        total.score c y x = (outputs.map fun output =>
          ((fusedPlanes output).resized acc.height acc.width).score c y x).foldl (· + ·)
            (sum.score c y x) := by
  have hsized := hacc.sized sum hsum
  obtain ⟨total, htotal, hshape, hscore⟩ := score_includingEach (outputs.map fusedPlanes) hsum
    (shape_eq_iff.2 ⟨hsized.classes, hsized.height, hsized.width⟩)
  obtain ⟨hclasses, hheight, hwidth⟩ := shape_eq_iff.1 hshape
  refine ⟨total, by rw [includingAll_eq, htotal], ⟨hclasses, hheight, hwidth⟩,
    fun hc hy hx => ?_⟩
  rw [hscore _ hc _ hy _ hx, List.map_map]
  rfl

/-- What is added to nothing is summed from left to right. -/
theorem sum_includingAll_empty {height width : Nat} (hheight : 0 < height) (hwidth : 0 < width)
    (hne : outputs ≠ []) :
    ∃ total, ((empty height width).includingAll outputs).sum = some total ∧
      Sized height width total ∧
      ∀ {c y x}, c < partCount → y < height → x < width →
        total.score c y x = summedScore height width outputs c y x := by
  cases outputs with
  | nil => exact absurd rfl hne
  | cons output rest =>
    have hready := (Ready.empty hheight hwidth).including
      (sized_resized_fusedPlanes output height width)
    exact hready.score_includingAll rfl rest

end Accumulator

namespace Parsing

open Accumulator

/-- One level is one forward pass; the next level follows if its answer can be added. -/
theorem sumLevels_cons (acc : Accumulator) (forward : Duration) (level : Level)
    (rest : List Level) (s : Session σ) :
    ∃ u : Session σ, u.network = s.network ∧
      u.state = (s.network.infer level.batch s.state).2 ∧
      sumLevels acc forward (level :: rest) s =
        match acc.addAnswer (s.network.infer level.batch s.state).1 with
        | .ok next => sumLevels next (forward.plus (s.clock s.measured)) rest u
        | .error fault => (.error fault, u) := by
  cases hanswer : (s.network.infer level.batch s.state).1 with
  | error message =>
    refine ⟨{ s with state := (s.network.infer level.batch s.state).2 }, rfl, rfl, ?_⟩
    rw [sumLevels, bind_error (infer_fails hanswer)]
    rfl
  | ok output =>
    refine ⟨{ s with
      state := (s.network.infer level.batch s.state).2
      measured := s.measured + 1 }, rfl, rfl, ?_⟩
    rw [sumLevels, bind_ok (infer_runs hanswer)]
    show (ofExcept (fuse output) >>= fun fused => ofFault (acc.add fused) >>= fun acc =>
      sumLevels acc (forward.plus (s.clock s.measured)) rest : Run σ _) _ = _
    rw [bind_apply, ofExcept_apply, addAnswer]
    cases fuse output with
    | error failure => rfl
    | ok fused =>
      show (ofFault (acc.add fused) >>= fun acc =>
        sumLevels acc (forward.plus (s.clock s.measured)) rest : Run σ _) _ = _
      rw [bind_apply, ofFault_apply]
      dsimp only
      cases acc.add fused with
      | error fault => rfl
      | ok next => rfl

/-- The levels before the others are passes whose answers are added. -/
theorem sumLevels_append {acc next : Accumulator} {before : List Level} {s : Session σ}
    (h : (s.network.answers s.state (before.map Level.batch)).foldlM addAnswer acc = .ok next)
    (forward : Duration) (rest : List Level) :
    ∃ forward' u, u.network = s.network ∧
      u.state = s.network.after s.state (before.map Level.batch) ∧
      sumLevels acc forward (before ++ rest) s = sumLevels next forward' rest u := by
  induction before generalizing acc forward s with
  | nil =>
    cases h
    exact ⟨forward, s, rfl, rfl, rfl⟩
  | cons level before ih =>
    obtain ⟨u, hnetwork, hstate, hlevel⟩ := sumLevels_cons acc forward level (before ++ rest) s
    rw [List.map_cons, Network.answers, List.foldlM_cons] at h
    cases hadd : acc.addAnswer (s.network.infer level.batch s.state).1 with
    | error fault =>
      rw [hadd] at h
      cases h
    | ok acc' =>
      rw [hadd] at h hlevel
      rw [← hstate, ← hnetwork] at h
      obtain ⟨forward', v, hnetwork', hstate', hrest⟩ := ih h _
      refine ⟨forward', v, hnetwork'.trans hnetwork, ?_, hlevel.trans hrest⟩
      rw [hstate', hnetwork, hstate]
      rfl

/-- If all answers can be added, every level is one forward pass. -/
theorem sumLevels_all {acc next : Accumulator} {levels : List Level} {s : Session σ}
    (h : (s.network.answers s.state (levels.map Level.batch)).foldlM addAnswer acc = .ok next)
    (forward : Duration) :
    ∃ forward' u, sumLevels acc forward levels s = (.ok (next, forward'), u) ∧
      u.state = s.network.after s.state (levels.map Level.batch) := by
  obtain ⟨forward', u, -, hstate, hlevels⟩ := sumLevels_append h forward []
  rw [List.append_nil] at hlevels
  exact ⟨forward', u, hlevels, hstate⟩

/-- A level whose answer cannot be added is the last one. -/
theorem sumLevels_stops {acc next : Accumulator} {levels : List Level} {s : Session σ}
    {before later : List (Except String Tensor)} {answer : Except String Tensor} {fault : Fault}
    (hanswers : s.network.answers s.state (levels.map Level.batch) = before ++ answer :: later)
    (hbefore : before.foldlM addAnswer acc = .ok next)
    (hstops : next.addAnswer answer = .error fault) (forward : Duration) :
    ∃ u, sumLevels acc forward levels s = (.error fault, u) ∧
      u.state =
        s.network.after s.state ((levels.map Level.batch).take (before.length + 1)) := by
  obtain ⟨inputs, input, last, hinputs, rfl, rfl⟩ := Network.answers_eq_append_cons hanswers
  obtain ⟨levels, others, rfl, rfl, hothers⟩ := List.map_eq_append_iff.1 hinputs
  obtain ⟨level, others, rfl, rfl, rfl⟩ := List.map_eq_cons_iff.1 hothers
  obtain ⟨forward', u, hnetwork, hstate, hlevels⟩ :=
    sumLevels_append hbefore forward (level :: others)
  obtain ⟨v, -, hstate', hlevel⟩ := sumLevels_cons next forward' level others u
  rw [hnetwork, hstate, hstops] at hlevel
  refine ⟨v, hlevels.trans hlevel, ?_⟩
  have htake : ((levels ++ level :: others).map Level.batch).take (levels.length + 1) =
      levels.map Level.batch ++ [level.batch] := by
    simp [List.take_append]
  rw [Network.length_answers, List.length_map, htake, hstate', hnetwork, hstate, Network.after,
    Network.after, List.foldl_append]
  rfl

/-- What the levels sum to, the time aside, depends on the answers to their batches alone. -/
theorem sumLevels_result (acc : Accumulator) (forward : Duration) (levels : List Level)
    (s : Session σ) :
    (sumLevels acc forward levels s).1.map Prod.fst =
      (s.network.answers s.state (levels.map Level.batch)).foldlM addAnswer acc := by
  induction levels generalizing acc forward s with
  | nil => rfl
  | cons level levels ih =>
    obtain ⟨u, hnetwork, hstate, hlevel⟩ := sumLevels_cons acc forward level levels s
    rw [hlevel, List.map_cons, Network.answers, List.foldlM_cons]
    cases acc.addAnswer (s.network.infer level.batch s.state).1 with
    | error fault => rfl
    | ok next =>
      dsimp only
      rw [ih, hnetwork, hstate]
      rfl

end Parsing

end ImageLabeling
