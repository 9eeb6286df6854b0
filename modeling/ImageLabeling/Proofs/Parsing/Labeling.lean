import ImageLabeling.Proofs.Image.Pyramid
import ImageLabeling.Proofs.Parsing.Passes
import ImageLabeling.Proofs.Parsing.Saving

/-!
# From an image to its labels

Labeling an image builds the levels of its pyramid, feeds them to the network in order and sums the
fused answers. `Labeling` lists the four ways this can end, with the state that the network is left
in: the pyramid cannot be built, an answer is refused, an answer has no pixels to sample, or the
image is labeled. `parseImage_inv` says that it ends in one of them, and `parseImage_meaning` what
the labels mean. For a network without memory they depend on the image file alone
(`labelImage_congr`).
-/

namespace ImageLabeling

open Number Scores Session

variable {σ : Type}

/-- Either all elements of a list are so, or one is the first that is not. -/
theorem forall_or_first {α : Type} (p : α → Prop) (as : List α) :
    (∀ a ∈ as, p a) ∨
      ∃ before a later, as = before ++ a :: later ∧ (∀ b ∈ before, p b) ∧ ¬ p a := by
  induction as with
  | nil => exact .inl fun _ ha => nomatch ha
  | cons a as ih =>
    by_cases ha : p a
    · rcases ih with hall | ⟨before, b, later, rfl, hbefore, hb⟩
      · exact .inl (List.forall_mem_cons.2 ⟨ha, hall⟩)
      · exact .inr ⟨a :: before, b, later, rfl, List.forall_mem_cons.2 ⟨ha, hbefore⟩, hb⟩
    · exact .inr ⟨[], a, as, rfl, fun _ hb => (nomatch hb), ha⟩

/-- There is only one such first element. -/
theorem first_unique {α : Type} {p : α → Prop} {before before' later later' : List α} {a a' : α}
    (h : before ++ a :: later = before' ++ a' :: later') (hbefore : ∀ b ∈ before, p b)
    (ha : ¬ p a) (hbefore' : ∀ b ∈ before', p b) (ha' : ¬ p a') : a = a' := by
  induction before generalizing before' with
  | nil =>
    cases before' with
    | nil => exact (List.cons.inj h).1
    | cons b before' =>
      rw [List.nil_append, List.cons_append, List.cons.injEq] at h
      exact absurd (h.1 ▸ hbefore' b (List.mem_cons_self ..)) ha
  | cons b before ih =>
    cases before' with
    | nil =>
      rw [List.nil_append, List.cons_append, List.cons.injEq] at h
      exact absurd (h.1 ▸ hbefore b (List.mem_cons_self ..)) ha'
    | cons b' before' =>
      rw [List.cons_append, List.cons_append, List.cons.injEq] at h
      exact ih h.2 (fun c hc => hbefore c (List.mem_cons_of_mem _ hc))
        fun c hc => hbefore' c (List.mem_cons_of_mem _ hc)

namespace Parsing

open Accumulator

section

variable [Resizer]

/-! ## Levels and sums -/

theorem buildLevel_apply (image : Raster) (scale : Float32) (s : Session σ) :
    ∃ t, buildLevel image scale s = ((Pyramid.level image scale).mapError .failure, t) ∧
      t.network = s.network ∧ t.state = s.state := by
  unfold buildLevel
  rw [bind_apply, ofExcept_apply]
  cases Pyramid.level image scale with
  | error failure => exact ⟨s, rfl, rfl, rfl⟩
  | ok level => exact ⟨_, rfl, rfl, rfl⟩

/-- The levels of an image are those of its pyramid. -/
theorem buildLevels_apply (image : Raster) (scales : List Float32) (s : Session σ) :
    ∃ t, scales.mapM (buildLevel image) s =
        ((scales.mapM (Pyramid.level image)).mapError .failure, t) ∧
      t.network = s.network ∧ t.state = s.state := by
  induction scales generalizing s with
  | nil => exact ⟨s, rfl, rfl, rfl⟩
  | cons scale scales ih =>
    obtain ⟨t, hlevel, hnetwork, hstate⟩ := buildLevel_apply image scale s
    obtain ⟨u, hlevels, hnetwork', hstate'⟩ := ih t
    rw [List.mapM_cons, List.mapM_cons, bind_apply, hlevel]
    cases Pyramid.level image scale with
    | error failure => exact ⟨t, rfl, hnetwork, hstate⟩
    | ok level =>
      dsimp only [Except.mapError]
      rw [bind_apply, hlevels]
      refine ⟨u, ?_, hnetwork'.trans hnetwork, hstate'.trans hstate⟩
      cases scales.mapM (Pyramid.level image) with
      | error failure => rfl
      | ok levels => rfl

variable {job : Job} {image : Raster}

theorem sumScales_unbuilt {fault : Fault}
    (h : Pyramid.ofPixels job.scales image.bytes image.width image.height = .error fault)
    (s : Session σ) :
    ∃ t, sumScales job image s = (.error fault, t) ∧ t.state = s.state := by
  unfold sumScales
  rw [bind_apply, ofFault_apply]
  cases himage : Raster.ofPixels image.bytes image.width image.height with
  | error fault' =>
    rw [Pyramid.ofPixels_of_error himage] at h
    cases h
    exact ⟨s, rfl, rfl⟩
  | ok image =>
    rw [Pyramid.ofPixels_of_ok himage] at h
    obtain ⟨t, hlevels, hnetwork, hstate⟩ := buildLevels_apply image job.scales.list s
    rw [h] at hlevels
    dsimp only
    rw [bind_error hlevels]
    exact ⟨t, rfl, hstate⟩

theorem sumScales_built {first : Level} {rest : List Level}
    (h : Pyramid.ofPixels job.scales image.bytes image.width image.height = .ok (first :: rest))
    (s : Session σ) :
    ∃ t : Session σ, t.network = s.network ∧ t.state = s.state ∧
      ∀ r u, sumLevels (.empty first.height first.width) .zero (first :: rest) t = (r, u) →
      ∃ v, sumScales job image s =
        (match r with
        | .error fault => .error fault
        | .ok (acc, forward) =>
          match acc.sum with
          | none => .error (.failure .noScales)
          | some scores => .ok (scores, forward), v) ∧ v.state = u.state := by
  unfold sumScales
  rw [bind_apply, ofFault_apply]
  cases himage : Raster.ofPixels image.bytes image.width image.height with
  | error fault' =>
    rw [Pyramid.ofPixels_of_error himage] at h
    cases h
  | ok image =>
    rw [Pyramid.ofPixels_of_ok himage] at h
    obtain ⟨t, hlevels, hnetwork, hstate⟩ := buildLevels_apply image job.scales.list s
    rw [h] at hlevels
    dsimp only
    rw [bind_ok hlevels]
    refine ⟨t, hnetwork, hstate, ?_⟩
    intro r u hsum
    dsimp only
    rw [bind_apply, hsum]
    rcases r with fault | ⟨acc, forward⟩
    · exact ⟨u, rfl, rfl⟩
    · dsimp only
      cases acc.sum with
      | none => exact ⟨_, rfl, rfl⟩
      | some scores => exact ⟨_, rfl, rfl⟩

/-! ## Labels -/

/-- The label map of a sum of answers at a size: each pixel has the label of its summed scores. -/
structure LabelsSum (h w : Nat) (outputs : List Tensor) (labels : LabelMap) : Prop where
  height : labels.height = h
  width : labels.width = w
  label : ∀ {y x}, y < h → x < w →
    LabelMap.Labels (summedScore h w outputs · y x) partCount (labels.label y x).toNat

omit [Resizer] in
theorem labelsSum_ofScores {h w : Nat} {outputs : List Tensor} {total : Scores}
    (hsized : Sized h w total)
    (hscore : ∀ {c y x}, c < partCount → y < h → x < w →
      total.score c y x = summedScore h w outputs c y x) :
    LabelsSum h w outputs (LabelMap.ofScores total) where
  height := hsized.height
  width := hsized.width
  label {y x} hy hx := by
    have hlabel := LabelMap.labels_ofScores total (hsized.height ▸ hy) (hsized.width ▸ hx)
      (hsized.classes ▸ by decide)
    rw [hsized.classes] at hlabel
    exact hlabel.congr fun c hc => hscore hc hy hx

/-- How labeling an image ends, and the state in which it leaves the network. -/
inductive Labeling (job : Job) (image : Raster) (s : Session σ) :
    Except Fault LabelMap → σ → Prop
  | unbuilt (fault : Fault)
    (hpyramid : Pyramid.ofPixels job.scales image.bytes image.width image.height = .error fault) :
    Labeling job image s (.error fault) s.state
  | refused (levels : List Level) (before later : List (Except String Tensor))
    (answer : Except String Tensor) (failure : Failure)
    (hpyramid : Pyramid.ofPixels job.scales image.bytes image.width image.height = .ok levels)
    (hanswers : s.network.answers s.state (levels.map Level.batch) = before ++ answer :: later)
    (hbefore : ∀ answer ∈ before, Answered HasPixels answer) (hanswer : ¬ Answered IsPair answer) :
    Labeling job image s (.error (.failure failure))
      (s.network.after s.state ((levels.map Level.batch).take (before.length + 1)))
  | unsampled (levels : List Level) (before later : List (Except String Tensor))
    (answer : Except String Tensor)
    (hpyramid : Pyramid.ofPixels job.scales image.bytes image.width image.height = .ok levels)
    (hanswers : s.network.answers s.state (levels.map Level.batch) = before ++ answer :: later)
    (hbefore : ∀ answer ∈ before, Answered HasPixels answer)
    (hanswer : Answered LacksPixels answer) :
    Labeling job image s (.error (.crash .outOfRange))
      (s.network.after s.state ((levels.map Level.batch).take (before.length + 1)))
  | labeled (first : Level) (rest : List Level) (outputs : List Tensor) (labels : LabelMap)
    (hpyramid : Pyramid.ofPixels job.scales image.bytes image.width image.height =
      .ok (first :: rest))
    (hanswers : s.network.answers s.state ((first :: rest).map Level.batch) = outputs.map .ok)
    (houtputs : ∀ output ∈ outputs, HasPixels output)
    (hlabels : LabelsSum first.height first.width outputs labels) :
    Labeling job image s (.ok labels)
      (s.network.after s.state ((first :: rest).map Level.batch))

/-- **How labeling an image ends**, by its pyramid and the answers to the levels. -/
theorem parseImage_inv {job : Job} {image : Raster} {s t : Session σ}
    {r : Except Fault (LabelMap × Duration)} (h : parseImage job image s = (r, t)) :
    Labeling job image s (r.map Prod.fst) t.state := by
  unfold parseImage at h
  cases hpyramid : Pyramid.ofPixels job.scales image.bytes image.width image.height with
  | error fault =>
    obtain ⟨u, hsum, hstate⟩ := sumScales_unbuilt hpyramid s
    rw [bind_error hsum] at h
    cases h
    rw [hstate]
    exact .unbuilt fault hpyramid
  | ok levels =>
    obtain ⟨hscales, hsizes⟩ := Pyramid.ofPixels_ok_inv hpyramid
    cases levels with
    | nil => exact absurd hscales.symm job.scales.ne_nil
    | cons first rest =>
      obtain ⟨hwidth, hheight⟩ := hsizes first (List.mem_cons_self ..)
      obtain ⟨u, hnetwork, hstate, hsum⟩ := sumScales_built hpyramid s
      have hready := Ready.empty hheight hwidth
      rcases forall_or_first (Answered HasPixels)
        (s.network.answers s.state ((first :: rest).map Level.batch)) with
        hall | ⟨before, answer, later, hanswers, hbefore, hanswer⟩
      · -- every answer is added
        obtain ⟨outputs, hanswers, houtputs⟩ := outputs_of_answered hall
        have hadd := hready.foldlM_addAnswer houtputs
        rw [← hanswers, ← hnetwork, ← hstate] at hadd
        obtain ⟨forward, v, hlevels, hafter⟩ := sumLevels_all hadd .zero
        have hne : outputs ≠ [] := by
          rintro rfl
          cases hanswers
        obtain ⟨total, htotal, hsized, hscore⟩ := sum_includingAll_empty hheight hwidth hne
        obtain ⟨w, hresult, hw⟩ := hsum _ _ hlevels
        dsimp only at hresult
        rw [htotal] at hresult
        rw [bind_ok hresult] at h
        cases h
        rw [hw, hafter, hnetwork, hstate]
        exact .labeled first rest outputs _ hpyramid hanswers houtputs
          (labelsSum_ofScores hsized hscore)
      · -- the levels before this answer are added
        obtain ⟨outputs, hbefore', houtputs⟩ := outputs_of_answered hbefore
        have hadd := hready.foldlM_addAnswer houtputs
        rw [← hbefore'] at hadd
        rw [← hnetwork, ← hstate] at hanswers
        have hstops : ∀ fault, (includingAll (empty first.height first.width) outputs).addAnswer
            answer = .error fault → r = .error fault ∧ t.state = s.network.after s.state
              (((first :: rest).map Level.batch).take (before.length + 1)) := by
          intro fault hfault
          obtain ⟨v, hlevels, hafter⟩ := sumLevels_stops hanswers hadd hfault .zero
          obtain ⟨w, hresult, hw⟩ := hsum _ _ hlevels
          rw [bind_error hresult] at h
          cases h
          exact ⟨rfl, by rw [hw, hafter, hnetwork, hstate]⟩
        rw [hnetwork, hstate] at hanswers
        rcases answer_cases answer with hhas | hlacks | hnot
        · exact absurd hhas hanswer
        · obtain ⟨output, rfl, houtput⟩ := hlacks
          obtain ⟨rfl, hafter⟩ :=
            hstops _ ((hready.includingAll outputs).addAnswer_of_lacksPixels houtput)
          rw [hafter]
          exact .unsampled _ before later _ hpyramid hanswers hbefore ⟨output, rfl, houtput⟩
        · obtain ⟨failure, hfailure⟩ := addAnswer_of_not_answered hnot
          obtain ⟨rfl, hafter⟩ := hstops _ hfailure
          rw [hafter]
          exact .refused _ before later answer failure hpyramid hanswers hbefore hnot

/-- The network gives, to the levels of an image, an answer of this kind after answers that have
pixels. -/
def Stops (bad : Except String Tensor → Prop) (job : Job) (image : Raster) (s : Session σ) : Prop :=
  ∃ levels before answer later,
    Pyramid.ofPixels job.scales image.bytes image.width image.height = .ok levels ∧
    s.network.answers s.state (levels.map Level.batch) = before ++ answer :: later ∧
    (∀ earlier ∈ before, Answered HasPixels earlier) ∧ bad answer

/-- The first answer without pixels decides how labeling ends. -/
theorem Labeling.of_stops {job : Job} {image : Raster} {s : Session σ} {state : σ}
    {result : Except Fault LabelMap} {bad : Except String Tensor → Prop}
    (h : Labeling job image s result state) (hstops : Stops bad job image s)
    (hbad : ∀ answer, bad answer → ¬ Answered HasPixels answer) :
    ∃ answer, bad answer ∧
      ((result = .error (.crash .outOfRange) ∧ Answered LacksPixels answer) ∨
        ∃ failure, result = .error (.failure failure) ∧ ¬ Answered IsPair answer) := by
  obtain ⟨levels, before, answer, later, hpyramid, hanswers, hbefore, hanswer⟩ := hstops
  have hnot := hbad answer hanswer
  refine ⟨answer, hanswer, ?_⟩
  cases h with
  | unbuilt fault hpyramid' => cases hpyramid.symm.trans hpyramid'
  | refused levels' before' later' answer' failure hpyramid' hanswers' hbefore' hanswer' =>
    cases hpyramid.symm.trans hpyramid'
    have hnot' : ¬ Answered HasPixels answer' :=
      fun hhas => hanswer' (hhas.imp fun _ => HasPixels.isPair)
    obtain rfl := first_unique (hanswers.symm.trans hanswers') hbefore hnot hbefore' hnot'
    exact .inr ⟨failure, rfl, hanswer'⟩
  | unsampled levels' before' later' answer' hpyramid' hanswers' hbefore' hanswer' =>
    cases hpyramid.symm.trans hpyramid'
    obtain rfl := first_unique (hanswers.symm.trans hanswers') hbefore hnot hbefore'
      (not_hasPixels_of_lacksPixels hanswer')
    exact .inl ⟨rfl, hanswer'⟩
  | labeled first rest outputs labels hpyramid' hanswers' houtputs =>
    cases hpyramid.symm.trans hpyramid'
    have hmem : answer ∈ outputs.map Except.ok := by
      rw [← hanswers', hanswers]
      simp
    obtain ⟨output, houtput, rfl⟩ := List.mem_map.1 hmem
    exact absurd ⟨output, rfl, houtputs output houtput⟩ hnot

/-! ## Networks without memory -/

section

variable {job : Job} {image : Raster} {path : FilePath} {s u : Session σ}

/-- Labeling depends on the answers to the levels alone, the time aside. -/
theorem sumScales_congr
    (h : ∀ levels, Pyramid.ofPixels job.scales image.bytes image.width image.height = .ok levels →
      u.network.answers u.state (levels.map Level.batch) =
        s.network.answers s.state (levels.map Level.batch)) :
    (sumScales job image u).1.map Prod.fst = (sumScales job image s).1.map Prod.fst := by
  cases hpyramid : Pyramid.ofPixels job.scales image.bytes image.width image.height with
  | error fault =>
    obtain ⟨v, hsum, -⟩ := sumScales_unbuilt hpyramid s
    obtain ⟨v', hsum', -⟩ := sumScales_unbuilt hpyramid u
    rw [hsum, hsum']
  | ok levels =>
    obtain ⟨hscales, -⟩ := Pyramid.ofPixels_ok_inv hpyramid
    cases levels with
    | nil => exact absurd hscales.symm job.scales.ne_nil
    | cons first rest =>
      obtain ⟨v, hnetwork, hstate, hsum⟩ := sumScales_built hpyramid s
      obtain ⟨v', hnetwork', hstate', hsum'⟩ := sumScales_built hpyramid u
      have hlevels := sumLevels_result (.empty first.height first.width) .zero (first :: rest) v
      have hlevels' := sumLevels_result (.empty first.height first.width) .zero (first :: rest) v'
      rw [hnetwork', hstate', h _ hpyramid, ← hnetwork, ← hstate, ← hlevels] at hlevels'
      rcases hr : sumLevels (.empty first.height first.width) .zero (first :: rest) v with ⟨r, w⟩
      rcases hr' : sumLevels (.empty first.height first.width) .zero (first :: rest) v' with
        ⟨r', w'⟩
      obtain ⟨x, hresult, -⟩ := hsum r w hr
      obtain ⟨x', hresult', -⟩ := hsum' r' w' hr'
      rw [hr, hr'] at hlevels'
      rw [hresult, hresult']
      dsimp only at hlevels'
      rcases r with fault | ⟨acc, forward⟩
      · obtain rfl := eq_error_of_map hlevels'
        rfl
      · obtain ⟨⟨_, forward'⟩, rfl, rfl⟩ := exists_of_map_eq_ok hlevels'
        dsimp only
        split
        · rfl
        · rfl

theorem parseImage_congr
    (h : ∀ levels, Pyramid.ofPixels job.scales image.bytes image.width image.height = .ok levels →
      u.network.answers u.state (levels.map Level.batch) =
        s.network.answers s.state (levels.map Level.batch)) :
    (parseImage job image u).1.map Prod.fst = (parseImage job image s).1.map Prod.fst := by
  have hsum := sumScales_congr h
  unfold parseImage
  rcases hs : sumScales job image s with ⟨r, v⟩
  rcases hu : sumScales job image u with ⟨r', w⟩
  rw [hs, hu] at hsum
  dsimp only at hsum
  rcases r with fault | ⟨scores, forward⟩
  · obtain rfl := eq_error_of_map hsum
    rw [bind_error hs, bind_error hu]
  · obtain ⟨⟨_, forward'⟩, rfl, rfl⟩ := exists_of_map_eq_ok hsum
    rw [bind_ok hs, bind_ok hu]
    rfl

/-- Labeling an image file is labeling its image, at a session with one more event. -/
theorem labelImage_apply (job : Job) (path : FilePath) (s : Session σ) :
    ∃ u, Same s u ∧ u.state = s.state ∧ labelImage job path s =
      match s.files.loadImage path with
      | .error failure => (.error (.failure failure), u)
      | .ok image => parseImage job image u := by
  refine ⟨s.told [⟨.info, "Processing image", [("image", path.display)]⟩], ⟨rfl, rfl, rfl⟩, rfl, ?_⟩
  show (load path >>= parseImage job) _ = _
  rw [bind_apply, load_apply, files_told]
  cases s.files.loadImage path with
  | error failure => rfl
  | ok image => rfl

/-- For a network without memory labeling an image file depends on the file alone. -/
theorem labelImage_congr (hpure : s.network.Pure) (hnetwork : u.network = s.network)
    (hload : u.files.loadImage path = s.files.loadImage path) :
    (labelImage job path u).1.map Prod.fst = (labelImage job path s).1.map Prod.fst := by
  obtain ⟨v, hsame, hstate, hlabel⟩ := labelImage_apply job path s
  obtain ⟨v', hsame', hstate', hlabel'⟩ := labelImage_apply job path u
  rw [hlabel, hlabel', hload]
  cases s.files.loadImage path with
  | error failure => rfl
  | ok image =>
    refine parseImage_congr fun levels _ => ?_
    rw [hsame.network, hsame'.network, hnetwork]
    exact hpure.answers _ _ _

theorem labelled_eq (job : Job) (path : FilePath) (s : Session σ) :
    labelled job path s = ((labelImage job path s).1.map Prod.fst).toOption := by
  unfold labelled
  rcases labelImage job path s with ⟨fault | ⟨labels, forward⟩, t⟩
  · rfl
  · rfl

end

/-! ## The meaning of labels -/

/-- **What the labels of an image mean.** The network is fed the levels of the pyramid in order, up
to the first that it does not answer with a pair of planes for all classes. If there is none, the
labels are those of the fused answers, each resized to the first level and summed in order. -/
theorem parseImage_meaning {job : Job} {image : Raster} {s : Session σ}
    (hpixels : ∀ input state output, (s.network.infer input state).1 = .ok output →
      ¬ LacksPixels output) :
    let pyramid := Pyramid.ofPixels job.scales image.bytes image.width image.height
    (∀ fault, pyramid = .error fault →
      ∃ t, parseImage job image s = (.error fault, t) ∧ t.state = s.state ∧
        (image.width * image.height * 3 < wordLimit → ∃ failure, fault = .failure failure)) ∧
    ∀ levels, pyramid = .ok levels →
      let inputs := levels.map Level.batch
      let answers := s.network.answers s.state inputs
      levels.map Level.scale = job.scales.list ∧
      ((∃ before answer later failure t, answers = before ++ answer :: later ∧
          (∀ earlier ∈ before, Answered IsPair earlier) ∧ ¬ Answered IsPair answer ∧
          parseImage job image s = (.error (.failure failure), t) ∧
          t.state = s.network.after s.state (inputs.take (before.length + 1))) ∨
        ∃ first rest outputs labels forward t, levels = first :: rest ∧
          answers = outputs.map .ok ∧ (∀ output ∈ outputs, IsPair output) ∧
          parseImage job image s = (.ok (labels, forward), t) ∧
          t.state = s.network.after s.state inputs ∧
          labels.height = first.height ∧ labels.width = first.width ∧
          (∀ output ∈ outputs, (fusedPlanes output).upsample first.height first.width =
            .ok ((fusedPlanes output).resized first.height first.width)) ∧
          ∀ y < first.height, ∀ x < first.width,
            (labels.label y x).toNat < partCount ∧
            LabelMap.Labels (summedScore first.height first.width outputs · y x) partCount
              (labels.label y x).toNat) := by
  intro pyramid
  rcases hparse : parseImage job image s with ⟨r, t⟩
  have hlabeling := parseImage_inv hparse
  obtain ⟨result, hresult⟩ : ∃ result, r.map Prod.fst = result := ⟨_, rfl⟩
  obtain ⟨state, hstate⟩ : ∃ state, t.state = state := ⟨_, rfl⟩
  rw [hresult, hstate] at hlabeling
  refine ⟨fun fault hfault => ?_, fun levels hlevels => ?_⟩
  · have hpyramid : Pyramid.ofPixels job.scales image.bytes image.width image.height =
        .error fault := hfault
    cases hlabeling with
    | unbuilt fault' hpyramid' =>
      cases hpyramid.symm.trans hpyramid'
      refine ⟨t, by rw [eq_error_of_map hresult], hstate, fun hsize => ?_⟩
      rcases Pyramid.ofPixels_error_inv hfault with hfailure | ⟨-, hlarge⟩
      · exact hfailure
      · omega
    | refused _ _ _ _ _ hpyramid' | unsampled _ _ _ _ hpyramid' | labeled _ _ _ _ hpyramid' =>
      cases hpyramid.symm.trans hpyramid'
  · intro inputs answers
    refine ⟨(Pyramid.ofPixels_ok_inv hlevels).1, ?_⟩
    have hpyramid : Pyramid.ofPixels job.scales image.bytes image.width image.height =
        .ok levels := hlevels
    cases hlabeling with
    | unbuilt fault hpyramid' => cases hpyramid.symm.trans hpyramid'
    | refused levels' before later answer failure hpyramid' hanswers hbefore hanswer =>
      cases hpyramid.symm.trans hpyramid'
      refine .inl ⟨before, answer, later, failure, t, hanswers, fun earlier hearlier => ?_, hanswer,
        by rw [eq_error_of_map hresult], hstate⟩
      exact (hbefore earlier hearlier).imp fun _ => HasPixels.isPair
    | unsampled levels' before later answer hpyramid' hanswers hbefore hanswer =>
      -- such an answer is none of the network's
      obtain ⟨output, rfl, hlacks⟩ := hanswer
      obtain ⟨_, input, _, _, _, hinfer⟩ := Network.answers_eq_append_cons hanswers
      exact absurd hlacks (hpixels _ _ _ hinfer)
    | labeled first rest outputs labels hpyramid' hanswers houtputs hlabels =>
      cases hpyramid.symm.trans hpyramid'
      obtain ⟨⟨_, forward⟩, rfl, rfl⟩ := exists_of_map_eq_ok hresult
      refine .inr ⟨first, rest, outputs, _, forward, t, rfl, hanswers, fun output houtput => ?_,
        rfl, hstate, hlabels.height, hlabels.width, fun output houtput => ?_, fun y hy x hx => ?_⟩
      · exact (houtputs output houtput).isPair
      · obtain ⟨h, w, hshape, hh, hw⟩ := houtputs output houtput
        have hsized := sized_fusedPlanes hshape
        exact upsample_eq_resized (hsized.height ▸ hh) (hsized.width ▸ hw) _ _
      · have hlabel := hlabels.label hy hx
        exact ⟨hlabel.lt (by decide), hlabel⟩

end

/-- A session whose network sees nothing but a left arm in the mirror image, in a single pixel, and
keeps a record of its inputs. -/
def onePixelSession : Session (Unit × List Tensor) where
  files := ⟨Table.empty, []⟩
  network := Network.recording ⟨.cpu, fun _ state =>
    (.ok (Tensor.batch 2 partCount 1 1 fun b c _ _ => if b = 1 ∧ c = 14 then 1 else 0), state)⟩
  state := ((), [])
  clock _ := .zero

/-- A job with the scales two and one. -/
def doublingJob : Job := ⟨⟨[2.0, 1.0], by decide, by decide +kernel⟩, .ofString "out"⟩

/-- A row of two pixels. -/
def pixelPair : Raster := ⟨2, 1, #[0, 0, 0, 255, 255, 255], rfl⟩

/-- The labels of a row of two pixels are those of its first level, twice as large, and the right
arm everywhere, as it is left in the mirror image. The network has seen both levels in order. -/
theorem parseImage_meaning_doubling :
    ∃ labels forward t,
      parseImage doublingJob pixelPair onePixelSession = (.ok (labels, forward), t) ∧
      labels.height = 2 ∧ labels.width = 4 ∧ (labels.label 1 3).toNat = 15 ∧
      t.state.2.map Tensor.shape = [[2, 3, 2, 4], [2, 3, 1, 2]] := by
  have hpixels : ∀ input state output,
      (onePixelSession.network.infer input state).1 = .ok output → ¬ LacksPixels output := by
    rintro input state output hinfer ⟨h, w, hshape, hlacks⟩
    cases hinfer
    cases hshape
    omega
  obtain ⟨levels, hpyramid, hshapes, hfirst⟩ : ∃ levels,
      Pyramid.ofPixels doublingJob.scales pixelPair.bytes pixelPair.width pixelPair.height =
        .ok levels ∧ levels.map (Tensor.shape ∘ Level.batch) = [[2, 3, 2, 4], [2, 3, 1, 2]] ∧
      levels.map (fun level => (level.height, level.width)) = [(2, 4), (1, 2)] := by
    have hbuilt : (Pyramid.ofPixels doublingJob.scales pixelPair.bytes pixelPair.width
        pixelPair.height).toOption.any (fun levels =>
          levels.map (Tensor.shape ∘ Level.batch) == [[2, 3, 2, 4], [2, 3, 1, 2]] &&
          levels.map (fun level => (level.height, level.width)) == [(2, 4), (1, 2)]) = true := by
      decide +kernel
    cases hpyramid : Pyramid.ofPixels doublingJob.scales pixelPair.bytes pixelPair.width
        pixelPair.height with
    | error fault =>
      rw [hpyramid] at hbuilt
      cases hbuilt
    | ok levels =>
      rw [hpyramid] at hbuilt
      simp only [Except.toOption, Option.any_some, Bool.and_eq_true, beq_iff_eq] at hbuilt
      exact ⟨levels, rfl, hbuilt⟩
  have harm : ends (fun result _ => (result.1.label 1 3).toNat == 15)
      (parseImage doublingJob pixelPair) onePixelSession = true := by
    decide +kernel
  obtain ⟨-, hmeaning⟩ := @parseImage_meaning _ _ doublingJob pixelPair onePixelSession hpixels
  obtain ⟨-, hends⟩ := hmeaning levels hpyramid
  obtain ⟨⟨labels, forward⟩, t, hrun, hlabel⟩ := ends_inv harm
  rcases hends with ⟨before, answer, later, failure, t', -, -, -, hrefused, -⟩ |
    ⟨first, rest, outputs, labels', forward', t', rfl, -, -, hrun', hstate, hheight, hwidth, -⟩
  · cases hrefused.symm.trans hrun
  · cases hrun'.symm.trans hrun
    have hsize := (List.cons.inj hfirst).1
    rw [Prod.mk.injEq] at hsize
    refine ⟨labels, forward, t, hrun, hheight.trans hsize.1, hwidth.trans hsize.2,
      beq_iff_eq.1 hlabel, ?_⟩
    rw [hstate]
    show List.map Tensor.shape (Network.after (Network.recording _) ((), []) _).2 = _
    rw [Network.after_recording, List.nil_append, List.map_map, hshapes]

end Parsing

end ImageLabeling
