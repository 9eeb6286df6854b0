import ImageLabeling.Classification.Ranking
import ImageLabeling.Proofs.Parsing.Argmax

/-!
# The class with the highest score

Labels of pixels are chosen plane by plane, the top class of a classifier by scanning its scores
once. Both find the class that leads (`LabelMap.leader`), the scan because it is started where the
leader of the scores before stands (`highest_leader`). So the label of a pixel is the top class of
its scores, reduced to a byte (`label_eq_topClass`). What counts as scores of a classifier is a
vector, or a batch of one (`IsVector`), with at least one score (`classScores_of_isVector`,
`classScores_of_not_isVector`).
-/

namespace ImageLabeling

open Number LabelMap

/-! ## Scores of a classifier -/

/-- A vector of at least one score, or a batch of one such vector. -/
def IsVector (output : Tensor) : Prop :=
  ∃ n, 0 < n ∧ (output.shape = [n] ∨ output.shape = [1, n])

variable {output : Tensor}

theorem isEmpty_eq (output : Tensor) :
    output.isEmpty = decide (Tensor.volume output.shape = 0) := by
  rw [Tensor.isEmpty, Array.isEmpty, output.size_data]

theorem classScores_of_isVector (h : IsVector output) :
    classScores output = .ok output.data.toList := by
  unfold classScores
  rw [isEmpty_eq]
  obtain ⟨n, hn, hshape | hshape⟩ := h
  · simp [hshape, hn.ne']
  · simp [hshape, hn.ne']

/-- Nothing else has scores. -/
theorem classScores_of_not_isVector (h : ¬ IsVector output) :
    classScores output = .error (.shapeMismatch "[1, N]" output.shape) := by
  unfold classScores
  rw [isEmpty_eq]
  refine if_neg fun hvector => h ?_
  rw [Bool.and_eq_true, Bool.not_eq_true', decide_eq_false_iff_not] at hvector
  obtain ⟨hrank, hvolume⟩ := hvector
  split at hrank
  case h_1 n hshape =>
    rw [hshape] at hvolume
    exact ⟨n, Nat.pos_of_ne_zero (by simpa using hvolume), .inl hshape⟩
  case h_2 n hshape =>
    rw [hshape] at hvolume
    exact ⟨n, Nat.pos_of_ne_zero (by simpa using hvolume), .inr hshape⟩
  case h_3 => cases hrank

/-! ## Two ways to find the leader -/

/-- Scanning on from the leader of the first scores gives the leader of all. -/
theorem highest_leader (f : Nat → Float32) (i m : Nat) :
    highest (leader f i) i ((List.range' i m).map f) = (leader f (i + m)).1 := by
  induction m generalizing i with
  | zero => rfl
  | succ m ih =>
    have hnext := ih (i + 1)
    rw [leader, Nat.add_right_comm, Nat.add_assoc] at hnext
    rw [List.range'_succ, List.map_cons, highest, hnext]

theorem highest_eq_leader (scores : List Float32) :
    highest (0, lowest) 0 scores = (leader (scores.getD · 0) scores.length).1 := by
  have hscores : scores = (List.range' 0 scores.length).map (scores.getD · 0) := by
    apply List.ext_getElem
    · simp
    · intro i hi _
      simp [List.getElem?_eq_getElem hi]
  have hscan := highest_leader (scores.getD · 0) 0 scores.length
  rwa [← hscores, Nat.zero_add] at hscan

/-- The top class is the leader of the scores. -/
theorem topClass_eq {scores : List Float32} (h : classScores output = .ok scores) :
    topClass output = .ok (leader (scores.getD · 0) scores.length).1 := by
  rw [← highest_eq_leader, topClass, h]
  rfl

theorem topClass_of_isVector (h : IsVector output) :
    topClass output = .ok (leader (output.data.getD · 0) output.data.size).1 := by
  rw [topClass_eq (classScores_of_isVector h)]
  simp

theorem topClass_of_not_isVector (h : ¬ IsVector output) :
    topClass output = .error (.shapeMismatch "[1, N]" output.shape) := by
  rw [topClass, classScores_of_not_isVector h]
  rfl

/-- The class that leads is the least that no score exceeds, if any score is above negative
infinity. -/
theorem LabelMap.Labels.isLeast {f : Nat → Float32} {n c : Nat} (h : Labels f n c)
    (habove : ∃ d < n, lowest < f d) :
    IsLeast {i | i < n ∧ ∀ d < n, (f d).isNaN = false → f d ≤ f i} c := by
  rcases h with hbest | ⟨-, hlow⟩
  · refine ⟨⟨hbest.isClass, hbest.greatest⟩, ?_⟩
    rintro i ⟨-, hgreatest⟩
    by_contra hlt
    have hle := hgreatest c hbest.isClass (single_lt_iff.1 hbest.above).2.1
    exact single_not_lt_of_le hle (hbest.least i (not_le.1 hlt) (single_le_iff.1 hle).2.1)
  · obtain ⟨d, hd, hless⟩ := habove
    exact absurd hless (hlow d hd)

/-! ## Pixels -/

/-- The scores of a pixel as a vector. -/
def Scores.column (s : Scores) (y x : Nat) : Tensor where
  shape := [s.classes]
  data := Array.ofFn (n := s.classes) fun c => s.score c y x
  size_data := by simp

theorem leader_column (s : Scores) (y x : Nat) :
    leader ((s.column y x).data.getD · 0) (s.column y x).data.size =
      leader (s.score · y x) s.classes := by
  have hsize : (s.column y x).data.size = s.classes := Array.size_ofFn
  have hread : ∀ n ≤ s.classes, leader ((s.column y x).data.getD · 0) n =
      leader (s.score · y x) n := by
    intro n hn
    induction n with
    | zero => rfl
    | succ n ih =>
      have hscore : (s.column y x).data.getD n 0 = s.score n y x := by
        simp [Scores.column, Array.getD, Nat.lt_of_succ_le hn]
      rw [leader, leader, ih (Nat.le_of_succ_le hn), hscore]
  rw [hsize, hread _ le_rfl]

/-- **Labels of pixels and top classes are chosen alike.** The top class is found for vectors of at
least one score and for batches of one such vector, for both alike, and every other shape is
refused. The label of a pixel is the top class of its scores, reduced to a byte, which changes none
of 256 classes; that class is the least that no score exceeds, scores that are NaN aside, or the
first one if no score is above negative infinity. -/
theorem label_eq_topClass :
    (∀ output, (∃ c, topClass output = .ok c) ↔ IsVector output) ∧
    (∀ output, ¬ IsVector output →
      topClass output = .error (.shapeMismatch "[1, N]" output.shape)) ∧
    (∀ (vector batch : Tensor) (n : Nat), 0 < n → vector.shape = [n] → batch.shape = [1, n] →
      vector.data = batch.data → topClass vector = topClass batch) ∧
    ∀ s : Scores, 0 < s.classes → ∀ y < s.height, ∀ x < s.width,
      ∃ c, topClass (s.column y x) = .ok c ∧
        ((ofScores s).label y x).toNat = c % 256 ∧
        (s.classes ≤ 256 → ((ofScores s).label y x).toNat = c) ∧
        ((∃ d < s.classes, lowest < s.score d y x) →
          IsLeast {i | i < s.classes ∧ ∀ d < s.classes, (s.score d y x).isNaN = false →
            s.score d y x ≤ s.score i y x} c) ∧
        ((∀ d < s.classes, ¬ lowest < s.score d y x) → c = 0) := by
  refine ⟨fun output => ⟨?_, fun h => ⟨_, topClass_of_isVector h⟩⟩,
    fun output => topClass_of_not_isVector, fun vector batch n hn hvector hbatch hdata => ?_,
    fun s hclasses y hy x hx => ?_⟩
  · rintro ⟨c, hc⟩
    by_contra h
    rw [topClass_of_not_isVector h] at hc
    cases hc
  · rw [topClass_of_isVector ⟨n, hn, .inl hvector⟩, topClass_of_isVector ⟨n, hn, .inr hbatch⟩,
      hdata]
  · have hlabels := labels_leader (s.score · y x) s.classes
    refine ⟨_, topClass_of_isVector ⟨s.classes, hclasses, .inl rfl⟩, ?_, fun hbyte => ?_, ?_, ?_⟩
    · rw [leader_column, toNat_label_ofScores s hy hx]
    · rw [leader_column, toNat_label_ofScores s hy hx,
        Nat.mod_eq_of_lt ((hlabels.lt hclasses).trans_le hbyte)]
    · rw [leader_column]
      exact hlabels.isLeast
    · rw [leader_column]
      intro hlow
      rcases hlabels with hbest | ⟨hzero, -⟩
      · exact absurd hbest.above (hlow _ hbest.isClass)
      · exact hzero

/-- The number that `0 / 0` gives. -/
def undefinedScore : Float32 := 0.0 / 0.0

/-- Two pixels with a NaN among their scores: a tie at one, and nothing above negative infinity at
the other. -/
def mixedScores : Scores :=
  .ofFn 3 1 2 fun c _ x =>
    if c = x then undefinedScore else if x = 0 then 5.0 else lowest

/-- At pixels with ties, NaN and negative infinity, and for a vector presented as a batch. -/
theorem label_eq_topClass_mixed :
    topClass (mixedScores.column 0 0) = .ok 1 ∧ topClass (mixedScores.column 0 1) = .ok 0 ∧
    ((ofScores mixedScores).label 0 0).toNat = 1 ∧
    ((ofScores mixedScores).label 0 1).toNat = 0 ∧
    topClass (mixedScores.column 0 0) =
      topClass ⟨[1, 3], (mixedScores.column 0 0).data, Array.size_ofFn⟩ := by
  obtain ⟨-, -, hbatch, hpixels⟩ := label_eq_topClass
  obtain ⟨c, hc, -, hlabel, hleast, -⟩ :=
    hpixels mixedScores (by decide) 0 (by decide) 0 (by decide)
  obtain ⟨d, hd, -, hlabel', -, hzero⟩ :=
    hpixels mixedScores (by decide) 0 (by decide) 1 (by decide)
  have hbyte : mixedScores.classes ≤ 256 := by decide
  obtain rfl : d = 0 := hzero (by decide +kernel)
  obtain rfl : c = 1 := by
    have hone : IsLeast {i | i < 3 ∧ ∀ d < 3, (mixedScores.score d 0 0).isNaN = false →
        mixedScores.score d 0 0 ≤ mixedScores.score i 0 0} 1 := by
      refine ⟨by decide +kernel, ?_⟩
      rintro i ⟨hi, hgreatest⟩
      by_contra hlt
      obtain rfl : i = 0 := by omega
      revert hgreatest
      decide +kernel
    exact (hleast (by decide +kernel)).unique hone
  exact ⟨hc, hd, hlabel hbyte, hlabel' hbyte, hbatch _ _ 3 (by decide) rfl rfl rfl⟩

end ImageLabeling
