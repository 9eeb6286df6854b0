import ImageLabeling.Proofs.Classification.Measurements
import ImageLabeling.Proofs.Classification.TopClass
import ImageLabeling.Proofs.Number.Monotone

/-!
# Rankings by probability

The exponential is only expected to be monotone, and to be right at zero and at negative infinity
(`IsExponential`). Among scores with a largest one that is finite (`Rankable`) that is enough: the
powers lie between zero and one, the largest score has the power one, and the total is at least that
and not too large. So probabilities lie between zero and one and grow with the scores
(`IsExponential.within_probability`, `IsExponential.probability_le_probability`). Classes are sorted
by a total order (`before_total`), so what is listed are the most probable ones
(`isRanking_take`), and the top class, which has the largest probability, comes first unless a lower
class ties with it (`head_rankAll`). Reporting the ranking does not change what becomes of an image
(`Classification.classifyImage_sameOutcome`).
-/

namespace ImageLabeling

open Number LabelMap

/-! ## The largest score -/

theorem larger_eq (a b : Float32) : larger a b = a ∨ larger a b = b := by
  unfold larger
  split
  · exact .inr rfl
  · exact .inl rfl

theorem le_larger {a b : Float32} (ha : a.isNaN = false) (hb : b.isNaN = false) :
    a ≤ larger a b ∧ b ≤ larger a b := by
  unfold larger
  split
  case isTrue h =>
    have hlt : a < b := h.resolve_right (Bool.eq_false_iff.1 ha)
    exact ⟨single_le_of_lt hlt, single_le_refl hb⟩
  case isFalse h => exact ⟨single_le_refl ha, single_le_of_not_lt ha hb fun hlt => h (.inl hlt)⟩

theorem foldl_larger {scores : List Float32} (h : ∀ v ∈ scores, v.isNaN = false) {a : Float32}
    (ha : a.isNaN = false) :
    (scores.foldl larger a = a ∨ scores.foldl larger a ∈ scores) ∧
      a ≤ scores.foldl larger a ∧ ∀ v ∈ scores, v ≤ scores.foldl larger a := by
  induction scores generalizing a with
  | nil => exact ⟨.inl rfl, single_le_refl ha, by simp⟩
  | cons b rest ih =>
    obtain ⟨hb, hrest⟩ := List.forall_mem_cons.1 h
    obtain ⟨hle, hle'⟩ := le_larger ha hb
    obtain ⟨hmem, hfirst, hall⟩ := ih hrest (single_le_iff.1 hle).2.1
    refine ⟨?_, single_le_trans hle hfirst,
      List.forall_mem_cons.2 ⟨single_le_trans hle' hfirst, hall⟩⟩
    rw [List.foldl_cons, List.mem_cons]
    rcases hmem with hstart | hmem
    · rw [hstart]
      exact (larger_eq a b).imp_right .inl
    · exact .inr (.inr hmem)

/-- Every score is finite or negative infinity, and some score is finite. -/
structure Rankable (scores : List Float32) : Prop where
  proper : ∀ v ∈ scores, v.isFinite = true ∨ v = lowest
  finite : ∃ v ∈ scores, v.isFinite = true

namespace Rankable

variable {scores : List Float32} (h : Rankable scores)
include h

theorem isNaN {v : Float32} (hv : v ∈ scores) : v.isNaN = false := by
  rcases h.proper v hv with hfinite | rfl
  · exact isNaN_of_isFinite hfinite
  · rfl

theorem le_maximum {v : Float32} (hv : v ∈ scores) : v ≤ maximum scores :=
  (foldl_larger (fun _ => h.isNaN) rfl).2.2 v hv

/-- The largest score is one of them, and finite. -/
theorem maximum_mem : maximum scores ∈ scores ∧ (maximum scores).isFinite = true := by
  obtain ⟨v, hv, hfinite⟩ := h.finite
  have hne : maximum scores ≠ lowest := by
    intro heq
    have hle := h.le_maximum hv
    rw [heq] at hle
    exact single_not_lt_of_le hle (lowest_lt hfinite)
  have hmem : maximum scores ∈ scores :=
    (foldl_larger (fun _ => h.isNaN) rfl).1.resolve_left hne
  exact ⟨hmem, (h.proper _ hmem).resolve_right hne⟩

end Rankable

/-! ## Powers -/

/-- What is expected of an exponential. -/
structure IsExponential (exp : Float32 → Float32) : Prop where
  mono : ∀ {a b}, a ≤ b → exp a ≤ exp b
  zero : exp 0.0 = 1.0
  lowest : exp lowest = 0.0

/-- The power of a score that is shifted by the largest one. -/
def power (exp : Float32 → Float32) (scores : List Float32) (v : Float32) : Float32 :=
  exp (v - maximum scores)

/-- The sum of all powers. -/
def total (exp : Float32 → Float32) (scores : List Float32) : Float32 :=
  (scores.map (power exp scores)).foldl (· + ·) 0.0

/-- The probability that a score stands for. -/
def probability (exp : Float32 → Float32) (scores : List Float32) (v : Float32) : Float32 :=
  power exp scores v / total exp scores

theorem softmax_eq (exp : Float32 → Float32) (scores : List Float32) :
    softmax exp scores = scores.map (probability exp scores) :=
  List.map_map

section

variable {exp : Float32 → Float32} {scores : List Float32} {v w : Float32} (h : Rankable scores)
include h

theorem Rankable.lowest_le_shift (hv : v ∈ scores) : lowest ≤ v - maximum scores := by
  obtain ⟨hmax, hfinite⟩ := h.maximum_mem
  rcases h.proper v hv with hv' | rfl
  · have hle := (single_le_iff_value hv' hfinite).1 (h.le_maximum hv)
    exact (roundsBelow_sub hv' hfinite hle).ge_lowest
  · rw [lowest_sub hfinite]
    exact lowest_le (.inr rfl)

/-- Scores keep their order when they are shifted. -/
theorem Rankable.shift_le_shift (hv : v ∈ scores) (hw : w ∈ scores) (hle : v ≤ w) :
    v - maximum scores ≤ w - maximum scores := by
  obtain ⟨hmax, hfinite⟩ := h.maximum_mem
  rcases h.proper v hv with hv' | rfl
  · have hw' : w.isFinite = true := by
      rcases h.proper w hw with hw' | rfl
      · exact hw'
      · exact absurd (lowest_lt hv') (single_not_lt_of_le hle)
    exact sub_le_sub_of_finite hv' hw' hfinite ((single_le_iff_value hv' hw').1 hle)
      ((single_le_iff_value hw' hfinite).1 (h.le_maximum hw))
  · rw [lowest_sub hfinite]
    exact h.lowest_le_shift hw

/-- The largest score is shifted to zero. -/
theorem Rankable.within_shift_maximum : Within 0 0 (maximum scores - maximum scores) := by
  have hfinite := h.maximum_mem.2
  have hexact : value (maximum scores) - value (maximum scores) = 0 := sub_self _
  exact within_sub hfinite hfinite storable_zero storable_zero hexact.ge hexact.le

variable (hexp : IsExponential exp)
include hexp

theorem IsExponential.within_power (hv : v ∈ scores) : Within 0 1 (power exp scores v) := by
  have hzero : (0.0 : Float32).isFinite = true := rfl
  have hshift := h.within_shift_maximum
  have hnonpos : v - maximum scores ≤ 0.0 :=
    single_le_trans (h.shift_le_shift hv h.maximum_mem.1 (h.le_maximum hv))
      ((single_le_iff_value hshift.isFinite hzero).2 hshift.le)
  have hlower := hexp.mono (h.lowest_le_shift hv)
  have hupper := hexp.mono hnonpos
  rw [hexp.lowest] at hlower
  rw [hexp.zero] at hupper
  exact value_one ▸ within_of_le_of_le hzero rfl hlower hupper

theorem IsExponential.power_le_power (hv : v ∈ scores) (hw : w ∈ scores) (hle : v ≤ w) :
    value (power exp scores v) ≤ value (power exp scores w) := by
  have hpower := hexp.mono (h.shift_le_shift hv hw hle)
  exact (single_le_iff_value (hexp.within_power h hv).isFinite
    (hexp.within_power h hw).isFinite).1 hpower

/-- The largest score has the power one. -/
theorem IsExponential.value_power_maximum : value (power exp scores (maximum scores)) = 1 := by
  have hwithin := hexp.within_power h h.maximum_mem.1
  have hshift := h.within_shift_maximum
  have hle : (0.0 : Float32) ≤ maximum scores - maximum scores :=
    (single_le_iff_value rfl hshift.isFinite).2 hshift.ge
  have hpower := hexp.mono hle
  rw [hexp.zero] at hpower
  have hone := (single_le_iff_value rfl hwithin.isFinite).1 hpower
  rw [value_one] at hone
  exact le_antisymm hwithin.le hone

/-- The total is at least each power, hence at least one, and not too large. -/
theorem IsExponential.within_total : Within 1 (2 ^ 25) (total exp scores) ∧
    ∀ v ∈ scores, value (power exp scores v) ≤ value (total exp scores) := by
  have hpowers : ∀ p ∈ scores.map (power exp scores), Within 0 1 p :=
    List.forall_mem_map.2 fun v => hexp.within_power h
  have hzero : value 0.0 = 0 := rfl
  have hstart : Within 0 (2 ^ 25) (0.0 : Float32) := ⟨rfl, hzero.ge, hzero.le.trans (by norm_num)⟩
  obtain ⟨htotal, hall⟩ := within_foldl_add hpowers hstart
  have hall := List.forall_mem_map.1 hall
  have hone := hall _ h.maximum_mem.1
  rw [hexp.value_power_maximum h] at hone
  exact ⟨⟨htotal.isFinite, hone, htotal.le⟩, hall⟩

theorem IsExponential.within_probability (hv : v ∈ scores) :
    Within 0 1 (probability exp scores v) := by
  obtain ⟨htotal, hall⟩ := hexp.within_total h
  have hpos : 0 < value (total exp scores) := one_pos.trans_le htotal.ge
  have hpower := hexp.within_power h hv
  exact within_div hpower.isFinite htotal.isFinite storable_zero storable_one hpos.ne'
    (div_nonneg hpower.ge hpos.le) ((div_le_one hpos).2 (hall v hv))

/-- **A larger score has no smaller probability.** -/
theorem IsExponential.probability_le_probability (hv : v ∈ scores) (hw : w ∈ scores)
    (hle : v ≤ w) : probability exp scores v ≤ probability exp scores w := by
  obtain ⟨htotal, hall⟩ := hexp.within_total h
  have hpower := hexp.within_power h hv
  have hpower' := hexp.within_power h hw
  rw [single_le_iff_value (hexp.within_probability h hv).isFinite
    (hexp.within_probability h hw).isFinite]
  exact value_div_le_div hpower.isFinite hpower'.isFinite htotal.isFinite hpower.ge
    (hexp.power_le_power h hv hw hle) (hall w hw) (one_pos.trans_le htotal.ge)

/-- The probability of the largest score is not rounded to zero. -/
theorem IsExponential.value_probability_maximum_pos :
    0 < value (probability exp scores (maximum scores)) := by
  obtain ⟨htotal, hall⟩ := hexp.within_total h
  have hpos : 0 < value (total exp scores) := one_pos.trans_le htotal.ge
  have hpower := hexp.value_power_maximum h
  have hlower : (2 : ℚ) ^ (-25 : Int) ≤ 1 / value (total exp scores) := by
    rw [le_div_iff₀ hpos]
    have := htotal.le
    norm_num
    linarith
  have hwithin := within_div (hexp.within_power h h.maximum_mem.1).isFinite htotal.isFinite
    (storable_two_zpow (by norm_num) (by norm_num)) storable_one hpos.ne' (hpower ▸ hlower)
    ((div_le_one hpos).2 (hall _ h.maximum_mem.1))
  exact (two_zpow_pos _).trans_le hwithin.ge

/-- If no power is a negative zero, no probability is. -/
theorem IsExponential.unsigned_probability (hsign : ∀ v, exp v ≠ -0.0) (hv : v ∈ scores) :
    Unsigned (probability exp scores v) := by
  obtain ⟨htotal, hall⟩ := hexp.within_total h
  have hpos : 0 < value (total exp scores) := one_pos.trans_le htotal.ge
  have hpower := hexp.within_power h hv
  have hne : total exp scores ≠ -0.0 := by
    intro heq
    rw [heq] at hpos
    exact lt_irrefl _ hpos
  exact unsigned_div (unsigned_of_ne hpower.isFinite hpower.ge (hsign _))
    (unsigned_of_ne htotal.isFinite hpos.le hne) hpos.ne'
    (abs_div_le_largest hpower.ge (hall v hv) hpos)

end

/-! ## Sorted classes -/

theorem before_iff {a b : Ranked} : a.before b = true ↔
    orderKey b.probability < orderKey a.probability ∨
      orderKey a.probability = orderKey b.probability ∧ a.label ≤ b.label := by
  simp [Ranked.before]

theorem before_trans (a b c : Ranked) (hab : a.before b = true) (hbc : b.before c = true) :
    a.before c = true := by
  rw [before_iff] at *
  omega

theorem before_total (a b : Ranked) : (a.before b || b.before a) = true := by
  rw [Bool.or_eq_true, before_iff, before_iff]
  omega

variable {exp : Float32 → Float32} {scores : List Float32} {e : Ranked}

theorem pairwise_rankAll (exp : Float32 → Float32) (scores : List Float32) :
    (rankAll exp scores).Pairwise fun a b => a.before b = true :=
  List.pairwise_mergeSort before_trans before_total _

theorem rankAll_perm (exp : Float32 → Float32) (scores : List Float32) :
    (rankAll exp scores).Perm
      ((softmax exp scores).zipIdx.map fun (p, label) => Ranked.mk label p) :=
  List.mergeSort_perm _ _

theorem length_rankAll (exp : Float32 → Float32) (scores : List Float32) :
    (rankAll exp scores).length = scores.length := by
  rw [(rankAll_perm exp scores).length_eq, softmax_eq]
  simp

/-- All classes are listed, each once. -/
theorem labels_rankAll_perm (exp : Float32 → Float32) (scores : List Float32) :
    ((rankAll exp scores).map (·.label)).Perm (List.range scores.length) := by
  refine ((rankAll_perm exp scores).map _).trans (List.Perm.of_eq ?_)
  rw [softmax_eq, List.map_map]
  show List.map Prod.snd _ = _
  simp [List.range_eq_range']

/-- The probability of a class. -/
def classProbability (exp : Float32 → Float32) (scores : List Float32) (c : Nat) : Float32 :=
  (softmax exp scores).getD c 0

theorem classProbability_eq {c : Nat} (hc : c < scores.length) :
    classProbability exp scores c = probability exp scores scores[c] := by
  simp [classProbability, softmax_eq, hc]

theorem mem_rankAll_iff : e ∈ rankAll exp scores ↔
    e.label < scores.length ∧ e.probability = classProbability exp scores e.label := by
  have hlength : (softmax exp scores).length = scores.length := by simp [softmax_eq]
  rw [(rankAll_perm exp scores).mem_iff, List.mem_map, classProbability, ← hlength]
  constructor
  · rintro ⟨⟨p, label⟩, hmem, rfl⟩
    obtain ⟨hlabel, hp⟩ := List.getElem?_eq_some_iff.1 (List.mem_zipIdx_iff_getElem?.1 hmem)
    exact ⟨hlabel, by simpa [hlabel] using hp.symm⟩
  · rintro ⟨hlabel, hp⟩
    refine ⟨(e.probability, e.label), List.mem_zipIdx_iff_getElem?.2 ?_, rfl⟩
    rw [List.getElem?_eq_getElem hlabel, hp]
    simp [hlabel]

/-- A list of the `k` most probable of `n` classes with the given probabilities: equally probable
ones are listed in ascending order. -/
structure IsRanking (probability : Nat → Float32) (n k : Nat) (ranked : List Ranked) : Prop where
  length_eq : ranked.length = min k n
  distinct : (ranked.map (·.label)).Nodup
  entry : ∀ e ∈ ranked, e.label < n ∧ e.probability = probability e.label
  bounded : ∀ e ∈ ranked, 0.0 ≤ e.probability ∧ e.probability ≤ 1.0
  ordered : ranked.Pairwise fun a b => b.probability ≤ a.probability
  ties : ranked.Pairwise fun a b => a.probability = b.probability → a.label < b.label

theorem le_of_before {a b : Ranked} (ha : a.probability.isFinite = true)
    (hb : b.probability.isFinite = true) (h : a.before b = true) :
    b.probability ≤ a.probability := by
  refine single_le_of_not_lt (isNaN_of_isFinite ha) (isNaN_of_isFinite hb) fun hlt => ?_
  have hkey := orderKey_lt ha hb ((single_lt_iff_value ha hb).1 hlt)
  rcases before_iff.1 h with hless | ⟨heq, -⟩
  · omega
  · omega

section

variable (hexp : IsExponential exp) (h : Rankable scores)
include hexp h

theorem within_of_mem_rankAll (he : e ∈ rankAll exp scores) : Within 0 1 e.probability := by
  obtain ⟨hlabel, hp⟩ := mem_rankAll_iff.1 he
  rw [hp, classProbability_eq hlabel]
  exact hexp.within_probability h (List.getElem_mem hlabel)

/-- **The first `k` classes of the full ranking are the `k` most probable ones.** -/
theorem isRanking_take (k : Nat) :
    IsRanking (classProbability exp scores) scores.length k ((rankAll exp scores).take k) := by
  have hmem : ∀ e ∈ (rankAll exp scores).take k, e ∈ rankAll exp scores :=
    fun e => List.mem_of_mem_take
  have hsorted : ((rankAll exp scores).take k).Pairwise fun a b => a.before b = true :=
    (pairwise_rankAll exp scores).sublist (List.take_sublist k _)
  have hdistinct : (((rankAll exp scores).take k).map (·.label)).Nodup :=
    ((labels_rankAll_perm exp scores).nodup_iff.2 List.nodup_range).sublist
      ((List.take_sublist k _).map _)
  refine ⟨by rw [List.length_take, length_rankAll], hdistinct,
    fun e he => mem_rankAll_iff.1 (hmem e he), fun e he => ?_,
    hsorted.imp_of_mem fun {a b} ha hb hbefore => ?_, ?_⟩
  · have hwithin := within_of_mem_rankAll hexp h (hmem e he)
    exact ⟨(single_le_iff_value rfl hwithin.isFinite).2 hwithin.ge,
      (single_le_iff_value hwithin.isFinite rfl).2 (hwithin.le.trans value_one.ge)⟩
  · exact le_of_before (within_of_mem_rankAll hexp h (hmem a ha)).isFinite
      (within_of_mem_rankAll hexp h (hmem b hb)).isFinite hbefore
  · have hne : ((rankAll exp scores).take k).Pairwise fun a b => a.label ≠ b.label :=
      List.pairwise_map.1 hdistinct
    refine (hsorted.and hne).imp fun {a b} ⟨hbefore, hne⟩ heq => ?_
    have hkeys : orderKey a.probability = orderKey b.probability := congrArg orderKey heq
    rcases before_iff.1 hbefore with hless | ⟨-, hle⟩
    · omega
    · omega

/-- A class with the largest score has the largest probability, and one that is not rounded to
zero. -/
theorem classProbability_le {c : Nat} (hc : c < scores.length)
    (hgreatest : ∀ v ∈ scores, v ≤ scores[c]) :
    0 < value (classProbability exp scores c) ∧ ∀ d < scores.length,
      classProbability exp scores d ≤ classProbability exp scores c := by
  have hmem : scores[c] ∈ scores := List.getElem_mem hc
  have hle : ∀ v ∈ scores, probability exp scores v ≤ classProbability exp scores c := by
    intro v hv
    rw [classProbability_eq hc]
    exact hexp.probability_le_probability h hv hmem (hgreatest v hv)
  refine ⟨?_, fun d hd => ?_⟩
  · have hmax := h.maximum_mem.1
    have hwithin := hexp.within_probability h hmem
    have hvalue := (single_le_iff_value (hexp.within_probability h hmax).isFinite
      (classProbability_eq hc ▸ hwithin.isFinite)).1 (hle _ hmax)
    exact (hexp.value_probability_maximum_pos h).trans_le hvalue
  · rw [classProbability_eq hd]
    exact hle _ (List.getElem_mem hd)

/-- The first class that is listed has the largest probability, so it is the given one with that
probability unless a lower class has it as well. -/
theorem head_rankAll {c : Nat} (hc : c < scores.length)
    (hgreatest : ∀ v ∈ scores, v ≤ scores[c])
    (hleast : ∀ d < c, classProbability exp scores d ≠ classProbability exp scores c) :
    (rankAll exp scores).head?.map (·.label) = some c := by
  obtain ⟨hpos, hall⟩ := classProbability_le hexp h hc hgreatest
  have htop : ⟨c, classProbability exp scores c⟩ ∈ rankAll exp scores :=
    mem_rankAll_iff.2 ⟨hc, rfl⟩
  have hsorted := pairwise_rankAll exp scores
  cases hlist : rankAll exp scores with
  | nil =>
    rw [hlist] at htop
    cases htop
  | cons e rest =>
    have he : e ∈ rankAll exp scores := hlist ▸ List.mem_cons_self
    have hfinite := (within_of_mem_rankAll hexp h he).isFinite
    have hfinite' := (within_of_mem_rankAll hexp h htop).isFinite
    obtain ⟨hlabel, hprobability⟩ := mem_rankAll_iff.1 he
    rw [hlist] at htop hsorted
    show some e.label = some c
    rcases List.mem_cons.1 htop with rfl | hrest
    · rfl
    · have hbefore := (List.pairwise_cons.1 hsorted).1 _ hrest
      -- neither probability exceeds the other, so they are the same number
      have hge := (single_le_iff_value hfinite' hfinite).1 (le_of_before hfinite hfinite' hbefore)
      have hle := (single_le_iff_value hfinite hfinite').1 (hprobability ▸ hall _ hlabel)
      have hsame : classProbability exp scores c = e.probability :=
        eq_of_value hfinite' hfinite (le_antisymm hge hle) hpos.ne'
      have hne : ¬ e.label < c := fun hlt => hleast _ hlt (hprobability.symm.trans hsame.symm)
      rcases before_iff.1 hbefore with hless | ⟨-, hlabels⟩
      · exact absurd hless (congrArg orderKey hsame).not_lt
      · exact congrArg some (le_antisymm hlabels (not_lt.1 hne))

end

/-! ## Rankings and outcomes -/

theorem ranking_eq {output : Tensor} (hscores : classScores output = .ok scores) (k : Nat) :
    ranking exp output k = .ok ((rankAll exp scores).take k) := by
  rw [ranking, hscores]
  rfl

/-- A ranking fails exactly if there is no top class, with the same failure. -/
theorem ranking_eq_error_iff {output : Tensor} {k : Nat} {failure : Failure} :
    ranking exp output k = .error failure ↔ topClass output = .error failure := by
  unfold ranking topClass
  cases classScores output with
  | ok scores => simp [Except.map]
  | error failure' => simp [Except.map]

namespace Classification

open Session

variable {σ : Type}

/-- The judgement of an answer, if no ranking is reported. -/
def judgeUnranked (job : Job) (output : Tensor) : Run σ Prediction := do
  let forward ← measure
  let device := (← get).network.device
  meter (·.recordSuccess (recorder job.model device) forward.seconds)
  let label ← ofExcept (topClass output)
  pure ⟨label, forward⟩

/-- The class of an image, if no ranking is reported. -/
def classifyUnranked [Resizer] (job : Job) (image : Raster) : Run σ Prediction := do
  let output ← infer (← prepare job.model.transform image)
  judgeUnranked job output

/-- Two runs have the same result and leave the same session, reported events aside. -/
def SameOutcome {α : Type} (r r' : Except Fault α × Session σ) : Prop :=
  r.1 = r'.1 ∧ { r.2 with reported := [] } = { r'.2 with reported := [] }

theorem judgeUnranked_apply (job : Job) (output : Tensor) (s : Session σ) :
    judgeUnranked job output s =
      (do
        let label ← ofExcept (topClass output)
        pure ⟨label, s.clock s.measured⟩ : Run σ Prediction)
      { s with
        measured := s.measured + 1
        metrics := s.metrics.recordSuccess (recorder job.model s.network.device)
          (s.clock s.measured).seconds } := rfl

theorem judge_sameOutcome (job : Job) (output : Tensor) (s : Session σ) :
    SameOutcome (judge job output s) (judgeUnranked job output s) := by
  rw [judge_apply, judgeUnranked_apply]
  cases hscores : classScores output with
  | error failure =>
    have htop : topClass output = .error failure := by
      rw [topClass, hscores]
      rfl
    rw [htop]
    exact ⟨rfl, rfl⟩
  | ok scores =>
    rw [topClass_eq hscores]
    generalize (leader (scores.getD · 0) scores.length).1 = label
    generalize Session.mk s.files _ _ _ _ _ _ _ = u
    have hread : (Session.ofExcept (.ok label) : Run σ Nat) u = (.ok label, u) := rfl
    obtain ⟨reported, hreport⟩ := reportPrediction_of_readable job hscores label u
    rw [bind_ok hread, bind_ok hread, bind_ok hreport]
    exact ⟨rfl, rfl⟩

/-- **Reporting the ranking does not change what becomes of an image.** -/
theorem classifyImage_sameOutcome [Resizer] (job : Job) (image : Raster) (s : Session σ) :
    SameOutcome (classifyImage job image s) (classifyUnranked job image s) := by
  have hranked : classifyImage job image s =
      ((prepare job.model.transform image >>= infer) >>= judge job : Run σ Prediction) s := by
    rw [bind_assoc]
    rfl
  have hunranked : classifyUnranked job image s =
      ((prepare job.model.transform image >>= infer) >>= judgeUnranked job :
        Run σ Prediction) s := by
    rw [bind_assoc]
    rfl
  rw [hranked, hunranked]
  generalize (prepare job.model.transform image >>= infer : Run σ Tensor) = body
  rw [bind_apply, bind_apply]
  rcases body s with ⟨fault | output, t⟩
  · exact ⟨rfl, rfl⟩
  · exact judge_sameOutcome job output t

end Classification

open Classification in
/-- **What a ranking says.** A ranking fails exactly if there is no top class, with the same
failure, so reporting it does not change what becomes of an image. If the exponential is monotone
and right at zero and at negative infinity, and every score is finite or negative infinity and some
score is finite, then the ranking has as many of the classes as it is asked for, each once, with
probabilities between zero and one that do not increase; equally probable ones are in ascending
order. It is the beginning of the full ranking. A larger score has no smaller probability, and the
top class has the largest one, so it is listed first unless a lower class has the same. As long as
no power is a negative zero, probabilities that compare as equal are the same. -/
theorem ranking_by_probability [Resizer] (exp : Float32 → Float32) :
    (∀ output k failure,
      ranking exp output k = .error failure ↔ topClass output = .error failure) ∧
    (∀ {σ : Type} (job : Job) (image : Raster) (s : Session σ),
      SameOutcome (classifyImage job image s) (classifyUnranked job image s)) ∧
    (IsExponential exp → ∀ output scores, classScores output = .ok scores → Rankable scores →
      ∃ full c, ranking exp output scores.length = .ok full ∧ topClass output = .ok c ∧
        (∀ k, ∃ ranked, ranking exp output k = .ok ranked ∧ ranked = full.take k ∧
          IsRanking (classProbability exp scores) scores.length k ranked ∧
          (0 < k → (∀ d < c, classProbability exp scores d ≠ classProbability exp scores c) →
            ranked.head?.map (·.label) = some c)) ∧
        (∀ d < scores.length, ∀ d' < scores.length, scores.getD d 0 ≤ scores.getD d' 0 →
          classProbability exp scores d ≤ classProbability exp scores d') ∧
        (c < scores.length ∧ ∀ d < scores.length,
          classProbability exp scores d ≤ classProbability exp scores c) ∧
        ((∀ v, exp v ≠ -0.0) → ∀ d < scores.length, ∀ d' < scores.length,
          (classProbability exp scores d == classProbability exp scores d') = true →
          classProbability exp scores d = classProbability exp scores d')) := by
  refine ⟨fun output k failure => ranking_eq_error_iff,
    fun job image s => classifyImage_sameOutcome job image s,
    fun hexp output scores hscores h => ?_⟩
  have hread : ∀ {d : Nat} (hd : d < scores.length), scores.getD d 0 = scores[d] :=
    fun hd => List.getD_eq_getElem _ _ hd
  -- some score is above negative infinity, so the top class is the best
  have hbest : Best (scores.getD · 0) scores.length (leader (scores.getD · 0) scores.length).1 := by
    rcases labels_leader (scores.getD · 0) scores.length with hbest | ⟨-, hlow⟩
    · exact hbest
    · obtain ⟨v, hv, hfinite⟩ := h.finite
      obtain ⟨d, hd, rfl⟩ := List.getElem_of_mem hv
      have habove : lowest < scores.getD d 0 := (hread hd).symm ▸ lowest_lt hfinite
      exact absurd habove (hlow d hd)
  have htop := topClass_eq hscores
  generalize (leader (scores.getD · 0) scores.length).1 = c at *
  have hc := hbest.isClass
  have hgreatest : ∀ v ∈ scores, v ≤ scores[c] := by
    intro v hv
    obtain ⟨d, hd, rfl⟩ := List.getElem_of_mem hv
    have hle := hbest.greatest d hd (hread hd ▸ h.isNaN hv)
    rwa [hread hd, hread hc] at hle
  refine ⟨rankAll exp scores, c, ?_, htop, fun k => ?_, fun d hd d' hd' hle => ?_,
    ⟨hc, (classProbability_le hexp h hc hgreatest).2⟩, fun hsign d hd d' hd' heq => ?_⟩
  · rw [ranking_eq hscores, ← length_rankAll exp scores, List.take_length]
  · refine ⟨_, ranking_eq hscores k, rfl, isRanking_take hexp h k, fun hk hleast => ?_⟩
    rw [List.head?_take, if_neg hk.ne']
    exact head_rankAll hexp h hc hgreatest hleast
  · rw [hread hd, hread hd'] at hle
    rw [classProbability_eq hd, classProbability_eq hd']
    exact hexp.probability_le_probability h (List.getElem_mem hd) (List.getElem_mem hd') hle
  · rw [classProbability_eq hd, classProbability_eq hd'] at *
    have hleft := hexp.unsigned_probability h hsign (List.getElem_mem hd)
    have hright := hexp.unsigned_probability h hsign (List.getElem_mem hd')
    exact hleft.eq hright ((single_beq_iff_value hleft.isFinite hright.isFinite).1 heq)

/-- A function that is right about the exponential at `0`, at `-1` and below `-104`. -/
def stepExp (v : Float32) : Float32 :=
  if v < -104.0 then 0.0 else if v < 0.0 then Float32.ofBits 0x3ebc5ab2 else 1.0

theorem isExponential_stepExp : IsExponential stepExp where
  mono {a b} h := by
    have hbelow : ∀ {c}, b < c → a < c := single_lt_of_le_of_lt h
    unfold stepExp
    split_ifs with ha hb hb' ha' hb hb' hb hb'
    all_goals first
      | decide +kernel
      | exact absurd (hbelow ‹_›) ‹_›
  zero := by decide +kernel
  lowest := by decide +kernel

/-- Scores with a tie, one whose power is rounded to zero, and negative infinity. -/
def fiveScores : Tensor :=
  ⟨[1, 5], #[2.0, 3.0, 2.0, -197.0, lowest], rfl⟩

theorem rankable_fiveScores : Rankable fiveScores.data.toList := by
  constructor
  · decide +kernel
  · decide +kernel

/-- With a tie and with probabilities that are zero; the top class is listed first. -/
theorem ranking_by_probability_five :
    (∃ failure, ranking stepExp ⟨[2, 1], #[2.0, 3.0], rfl⟩ 3 = .error failure) ∧
    ∃ ranked, ranking stepExp fiveScores 3 = .ok ranked ∧
      IsRanking (classProbability stepExp fiveScores.data.toList) 5 3 ranked ∧
      ranked.head?.map (·.label) = some 1 ∧
      classProbability stepExp fiveScores.data.toList 0 =
        classProbability stepExp fiveScores.data.toList 2 ∧
      classProbability stepExp fiveScores.data.toList 3 ≤
        classProbability stepExp fiveScores.data.toList 2 := by
  obtain ⟨hfails, -, hranks⟩ := ranking_by_probability stepExp
  obtain ⟨full, c, -, htop, hlists, hmono, -, hties⟩ :=
    hranks isExponential_stepExp fiveScores _ rfl rankable_fiveScores
  obtain ⟨ranked, hranked, -, hranking, hfirst⟩ := hlists 3
  have hleader : (leader (fiveScores.data.toList.getD · 0) 5).1 = 1 := by decide +kernel
  obtain rfl : c = 1 := by
    have hscores : classScores fiveScores = .ok fiveScores.data.toList := rfl
    rw [topClass_eq hscores] at htop
    exact (Except.ok.inj htop).symm.trans hleader
  have hsign : ∀ v, stepExp v ≠ -0.0 := by
    intro v
    unfold stepExp
    split_ifs
    · decide +kernel
    · decide +kernel
    · decide +kernel
  refine ⟨⟨_, (hfails _ _ _).2 rfl⟩, ranked, hranked, hranking, hfirst (by decide) ?_, ?_, ?_⟩
  · decide +kernel
  · exact hties hsign 0 (by decide) 2 (by decide) (by decide +kernel)
  · exact hmono 3 (by decide) 2 (by decide) (by decide +kernel)

end ImageLabeling
