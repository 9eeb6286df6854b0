import ImageLabeling.Metrics

/-!
# Growing measurements

During a run the measurements of one recorder grow (`Metrics.Grows`): every image adds a success or
a failure, and what is added by one part of a run and by the next adds up (`Grows.trans`).
-/

namespace ImageLabeling.Metrics

/-- One recorder has measured so many successes and failures more, and no other one anything. -/
structure Grows (recorder : Recorder) (successes failures : Nat) (m m' : Metrics) : Prop where
  images : (m'.of recorder).images = (m.of recorder).images + successes
  durations : (m'.of recorder).durations.count = (m.of recorder).durations.count + successes
  failures : (m'.of recorder).failures = (m.of recorder).failures + failures
  others : ∀ other, other ≠ recorder → m'.of other = m.of other

variable {recorder : Recorder} {a b c d : Nat} {m m' m'' : Metrics}

theorem Grows.refl (recorder : Recorder) (m : Metrics) : Grows recorder 0 0 m m :=
  ⟨rfl, rfl, rfl, fun _ _ => rfl⟩

theorem Grows.trans (h : Grows recorder a b m m') (h' : Grows recorder c d m' m'') :
    Grows recorder (a + c) (b + d) m m'' where
  images := by rw [h'.images, h.images, Nat.add_assoc]
  durations := by rw [h'.durations, h.durations, Nat.add_assoc]
  failures := by rw [h'.failures, h.failures, Nat.add_assoc]
  others other hother := (h'.others other hother).trans (h.others other hother)

theorem grows_recordSuccess (recorder : Recorder) (m : Metrics) (seconds : Float) :
    Grows recorder 1 0 m (m.recordSuccess recorder seconds) := by
  have hof := m.of_modify recorder
  refine ⟨?_, ?_, ?_, fun other hother => ?_⟩
  · rw [recordSuccess, hof, if_pos rfl]
  · rw [recordSuccess, hof, if_pos rfl]
    rfl
  · rw [recordSuccess, hof, if_pos rfl]
    rfl
  · rw [recordSuccess, hof, if_neg hother]

theorem grows_recordFailure (recorder : Recorder) (m : Metrics) :
    Grows recorder 0 1 m (m.recordFailure recorder) := by
  have hof := m.of_modify recorder
  refine ⟨?_, ?_, ?_, fun other hother => ?_⟩
  · rw [recordFailure, hof, if_pos rfl]
    rfl
  · rw [recordFailure, hof, if_pos rfl]
    rfl
  · rw [recordFailure, hof, if_pos rfl]
  · rw [recordFailure, hof, if_neg hother]

/-- A recorder grows by one number of successes and of failures only. -/
theorem Grows.unique (h : Grows recorder a b m m') (h' : Grows recorder c d m m') :
    a = c ∧ b = d := by
  have himages := h.images.symm.trans h'.images
  have hfailures := h.failures.symm.trans h'.failures
  exact ⟨Nat.add_left_cancel himages, Nat.add_left_cancel hfailures⟩

end ImageLabeling.Metrics
