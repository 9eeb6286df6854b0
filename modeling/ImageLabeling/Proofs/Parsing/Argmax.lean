import ImageLabeling.Parsing.LabelMap
import ImageLabeling.Proofs.Number.Order

/-!
# The class of a pixel

The classes of a label map are chosen plane by plane. Seen from one pixel they are offered one
after the other (`choice`), and the one that is chosen leads (`choice_eq_leader`). Among several
classes that share the highest score the order decides: the label is the least of them
(`labels_ofScores`). A class that alone has the highest score is the label wherever it stands in the
order (`label_of_leads`).
-/

namespace ImageLabeling

open Number

/-- Class `c` alone has the highest score at a pixel, scores that are NaN aside, and its score is
above negative infinity. -/
structure Scores.Leads (s : Scores) (c y x : Nat) : Prop where
  isClass : c < s.classes
  above : lowest < s.score c y x
  beats : ∀ d < s.classes, d ≠ c → (s.score d y x).isNaN ∨ s.score d y x < s.score c y x

instance (s : Scores) (c y x : Nat) : Decidable (s.Leads c y x) :=
  decidable_of_iff (c < s.classes ∧ lowest < s.score c y x ∧
      ∀ d < s.classes, d ≠ c → (s.score d y x).isNaN ∨ s.score d y x < s.score c y x)
    ⟨fun ⟨isClass, above, beats⟩ => ⟨isClass, above, beats⟩,
      fun ⟨isClass, above, beats⟩ => ⟨isClass, above, beats⟩⟩

namespace LabelMap

variable {s : Scores} {c y x : Nat}

/-! ## One pixel -/

/-- The choice for one pixel, whose score in class `c` is `f c`, after the first `n` classes. -/
def choice (f : Nat → Float32) : Nat → Choice
  | 0 => .none
  | n + 1 => (choice f n).offer n (f n)

/-- The planes are chosen from pixel by pixel. -/
theorem choices_pixel (s : Scores) (n : Nat) (hy : y < s.height) (hx : x < s.width) :
    (choices s n)[y * s.width + x]? = some (choice (s.score · y x) n) := by
  have hplace : y * s.width + x < s.height * s.width := digit_lt hy hx
  induction n with
  | zero => simp [choices, choice, hplace]
  | succ n ih =>
    have hscore : s.data.getD (n * (s.height * s.width) + (y * s.width + x)) 0 = s.score n y x := by
      rw [Scores.score, Nat.add_mul, Nat.mul_assoc, Nat.add_assoc]
    rw [choices, offerPlane, Array.getElem?_mapIdx, ih, Option.map_some, hscore, choice]

theorem label_ofScores (s : Scores) (hy : y < s.height) (hx : x < s.width) :
    (ofScores s).label y x = (choice (s.score · y x) s.classes).label := by
  show ((choices s s.classes).map Choice.label).getD (y * s.width + x) 0 = _
  rw [Array.getD_eq_getD_getElem?, Array.getElem?_map, choices_pixel s _ hy hx, Option.map_some,
    Option.getD_some]

/-! ## The least of the best classes -/

/-- Of the first `n` classes, `c` is the least with the highest score, scores that are NaN aside,
and its score is above negative infinity. -/
structure Best (f : Nat → Float32) (n c : Nat) : Prop where
  isClass : c < n
  above : lowest < f c
  greatest : ∀ d < n, (f d).isNaN = false → f d ≤ f c
  least : ∀ d < c, (f d).isNaN = false → f d < f c

variable {f : Nat → Float32} {n : Nat}

/-- Above all classes before it, the next class is the best. -/
theorem best_succ (habove : lowest < f n) (hbelow : ∀ d < n, (f d).isNaN = false → f d < f n) :
    Best f (n + 1) n where
  isClass := Nat.lt_succ_self n
  above := habove
  greatest d hd hnan := by
    rcases Nat.lt_succ_iff_lt_or_eq.1 hd with hlt | rfl
    · exact single_le_of_lt (hbelow d hlt hnan)
    · exact single_le_refl hnan
  least := hbelow

/-- The best class stays the best unless the next one is above it. -/
theorem Best.succ (h : Best f n c) (hnext : ¬ f c < f n) : Best f (n + 1) c where
  isClass := Nat.lt_succ_of_lt h.isClass
  above := h.above
  greatest d hd hnan := by
    rcases Nat.lt_succ_iff_lt_or_eq.1 hd with hlt | rfl
    · exact h.greatest d hlt hnan
    · exact single_le_of_not_lt (single_lt_iff.1 h.above).2.1 hnan hnext
  least := h.least

/-- The class that leads after the first `n` classes, of any number, and its score. -/
def leader (f : Nat → Float32) : Nat → Nat × Float32
  | 0 => (0, lowest)
  | n + 1 => if (leader f n).2 < f n then (n, f n) else leader f n

/-- The leader of the first classes is the best of them, or the first one if none is above negative
infinity. -/
theorem leader_cases (f : Nat → Float32) (n : Nat) :
    (leader f n = (0, lowest) ∧ ∀ d < n, ¬ lowest < f d) ∨
      ∃ c, leader f n = (c, f c) ∧ Best f n c := by
  induction n with
  | zero => exact .inl ⟨rfl, fun d hd => absurd hd (Nat.not_lt_zero d)⟩
  | succ n ih =>
    rw [leader]
    rcases ih with ⟨hnone, hlow⟩ | ⟨c, hleader, hbest⟩
    · rw [hnone]
      split
      case isTrue habove =>
        refine .inr ⟨n, rfl, best_succ habove fun d hd hnan => ?_⟩
        exact single_lt_of_le_of_lt (single_le_of_not_lt (by decide) hnan (hlow d hd)) habove
      case isFalse habove =>
        refine .inl ⟨rfl, fun d hd => ?_⟩
        rcases Nat.lt_succ_iff_lt_or_eq.1 hd with hlt | rfl
        · exact hlow d hlt
        · exact habove
    · rw [hleader]
      split
      case isTrue hless =>
        have habove := single_lt_of_le_of_lt (single_le_of_lt hbest.above) hless
        refine .inr ⟨n, rfl, best_succ habove fun d hd hnan => ?_⟩
        exact single_lt_of_le_of_lt (hbest.greatest d hd hnan) hless
      case isFalse hless => exact .inr ⟨c, rfl, hbest.succ hless⟩

/-- What is chosen for a pixel is the leader, whose class is kept in a byte. -/
theorem choice_eq_leader (f : Nat → Float32) (n : Nat) :
    choice f n = ⟨UInt8.ofNat (leader f n).1, (leader f n).2⟩ := by
  induction n with
  | zero => rfl
  | succ n ih =>
    rw [choice, leader, ih, Choice.offer]
    split
    · rfl
    · rfl

/-- The label of a pixel with these scores: the best class, or the first one if no score is above
negative infinity. -/
def Labels (f : Nat → Float32) (n c : Nat) : Prop :=
  Best f n c ∨ c = 0 ∧ ∀ d < n, ¬ lowest < f d

theorem Labels.lt (h : Labels f n c) (hn : 0 < n) : c < n := by
  rcases h with hbest | ⟨rfl, -⟩
  · exact hbest.isClass
  · exact hn

theorem Labels.congr {g : Nat → Float32} (h : Labels f n c) (hfg : ∀ d < n, f d = g d) :
    Labels g n c := by
  rcases h with hbest | ⟨rfl, hlow⟩
  · have hc := hfg c hbest.isClass
    refine .inl ⟨hbest.isClass, hc ▸ hbest.above, fun d hd hnan => ?_, fun d hd hnan => ?_⟩
    · rw [← hfg d hd] at hnan ⊢
      exact hc ▸ hbest.greatest d hd hnan
    · rw [← hfg d (hd.trans hbest.isClass)] at hnan ⊢
      exact hc ▸ hbest.least d hd hnan
  · exact .inr ⟨rfl, fun d hd => hfg d hd ▸ hlow d hd⟩

/-- The leader of the first classes is the label that their scores ask for. -/
theorem labels_leader (f : Nat → Float32) (n : Nat) : Labels f n (leader f n).1 := by
  rcases leader_cases f n with ⟨hnone, hlow⟩ | ⟨c, hleader, hbest⟩
  · exact .inr ⟨by rw [hnone], hlow⟩
  · exact .inl (by rwa [hleader])

/-- The label of a pixel is the class of the leader, reduced to a byte. -/
theorem toNat_label_ofScores (s : Scores) (hy : y < s.height) (hx : x < s.width) :
    ((ofScores s).label y x).toNat = (leader (s.score · y x) s.classes).1 % 256 := by
  rw [label_ofScores s hy hx, choice_eq_leader]
  exact UInt8.toNat_ofNat

/-- **The label of a pixel is the least class with the highest score.** -/
theorem labels_ofScores (s : Scores) (hy : y < s.height) (hx : x < s.width)
    (hbyte : s.classes ≤ 256) :
    Labels (s.score · y x) s.classes ((ofScores s).label y x).toNat := by
  have hleader := labels_leader (s.score · y x) s.classes
  have hlt : (leader (s.score · y x) s.classes).1 < 256 := by
    rcases hleader with hbest | ⟨hzero, -⟩
    · exact hbest.isClass.trans_le hbyte
    · omega
  rwa [toNat_label_ofScores s hy hx, Nat.mod_eq_of_lt hlt]

/-- A class that is above all others, scores that are NaN aside, is the label. -/
theorem Labels.eq_of_beats {l : Nat} (h : Labels f n l) (hc : c < n) (habove : lowest < f c)
    (hbeats : ∀ d < n, d ≠ c → (f d).isNaN ∨ f d < f c) : l = c := by
  rcases h with hbest | ⟨-, hlow⟩
  · by_contra hne
    rcases hbeats l hbest.isClass hne with hnan | hlt
    · exact single_not_lt_of_isNaN _ hnan hbest.above
    · have hle := hbest.greatest c hc (single_lt_iff.1 habove).2.1
      exact single_not_lt_of_le hle hlt
  · exact absurd habove (hlow c hc)

/-- **The class that alone has the highest score is the label.** -/
theorem label_of_leads (h : s.Leads c y x) (hy : y < s.height) (hx : x < s.width)
    (hbyte : s.classes ≤ 256) : ((ofScores s).label y x).toNat = c :=
  (labels_ofScores s hy hx hbyte).eq_of_beats h.isClass h.above h.beats

end LabelMap

end ImageLabeling
