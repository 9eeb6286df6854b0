import ImageLabeling.Proofs.Classification.Opening
import ImageLabeling.Proofs.Parsing.Opening

/-!
# What ends a run

A run of either kind fails only while it is opened (`fatal_only_at_start`): before its first image
is fed to the network, before anything is measured, and before any file is written.
-/

namespace ImageLabeling

open Session

/-- **A run is fatal only before its first image.** A parsing run that does not crash fails exactly
if its output directory cannot be made, its source does not resolve or its timing log cannot be
created, and a classification run exactly if its timing log cannot be created. The network has been
fed nothing then, nothing has been measured, and no file has been created or changed. Any failure of
an image is counted. -/
theorem fatal_only_at_start [Resizer] :
    (∀ {σ : Type} (job : Parsing.Job) (source : Source) (s t : Session σ)
      (r : Except Fault Parsing.Summary), Parsing.run job source s = (r, t) →
      (∀ crash, r ≠ .error (.crash crash)) → Parsing.Ending job source s r t) ∧
    ∀ {σ : Type} (job : Classification.Job) (images : List FilePath) (timingLog : FilePath)
      (s t : Session σ) (r : Except Fault Classification.Summary),
      Classification.run job images timingLog s = (r, t) →
      (∀ crash, r ≠ .error (.crash crash)) → Classification.Ending job images timingLog s r t :=
  ⟨fun _ _ _ _ _ h hcrash => Parsing.ending_of_run h hcrash,
    fun _ _ _ _ _ _ h hcrash => Classification.ending_of_run h hcrash⟩

/-- In the session with one picture whose second result cannot be written, a run over a missing list
fails, a run over the picture counts it, and a classification run cannot have a directory as its
timing log. -/
theorem fatal_only_at_start_blocked :
    (∃ failure t, Parsing.run Parsing.plainJob (.list (.ofString "list") ⟨[]⟩)
        Parsing.blockedSession = (.error (.failure failure), t) ∧
      Idle Parsing.blockedSession t ∧ Parsing.blockedSession.files.Deepened t.files) ∧
    (∃ summary t, Parsing.run Parsing.plainJob (.single (.ofString "x.png"))
        Parsing.blockedSession = (.ok summary, t) ∧
      summary.failed = 1 ∧
      (Parsing.runTurns Parsing.plainJob (.single (.ofString "x.png"))
        Parsing.blockedSession).countP
          (fun turn => Parsing.processed Parsing.plainJob turn = false) = 1) ∧
    ∃ t, Classification.run ⟨.resNet, 5, Float32.exp⟩ [.ofString "x.png"] (.ofString "out")
        Parsing.blockedSession = (.error (.failure (.noTimingLog (.ofString "out"))), t) ∧
      Idle Parsing.blockedSession t ∧ t.files = Parsing.blockedSession.files := by
  obtain ⟨hparsing, hclassification⟩ := fatal_only_at_start
  have hlist : (failure? (Parsing.run Parsing.plainJob (.list (.ofString "list") ⟨[]⟩))
      Parsing.blockedSession).isSome = true := by
    decide +kernel
  have hsingle : ends (fun summary _ => summary.failed == 1)
      (Parsing.run Parsing.plainJob (.single (.ofString "x.png"))) Parsing.blockedSession =
        true := by
    decide +kernel
  have hlog : (failure? (Classification.run ⟨.resNet, 5, Float32.exp⟩ [.ofString "x.png"]
      (.ofString "out")) Parsing.blockedSession).isSome = true := by
    decide +kernel
  refine ⟨?_, ?_, ?_⟩
  · obtain ⟨failure, hfailure⟩ := Option.isSome_iff_exists.1 hlist
    obtain ⟨t, hrun⟩ := failure?_inv hfailure
    obtain ⟨-, hidle, hfiles⟩ := (hparsing _ _ _ _ _ hrun (by rintro crash ⟨⟩)).fatal _ rfl
    exact ⟨failure, t, hrun, hidle, hfiles⟩
  · obtain ⟨summary, t, hrun, hfailed⟩ := ends_inv hsingle
    have hfailed : summary.failed = 1 := beq_iff_eq.1 hfailed
    obtain ⟨images, -, -, -, hcount⟩ :=
      (hparsing _ _ _ _ _ hrun (by rintro crash ⟨⟩)).complete _ rfl
    exact ⟨summary, t, hrun, hfailed, hcount.symm.trans hfailed⟩
  · obtain ⟨failure, hfailure⟩ := Option.isSome_iff_exists.1 hlog
    obtain ⟨t, hrun⟩ := failure?_inv hfailure
    obtain ⟨hfault, hidle, hfiles⟩ :=
      (hclassification _ _ _ _ _ _ hrun (by rintro crash ⟨⟩)).fatal _ rfl
    exact ⟨t, hfault ▸ hrun, hidle, hfiles⟩

end ImageLabeling
