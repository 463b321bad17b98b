import BladeTemplate.Token.Scan

/-!
# Runs of the reader

A run repeats steps until the text ends or a step fails. Whatever is to be shown of runs is shown
of their three ends: the end of the text, a step that fails, and a step followed by a run.

* `ScanState.run_induction` is that principle;
* `ScanState.run_of_ended`, `run_of_failed` and `run_of_stepped` are the equations behind it.
-/

namespace BladeTemplate

namespace ScanState

variable {dialect : Dialect} {s : ScanState}

theorem run_of_ended (ended : s.rest = []) : s.run dialect = s.finish := by
  rw [ScanState.run, dif_pos ended]

theorem run_of_failed (ahead : s.rest ≠ []) {fault : LexFault × Position}
    (failed : (s.step dialect).next = .error fault) :
    s.run dialect = .failed (s.step dialect) fault := by
  rw [ScanState.run, dif_neg ahead]
  split
  · next other h =>
    rw [failed] at h
    cases h
    rfl
  · next next h =>
    rw [failed] at h
    cases h

theorem run_of_stepped (ahead : s.rest ≠ []) {next : ScanState}
    (stepped : (s.step dialect).next = .ok next) :
    s.run dialect = .after (s.step dialect) (next.run dialect) := by
  rw [ScanState.run, dif_neg ahead]
  split
  · next fault h =>
    rw [stepped] at h
    cases h
  · next other h =>
    rw [stepped] at h
    cases h
    rfl

/-- What holds at the end of every text, of every failing step, and of every step whenever it holds
of the run after it, holds of every run. -/
theorem run_induction (dialect : Dialect) {P : ScanState → Scan → Prop}
    (ended : ∀ s : ScanState, s.rest = [] → P s s.finish)
    (failed : ∀ (s : ScanState) (fault : LexFault × Position), s.rest ≠ [] →
      (s.step dialect).next = .error fault → P s (.failed (s.step dialect) fault))
    (stepped : ∀ (s next : ScanState), s.rest ≠ [] → (s.step dialect).next = .ok next →
      P next (next.run dialect) → P s (.after (s.step dialect) (next.run dialect)))
    (s : ScanState) : P s (s.run dialect) := by
  induction s using ScanState.run.induct dialect with
  | case1 s atEnd =>
    rw [run_of_ended atEnd]
    exact ended s atEnd
  | case2 s ahead fault h =>
    rw [run_of_failed ahead h]
    exact failed s fault ahead h
  | case3 s ahead next h ih =>
    rw [run_of_stepped ahead h]
    exact stepped s next ahead h ih

end ScanState

end BladeTemplate
