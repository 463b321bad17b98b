import BladeTemplate.Proofs.AnyFile
import BladeTemplate.Proofs.Run
import BladeTemplate.Proofs.Verdict

/-!
# What a check takes from its surroundings

A check prints and compares as its own configuration says, and reads the result with the registry
of that configuration. The rest of how the result is read is up to the configuration that is
active: whether it may start with front matter, and which directives there are if the check has no
registry of its own. Nothing else about the surroundings reaches the verdict.

* `Dialect.reporting` changes what is reported while reading, and `parse_reporting` says that the
  tree is the same;
* `Stability.judge` is what a check makes of the result once it is read;
* `verdict_of_surroundings` is the statement for checks.
-/

namespace BladeTemplate

/-- The dialect with unregistered directives reported or not. -/
def Dialect.reporting (dialect : Dialect) (reportUnknown : Bool) : Dialect :=
  { dialect with reportUnknown }

/-! ## Reading without regard to reports -/

namespace ScanState

variable (dialect : Dialect) (flag : Bool) (s : ScanState)

theorem stepDirectiveHead_reporting :
    (s.stepDirectiveHead (dialect.reporting flag)).tokens = (s.stepDirectiveHead dialect).tokens ∧
      (s.stepDirectiveHead (dialect.reporting flag)).next =
        (s.stepDirectiveHead dialect).next := by
  have registry : (dialect.reporting flag).registry = dialect.registry := rfl
  simp only [stepDirectiveHead, registry]
  split <;> exact ⟨rfl, rfl⟩

/-- What a step reads does not depend on what it reports. -/
theorem step_reporting :
    (s.step (dialect.reporting flag)).tokens = (s.step dialect).tokens ∧
      (s.step (dialect.reporting flag)).next = (s.step dialect).next := by
  unfold step
  cases s.modes with
  | nil => exact ⟨rfl, rfl⟩
  | cons top outer =>
    obtain ⟨mode, start⟩ := top
    cases mode with
    | directiveHead => exact stepDirectiveHead_reporting dialect flag s
    | _ => exact ⟨rfl, rfl⟩

/-- What a run reads does not depend on what it reports. -/
theorem run_reporting :
    (s.run (dialect.reporting flag)).tokens = (s.run dialect).tokens ∧
      (s.run (dialect.reporting flag)).fault = (s.run dialect).fault := by
  refine run_induction dialect (P := fun s scan =>
    (s.run (dialect.reporting flag)).tokens = scan.tokens ∧
      (s.run (dialect.reporting flag)).fault = scan.fault) ?_ ?_ ?_ s
  · intro s ended
    rw [run_of_ended ended]
    exact ⟨rfl, rfl⟩
  · intro s fault ahead failed
    obtain ⟨tokens, next⟩ := step_reporting dialect flag s
    rw [run_of_failed ahead (next.trans failed)]
    exact ⟨tokens, rfl⟩
  · intro s after ahead stepped later
    obtain ⟨tokens, next⟩ := step_reporting dialect flag s
    rw [run_of_stepped ahead (next.trans stepped)]
    exact ⟨congrArg₂ (· ++ ·) tokens later.1, later.2⟩

end ScanState

theorem scan_reporting (dialect : Dialect) (flag : Bool) (source : Chars) :
    (scan (dialect.reporting flag) source).tokens = (scan dialect source).tokens ∧
      (scan (dialect.reporting flag) source).fault = (scan dialect source).fault := by
  have frontMatter : (dialect.reporting flag).frontMatter = dialect.frontMatter := rfl
  simp only [scan, frontMatter]
  split
  · obtain ⟨tokens, fault⟩ := ScanState.run_reporting dialect flag
      ((ScanState.start source).skip _)
    exact ⟨congrArg (_ ++ ·) tokens, fault⟩
  · exact ScanState.run_reporting dialect flag _

/-- The tree without its diagnostics. -/
def Document.unreported (document : Document) : Document :=
  { document with diagnostics := [] }

/-- The tree of a template, and the fault that prevents one, do not depend on what is reported. -/
theorem parse_reporting (dialect : Dialect) (flag : Bool) (file : Option String)
    (source : Chars) :
    (parse (dialect.reporting flag) file source).outcome.map Document.unreported =
      (parse dialect file source).outcome.map Document.unreported := by
  obtain ⟨tokens, fault⟩ := scan_reporting dialect flag source
  unfold parse
  simp only [tokens, fault]
  cases (scan dialect source).fault <;> rfl

/-! ## Verdicts -/

namespace Stability

/-- What a check makes of a result once it has been read, or has turned out not to be readable. -/
def judge (config : Config) (document : Document) (formatted : Chars) :
    Except LexError Document → Except Violation Unit
  | .error error => .error ⟨(Instability.unreadable error.text).reason, error.line⟩
  | .ok again => do
    compare 1 (document.fingerprints config.sortAttributes)
      (again.fingerprints config.sortAttributes)
    let repeated := render config again
    if repeated = formatted then return ()
    let line := firstDifference 1 (Text.splitLines formatted) (Text.splitLines repeated)
    throw ⟨(Instability.changedLine line).reason, some line⟩

theorem verdict_eq_judge (ambient config : Config) (document : Document) (file : Option String)
    (formatted : Chars) :
    (check ambient config document file formatted).verdict =
      judge config document formatted
        (parse (ambient.recheckDialect config) file formatted).outcome := by
  unfold check
  simp only
  cases (parse (ambient.recheckDialect config) file formatted).outcome with
  | error error => rfl
  | ok again =>
    simp only [judge]
    cases compare 1 (document.fingerprints config.sortAttributes)
        (again.fingerprints config.sortAttributes) with
    | error violation => rfl
    | ok same =>
      simp only
      split <;> rfl

/-- The diagnostics of a result are of no account. -/
theorem judge_unreported (config : Config) (document : Document) (formatted : Chars)
    (outcome : Except LexError Document) :
    judge config document formatted (outcome.map Document.unreported) =
      judge config document formatted outcome := by
  cases outcome <;> rfl

end Stability

/-! ## Surroundings -/

namespace Config

/-- Whether the configuration has a registry of its own. An empty one counts as none. -/
def hasRegistry (config : Config) : Bool :=
  match config.registry with
  | some registry => registry.size ≠ 0
  | none => false

/-- A result is read with the registry of the check if it has one, else with the active one. -/
theorem firstRegistry_eq (config ambient : Config) :
    firstRegistry [config.registry, ambient.registry] =
      if config.hasRegistry then config.activeRegistry else ambient.activeRegistry := by
  unfold hasRegistry activeRegistry
  cases config.registry with
  | none => rfl
  | some registry =>
    by_cases empty : registry.size = 0 <;> simp [firstRegistry, empty]

/-- The two configurations make no difference to how a check under `config` reads a result. -/
structure Surrounds (config one other : Config) : Prop where
  frontMatter : one.frontMatter = other.frontMatter
  registry : config.hasRegistry = false → one.activeRegistry = other.activeRegistry

theorem Surrounds.recheckDialect {config one other : Config} (alike : config.Surrounds one other) :
    one.recheckDialect config =
      (other.recheckDialect config).reporting one.reportUnknownDirectives := by
  have registry : firstRegistry [config.registry, one.registry] =
      firstRegistry [config.registry, other.registry] := by
    rw [firstRegistry_eq, firstRegistry_eq]
    split
    · rfl
    · next own => exact alike.registry (by simpa using own)
  simp only [Config.recheckDialect, Config.dialect, Dialect.reporting, registry,
    alike.frontMatter]

end Config

/-- A check comes to the same verdict, with the same violation, in any two surroundings that agree
on front matter and, unless the check has a registry of its own, on the registry; and a result that
formatting has returned is accepted in all surroundings that agree on them with the configuration
it was formatted under. The file makes no difference to either. -/
theorem verdict_of_surroundings (config : Config) (file origin : Option String) :
    (∀ one other : Config, config.Surrounds one other → ∀ document formatted,
      (Stability.check one config document file formatted).verdict =
        (Stability.check other config document origin formatted).verdict) ∧
    (∀ surrounding : Config, config.Surrounds surrounding config → ∀ source document,
      config.checkIdempotence = true →
      (parse config.dialect origin source).outcome = .ok document →
      (format config origin source).failed = false →
      (Stability.check surrounding config document file (render config document)).verdict =
        .ok ()) := by
  have same (one other : Config) (alike : config.Surrounds one other) (document : Document)
      (formatted : Chars) : (Stability.check one config document file formatted).verdict =
        (Stability.check other config document origin formatted).verdict := by
    rw [← @Stability.verdict_inFile origin one config document file formatted,
      Stability.verdict_inFile one config document origin formatted,
      Stability.verdict_eq_judge, Stability.verdict_eq_judge, ← Stability.judge_unreported,
      alike.recheckDialect, parse_reporting, Stability.judge_unreported]
  refine ⟨same, fun surrounding alike source document guarded parsed passed => ?_⟩
  rw [same surrounding config alike]
  rcases format_cases config origin source with
    ⟨error, failed, _⟩ | ⟨_, violation, _, _, _, refused⟩ | ⟨found, foundParsed, checked, _⟩
  · rw [parsed] at failed
    cases failed
  · rw [refused, failed_fallback] at passed
    cases passed
  · rw [parsed] at foundParsed
    cases foundParsed
    exact checked guarded

/-- The layout options of the surroundings are of no account. -/
theorem verdict_of_surroundings_layout :
    let surrounding : Config := { indentSize := 2, useTabs := true, maxLineLength := 40 }
    (∀ document formatted, (Stability.check surrounding {} document none formatted).verdict =
      (Stability.check {} {} document none formatted).verdict) ∧
    ∃ document, (parse (Config.dialect {}) none "<p >x</p>".toList).outcome = .ok document ∧
      (Stability.check surrounding {} document none (render {} document)).verdict = .ok () := by
  intro surrounding
  obtain ⟨same, accepted⟩ := verdict_of_surroundings {} none none
  have alike : Config.Surrounds {} surrounding {} := ⟨rfl, fun _ => rfl⟩
  have readable : (parse (Config.dialect {}) none "<p >x</p>".toList).outcome.isOk := by
    decide +kernel
  refine ⟨same surrounding {} alike, ?_⟩
  cases parsed : (parse (Config.dialect {}) none "<p >x</p>".toList).outcome with
  | error error =>
    rw [parsed] at readable
    cases readable
  | ok document =>
    exact ⟨document, rfl, accepted surrounding alike _ document rfl parsed (by decide +kernel)⟩

/-- Front matter is of account: where it is allowed, the lines of dashes mean something else. -/
example :
    let config : Config := { frontMatter := false }
    let source := "---\na\n---\n".toList
    let verdict (surrounding : Config) (document : Document) :=
      (Stability.check surrounding config document none source).verdict
    (parse config.dialect none source).outcome.toOption.map
        (fun document => ((verdict config document).isOk, (verdict {} document).isOk)) =
      some (true, false) := by
  decide +kernel

end BladeTemplate
