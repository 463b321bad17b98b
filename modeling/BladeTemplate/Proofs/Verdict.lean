import BladeTemplate.Format
import BladeTemplate.Proofs.Severity

/-!
# What a formatting run can come to

A run ends in one of three ways, and the check of its result accepts in exactly one: the result
reads back with the same fingerprints and prints as itself.

* `Stability.check_accepts_iff` says what acceptance means;
* `format_cases` lists the three ends of a run; everything else about `format` follows from it.
-/

namespace BladeTemplate

/-- Reading a template keeps its text with the tree. -/
theorem source_of_parse {dialect : Dialect} {file : Option String} {source : Chars}
    {document : Document} (parsed : (parse dialect file source).outcome = .ok document) :
    document.source = source := by
  unfold parse at parsed
  simp only at parsed
  split at parsed
  · cases parsed
  · cases parsed
    rfl

namespace Config

/-- A result is read back the way its template was read, if the surrounding configuration is the
one it was formatted under. -/
theorem recheckDialect_self (config : Config) : config.recheckDialect config = config.dialect := by
  have twice : firstRegistry [config.registry, config.registry] = config.activeRegistry := by
    unfold activeRegistry
    cases found : config.registry with
    | none => rfl
    | some registry =>
      simp only [firstRegistry]
      split <;> rfl
  unfold recheckDialect
  rw [twice]
  rfl

end Config

namespace Stability

/-- Two trees pass the comparison exactly when their fingerprints agree, whatever their lines. -/
theorem compare_eq_ok_iff (last : Int) (before after : List (Int × Fingerprint)) :
    compare last before after = .ok () ↔ before.map (·.2) = after.map (·.2) := by
  induction before generalizing last after with
  | nil => cases after <;> simp [compare]
  | cons expected before ih =>
    cases after with
    | nil => simp [compare]
    | cons found after =>
      obtain ⟨line, expected⟩ := expected
      obtain ⟨other, found⟩ := found
      simp only [compare, List.map_cons, List.cons.injEq]
      split
      · next same => simp [same, ih]
      · next different => simp [Ne.symm different]

/-- A result is accepted exactly when it reads back with the fingerprints of the template's tree
and prints as itself. -/
theorem check_accepts_iff (config : Config) (document : Document) (file : Option String)
    (formatted : Chars) :
    (check config config document file formatted).verdict = .ok () ↔
      ∃ again, (parse config.dialect file formatted).outcome = .ok again ∧
        (document.fingerprints config.sortAttributes).map (·.2) =
          (again.fingerprints config.sortAttributes).map (·.2) ∧
        render config again = formatted := by
  unfold check
  rw [config.recheckDialect_self]
  simp only
  split
  · next error failed => simp [failed]
  · next again parsed =>
    rw [parsed]
    have agreed := compare_eq_ok_iff 1 (document.fingerprints config.sortAttributes)
      (again.fingerprints config.sortAttributes)
    split
    · next violation different =>
      have differ := mt agreed.2 (by rw [different]; simp)
      constructor
      · intro impossible
        cases impossible
      · rintro ⟨_, ⟨⟩, same, _⟩
        exact absurd same differ
    · next same =>
      have fingerprints := agreed.1 same
      split
      · next repeated => exact ⟨fun _ => ⟨again, rfl, fingerprints, repeated⟩, fun _ => rfl⟩
      · next changed =>
        constructor
        · intro impossible
          cases impossible
        · rintro ⟨_, ⟨⟩, _, repeated⟩
          exact absurd repeated changed

end Stability

/-- The three ends of a run: the template cannot be read, its result is refused, or its result is
returned. -/
theorem format_cases (config : Config) (file : Option String) (source : Chars) :
    (∃ error, (parse config.dialect file source).outcome = .error error ∧
      format config file source =
        Format.fallback source error.line error.column error.text .lexError []) ∨
    (∃ document violation, (parse config.dialect file source).outcome = .ok document ∧
      config.checkIdempotence = true ∧
      (Stability.check config config document file (render config document)).verdict =
        .error violation ∧
      format config file source =
        Format.fallback source violation.line (some 1) violation.message .idempotenceViolation
          document.diagnostics) ∨
    (∃ document, (parse config.dialect file source).outcome = .ok document ∧
      (config.checkIdempotence = true →
        (Stability.check config config document file (render config document)).verdict =
          .ok ()) ∧
      format config file source =
        ⟨render config document, document.diagnostics, render config document ≠ source⟩) := by
  unfold format Format.run
  simp only
  split
  · next error failed => exact .inl ⟨error, failed, rfl⟩
  · next document parsed =>
    have same := source_of_parse parsed
    split
    · next guarded =>
      split
      · next violation refused =>
        refine .inr (.inl ⟨document, violation, parsed, guarded, refused, ?_⟩)
        rw [← same]
        rfl
      · next accepted =>
        refine .inr (.inr ⟨document, parsed, fun _ => accepted, ?_⟩)
        rw [← same]
        rfl
    · next unguarded =>
      refine .inr (.inr ⟨document, parsed, fun guarded => absurd guarded unguarded, ?_⟩)
      rw [← same]
      rfl

/-- A template that comes back as it was has an error among its diagnostics. -/
theorem failed_fallback (source : Chars) (line column : Option Int) (message : String)
    (code : DiagnosticCode) (recovered : List Diagnostic) :
    (Format.fallback source line column message code recovered).failed = true := by
  unfold Outcome.failed Format.fallback
  simp only [List.any_eq_true, decide_eq_true_eq]
  refine ⟨⟨line.getD 0, column.getD 0, .error, message, code⟩, ?_, rfl⟩
  exact List.mem_mergeSort.2 (by simp)

/-- An outcome with the diagnostics of a tree has not failed. -/
theorem not_failed_of_recovered {outcome : Outcome} (recovered : Recovered outcome.diagnostics) :
    outcome.failed = false := by
  unfold Outcome.failed
  rw [List.any_eq_false]
  intro diagnostic member
  simpa using recovered diagnostic member

end BladeTemplate
