import BladeTemplate.Proofs.Assumption
import BladeTemplate.Proofs.Unchecked

/-!
# Formatting is total, and falls back exactly

Every template gets an outcome, of one of two shapes: it fell back, with the template as it was and
a single error that says why, or it is formatted, with the diagnostics of the tree and nothing
worse.

* `FellBack` and `Formatted` are the two shapes;
* `Diagnostic.pairwise_sort` puts diagnostics in the order of their positions;
* `format_total_and_exact` is the whole of it.
-/

namespace BladeTemplate

/-! ## Order of diagnostics -/

namespace Diagnostic

theorem notAfter_trans (a b c : Diagnostic) (ab : notAfter a b = true)
    (bc : notAfter b c = true) : notAfter a c = true := by
  simp only [notAfter, Bool.or_eq_true, Bool.and_eq_true, decide_eq_true_eq] at ab bc ⊢
  omega

theorem notAfter_total (a b : Diagnostic) : (notAfter a b || notAfter b a) = true := by
  simp only [notAfter, Bool.or_eq_true, Bool.and_eq_true, decide_eq_true_eq]
  omega

theorem pairwise_sort (diagnostics : List Diagnostic) :
    (sort diagnostics).Pairwise (notAfter · ·) :=
  List.pairwise_mergeSort notAfter_trans notAfter_total diagnostics

end Diagnostic

/-- The diagnostics of a tree are in order. -/
theorem pairwise_parse {dialect : Dialect} {file : Option String} {source : Chars}
    {document : Document} (parsed : (parse dialect file source).outcome = .ok document) :
    document.diagnostics.Pairwise (Diagnostic.notAfter · ·) := by
  unfold parse at parsed
  simp only at parsed
  split at parsed
  · cases parsed
  · cases parsed
    exact Diagnostic.pairwise_sort _

/-! ## The two shapes -/

/-- An outcome that gives the template back. Its one error is a reading error that stands alone, or
the instability with which the check, which is on, refused what was printed; this one joins the
diagnostics of the tree. -/
structure FellBack (config : Config) (file : Option String) (source : Chars)
    (outcome : Outcome) : Prop where
  text : outcome.text = source
  changed : outcome.changed = false
  oneError : (outcome.diagnostics.filter (·.severity = .error)).length = 1
  cause :
    (∃ error diagnostic, (parse config.dialect file source).outcome = .error error ∧
      diagnostic.severity = .error ∧ diagnostic.code = .lexError ∧
      diagnostic.message = error.text ∧ outcome.diagnostics = [diagnostic]) ∨
    (∃ document violation diagnostic,
      (parse config.dialect file source).outcome = .ok document ∧
      config.checkIdempotence = true ∧
      (Stability.check config config document file (render config document)).verdict =
        .error violation ∧
      diagnostic.severity = .error ∧ diagnostic.code = .idempotenceViolation ∧
      diagnostic.message = violation.message ∧
      outcome.diagnostics.Perm (diagnostic :: document.diagnostics))

/-- An outcome with the text of the template's tree and the diagnostics of that tree. -/
structure Formatted (config : Config) (file : Option String) (source : Chars)
    (outcome : Outcome) : Prop where
  recovered : Recovered outcome.diagnostics
  printed : ∃ document, (parse config.dialect file source).outcome = .ok document ∧
    outcome.text = render config document ∧ outcome.diagnostics = document.diagnostics
  changed : outcome.changed = true ↔ outcome.text ≠ source

/-- Among recoveries, the error that a run falls back with is the only one. -/
theorem one_error_fallback (source : Chars) (line column : Option Int) (message : String)
    (code : DiagnosticCode) {recovered : List Diagnostic} (calm : Recovered recovered) :
    ((Format.fallback source line column message code recovered).diagnostics.filter
      (·.severity = .error)).length = 1 := by
  have none : recovered.filter (·.severity = .error) = [] := by
    rw [List.filter_eq_nil_iff]
    intro diagnostic member
    simpa using calm diagnostic member
  have merged := (List.mergeSort_perm
    (recovered ++ [⟨line.getD 0, column.getD 0, .error, message, code⟩])
    Diagnostic.notAfter).filter (·.severity = .error)
  refine merged.length_eq.trans ?_
  simp [none]

/-- The shape of an outcome is told by whether it failed. -/
theorem format_shapes (config : Config) (file : Option String) (source : Chars) :
    ((format config file source).failed = true ∧
      FellBack config file source (format config file source)) ∨
    ((format config file source).failed = false ∧
      Formatted config file source (format config file source)) := by
  rcases format_cases config file source with
    ⟨error, failed, result⟩ | ⟨document, violation, parsed, guarded, refused, result⟩ |
    ⟨document, parsed, _, result⟩
  · rw [result]
    refine .inl ⟨failed_fallback _ _ _ _ _ _, rfl, rfl, ?_, .inl ⟨error,
      ⟨error.line.getD 0, error.column.getD 0, .error, error.text, .lexError⟩, failed, rfl, rfl,
      rfl, ?_⟩⟩
    · exact one_error_fallback _ _ _ _ _ recovered_nil
    · exact List.mergeSort_singleton _
  · rw [result]
    refine .inl ⟨failed_fallback _ _ _ _ _ _, rfl, rfl, ?_, .inr ⟨document, violation,
      ⟨violation.line.getD 0, 1, .error, violation.message, .idempotenceViolation⟩, parsed, guarded,
      refused, rfl, rfl, rfl, ?_⟩⟩
    · exact one_error_fallback _ _ _ _ _ (recovered_parse parsed)
    · exact (List.mergeSort_perm _ _).trans List.perm_append_comm
  · have calm := recovered_parse parsed
    rw [result]
    refine .inr ⟨not_failed_of_recovered calm, calm, ⟨document, parsed, rfl, rfl⟩, ?_⟩
    exact decide_eq_true_iff

theorem pairwise_format (config : Config) (file : Option String) (source : Chars) :
    (format config file source).diagnostics.Pairwise (Diagnostic.notAfter · ·) := by
  rcases format_cases config file source with
    ⟨_, _, result⟩ | ⟨_, _, _, _, _, result⟩ | ⟨document, parsed, _, result⟩
  · rw [result]
    exact Diagnostic.pairwise_sort _
  · rw [result]
    exact Diagnostic.pairwise_sort _
  · rw [result]
    exact pairwise_parse parsed

/-- What passes the check is what would have come without it. -/
theorem format_unchecked (config : Config) (file : Option String) (source : Chars)
    (passed : (format config file source).failed = false) :
    format config.unchecked file source = format config file source := by
  rcases format_cases config file source with
    ⟨_, _, result⟩ | ⟨_, _, _, _, _, result⟩ | ⟨document, parsed, _, result⟩
  · rw [result, failed_fallback] at passed
    cases passed
  · rw [result, failed_fallback] at passed
    cases passed
  have reread : (parse config.unchecked.dialect file source).outcome = .ok document := parsed
  rcases format_cases config.unchecked file source with
    ⟨error, failed, _⟩ | ⟨_, _, _, guarded, _, _⟩ | ⟨other, found, _, again⟩
  · rw [reread] at failed
    cases failed
  · cases guarded
  · rw [reread] at found
    cases found
    rw [result, again, render_unchecked]

/-- Formatting breaks no assumption. Its outcome has one of the two shapes, told apart by `failed`;
its diagnostics are in the order of their positions; and if it did not fail, the check made no
difference. -/
theorem format_total_and_exact (config : Config) (file : Option String) (source : Chars)
    (built : ∀ registry, config.registry = some registry → registry.Built) :
    let outcome := format config file source
    tryFormat config file source = .ok outcome ∧
    ((outcome.failed = true ∧ FellBack config file source outcome) ∨
      (outcome.failed = false ∧ Formatted config file source outcome)) ∧
    outcome.diagnostics.Pairwise (fun a b =>
      a.line < b.line ∨ (a.line = b.line ∧ a.column ≤ b.column)) ∧
    (config.checkIdempotence = true → outcome.failed = false →
      outcome = format { config with checkIdempotence := false } file source) := by
  intro outcome
  refine ⟨tryFormat_eq config file source built, format_shapes config file source, ?_, ?_⟩
  · refine (pairwise_format config file source).imp ?_
    intro a b ordered
    simpa [Diagnostic.notAfter] using ordered
  · intro _ passed
    exact (format_unchecked config file source passed).symm

/-- The built-in registry is one built by registration. -/
theorem format_total_and_exact_builtin :
    tryFormat { registry := some .builtin } none "@if(x) y @endif".toList =
      .ok (format { registry := some .builtin } none "@if(x) y @endif".toList) :=
  (format_total_and_exact { registry := some .builtin } none "@if(x) y @endif".toList
    (by rintro registry ⟨⟩; exact .builtin)).1

end BladeTemplate
