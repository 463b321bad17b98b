import BladeTemplate.Proofs.Verdict

/-!
# Results are fixed points

With the check on, formatting a result changes nothing and reports as much. The check reads the
result back the way a second run reads it, so a result that was accepted once is accepted again,
and a template that came back as it was comes back once more for the same reason.
-/

namespace BladeTemplate

/-- A result that reads back to a tree which prints as the result is accepted again. -/
theorem format_of_accepted {config : Config} {file : Option String} {formatted : Chars}
    {again : Document} (parsed : (parse config.dialect file formatted).outcome = .ok again)
    (repeated : render config again = formatted) :
    format config file formatted = ⟨formatted, again.diagnostics, false⟩ := by
  have accepted :
      (Stability.check config config again file (render config again)).verdict = .ok () := by
    rw [Stability.check_accepts_iff, repeated]
    exact ⟨again, parsed, rfl, repeated⟩
  rcases format_cases config file formatted with
    ⟨error, failed, _⟩ | ⟨document, violation, found, _, refused, _⟩ | ⟨document, found, _, result⟩
  · rw [parsed] at failed
    cases failed
  · rw [parsed] at found
    cases found
    rw [accepted] at refused
    cases refused
  · rw [parsed] at found
    cases found
    rw [result, repeated]
    simp

/-- Formatting is a fixed point of itself while the check is on, and what was returned as a result
is certified: it reads, has the fingerprints of the template, and prints as itself. -/
theorem format_fixed_point (config : Config) (file : Option String) (source : Chars)
    (guarded : config.checkIdempotence = true) :
    let first := format config file source
    let second := format config file first.text
    second.text = first.text ∧ second.changed = false ∧ second.failed = first.failed ∧
      (first.failed = false →
        ∃ original again,
          (parse config.dialect file source).outcome = .ok original ∧
          (parse config.dialect file first.text).outcome = .ok again ∧
          (again.fingerprints config.sortAttributes).map (·.2) =
            (original.fingerprints config.sortAttributes).map (·.2) ∧
          render config again = first.text) := by
  intro first second
  -- A template that came back as it was: the second run is the first one over.
  have cameBack (line column : Option Int) (message : String) (code : DiagnosticCode)
      (recovered : List Diagnostic)
      (result : first = Format.fallback source line column message code recovered) :
      second = first ∧ first.changed = false ∧ first.failed = true := by
    have text : first.text = source := congrArg Outcome.text result
    refine ⟨congrArg (format config file) text, congrArg Outcome.changed result, ?_⟩
    rw [result]
    exact failed_fallback _ _ _ _ _ _
  have settled (back : second = first ∧ first.changed = false ∧ first.failed = true) :
      second.text = first.text ∧ second.changed = false ∧ second.failed = first.failed ∧
        first.failed ≠ false := by
    obtain ⟨same, unchanged, failed⟩ := back
    rw [same, failed]
    exact ⟨rfl, unchanged, rfl, by simp⟩
  rcases format_cases config file source with
    ⟨error, _, result⟩ | ⟨document, violation, _, _, _, result⟩ | ⟨document, parsed, checked, result⟩
  · obtain ⟨text, unchanged, failed, broken⟩ := settled (cameBack _ _ _ _ _ result)
    exact ⟨text, unchanged, failed, fun passed => absurd passed broken⟩
  · obtain ⟨text, unchanged, failed, broken⟩ := settled (cameBack _ _ _ _ _ result)
    exact ⟨text, unchanged, failed, fun passed => absurd passed broken⟩
  · obtain ⟨again, reread, fingerprints, repeated⟩ :=
      (Stability.check_accepts_iff config document file _).1 (checked guarded)
    have text : first.text = render config document := congrArg Outcome.text result
    have accepted : second = ⟨first.text, again.diagnostics, false⟩ := by
      rw [← text] at reread repeated
      exact format_of_accepted reread repeated
    have calm : first.failed = false := by
      rw [show first = _ from result]
      exact not_failed_of_recovered (recovered_parse parsed)
    have calmAgain : second.failed = false := by
      rw [accepted]
      exact not_failed_of_recovered (recovered_parse reread)
    refine ⟨?_, ?_, ?_, ?_⟩
    · rw [accepted]
    · rw [accepted]
    · rw [calm, calmAgain]
    · intro _
      rw [text]
      exact ⟨document, again, parsed, reread, fingerprints.symm, repeated⟩

/-- With two spaces for a level and short lines, a block with a tag and an echo in it is formatted,
and what comes out is certified. -/
theorem format_fixed_point_narrow :
    let config : Config := { indentSize := 2, maxLineLength := 10 }
    let source := "@if($a)<p id='n' b>{{$x}}</p>@endif".toList
    let first := format config none source
    let second := format config none first.text
    first.failed = false ∧ second.text = first.text ∧ second.changed = false ∧
      second.failed = false ∧
      ∃ original again,
        (parse config.dialect none source).outcome = .ok original ∧
        (parse config.dialect none first.text).outcome = .ok again ∧
        (again.fingerprints config.sortAttributes).map (·.2) =
          (original.fingerprints config.sortAttributes).map (·.2) ∧
        render config again = first.text := by
  -- The outcomes are not introduced: as variables they would be worked out once more.
  intro config source
  have calm : (format config none source).failed = false := by decide +kernel
  obtain ⟨text, unchanged, failed, certified⟩ := format_fixed_point config none source rfl
  exact ⟨calm, text, unchanged, failed.trans calm, certified calm⟩

end BladeTemplate
