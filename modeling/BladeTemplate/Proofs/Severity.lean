import BladeTemplate.Proofs.Run
import BladeTemplate.Tree.Build

/-!
# Recoveries are never errors

Reading and matching report what they recover from as warnings and information. Errors are left to
the two fatal conditions, so an error among the diagnostics of a run tells that the template came
back as it was.

* `Recovered` holds of diagnostics without an error;
* `recovered_scan` and `Builder.recovered_build` are the run lemmas of the reader and the matcher;
* `recovered_parse` joins them: no tree has an error among its diagnostics.
-/

namespace BladeTemplate

/-- Diagnostics that report recoveries only. -/
def Recovered (diagnostics : List Diagnostic) : Prop :=
  ∀ diagnostic ∈ diagnostics, diagnostic.severity ≠ .error

theorem recovered_nil : Recovered [] := by
  intro diagnostic member
  cases member

theorem recovered_warning (location : Location) (code : DiagnosticCode) (message : String) :
    Recovered [.warning location code message] := by
  intro diagnostic member
  rw [List.mem_singleton.1 member]
  simp [Diagnostic.warning, Diagnostic.placed]

theorem recovered_info (location : Location) (code : DiagnosticCode) (message : String) :
    Recovered [.info location code message] := by
  intro diagnostic member
  rw [List.mem_singleton.1 member]
  simp [Diagnostic.info, Diagnostic.placed]

theorem Recovered.append {first second : List Diagnostic} (left : Recovered first)
    (right : Recovered second) : Recovered (first ++ second) := by
  intro diagnostic member
  rcases List.mem_append.1 member with early | late
  · exact left diagnostic early
  · exact right diagnostic late

theorem Recovered.sort {diagnostics : List Diagnostic} (recovered : Recovered diagnostics) :
    Recovered (Diagnostic.sort diagnostics) := by
  intro diagnostic member
  exact recovered diagnostic (List.mem_mergeSort.1 member)

/-! ## Reading -/

namespace ScanState

theorem diagnostics_stepBang (s : ScanState) : s.stepBang.diagnostics = [] := by
  unfold stepBang takeThrough
  repeat' split
  all_goals rfl

theorem diagnostics_stepConstruct (s : ScanState) : s.stepConstruct.diagnostics = [] := by
  have endTag : s.stepEndTag.diagnostics = [] := by
    unfold stepEndTag takeThrough
    simp only
    split <;> rfl
  unfold stepConstruct
  split
  · rfl
  split
  · rfl
  split
  · rfl
  split
  · exact endTag
  split
  · exact diagnostics_stepBang s
  · rfl

theorem diagnostics_stepText (s : ScanState) : s.stepText.diagnostics = [] := by
  unfold stepText
  simp only
  split
  · exact diagnostics_stepConstruct s
  · split
    · rfl
    · exact diagnostics_stepConstruct _

theorem recovered_stepDirectiveHead (dialect : Dialect) (s : ScanState) :
    Recovered (s.stepDirectiveHead dialect).diagnostics := by
  unfold stepDirectiveHead
  simp only
  split
  · exact recovered_nil
  · simp only
    split
    · exact recovered_info _ _ _
    · exact recovered_nil

theorem recovered_stepAttribute (dialect : Dialect) (s : ScanState) :
    Recovered (s.stepAttribute dialect).diagnostics := by
  unfold stepAttribute
  simp only
  split
  · exact recovered_info _ _ _
  · exact recovered_nil

theorem recovered_stepTag (dialect : Dialect) (s : ScanState) (name : Chars) :
    Recovered (s.stepTag dialect name).diagnostics := by
  unfold stepTag
  simp only
  split
  · exact recovered_nil
  split
  · exact recovered_nil
  split
  · exact recovered_nil
  split
  · exact recovered_nil
  split
  · exact recovered_nil
  · exact recovered_stepAttribute dialect _

/-- One step reports recoveries only: an unregistered directive or an ambiguous attribute. -/
theorem recovered_step (dialect : Dialect) (s : ScanState) :
    Recovered (s.step dialect).diagnostics := by
  have quiet {step : Step} (silent : step.diagnostics = []) : Recovered step.diagnostics := by
    rw [silent]
    exact recovered_nil
  unfold step
  split
  · exact quiet (diagnostics_stepText s)
  · next mode start outer top =>
    cases mode with
    | directiveHead => exact recovered_stepDirectiveHead dialect s
    | arguments => exact quiet (by unfold stepArguments; simp only; split <;> rfl)
    | echo => exact quiet (by unfold stepEcho; simp only; split <;> rfl)
    | comment => exact quiet (by unfold stepComment; simp only; split <;> rfl)
    | tagStart => exact quiet rfl
    | tag name => exact recovered_stepTag dialect s name
    | attributeValue name => exact quiet (by unfold stepValue; simp only; split <;> rfl)
    | verbatim => exact quiet (by unfold takeBody; simp only; split <;> rfl)
    | rawCode =>
      refine quiet ?_
      unfold stepRawCode takeBody
      simp only
      repeat' split
      all_goals rfl
    | rawText tag => exact quiet (by unfold stepRawText; simp only; split <;> rfl)

theorem recovered_run (dialect : Dialect) (s : ScanState) :
    Recovered (s.run dialect).diagnostics := by
  induction s using run_induction dialect with
  | ended s atEnd =>
    unfold finish
    split <;> exact recovered_nil
  | failed s fault ahead h => exact recovered_step dialect s
  | stepped s next ahead h ih => exact (recovered_step dialect s).append ih

end ScanState

/-- Reading a template reports recoveries only. -/
theorem recovered_scan (dialect : Dialect) (source : Chars) :
    Recovered (scan dialect source).diagnostics := by
  unfold scan
  simp only
  split
  · exact recovered_nil.append (ScanState.recovered_run dialect _)
  · exact ScanState.recovered_run dialect _

/-! ## Matching -/

namespace Builder

/-- A builder that has reported recoveries only. -/
def Calm (builder : Builder) : Prop := Recovered builder.diagnostics

theorem Calm.report {builder : Builder} (calm : builder.Calm) {diagnostic : Diagnostic}
    (recovered : Recovered [diagnostic]) : (builder.report diagnostic).Calm :=
  Recovered.append calm recovered

theorem Calm.abandon {builder : Builder} (calm : builder.Calm) (cause : Option Directive) :
    (builder.abandon cause).Calm := by
  unfold Builder.abandon
  split
  · exact calm
  · simp only
    split
    · exact Recovered.append calm (recovered_warning _ _ _)
    · exact Recovered.append calm (recovered_info _ _ _)

theorem Calm.abandonMany {builder : Builder} (calm : builder.Calm) (cause : Option Directive)
    (count : Nat) : (builder.abandonMany cause count).Calm := by
  induction count generalizing builder with
  | zero => exact calm
  | succ count ih => exact ih (calm.abandon cause)

theorem Calm.closeElement {builder : Builder} (calm : builder.Calm) (location : Location)
    (name : Chars) : (builder.closeElement location name).Calm := by
  unfold Builder.closeElement
  split <;> exact calm

theorem Calm.closeBlock {builder : Builder} (calm : builder.Calm) (closer : Directive) :
    (builder.closeBlock closer).Calm := by
  unfold Builder.closeBlock
  split <;> exact calm

theorem Calm.addEndTag {builder : Builder} (calm : builder.Calm) (location : Location)
    (content : Chars) : (builder.addEndTag location content).Calm := by
  unfold Builder.addEndTag
  simp only
  split
  · exact calm.report (recovered_warning _ _ _)
  · exact (calm.abandonMany none _).closeElement location _

theorem Calm.addOrphan {builder : Builder} (calm : builder.Calm) (directive : Directive)
    (complaint : String) : (builder.addOrphan directive complaint).Calm :=
  calm.report (recovered_warning _ _ _)

theorem Calm.addDirective {builder : Builder} (calm : builder.Calm) (registry : Registry)
    (directive : Directive) : (builder.addDirective registry directive).Calm := by
  unfold Builder.addDirective
  split
  · exact calm
  · simp only
    split
    · exact calm
    · unfold addCloser
      split
      · exact (calm.abandonMany _ _).closeBlock _
      · exact calm.addOrphan _ _
    · unfold addMiddle
      split
      · exact calm.abandonMany _ _
      · exact calm.addOrphan _ _
    · exact calm

/-- Adding an item reports recoveries only. -/
theorem Calm.add {builder : Builder} (calm : builder.Calm) (registry : Registry) (item : Item) :
    (builder.add registry item).Calm := by
  cases item with
  | text location content => exact calm
  | echo echo => exact calm
  | comment location content => exact calm
  | region location kind content => exact calm
  | directive directive => exact calm.addDirective registry directive
  | startTag kind markup =>
    unfold Builder.add addStartTag
    simp only
    split <;> exact calm
  | endTag location content => exact calm.addEndTag location content

/-- Matching the items of a template reports recoveries only. -/
theorem recovered_build (registry : Registry) (items : List Item) :
    Recovered (build registry items).diagnostics := by
  have fold (builder : Builder) (calm : builder.Calm) :
      (items.foldl (add registry) builder).Calm := by
    induction items generalizing builder with
    | nil => exact calm
    | cons item rest ih => exact ih _ (calm.add registry item)
  exact (fold {} recovered_nil).abandonMany none _

end Builder

/-! ## Whole templates -/

/-- No tree has an error among its diagnostics. -/
theorem recovered_parse {dialect : Dialect} {file : Option String} {source : Chars}
    {document : Document} (parsed : (parse dialect file source).outcome = .ok document) :
    Recovered document.diagnostics := by
  unfold parse at parsed
  simp only at parsed
  split at parsed
  · cases parsed
  · cases parsed
    have matched := Builder.recovered_build dialect.registry
      (Item.ofTokens ⟨dialect.registry, file, source⟩ (scan dialect source).tokens)
    exact (matched.append (recovered_scan dialect source)).sort

end BladeTemplate
