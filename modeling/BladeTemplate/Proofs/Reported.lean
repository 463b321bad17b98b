import BladeTemplate.Proofs.Counted
import BladeTemplate.Proofs.LeftOpen
import BladeTemplate.Proofs.Recoveries
import Mathlib.Data.List.Basic

/-!
# Reported positions

Every line and column that reading or parsing a template reports is the counted one of the place
it is about.

* `Concern` is something in a tree that is reported, with the location that it is about;
  `Node.recoveries_eq` says that the reports about a node are those of its concerns;
* `Diagnostic.Marks` says that a diagnostic is about a token, and `marks_scan` that every diagnostic
  of the reader is, also when the template cannot be read;
* `reported_positions` is the result for tokens, nodes, diagnostics and errors.
-/

namespace BladeTemplate

open Text

/-! ## What diagnostics of a tree are about -/

/-- Something that is reported: the kind of report, and the location that it is about. -/
structure Concern where
  code : DiagnosticCode
  severity : Severity
  location : Location

/-- The report of a concern at the counted line and column of the offset where its location
starts. -/
def Concern.counted (source : Chars) (concern : Concern) : Notice :=
  let start := Position.counted source concern.location.offset.toNat
  ⟨concern.code, concern.severity, start.line, start.column⟩

/-- The concerns about the entries of a start tag: those that could be directives. -/
def Markup.ambiguousEntries (markup : Markup) : List Concern :=
  markup.attributes.flatMap fun entry =>
    if entry.ambiguous then [⟨.ambiguousAttribute, .info, entry.location⟩] else []

/-- The concerns about markup: the element, when it was never closed, and its entries. -/
def Markup.concerns (markup : Markup) : List Concern :=
  (if markup.closed then [] else [⟨.unclosedElement, .info, markup.location⟩]) ++
    markup.ambiguousEntries

/-- The concerns about a directive: that it has no block, and that it is not registered. -/
def Directive.concerns (reportUnknown : Bool) (directive : Directive) : List Concern :=
  (if directive.orphan then [⟨.unmatchedDirective, .warning, directive.location⟩] else []) ++
    if !directive.registered && reportUnknown then
      [⟨.unknownDirective, .info, directive.location⟩]
    else []

/-- The concerns about a node itself, not about what is below it. A block that is never closed is
reported where its opener starts. -/
def Node.concerns (reportUnknown : Bool) : Node → List Concern
  | .directive found => found.concerns reportUnknown
  | .block _ opener _ _ closer _ =>
    if closer.isNone then [⟨.unmatchedDirective, .warning, opener.location⟩] else []
  | .element markup _ _ | .component markup _ _ | .slot _ markup _ => markup.concerns
  | .endTag location _ _ => [⟨.strayEndTag, .warning, location⟩]
  | _ => []

/-- The report of a concern at the start of its location. -/
def Concern.notice (concern : Concern) : Notice :=
  .placed concern.location concern.severity concern.code

theorem Markup.recoveries_eq (markup : Markup) :
    markup.recoveries = markup.concerns.map Concern.notice := by
  have entries : markup.ambiguities = markup.ambiguousEntries.map Concern.notice := by
    unfold ambiguities ambiguousEntries
    rw [List.map_flatMap]
    congr 1
    funext entry
    split <;> rfl
  unfold recoveries concerns
  rw [List.map_append, entries]
  split <;> rfl

/-- What is to be said about a node are the reports of its concerns. -/
theorem Node.recoveries_eq (reportUnknown : Bool) (node : Node) :
    node.recoveries reportUnknown = (node.concerns reportUnknown).map Concern.notice := by
  cases node with
  | text | echo | comment | region | endTag | attr | document => rfl
  | directive found =>
    unfold recoveries concerns Directive.recoveries Directive.concerns
    simp only
    rw [List.map_append]
    split <;> split <;> rfl
  | block =>
    unfold recoveries concerns
    simp only
    split <;> rfl
  | element markup | component markup | slot _ markup => exact markup.recoveries_eq

namespace Node

/-- A concern about a node is about one of the locations of the node or of its opener. -/
theorem mem_locations_of_concern {reportUnknown : Bool} {node : Node} {concern : Concern}
    (member : concern ∈ node.concerns reportUnknown) :
    ∃ part ∈ node.walk, concern.location ∈ part.locations := by
  have ofMarkup {markup : Markup} (member : concern ∈ markup.concerns) :
      concern.location = markup.location ∨
        concern.location ∈ markup.attributes.flatMap Attribute.locations := by
    rcases List.mem_append.1 member with unclosed | ambiguous
    · split at unclosed
      · cases unclosed
      · rw [List.mem_singleton.1 unclosed]
        exact .inl rfl
    · obtain ⟨entry, inside, about⟩ := List.mem_flatMap.1 ambiguous
      split at about
      · rw [List.mem_singleton.1 about]
        exact .inr (List.mem_flatMap.2 ⟨entry, inside, List.mem_cons_self⟩)
      · cases about
  cases node with
  | text | echo | comment | region | attr | document => cases member
  | directive found =>
    refine ⟨.directive found, mem_walk_self _, ?_⟩
    refine List.mem_cons.2 (.inl ?_)
    rcases List.mem_append.1 member with orphan | unknown
    · split at orphan
      · rw [List.mem_singleton.1 orphan]
        rfl
      · cases orphan
    · split at unknown
      · rw [List.mem_singleton.1 unknown]
        rfl
      · cases unknown
  | block location opener family children closer indentsMiddles =>
    unfold concerns at member
    simp only at member
    split at member
    · refine ⟨.directive opener, ?_, ?_⟩
      · rw [walk, List.cons_append, List.cons_append]
        exact List.mem_cons_of_mem _ List.mem_cons_self
      · rw [List.mem_singleton.1 member]
        exact List.mem_cons_self
    · cases member
  | endTag location content =>
    refine ⟨_, mem_walk_self _, ?_⟩
    rw [List.mem_singleton.1 member]
    exact List.mem_cons_self
  | element markup | component markup | slot _ markup =>
    exact ⟨_, mem_walk_self _, List.mem_cons.2 (ofMarkup member)⟩

/-- In a sited tree the reports of concerns are at counted positions. -/
theorem notice_of_concern {file : Option String} {source : Chars} {reportUnknown : Bool}
    {root node : Node} (sited : root.Sited file source) (inside : node ∈ root.walk)
    {concern : Concern} (member : concern ∈ node.concerns reportUnknown) :
    concern.notice = concern.counted source := by
  obtain ⟨part, below, place⟩ := mem_locations_of_concern member
  obtain ⟨first, last, _, _, located⟩ :=
    sited part (mem_walk_trans root node inside part below) _ place
  unfold Concern.notice Concern.counted Notice.placed
  rw [located]
  rfl

end Node

/-! ## What diagnostics of the reader are about -/

/-- The diagnostic is about the token: an unregistered directive about its name, an ambiguous
attribute about the name of the attribute. -/
structure Diagnostic.Marks (diagnostic : Diagnostic) (token : Token) : Prop where
  line : diagnostic.line = token.start.line
  column : diagnostic.column = token.start.column
  about : diagnostic.code = .unknownDirective ∧ token.kind = .directiveName ∨
    diagnostic.code = .ambiguousAttribute ∧ ∃ kind, token.kind = .attributeName kind

/-- Every diagnostic is about one of the tokens. -/
def Marked (diagnostics : List Diagnostic) (tokens : List Token) : Prop :=
  ∀ diagnostic ∈ diagnostics, ∃ token ∈ tokens, diagnostic.Marks token

theorem Marked.append {first second : List Diagnostic} {tokens later : List Token}
    (one : Marked first tokens) (other : Marked second later) :
    Marked (first ++ second) (tokens ++ later) := by
  intro diagnostic member
  rcases List.mem_append.1 member with early | late
  · obtain ⟨token, inside, marks⟩ := one diagnostic early
    exact ⟨token, List.mem_append_left _ inside, marks⟩
  · obtain ⟨token, inside, marks⟩ := other diagnostic late
    exact ⟨token, List.mem_append_right _ inside, marks⟩

theorem marked_nil (tokens : List Token) : Marked [] tokens := by
  intro diagnostic member
  cases member

namespace ScanState

theorem marked_of_quiet {step : Step} (quiet : step.Quiet) :
    Marked step.diagnostics step.tokens := by
  rw [quiet.diagnostics]
  exact marked_nil _

theorem marked_stepDirectiveHead (dialect : Dialect) (s : ScanState) :
    Marked (s.stepDirectiveHead dialect).diagnostics (s.stepDirectiveHead dialect).tokens := by
  unfold stepDirectiveHead
  simp only
  split
  · exact marked_nil _
  · simp only
    split
    · refine List.forall_mem_singleton.2 ⟨_, List.mem_singleton.2 rfl, rfl, rfl, ?_⟩
      exact .inl ⟨rfl, rfl⟩
    · exact marked_nil _

theorem marked_stepAttribute (dialect : Dialect) (s : ScanState) :
    Marked (s.stepAttribute dialect).diagnostics (s.stepAttribute dialect).tokens := by
  unfold stepAttribute
  simp only
  split
  · refine List.forall_mem_singleton.2 ⟨_, List.mem_singleton.2 rfl, rfl, rfl, ?_⟩
    exact .inr ⟨rfl, _, rfl⟩
  · exact marked_nil _

theorem marked_stepTag (dialect : Dialect) (s : ScanState) (name : Chars) :
    Marked (s.stepTag dialect name).diagnostics (s.stepTag dialect name).tokens := by
  unfold stepTag
  simp only
  split
  · exact marked_nil _
  split
  · exact marked_nil _
  split
  · exact marked_nil _
  split
  · exact marked_nil _
  split
  · exact marked_nil _
  · exact marked_stepAttribute dialect _

/-- Only the name of a directive and that of an attribute are reported. -/
theorem marked_step (dialect : Dialect) (s : ScanState) :
    Marked (s.step dialect).diagnostics (s.step dialect).tokens := by
  cases top : s.modes with
  | nil =>
    unfold step
    rw [top]
    exact marked_of_quiet (quiet_stepText s)
  | cons mode outer =>
    obtain ⟨mode, start⟩ := mode
    by_cases head : mode = .directiveHead
    · subst head
      unfold step
      rw [top]
      exact marked_stepDirectiveHead dialect s
    by_cases inside : ∃ name, mode = .tag name
    · obtain ⟨name, rfl⟩ := inside
      unfold step
      rw [top]
      exact marked_stepTag dialect s name
    · exact marked_of_quiet (quiet_step dialect top head (not_exists.1 inside))

theorem marked_run (dialect : Dialect) (s : ScanState) :
    Marked (s.run dialect).diagnostics (s.run dialect).tokens := by
  induction s using run_induction dialect with
  | ended s atEnd =>
    unfold finish
    split <;> exact marked_nil _
  | failed s fault ahead stopped => exact marked_step dialect s
  | stepped s next ahead moves ih => exact (marked_step dialect s).append ih

end ScanState

/-- Every diagnostic of the reader is about a token, also when the template cannot be read. -/
theorem marks_scan (dialect : Dialect) (source : Chars) :
    Marked (scan dialect source).diagnostics (scan dialect source).tokens := by
  unfold scan
  simp only
  split
  · exact Marked.append (marked_nil _) (ScanState.marked_run dialect _)
  · exact ScanState.marked_run dialect _

/-! ## All positions -/

/-- The diagnostics of a template that can be read are the concerns about its tree, each at the
counted position of what it is about. -/
theorem perm_concerns {dialect : Dialect} {file : Option String} {source : Chars}
    {document : Document} (parsed : (parse dialect file source).outcome = .ok document) :
    (document.diagnostics.map Diagnostic.notice).Perm
      ((document.toNode.walk.flatMap (Node.concerns dialect.reportUnknown)).map
        (Concern.counted source)) := by
  have sited := sited_of_parse parsed
  have counted : document.toNode.walk.flatMap (Node.recoveries dialect.reportUnknown) =
      (document.toNode.walk.flatMap (Node.concerns dialect.reportUnknown)).map
        (Concern.counted source) := by
    rw [List.map_flatMap]
    refine List.flatMap_congr fun node inside => ?_
    rw [Node.recoveries_eq]
    exact List.map_congr_left fun concern member => Node.notice_of_concern sited inside member
  rw [← counted]
  exact perm_recoveries parsed

/-- Every position that is reported about a template is the counted one: those of its tokens and of
the nodes of its tree at both ends, those of the diagnostics where the directive, the tag or the
attribute starts that they are about, and that of the error where the construct begins that is left
open. -/
theorem reported_positions (dialect : Dialect) (file : Option String) (source : Chars) :
    (∀ token ∈ (scan dialect source).tokens, (token.location file).Sited file source) ∧
    (∀ diagnostic ∈ (scan dialect source).diagnostics, ∃ token ∈ (scan dialect source).tokens,
      diagnostic.Marks token) ∧
    match (parse dialect file source).outcome with
    | .ok document =>
      (∀ node ∈ document.toNode.walk, ∀ location ∈ node.locations, location.Sited file source) ∧
      (document.diagnostics.map Diagnostic.notice).Perm
        ((document.toNode.walk.flatMap (Node.concerns dialect.reportUnknown)).map
          (Concern.counted source))
    | .error error =>
      ∃ fault n, n ≤ source.length ∧
        LeftOpen source (scan dialect source).tokens fault (.counted source n) ∧
        error = .ofFault fault (.counted source n) file := by
  refine ⟨?_, marks_scan dialect source, ?_⟩
  · intro token member
    exact (counted_scan dialect source token member).sited file
  split
  · next document parsed => exact ⟨sited_of_parse parsed, perm_concerns parsed⟩
  · next error failed =>
    unfold parse at failed
    simp only at failed
    split at failed
    · next fault position faulted =>
      obtain ⟨⟨n, bound, rfl⟩, leftOpen⟩ := leftOpen_scan dialect source faulted
      rw [Position.ofOffset_eq_counted bound] at leftOpen failed
      exact ⟨fault, n, bound, leftOpen, (Except.error.inj failed).symm⟩
    · cases failed

end BladeTemplate
