import BladeTemplate.Proofs.Assembly

/-!
# Outlines

What the guard compares of a draft is the same for every layout: the constructs, and the ink of the
texts between them.

* `Flow.outline` lists the marks of each node at the top of a flow that is not blank;
* `Flow.Builds.outline` says that it is what the tree of the flow is compared by;
* `Draft.outline_tidy` says that the canonical layout does not change it.
-/

namespace BladeTemplate

open Text

namespace Flow

/-- The marks of a text: none if it is blank. -/
def textOutline (gap : Chars) : List (List Mark) :=
  if (squeeze gap).isEmpty then [] else [[.text (squeeze gap)]]

/-- The marks of the nodes at the top that are not blank, node by node. -/
def outline : Flow → List (List Mark)
  | .plain gap => textOutline gap
  | .echo gap braced rest =>
    textOutline gap ++ [.echo false (squeeze braced.body)] :: rest.outline
  | .element gap tag inside rest =>
    textOutline gap ++
      (.element tag.text true false [] :: inside.outline.flatten ++ [.close]) :: rest.outline
  | .block gap opening inside rest =>
    textOutline gap ++
      (.block opening.keyword.name.toList true ::
        .directive (lower opening.keyword.name.toList) (some (squeeze opening.arguments)) .opens
          false :: inside.outline.flatten ++
        [.directive (lower opening.keyword.endName.toList) none .closes false, .close]) ::
      rest.outline
  | .otherwise gap rest =>
    textOutline gap ++ [.directive (lower "else".toList) none .middle false] :: rest.outline

end Flow

/-! ## Trees of flows -/

namespace Node

/-- The marks of the nodes that are not blank, node by node. -/
def outline (sort : Bool) (nodes : List Node) : List (List Mark) :=
  (nodes.filter (!·.isBlank)).map (·.marks sort)

theorem outline_append (sort : Bool) (before after : List Node) :
    outline sort (before ++ after) = outline sort before ++ outline sort after := by
  simp [outline]

theorem outline_cons (sort : Bool) {node : Node} (inked : node.isBlank = false) (rest : List Node) :
    outline sort (node :: rest) = node.marks sort :: outline sort rest := by
  simp [outline, inked]

/-- Blank nodes leave no marks. -/
theorem marksAll_eq (sort : Bool) (nodes : List Node) :
    marksAll sort nodes = (outline sort nodes).flatten := by
  induction nodes with
  | nil => rfl
  | cons node rest ih =>
    rw [marksAll, ih]
    cases blank : node.isBlank with
    | false => rw [outline_cons sort blank, List.flatten_cons]
    | true => simp [marks_of_isBlank sort blank, outline, blank]

end Node

theorem Attribute.order_nil (sort : Bool) : order [] sort = [] := by
  cases sort with
  | false => rfl
  | true => simp [order, arrange, sortRun]

theorem Directive.Plays.mark {directive : Directive} {name : Chars} {arguments : Option Chars}
    {pairing : Pairing} {spaced : Bool} (plays : directive.Plays name arguments pairing spaced) :
    Mark.ofDirective directive = .directive (lower name) (arguments.map squeeze) pairing false := by
  unfold Mark.ofDirective
  rw [plays.named, plays.arguments, plays.pairing, plays.registered, plays.inBlock]
  rfl

namespace Flow

theorem Leaves.outline {gap : Chars} {nodes : List Node} (leaves : Leaves gap nodes) (sort : Bool) :
    Node.outline sort nodes = textOutline gap := by
  unfold textOutline
  cases leaves with
  | none => rfl
  | some _ =>
    cases blank : isBlankText gap with
    | true => simp [Node.outline, Node.isBlank, blank, squeeze_of_blank blank]
    | false =>
      have inked : (squeeze gap).isEmpty = false := by
        rw [List.isEmpty_eq_false_iff, ne_eq, squeeze_eq_nil_iff, blank]
        decide
      simp [Node.outline, Node.isBlank, blank, Node.marks, inked]

/-- The tree of a flow is compared by the outline of the flow. -/
theorem Builds.outline {flow : Flow} {nodes : List Node} (builds : flow.Builds nodes)
    (sort : Bool) : Node.outline sort nodes = flow.outline := by
  induction builds with
  | plain leaves => exact leaves.outline sort
  | echo leaves _ ih =>
    rw [Node.outline_append, leaves.outline, Node.outline_cons sort rfl, ih]
    rfl
  | otherwise leaves plays _ ih =>
    rw [Node.outline_append, leaves.outline, Node.outline_cons sort rfl, ih, Node.marks, plays.mark]
    rfl
  | @element _ tag _ _ _ _ _ _ leaves ended _ _ ihInside ih =>
    rw [Node.outline_append, leaves.outline, Node.outline_cons sort rfl, ih, Node.marks,
      Node.marksAll_eq, ihInside, ended.bare.tag, tag.lower_text, ended.bare.closed,
      ended.bare.selfClosing]
    simp [Flow.outline, Mark.ofEntries, Attribute.order_nil, ended.bare.attributes]
  | block leaves plays _ playsLast _ ihInside ih =>
    rw [Node.outline_append, leaves.outline, Node.outline_cons sort rfl, ih, Node.marks,
      Node.marksAll_eq, ihInside, plays.mark]
    simp [Flow.outline, playsLast.mark]

end Flow

/-! ## Layouts of a draft -/

theorem Space.squeeze_text (space : Space) : squeeze space.text = [] :=
  squeeze_of_blank (List.all_eq_true.2 fun c member => (space.blank c member).1)

theorem squeeze_emptyLines (count : Nat) : squeeze (List.replicate count '\n') = [] := by
  refine squeeze_of_blank (List.all_eq_true.2 fun c member => ?_)
  rw [List.eq_of_mem_replicate member]
  decide

theorem Phrase.inked (phrase : Phrase) : squeeze phrase.text ≠ [] := by
  intro blank
  have empty := phrase.trimmed
  rw [trim, trimLeft_of_blank (squeeze_eq_nil_iff.1 blank)] at empty
  exact phrase.nonempty empty.symm

theorem Interpolation.squeeze_body (braced : Interpolation) :
    squeeze braced.body = squeeze braced.expression := by
  simp [body, Space.squeeze_text]

namespace Interlude

variable {fresh : Bool} {gap : Chars}

theorem emptyLines (opened : Interlude fresh gap) (count : Nat) :
    Interlude fresh (gap ++ List.replicate count '\n') := by
  induction count with
  | zero => simpa using opened
  | succ count ih =>
    have next := ih.blankLine .none
    simpa [Space.none, List.replicate_succ'] using next

/-- The end of the last text of a flow is blank. -/
theorem squeeze_finish (opened : Interlude fresh gap) (final : Option Space) :
    squeeze (finish final gap) = squeeze gap := by
  cases final with
  | some lead => simp [finish, lead.squeeze_text]
  | none =>
    rcases opened.lines with ⟨rfl, _⟩ | ⟨before, rfl⟩
    · rfl
    · simp [finish]

end Interlude

namespace Draft

theorem flow_spaced (count : Nat) (draft : Draft) (final : Option Space) (gap : Chars) :
    (spaced count draft).flow final gap =
      draft.flow final (gap ++ List.replicate count '\n') := by
  induction count generalizing gap with
  | zero => simp [spaced]
  | succ count ih =>
    simp only [spaced, flow, Space.none, List.append_nil, ih]
    rw [List.append_assoc, List.singleton_append, List.replicate_succ]

/-- The canonical layout has the outline of the draft, whatever stands at either end. -/
theorem outline_tidy (config : Config) (draft : Draft) {fresh other : Bool} {gap tidied : Chars}
    (drafted : Interlude fresh gap) (laid : Interlude other tidied)
    (same : squeeze gap = squeeze tidied) (depth : Nat) (opened : Bool) (passed : Nat)
    (final last : Option Space) :
    (draft.flow final gap).outline =
      ((draft.tidy config depth opened passed).flow last tidied).outline := by
  -- Of the text before a construct, only the ink counts.
  have before {gap tidied : Chars} (same : squeeze gap = squeeze tidied) (lead indent : Space)
      (count : Nat) : Flow.textOutline (gap ++ lead.text) =
        Flow.textOutline (tidied ++ List.replicate count '\n' ++ indent.text) := by
    simp [Flow.textOutline, Space.squeeze_text, squeeze_emptyLines, same]
  -- After a construct, neither text has any.
  have trails (trail : Space) :
      squeeze (trail.text ++ ['\n']) = squeeze (Space.none.text ++ ['\n']) := by
    simp [Space.squeeze_text]
  induction draft generalizing fresh other gap tidied depth opened passed final last with
  | done =>
    simp [flow, tidy, Flow.outline, Flow.textOutline, drafted.squeeze_finish, laid.squeeze_finish,
      same]
  | blank space rest ih =>
    exact ih (drafted.blankLine space) laid (by simpa [Space.squeeze_text] using same) _ _ _ _ _
  | text margin phrase rest ih =>
    rw [tidy, flow_spaced]
    refine ih (drafted.phraseLine margin phrase) ((laid.emptyLines _).phraseLine _ phrase) ?_ _ _ _
      _ _
    simp [Margin.around, Space.squeeze_text, squeeze_emptyLines, same]
  | echo margin braced rest ih =>
    rw [tidy, flow_spaced, flow, flow, Flow.outline, Flow.outline, before same margin.lead,
      Interpolation.squeeze_body, Interpolation.squeeze_body,
      ih (.trail margin.trail) (.trail .none) (trails _)]
    rfl
  | otherwise margin rest ih =>
    rw [tidy, flow, flow, Flow.outline, Flow.outline, before same margin.lead _ 0,
      ih (.trail margin.trail) (.trail .none) (trails _)]
    rw [List.replicate_zero, List.append_nil]
    rfl
  | element start tag inside stop rest ihInside ih =>
    rw [tidy, flow_spaced, flow, flow, Flow.outline, Flow.outline, before same start.lead,
      ihInside (.trail start.trail) (.trail .none) (trails _),
      ih (.trail stop.trail) (.trail .none) (trails _)]
    rfl
  | block start opening inside stop rest ihInside ih =>
    rw [tidy, flow_spaced, flow, flow, Flow.outline, Flow.outline, before same start.lead,
      ihInside (.trail start.trail) (.trail .none) (trails _),
      ih (.trail stop.trail) (.trail .none) (trails _)]
    rfl

/-- A draft that holds something has an outline. -/
theorem outline_ne_nil {draft : Draft} {gap : Chars} (lead : Space)
    (inked : draft.filled = true ∨ squeeze gap ≠ []) :
    (draft.flow (some lead) gap).outline ≠ [] := by
  induction draft generalizing gap with
  | done =>
    have ink : squeeze gap ≠ [] := inked.resolve_left (by simp [filled])
    simp [flow, Flow.outline, Flow.textOutline, finish, lead.squeeze_text, ink]
  | blank space rest ih =>
    refine ih ?_
    simpa [filled, space.squeeze_text] using inked
  | text margin phrase rest ih =>
    refine ih (.inr ?_)
    simp [Margin.around, phrase.inked]
  | echo | otherwise | element | block => simp [flow, Flow.outline]

/-- A draft that holds something becomes more than blank nodes. -/
theorem not_all_isBlank {draft : Draft} (filled : draft.filled = true) {lead : Space} {gap : Chars}
    {nodes : List Node} (builds : (draft.flow (some lead) gap).Builds nodes) :
    nodes.all Node.isBlank = false := by
  have marked := outline_ne_nil lead (.inl filled : _ ∨ squeeze gap ≠ [])
  rw [← builds.outline true] at marked
  rw [← Bool.not_eq_true, List.all_eq_true]
  intro blank
  refine marked ?_
  rw [Node.outline, List.filter_eq_nil_iff.2, List.map_nil]
  intro node member
  simp [blank node member]

/-- Middles that are placed stand in a block that may have branches. -/
theorem branched_flow {draft : Draft} {branches : Bool} (placed : draft.placed branches = true)
    (final : Option Space) (gap : Chars) : (draft.flow final gap).branched branches = true := by
  induction draft generalizing branches final gap with
  | done => rfl
  | blank _ _ ih | text _ _ _ ih | echo _ _ _ ih => exact ih placed _ _
  | otherwise _ _ ih =>
    simp only [Draft.placed, Bool.and_eq_true] at placed
    simp only [flow, Flow.branched, Bool.and_eq_true]
    exact ⟨placed.1, ih placed.2 _ _⟩
  | element _ _ _ _ _ ihInside ih =>
    simp only [Draft.placed, Bool.and_eq_true] at placed
    simp [flow, Flow.branched, ihInside placed.1.2, ih placed.2]
  | block _ _ _ _ _ ihInside ih =>
    simp only [Draft.placed, Bool.and_eq_true] at placed
    simp [flow, Flow.branched, ihInside placed.1, ih placed.2]

end Draft

end BladeTemplate
