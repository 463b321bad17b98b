import BladeTemplate.Proofs.OneLine
import BladeTemplate.Proofs.Preserved

/-!
# Requests for start tags

Among the requests for a template, those for one start tag stand together, and apart from those for
every other.

* `Page.TagCalls` lists the ways to ask for a start tag: as one text, with whatever stands behind it
  on its line, or with a line for each entry;
* `Page.Tags` says that requests hold those for several start tags, with a law for every way of
  putting requests together;
* `Page.tags_calls` finds the start tags of a node, and of all below it that are printed from their
  parts, among the requests for the node.
-/

namespace BladeTemplate

open Text

namespace Node

/-- What the start tags tell of a node and of those below it that are printed from their parts. -/
def openings (node : Node) : List Markup :=
  node.built.filterMap markup?

/-- What the start tags tell of several nodes and of those below them. -/
def openingsAll (nodes : List Node) : List Markup :=
  nodes.flatMap openings

theorem filterMap_builtAll (nodes : List Node) :
    (builtAll nodes).filterMap markup? = openingsAll nodes := by
  rw [builtAll_eq, List.filterMap_flatMap]
  rfl

theorem built_copied {markup : Markup} (void : Bool) (children : List Node)
    (copied : markup.copiesBody = true) :
    built (.element markup void children) = [.element markup void children] := by
  unfold Markup.copiesBody at copied
  rw [built, if_pos copied]

theorem built_element {markup : Markup} (void : Bool) (children : List Node)
    (notCopied : markup.copiesBody = false) :
    built (.element markup void children) =
      .element markup void children :: builtAll children := by
  unfold Markup.copiesBody at notCopied
  rw [built, if_neg (Bool.eq_false_iff.1 notCopied)]

theorem openingsAll_append (nodes more : List Node) :
    openingsAll (nodes ++ more) = openingsAll nodes ++ openingsAll more :=
  List.flatMap_append

/-- A directive has no start tag. -/
theorem openings_of_middle {node : Node} {middle : Directive}
    (found : node.middle? = some middle) : node.openings = [] := by
  obtain rfl := eq_of_middle found
  rfl

/-- A text has no start tag. -/
theorem openings_of_blank {node : Node} (blank : node.isBlank = true) : node.openings = [] := by
  cases node with
  | text location content => rfl
  | _ => cases blank

/-- A node without start tag that is printed in one piece. -/
theorem openings_of_leaf {node : Node} (leaf : node.built = [node]) (bare : node.markup? = none) :
    node.openings = [] := by
  rw [openings, leaf, List.filterMap_cons_none bare, List.filterMap_nil]

theorem openings_block (location : Location) (opener : Directive) (family : Chars)
    (children : List Node) (last : Directive) (indentsMiddles : Bool) :
    openings (.block location opener family children (some last) indentsMiddles) =
      openingsAll children := by
  rw [openings, built, List.cons_append, List.filterMap_cons_none rfl, List.filterMap_cons_none rfl,
    List.filterMap_append, filterMap_builtAll]
  exact List.append_nil _

theorem openings_copied {markup : Markup} (void : Bool) (children : List Node)
    (copied : markup.copiesBody = true) : openings (.element markup void children) = [markup] := by
  rw [openings, built_copied void children copied]
  rfl

theorem openings_element {markup : Markup} (void : Bool) (children : List Node)
    (notCopied : markup.copiesBody = false) :
    openings (.element markup void children) = markup :: openingsAll children := by
  rw [openings, built_element void children notCopied, ← filterMap_builtAll]
  rfl

theorem openings_component (markup : Markup) (slots children : List Node) :
    openings (.component markup slots children) = markup :: openingsAll (slots ++ children) := by
  simp [openings, built, markup?, filterMap_builtAll, openingsAll_append]

theorem openings_slot (name : Chars) (markup : Markup) (children : List Node) :
    openings (.slot name markup children) = markup :: openingsAll children := by
  simp [openings, built, markup?, filterMap_builtAll]

end Node

namespace Page

open Node

/-- The requests that print a start tag, and text behind it. -/
inductive TagCalls (page : Page) (markup : Markup) : List LineCall → Prop
  | oneLine (rest : Chars) : TagCalls page markup [.raw (page.startTagText markup ++ rest)]
  | wrapped (rest : Chars) : TagCalls page markup (page.wrappedCalls markup (tagEnd markup ++ rest))

/-- Requests for start tags one after the other, with others between them. -/
inductive TagOrder (page : Page) : List Markup → List LineCall → Prop
  | nil (calls : List LineCall) : TagOrder page [] calls
  | cons (others : List LineCall) {markup : Markup} {tag calls : List LineCall}
      {markups : List Markup} : TagCalls page markup tag → TagOrder page markups calls →
      TagOrder page (markup :: markups) (others ++ tag ++ calls)

/-- The requests hold those for start tags, in some order. -/
def Tags (page : Page) (markups : List Markup) (calls : List LineCall) : Prop :=
  ∃ order : List Markup, order.Perm markups ∧ page.TagOrder order calls

variable {page : Page} {markup : Markup} {markups more : List Markup} {calls later : List LineCall}
  {level : Nat}

/-! ## Putting requests together -/

theorem TagOrder.after (others : List LineCall) (tags : page.TagOrder markups calls) :
    page.TagOrder markups (others ++ calls) := by
  cases tags with
  | nil => exact .nil _
  | cons between first rest =>
    rw [← List.append_assoc, ← List.append_assoc]
    exact .cons (others ++ between) first rest

theorem TagOrder.append (first : page.TagOrder markups calls) (second : page.TagOrder more later) :
    page.TagOrder (markups ++ more) (calls ++ later) := by
  induction first with
  | nil calls => exact second.after calls
  | cons others tag _ ih =>
    rw [List.append_assoc, List.cons_append]
    exact .cons others tag ih

namespace Tags

theorem none (page : Page) (calls : List LineCall) : page.Tags [] calls :=
  ⟨[], .refl _, .nil calls⟩

theorem append (first : page.Tags markups calls) (second : page.Tags more later) :
    page.Tags (markups ++ more) (calls ++ later) := by
  obtain ⟨before, permBefore, tagsBefore⟩ := first
  obtain ⟨after, permAfter, tagsAfter⟩ := second
  exact ⟨before ++ after, permBefore.append permAfter, tagsBefore.append tagsAfter⟩

theorem perm (tags : page.Tags markups calls) (same : markups.Perm more) :
    page.Tags more calls := by
  obtain ⟨order, perm, tags⟩ := tags
  exact ⟨order, perm.trans same, tags⟩

theorem after (others : List LineCall) (tags : page.Tags markups calls) :
    page.Tags markups (others ++ calls) := (none page others).append tags

theorem before (tags : page.Tags markups calls) (others : List LineCall) :
    page.Tags markups (calls ++ others) := by
  have padded := tags.append (none page others)
  rwa [List.append_nil] at padded

theorem single {tag : List LineCall} (tag_ : page.TagCalls markup tag) :
    page.Tags [markup] tag := by
  have alone : page.TagOrder [markup] ([] ++ tag ++ []) := .cons [] tag_ (.nil [])
  rw [List.nil_append, List.append_nil] at alone
  exact ⟨[markup], .refl _, alone⟩

theorem cons {tag : List LineCall} (first : page.Tags [markup] tag)
    (rest : page.Tags markups calls) : page.Tags (markup :: markups) (tag ++ calls) :=
  first.append rest

/-- Requests for one node after another. -/
theorem flatMap {nodes : List Node} {ask : Node → List LineCall}
    (each : ∀ node ∈ nodes, page.Tags node.openings (ask node)) :
    page.Tags (openingsAll nodes) (nodes.flatMap ask) := by
  induction nodes with
  | nil => exact none page []
  | cons node rest ih =>
    exact (each node List.mem_cons_self).append
      (ih fun other member => each other (List.mem_cons_of_mem node member))

end Tags

/-! ## Start tags -/

theorem tags_startTagText (page : Page) (markup : Markup) :
    page.Tags [markup] [.raw (page.startTagText markup)] := by
  have bare : page.TagCalls markup _ := .oneLine []
  rw [List.append_nil] at bare
  exact .single bare

theorem tags_startTagCalls (page : Page) (markup : Markup) (wrapped : Bool) :
    page.Tags [markup] (page.startTagCalls markup wrapped) := by
  unfold startTagCalls
  split
  · have bare : page.TagCalls markup _ := .wrapped []
    rw [List.append_nil] at bare
    exact .single bare
  · exact page.tags_startTagText markup

theorem tags_loneTagCalls (page : Page) (markup : Markup) (rest : Chars) :
    page.Tags [markup] (page.loneTagCalls markup (tagEnd markup ++ rest)) := by
  have tag : page.TagCalls markup _ := .wrapped rest
  exact ((Tags.single tag).after [.newline]).before [.newline]

/-! ## Content -/

/-- At whatever level a node is printed, the requests for it hold those for its start tags. -/
def Asks (page : Page) (node : Node) : Prop :=
  ∀ level, page.Tags node.openings (page.calls node level)

section content

variable {nodes : List Node} (asks : ∀ node ∈ nodes, page.Asks node)

include asks

theorem tags_allCalls : page.Tags (openingsAll nodes) (allCalls (page.scripts nodes) level) := by
  rw [allCalls, scripts_eq, List.flatMap_map]
  exact .flatMap fun node member => asks node member level

theorem tags_contentCalls :
    page.Tags (openingsAll nodes) ((page.scripts nodes).flatMap (contentCalls level)) := by
  rw [scripts_eq, List.flatMap_map]
  refine .flatMap fun node member => ?_
  have own := asks node member level
  unfold contentCalls
  split
  · exact (own.after [.newline]).before [.newline]
  · exact own

theorem tags_branchCalls :
    page.Tags (openingsAll nodes) (page.branchCalls (page.scripts nodes) level) := by
  rw [branchCalls, scripts_eq, List.flatMap_map]
  refine .flatMap fun node member => ?_
  simp only
  split
  · next middle found =>
    rw [openings_of_middle found]
    exact .none page _
  · exact asks node member level

theorem tags_labelCalls (inBranch : Bool) :
    page.Tags (openingsAll nodes) (page.labelCalls level inBranch (page.scripts nodes)) := by
  induction nodes generalizing inBranch with
  | nil => exact .none page _
  | cons node rest ih =>
    have later := ih fun other member => asks other (List.mem_cons_of_mem node member)
    rw [scripts, labelCalls]
    simp only
    split
    · next middle found =>
      have bare : openingsAll (node :: rest) = openingsAll rest := by
        rw [openingsAll, List.flatMap_cons, openings_of_middle found, List.nil_append]
        rfl
      rw [bare]
      exact (later true).after _
    · exact (asks node List.mem_cons_self _).append (later inBranch)

theorem tags_blockCalls (inline : Bool) (opener closer : Directive) (indentsMiddles : Bool) :
    page.Tags (openingsAll nodes)
      (page.blockCalls inline opener closer indentsMiddles (page.scripts nodes) level) := by
  unfold blockCalls
  split
  · exact ((tags_allCalls asks).after _).before _
  · rw [List.append_assoc _ [LineCall.dedent]]
    refine (Tags.after _ ?_).before _
    split
    · exact tags_labelCalls asks false
    · exact tags_branchCalls asks

end content

/-! ## Markup -/

/-- Nothing but white space, which has no start tag. -/
theorem openingsAll_of_hollow {slots children : List Node}
    (hollow : isHollow slots children = true) : openingsAll (slots ++ children) = [] := by
  simp only [isHollow, Bool.and_eq_true, List.isEmpty_iff, List.all_eq_true] at hollow
  rw [hollow.1, List.nil_append]
  exact List.flatMap_eq_nil_iff.2 fun node member => openings_of_blank (hollow.2 node member)

section markup

variable {slots children : List Node} (asks : ∀ node ∈ slots ++ children, page.Asks node)
  (markup : Markup) (void : Bool) (alone : (markup.selfClosing || void) = true →
    slots ++ children = [])

include asks alone

theorem tags_closedCalls (childrenInline : Bool) :
    page.Tags (markup :: openingsAll (slots ++ children))
      (page.closedCalls markup void (page.scripts slots) (page.scripts children) childrenInline
        level) := by
  unfold closedCalls
  simp only [map_node_scripts]
  split
  · next single =>
    rw [alone single]
    split
    · have lone := page.tags_loneTagCalls markup []
      rwa [List.append_nil] at lone
    · exact page.tags_startTagText markup
  next notAlone =>
  split
  · next hollow =>
    rw [openingsAll_of_hollow hollow]
    split
    · have notSelf : markup.selfClosing = false := by
        cases self : markup.selfClosing
        · rfl
        · simp [self] at notAlone
      have same : '>' :: endTagText markup = tagEnd markup ++ endTagText markup := by
        simp [tagEnd, notSelf]
      rw [same]
      exact page.tags_loneTagCalls markup (endTagText markup)
    · exact .single (.oneLine (endTagText markup))
  split
  · next flows =>
    have noSlots : slots = [] := by
      simp [breaks] at flows
      exact flows.1.1.2
    rw [noSlots, List.nil_append] at asks ⊢
    exact ((page.tags_startTagText markup).cons (tags_allCalls asks)).before _
  · rw [← scripts_append]
    have opened := (page.tags_startTagCalls markup (page.wraps markup level)).after [.newline]
    exact ((opened.before [.newline, .indent]).cons (tags_contentCalls asks)).before _

theorem tags_markupCalls :
    page.Tags (markup :: openingsAll (slots ++ children))
      (page.markupCalls markup void (page.scripts slots) (page.scripts children) level) := by
  unfold markupCalls
  split
  · rw [← scripts_append, unclosedCalls, mergeSort_scripts]
    have sorted := List.mergeSort_perm (slots ++ children) fun a b =>
      a.location.offset ≤ b.location.offset
    have content := @tags_allCalls page level _ fun node member =>
      asks node (sorted.mem_iff.1 member)
    exact (page.tags_startTagText markup).cons (content.perm (sorted.flatMap_right openings))
  · exact tags_closedCalls asks markup void alone _

end markup

/-! ## Trees -/

variable {registry : Registry}

/-- The requests for a node hold those for its start tag and the start tags below it. -/
theorem tags_calls {node : Node} (whole : node.Whole registry page.source) : page.Asks node := by
  induction whole with
  | text | echo | comment | region | directive | endTag | openBlock =>
    intro level
    rw [openings_of_leaf rfl rfl]
    exact .none page _
  | @block _ opener closer _ _ indentsMiddles _ _ _ _ _ _ _ _ _ ih =>
    intro level
    rw [openings_block, calls]
    exact tags_blockCalls ih _ opener closer indentsMiddles
  | @element markup void children _ _ _ shaped _ ih =>
    intro level
    cases copied : markup.copiesBody with
    | true =>
      rw [openings_copied void children copied, page.calls_of_copied void children level copied]
      unfold rawTextCalls
      simp only [List.append_assoc]
      exact ((page.tags_startTagCalls markup _).before _).after _
    | false =>
      rw [openings_element void children copied, page.calls_of_markup void children level copied]
      exact @tags_markupCalls page level [] children ih markup void (content_of_single shaped)
  | @slot _ markup children _ _ _ shaped _ ih =>
    intro level
    rw [openings_slot, calls]
    exact @tags_markupCalls page level [] children ih markup false (content_of_single shaped)
  | @component markup children _ _ spans shaped wholes ih =>
    intro level
    rw [openings_component, calls]
    refine tags_markupCalls (fun node member => ?_) markup false
      (content_of_single_component (.component spans shaped wholes))
    exact ih node ((List.filter_append_perm _ _).mem_iff.1 member)

end Page

end BladeTemplate
