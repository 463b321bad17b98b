import BladeTemplate.Proofs.Lossless
import BladeTemplate.Proofs.Typeset

/-!
# Printing the trees of drafts

Every construct of a draft starts and ends a line, and what it holds goes one level deeper. So the
lines that are printed are those of the canonical layout.

* the texts of the constructs are those of the canonical layout, `Interpolation.formatEcho_body` and
  the lemmas after it;
* `Page.print_element` and `Page.print_block` print a construct around its content;
* `Page.settled_draft` is the layout of a scope, and `render_draft` that of a template.
-/

namespace BladeTemplate

open Text

/-! ## The texts of constructs -/

namespace Interpolation

theorem single_body (braced : Interpolation) : '\n' ∉ braced.body := by
  have inside : '\n' ∉ braced.expression := fun member => (braced.simple _ member).1 rfl
  simp [body, braced.before.single, braced.after.single, inside]

theorem single_text (braced : Interpolation) : '\n' ∉ braced.text := by
  simp [text, braced.single_body]

/-- An echo is printed with one space on either side. -/
theorem formatEcho_body (braced : Interpolation) :
    formatEcho .escaped braced.body = braced.tidy.text := by
  have single : isMultiline braced.body = false := by simp [isMultiline, braced.single_body]
  have trimmed : trim braced.body = braced.expression := by
    rw [body, trim_append_blank _ braced.after.isBlankText,
      trim_blank_append braced.before.isBlankText, braced.trimmed]
  unfold formatEcho
  simp only [single, trimmed, List.isEmpty_iff, braced.nonempty]
  simp [text, tidy, body, EchoStyle.opener, EchoStyle.closer, Space.one]

end Interpolation

namespace TagName

theorem nonempty (tag : TagName) : tag.text ≠ [] := by
  obtain ⟨c, rest, found, _⟩ := tag.exists_cons
  simp [found]

theorem single_text (tag : TagName) : '\n' ∉ tag.text := by
  intro member
  exact absurd (tag.tagged _ member) (by decide)

theorem single_opening (tag : TagName) : '\n' ∉ tag.opening := by
  simp [opening, tag.single_text]

end TagName

namespace Markup.Ended

variable {markup : Markup} {tag : TagName}

theorem startTagText (ended : markup.Ended tag) (page : Page) :
    page.startTagText markup = tag.opening := by
  simp [Page.startTagText, Page.orderedAttributes, ended.bare.attributes, Attribute.order_nil,
    ended.bare.selfClosing, ended.bare.tag, TagName.opening]

theorem endTagText (ended : markup.Ended tag) : Page.endTagText markup = tag.closing := by
  simp [Page.endTagText, ended.endTag, TagName.closing, tag.nonempty]

theorem wraps (ended : markup.Ended tag) (page : Page) (level : Nat) :
    page.wraps markup level = false := by
  simp [Page.wraps, ended.bare.attributes]

end Markup.Ended

theorem Opening.single_text (opening : Opening) : '\n' ∉ opening.text := by
  have name : '\n' ∉ opening.keyword.name.toList := by cases opening.keyword <;> decide
  have gap : '\n' ∉ opening.gap := fun member => absurd (opening.spaces _ member) (by decide)
  have arguments : '\n' ∉ opening.arguments := fun member => (opening.simple _ member).1 rfl
  simp [text, name, gap, arguments]

theorem Keyword.single_closing (keyword : Keyword) : '\n' ∉ keyword.closing := by
  cases keyword <;> decide

namespace Directive

variable {directive : Directive}

/-- An opener is printed with the white space of the registry before its arguments. -/
theorem Plays.text_opener {opening : Opening}
    (plays : directive.Plays opening.keyword.name.toList (some opening.arguments) .opens
      (Descriptor.opener opening.keyword.name).spacedArguments) (page : Page) :
    page.directiveText directive = opening.tidy.text := by
  have spaced (keyword : Keyword) :
      (if (Descriptor.opener keyword.name).spacedArguments then [' '] else []) =
        if keyword = .presence then [] else [' '] := by
    cases keyword <;> rfl
  simp only [Page.directiveText, plays.inBlock, plays.registered, plays.pairing, plays.arguments,
    plays.named, plays.spaced, spaced]
  rfl

theorem Plays.text_middle (plays : directive.Plays "else".toList none .middle false) (page : Page) :
    page.directiveText directive = otherwiseText := by
  simp only [Page.directiveText, plays.inBlock, plays.registered, plays.pairing, plays.arguments,
    plays.named]
  rfl

/-- A closer is printed by its name, which is also how it is written. -/
theorem Plays.text_closer {keyword : Keyword} {registry : Registry} {source : Chars} {a b : Nat}
    (plays : directive.Plays keyword.endName.toList none .closes false)
    (placed : directive.Placed registry source a b) (page : Page) :
    page.directiveText directive = keyword.closing := by
  have written : directive.source = keyword.closing := by
    rcases placed.written.shape with ⟨_, bare⟩ | ⟨_, _, called, _⟩
    · rw [placed.written.text, bare, plays.written]
      rfl
    · rw [plays.arguments] at called
      cases called
  have spelled : '@' :: keyword.endName.toList = keyword.closing := rfl
  simp only [Page.directiveText, plays.inBlock, plays.registered, plays.pairing, plays.arguments,
    plays.named, written, spelled, ite_self]

end Directive

/-! ## One construct -/

theorem Lines.newline_raw_between {config : Config} {rows : List Chars} {level asked : Nat}
    {opened : Bool} {fragment : Chars} (single : '\n' ∉ fragment) (nonempty : fragment ≠ [])
    (written : opened = true → rows ≠ []) :
    ((between config rows level opened asked).raw fragment).newline =
      between config
        (rows ++ (List.replicate (config.kept opened asked) [] ++
          [(config.margin level).around fragment])) level true 0 := by
  rw [raw_of_single single, newline_append_between nonempty written]

/-- A line without blank lines before it. -/
theorem Lines.newline_raw_fresh {config : Config} {rows : List Chars} {level : Nat}
    {fragment : Chars} (single : '\n' ∉ fragment) (nonempty : fragment ≠ []) :
    ((between config rows level false 0).raw fragment).newline =
      between config (rows ++ [(config.margin level).around fragment]) level true 0 := by
  rw [newline_raw_between single nonempty (by simp)]
  rfl

namespace Page

/-- Print nodes as the content of a block. -/
def printNodes (page : Page) (nodes : List Node) (out : Lines) : Lines :=
  page.printBranches (page.pieces nodes) out

variable {page : Page} {out : Lines}

theorem printNodes_append (before after : List Node) :
    page.printNodes (before ++ after) out = page.printNodes after (page.printNodes before out) := by
  simp [printNodes, printBranches, pieces_eq]

theorem printNodes_cons {node : Node} (notMiddle : node.middle? = none) (rest : List Node) :
    page.printNodes (node :: rest) out = page.printNodes rest (page.print node out) := by
  simp [printNodes, printBranches, pieces_eq, notMiddle]

theorem printNodes_middle {middle : Directive} (separates : middle.separates = true)
    (rest : List Node) : page.printNodes (.directive middle :: rest) out =
      page.printNodes rest (page.printLine middle out.dedent).indent := by
  simp [printNodes, printBranches, pieces_eq, Node.middle?, separates]

theorem printNodes_leaves {gap : Chars} {before : List Node} (leaves : Flow.Leaves gap before) :
    page.printNodes before out = printText gap out := by
  cases leaves with
  | none => rfl
  | some _ => exact printNodes_cons rfl []

end Page

/-- Not a middle and not a slot: printed the same wherever it stands. -/
structure Node.Flows (node : Node) : Prop where
  notMiddle : node.middle? = none
  notSlot : ∀ name markup children, node ≠ .slot name markup children

theorem Flow.Leaves.flows {gap : Chars} {before : List Node} (leaves : Leaves gap before) :
    ∀ node ∈ before, node.Flows := by
  cases leaves with
  | none => simp
  | some _ =>
    intro node member
    rw [List.mem_singleton.1 member]
    exact ⟨rfl, by simp⟩

theorem Flow.Builds.flows {flow : Flow} {nodes : List Node} (builds : flow.Builds nodes)
    (branched : flow.branched false = true) : ∀ node ∈ nodes, node.Flows := by
  have step {before more : List Node} {node : Node} (first : ∀ node ∈ before, node.Flows)
      (one : node.Flows) (later : ∀ node ∈ more, node.Flows) :
      ∀ other ∈ before ++ node :: more, other.Flows := by
    intro other member
    rcases List.mem_append.1 member with inBefore | after
    · exact first other inBefore
    · rcases List.mem_cons.1 after with rfl | inMore
      · exact one
      · exact later other inMore
  induction builds with
  | plain leaves => exact leaves.flows
  | echo leaves _ ih => exact step leaves.flows ⟨rfl, by simp⟩ (ih branched)
  | element leaves _ _ _ _ ih | block leaves _ _ _ _ _ ih =>
    rw [Flow.branched, Bool.and_eq_true] at branched
    exact step leaves.flows ⟨rfl, by simp⟩ (ih branched.2)
  | otherwise => simp [Flow.branched] at branched

namespace Page

variable {page : Page} {out : Lines} {nodes : List Node}

theorem printAll_pieces (flows : ∀ node ∈ nodes, node.Flows) :
    printAll (page.pieces nodes) out = page.printNodes nodes out := by
  induction nodes generalizing out with
  | nil => rfl
  | cons node rest ih =>
    rw [printNodes_cons (flows node (by simp)).notMiddle,
      ← ih fun other member => flows other (List.mem_cons_of_mem node member)]
    rfl

theorem foldl_printContent (flows : ∀ node ∈ nodes, node.Flows) :
    (page.pieces nodes).foldl printContent out = page.printNodes nodes out := by
  induction nodes generalizing out with
  | nil => rfl
  | cons node rest ih =>
    have one : printContent out ⟨node, page.print node⟩ = page.print node out := by
      unfold printContent
      split
      · next slot => exact absurd slot ((flows node (by simp)).notSlot _ _ _)
      · rfl
    rw [printNodes_cons (flows node (by simp)).notMiddle,
      ← ih fun other member => flows other (List.mem_cons_of_mem node member), ← one]
    rfl

/-- Content that starts with a line break is not written on one line. -/
theorem allInline_of_builds {flow : Flow} (builds : flow.Builds nodes)
    (readable : flow.Readable false true) (level : Nat) : page.allInline level nodes = false := by
  have ofGap {gap : Chars} {before : List Node} (leaves : Flow.Leaves gap before)
      (fits : Flow.Fits false true gap) (more : List Node) :
      page.allInline level (before ++ more) = false := by
    have several := fits.breaks rfl rfl
    cases leaves with
    | none => cases several
    | some _ => simp [allInline, isInline, isMultiline, several]
  cases builds with
  | plain leaves => simpa using ofGap leaves readable []
  | echo leaves | otherwise leaves => exact ofGap leaves readable.1 _
  | element leaves | block leaves => exact ofGap leaves readable.1 _

variable {rows inside : List Chars} {level asked : Nat} {opened : Bool} {kids : List Node}

/-- An echo on a line of its own. -/
theorem newline_print_echo (braced : Interpolation) (location : Location)
    (written : opened = true → rows ≠ []) :
    (page.print (.echo ⟨location, braced.body, false⟩)
        (.between page.config rows level opened asked)).newline =
      .between page.config
        (rows ++ (List.replicate (page.config.kept opened asked) [] ++
          [(page.config.margin level).around braced.tidy.text])) level true 0 := by
  have text := braced.formatEcho_body
  unfold print Echo.style
  simp only [Bool.false_eq_true, if_false, text]
  exact Lines.newline_raw_between braced.tidy.single_text (by simp [Interpolation.text]) written

/-- A middle is level with the opener of its block. -/
theorem printLine_middle {middle : Directive}
    (plays : middle.Plays "else".toList none .middle false) (positive : 0 < level) :
    (page.printLine middle (Lines.between page.config rows level opened asked).dedent).indent =
      .between page.config
        (rows ++ [(page.config.margin (level - 1)).around otherwiseText]) level false 0 := by
  unfold printLine
  rw [plays.text_middle, Lines.dedent_between, Lines.newline_between,
    Lines.newline_raw_fresh (by decide) (by decide), Lines.indent_between,
    Nat.sub_add_cancel positive]

/-- An element whose content goes on lines of its own. -/
theorem print_element {markup : Markup} {tag : TagName} (ended : markup.Ended tag)
    (written : opened = true → rows ≠ []) (flows : ∀ node ∈ kids, node.Flows)
    (inked : kids.all Node.isBlank = false) (broken : page.allInline level kids = false)
    (settled : Lines.Settled page.config inside (level + 1) (page.printNodes kids
      (.between page.config (rows ++ (List.replicate (page.config.kept opened asked) [] ++
        [(page.config.margin level).around tag.opening])) (level + 1) false 0))) :
    page.print (.element markup false kids) (.between page.config rows level opened asked) =
      .between page.config (inside ++ [(page.config.margin level).around tag.closing]) level true
        0 := by
  have notRaw : Tag.isOneOf Tag.rawTextNames markup.tag = false := by
    rw [ended.bare.tag, tag.notRaw]
  have notHollow : isHollow [] kids = false := by simp [isHollow, inked]
  have opens := @Lines.newline_raw_between page.config rows level asked opened _ tag.single_opening
    (by simp [TagName.opening]) written
  have closes := @Lines.newline_append_between page.config inside level false 0 tag.closing
    (by simp [TagName.closing]) (by simp)
  have breaks : page.breaks level markup [] kids false = true := by simp [breaks]
  have levels : (Lines.between page.config rows level opened asked).level = level := rfl
  unfold print printMarkup printClosed
  simp only [notRaw, ended.bare.closed, ended.bare.selfClosing, map_node_pieces, ended.wraps,
    List.map_nil, List.nil_append, notHollow, levels, broken, breaks, printStartTag,
    ended.startTagText, ended.endTagText, Lines.newline_between, foldl_printContent flows]
  simp only [Bool.and_false, Bool.not_true, Bool.or_self, Bool.false_eq_true, if_false, opens,
    Lines.indent_between]
  rw [settled.dedent_newline, Nat.add_sub_cancel, closes]
  rfl

/-- A block. -/
theorem print_block {opening : Opening} {location : Location} {family : Chars}
    {opener closer : Directive} (first : page.directiveText opener = opening.tidy.text)
    (last : page.directiveText closer = opening.keyword.closing)
    (written : opened = true → rows ≠ []) (broken : page.allInline level kids = false)
    (settled : Lines.Settled page.config inside (level + 1) (page.printNodes kids
      (.between page.config (rows ++ (List.replicate (page.config.kept opened asked) [] ++
        [(page.config.margin level).around opening.tidy.text])) (level + 1) false 0))) :
    page.print (.block location opener family kids (some closer) false)
        (.between page.config rows level opened asked) =
      .between page.config
        (inside ++ [(page.config.margin level).around opening.keyword.closing]) level true 0 := by
  have opens := @Lines.newline_raw_between page.config rows level asked opened _
    opening.tidy.single_text (by simp [Opening.text]) written
  have closes := @Lines.newline_raw_fresh page.config inside level _
    opening.keyword.single_closing (by simp [Keyword.closing])
  have broken : page.isInline level (.block location opener family kids (some closer) false) =
      false := by
    simp [isInline, broken]
  have levels : (Lines.between page.config rows level opened asked).level = level := rfl
  unfold print printBlock printLine
  simp only [levels, broken, first, last, Lines.newline_between, opens, Lines.indent_between,
    Bool.false_eq_true, if_false]
  rw [printNodes] at settled
  rw [settled.dedent_newline, Nat.add_sub_cancel, closes]

end Page

/-! ## A scope -/

theorem Draft.lines_spaced (count : Nat) (draft : Draft) :
    (spaced count draft).lines = List.replicate count [] ++ draft.lines := by
  induction count with
  | zero => rfl
  | succ count ih =>
    rw [spaced, lines, ih]
    rfl

theorem Draft.lines_tidy_element (config : Config) {level passed : Nat} {opened : Bool}
    (start stop : Margin) (tag : TagName) (inside rest : Draft) (rows : List Chars) :
    rows ++ ((element start tag inside stop rest).tidy config level opened passed).lines =
      rows ++ (List.replicate (config.kept opened passed) [] ++
        [(config.margin level).around tag.opening]) ++
        (inside.tidy config (level + 1) false 0).lines ++
        [(config.margin level).around tag.closing] ++ (rest.tidy config level true 0).lines := by
  simp [tidy, lines_spaced, lines]

theorem Draft.lines_tidy_block (config : Config) {level passed : Nat} {opened : Bool}
    (start stop : Margin) (opening : Opening) (inside rest : Draft) (rows : List Chars) :
    rows ++ ((block start opening inside stop rest).tidy config level opened passed).lines =
      rows ++ (List.replicate (config.kept opened passed) [] ++
        [(config.margin level).around opening.tidy.text]) ++
        (inside.tidy config (level + 1) false 0).lines ++
        [(config.margin level).around opening.keyword.closing] ++
        (rest.tidy config level true 0).lines := by
  simp [tidy, lines_spaced, lines, Opening.tidy]

namespace Page

variable {page : Page} {registry : Registry} {source : Chars}

/-- The lines of a scope from a text on: `rows` have been printed before, and the text is printed up
to `gap`. -/
theorem settled_draft (draft : Draft) {branches fresh opened : Bool} {final : Option Space}
    {gap : Chars} {out mid : Lines} {rows : List Chars} {level passed : Nat} {nodes : List Node}
    (placed : draft.placed branches = true) (inBlock : branches = true → 0 < level)
    (builds : (draft.flow final gap).Builds nodes)
    (whole : ∀ node ∈ nodes, node.Whole registry source) (interlude : Interlude fresh gap)
    (reaches : Reaches out gap passed mid)
    (between : mid.newline = .between page.config rows level opened 0)
    (written : opened = true → rows ≠ []) :
    Lines.Settled page.config (rows ++ (draft.tidy page.config level opened passed).lines) level
      (page.printNodes nodes out) := by
  -- A text with the lead of the construct after it.
  have lead {gap : Chars} {before : List Node} {out mid : Lines} {rows : List Chars}
      {level passed : Nat} {opened : Bool} {space : Space}
      (leaves : Flow.Leaves (gap ++ space.text) before) (reaches : Reaches out gap passed mid)
      (between : mid.newline = .between page.config rows level opened 0) :
      page.printNodes before out = .between page.config rows level opened passed := by
    rw [printNodes_leaves leaves, reaches.lead, between, Lines.blank_between]
  induction draft generalizing branches fresh opened final gap out mid rows level passed nodes with
  | done =>
    cases builds with
    | plain leaves =>
      rw [printNodes_leaves leaves]
      simpa [Draft.tidy, Draft.lines] using reaches.settled_finish interlude between final
  | blank space rest ih =>
    exact ih placed inBlock builds whole (interlude.blankLine space) (reaches.blankLine space)
      between written
  | text margin phrase rest ih =>
    rw [Draft.tidy, Draft.lines_spaced, Draft.lines, List.append_cons, ← List.append_assoc]
    refine ih placed inBlock builds whole (interlude.phraseLine margin phrase)
      (reaches.phraseLine margin phrase) ?_ (by simp)
    rw [between, Lines.blank_between, newline_printSegment_around margin phrase written]
  | echo margin braced rest ih =>
    rw [Draft.tidy, Draft.lines_spaced, Draft.lines, List.append_cons, ← List.append_assoc]
    cases builds with
    | @echo _ _ _ before more location leaves later =>
      rw [printNodes_append, printNodes_cons rfl, lead leaves reaches between]
      exact ih placed inBlock later (fun node member => whole node (by simp [member]))
        (.trail margin.trail) (.trail margin.trail)
        ((newline_printSegment _).trans (newline_print_echo braced location written)) (by simp)
  | otherwise margin rest ih =>
    rw [Draft.placed, Bool.and_eq_true] at placed
    rw [Draft.tidy, Draft.lines, List.append_cons]
    cases builds with
    | @otherwise _ _ before more middle leaves plays later =>
      have separates : middle.separates = true := by
        simp [Directive.separates, plays.pairing, plays.inBlock]
      rw [printNodes_append, printNodes_middle separates, lead leaves reaches between,
        printLine_middle plays (inBlock placed.1)]
      exact ih placed.2 inBlock later (fun node member => whole node (by simp [member]))
        (.trail margin.trail) (.trail margin.trail) (newline_printSegment_between _) (by simp)
  | element start tag inside stop rest ihInside ih =>
    simp only [Draft.placed, Bool.and_eq_true] at placed
    obtain ⟨⟨filled, placedInside⟩, placedRest⟩ := placed
    cases builds with
    | @element _ _ _ _ before kids more markup leaves ended content later =>
      -- The content starts with a line break, so the element takes several lines.
      have readable := inside.readable_flow (.trail start.trail) (some stop.lead)
      have wholeKids : ∀ node ∈ kids, node.Whole registry source := by
        cases whole (.element markup false kids) (by simp) with
        | element _ _ wholeKids => exact wholeKids
      have one := @print_element page rows _ level passed opened kids markup tag ended written
        (content.flows (Draft.branched_flow placedInside _ _)) (Draft.not_all_isBlank filled content)
        (allInline_of_builds content readable level)
        (ihInside placedInside (by simp) content wholeKids (.trail start.trail)
          (.trail start.trail) (newline_printSegment_between _) (by simp))
      rw [printNodes_append, printNodes_cons rfl, lead leaves reaches between, one,
        Draft.lines_tidy_element]
      exact ih placedRest inBlock later (fun node member => whole node (by simp [member]))
        (.trail stop.trail) (.trail stop.trail) (newline_printSegment_between _) (by simp)
  | block start opening inside stop rest ihInside ih =>
    simp only [Draft.placed, Bool.and_eq_true] at placed
    obtain ⟨placedInside, placedRest⟩ := placed
    cases builds with
    | @block _ _ _ _ before kids more location opener closer leaves plays content playsLast later =>
      have readable := inside.readable_flow (.trail start.trail) (some stop.lead)
      -- The closer may be copied, so what it is written as counts as well as its name.
      obtain ⟨wholeKids, last⟩ : (∀ node ∈ kids, node.Whole registry source) ∧
          page.directiveText closer = opening.keyword.closing := by
        cases whole (.block location opener opening.keyword.name.toList kids (some closer) false)
            (by simp) with
        | block _ _ _ wholeKids placedLast =>
          exact ⟨wholeKids, playsLast.text_closer placedLast page⟩
      have one := @print_block page rows _ level passed opened kids opening location
        opening.keyword.name.toList opener closer (plays.text_opener page) last written
        (allInline_of_builds content readable level)
        (ihInside placedInside (by simp) content wholeKids (.trail start.trail)
          (.trail start.trail) (newline_printSegment_between _) (by simp))
      rw [printNodes_append, printNodes_cons rfl, lead leaves reaches between, one,
        Draft.lines_tidy_block]
      exact ih placedRest inBlock later (fun node member => whole node (by simp [member]))
        (.trail stop.trail) (.trail stop.trail) (newline_printSegment_between _) (by simp)

end Page

/-- The tree of a draft prints as its canonical layout. -/
theorem render_draft (config : Config) {document : Document} {draft : Draft} {registry : Registry}
    {final : Option Space} (placed : draft.placed false = true)
    (builds : (draft.flow final []).Builds document.children)
    (whole : ∀ node ∈ document.children, node.Whole registry document.source) :
    render config document = draft.canonical config := by
  have settled := @Page.settled_draft ⟨config, document.source⟩ registry document.source draft false
    true false final [] _ _ [] 0 0 _ placed (by simp) builds whole .start .start
    Lines.newline_between (by simp)
  have done := settled.done
  rw [← Page.printAll_pieces (builds.flows (Draft.branched_flow placed final []))] at done
  calc render config document
    _ = joinLines ((Page.printAll (Page.pieces ⟨config, document.source⟩ document.children)
          (.between config [] 0 false 0)).newline.done.reverse) := rfl
    _ = draft.canonical config := by
      rw [done, List.reverse_reverse, List.nil_append]
      rfl

end BladeTemplate
