import BladeTemplate.Proofs.Printed

/-!
# What printing asks for

Printing a node comes to a list of requests to `Lines`. The node and the level it is printed at tell
the list; nothing else of the output has a say in it.

* `LineCall.performAll?` carries out requests, and gives up where one would go back from level 0;
* `Page.calls` lists the requests for a node, case by case as `Page.print` makes them;
* `Page.leads_print` says that carrying them out is printing the node, that none of them goes back
  from level 0, and that together they leave the level as it was.
-/

namespace BladeTemplate

open Text

/-! ## Carrying out requests -/

namespace LineCall

/-- Carry out a request. There is no way back from level 0. -/
def perform? : LineCall → Lines → Option Lines
  | .dedent, out => if out.level = 0 then none else some out.dedent
  | call, out => some (call.perform out)

/-- Carry out requests one after another. -/
def performAll? (calls : List LineCall) (out : Lines) : Option Lines :=
  calls.foldlM (fun out call => call.perform? out) out

theorem performAll?_cons_iff {call : LineCall} {rest : List LineCall} {start out : Lines} :
    performAll? (call :: rest) start = some out ↔
      ∃ next, call.perform? start = some next ∧ performAll? rest next = some out := by
  rw [performAll?, List.foldlM_cons]
  exact Option.bind_eq_some_iff

end LineCall

namespace Lines

@[simp]
theorem level_append (out : Lines) (fragment : Chars) :
    (out.append fragment).level = out.level := by
  unfold append
  split
  · rfl
  split <;> rfl

@[simp]
theorem level_breaks (lines : List Chars) (out : Lines) :
    (lines.foldl breakTo out).level = out.level := by
  induction lines generalizing out with
  | nil => rfl
  | cons line rest ih => exact ih (out.breakTo line)

@[simp]
theorem level_raw (out : Lines) (text : Chars) : (out.raw text).level = out.level := by
  unfold raw
  split
  · rfl
  · exact out.level_append _
  · simp only [level_breaks]
    split
    · rfl
    · exact out.level_append _

@[simp]
theorem level_space (out : Lines) : out.space.level = out.level := by
  unfold space
  split <;> rfl

@[simp]
theorem level_newline (out : Lines) : out.newline.level = out.level := by
  unfold newline
  split <;> rfl

@[simp]
theorem level_blank (out : Lines) (count : Nat) : (out.blank count).level = out.level := by
  unfold blank
  split <;> rfl

/-- The requests can be carried out, and lead from one state of the output to another, which is at
the given level. -/
structure Leads (start : Lines) (calls : List LineCall) (out : Lines) (level : Nat) : Prop where
  performed : LineCall.performAll? calls start = some out
  level_eq : out.level = level

namespace Leads

variable {start out next : Lines} {calls more : List LineCall} {level m n : Nat}

theorem nil (at_ : out.level = level) : out.Leads [] out level := ⟨rfl, at_⟩

theorem trans (first : start.Leads calls out m) (second : out.Leads more next n) :
    start.Leads (calls ++ more) next n := by
  refine ⟨?_, second.level_eq⟩
  have performed := first.performed
  unfold LineCall.performAll? at performed ⊢
  rw [List.foldlM_append, performed]
  exact second.performed

theorem single {call : LineCall} (performed : call.perform? out = some next)
    (at_ : next.level = n) : out.Leads [call] next n :=
  ⟨LineCall.performAll?_cons_iff.2 ⟨next, performed, rfl⟩, at_⟩

theorem append (leads : start.Leads calls out level) (fragment : Chars) :
    start.Leads (calls ++ [.append fragment]) (out.append fragment) level :=
  leads.trans (.single rfl ((out.level_append fragment).trans leads.level_eq))

theorem raw (leads : start.Leads calls out level) (text : Chars) :
    start.Leads (calls ++ [.raw text]) (out.raw text) level :=
  leads.trans (.single rfl ((out.level_raw text).trans leads.level_eq))

theorem space (leads : start.Leads calls out level) :
    start.Leads (calls ++ [.space]) out.space level :=
  leads.trans (.single rfl (out.level_space.trans leads.level_eq))

theorem newline (leads : start.Leads calls out level) :
    start.Leads (calls ++ [.newline]) out.newline level :=
  leads.trans (.single rfl (out.level_newline.trans leads.level_eq))

theorem blank (leads : start.Leads calls out level) (count : Nat) :
    start.Leads (calls ++ [.blank count]) (out.blank count) level :=
  leads.trans (.single rfl ((out.level_blank count).trans leads.level_eq))

theorem indent (leads : start.Leads calls out level) :
    start.Leads (calls ++ [.indent]) out.indent (level + 1) :=
  leads.trans (.single rfl (congrArg (· + 1) leads.level_eq))

/-- Going back needs a level to go back from. -/
theorem dedent (leads : start.Leads calls out (level + 1)) :
    start.Leads (calls ++ [.dedent]) out.dedent level := by
  have some_ : out.level ≠ 0 := by
    rw [leads.level_eq]
    exact Nat.succ_ne_zero level
  refine leads.trans (.single (if_neg some_) ?_)
  show out.level - 1 = level
  rw [leads.level_eq, Nat.add_sub_cancel]

/-- Requests for one thing after another. -/
theorem foldl {α : Type} {xs : List α} {ask : α → List LineCall} {write : Lines → α → Lines}
    (each : ∀ x ∈ xs, ∀ {out : Lines}, out.level = level → out.Leads (ask x) (write out x) level)
    (at_ : out.level = level) : out.Leads (xs.flatMap ask) (xs.foldl write out) level := by
  induction xs generalizing out with
  | nil => exact .nil at_
  | cons x rest ih =>
    have first := each x List.mem_cons_self at_
    have later := ih (fun y member => each y (List.mem_cons_of_mem x member)) first.level_eq
    rw [List.flatMap_cons]
    exact first.trans later

end Leads
end Lines

/-! ## Requests for texts -/

namespace Page

/-- The request for white space at the edge of a text. -/
def edgeCalls (edge : Option Char) : List LineCall :=
  if (edge.map isBlank).getD false then [.space] else []

/-- The requests for a part of a text that stands on one line. -/
def segmentCalls (segment : Chars) : List LineCall :=
  let body := trim segment
  if body.isEmpty then
    if segment.isEmpty then [] else [.space]
  else edgeCalls segment.head? ++ [.append body] ++ edgeCalls segment.getLast?

/-- The requests for the rest of a text, of which `breaks` line breaks have been passed since the
last line that was not blank. -/
def segmentsCalls (breaks : Nat) : List Chars → List LineCall
  | [] => if breaks = 0 then [] else [.newline, .blank (breaks - 1)]
  | segment :: rest =>
    if isBlankText segment then segmentsCalls (breaks + 1) rest
    else [.newline, .blank breaks] ++ segmentCalls segment ++ segmentsCalls 0 rest

def textCalls (content : Chars) : List LineCall :=
  match splitLines content with
  | [] => []
  | first :: rest => segmentCalls first ++ segmentsCalls 0 rest

variable {page : Page} {out : Lines} {level : Nat}

theorem leads_printSegment (segment : Chars) (at_ : out.level = level) :
    out.Leads (segmentCalls segment) (printSegment segment out) level := by
  have edge {calls : List LineCall} {next : Lines} (edge : Option Char)
      (leads : out.Leads calls next level) :
      out.Leads (calls ++ edgeCalls edge)
        (if (edge.map isBlank).getD false then next.space else next) level := by
    unfold edgeCalls
    split
    · exact leads.space
    · rw [List.append_nil]
      exact leads
  unfold segmentCalls printSegment
  simp only
  split
  · split
    · exact .nil at_
    · exact (Lines.Leads.nil at_).space
  · exact edge _ ((edge _ (.nil at_)).append _)

theorem leads_printSegments (breaks : Nat) (segments : List Chars) (at_ : out.level = level) :
    out.Leads (segmentsCalls breaks segments) (printSegments breaks segments out) level := by
  induction segments generalizing breaks out with
  | nil =>
    unfold segmentsCalls printSegments
    split
    · exact .nil at_
    · exact (Lines.Leads.nil at_).newline.blank _
  | cons segment rest ih =>
    unfold segmentsCalls printSegments
    split
    · exact ih (breaks + 1) at_
    · have broken := (Lines.Leads.nil at_).newline.blank breaks
      have first := broken.trans (leads_printSegment segment broken.level_eq)
      exact first.trans (ih 0 first.level_eq)

theorem leads_printText (content : Chars) (at_ : out.level = level) :
    out.Leads (textCalls content) (printText content out) level := by
  unfold textCalls printText
  cases splitLines content with
  | nil => exact .nil at_
  | cons first rest =>
    have begun := leads_printSegment first at_
    exact begun.trans (leads_printSegments 0 rest begun.level_eq)

end Page

/-! ## Requests for blocks -/

/-- A node together with the requests for it at a level. -/
structure Script where
  node : Node
  calls : Nat → List LineCall

namespace Page

/-- The requests for nodes one after another. -/
def allCalls (scripts : List Script) (level : Nat) : List LineCall :=
  scripts.flatMap (·.calls level)

/-- The requests for a directive on a line of its own. -/
def lineCalls (page : Page) (directive : Directive) : List LineCall :=
  [.newline, .raw (page.directiveText directive), .newline]

/-- The requests for the content of a block, with its middles level with the opener. -/
def branchCalls (page : Page) (scripts : List Script) (level : Nat) : List LineCall :=
  scripts.flatMap fun script =>
    match script.node.middle? with
    | some middle => [.dedent] ++ page.lineCalls middle ++ [.indent]
    | none => script.calls level

/-- The requests at the end of a branch, if there is one in progress. -/
def branchEnd (inBranch : Bool) : List LineCall :=
  if inBranch then [.newline, .dedent] else []

/-- The requests for the content of a block whose middles stand one level deeper than the opener, at
the given level, and their branches one more. -/
def labelCalls (page : Page) (level : Nat) (inBranch : Bool) : List Script → List LineCall
  | [] => branchEnd inBranch
  | script :: rest =>
    match script.node.middle? with
    | some middle =>
      branchEnd inBranch ++
        (if middle.name = "break".toList then [.indent] ++ page.lineCalls middle
          else page.lineCalls middle ++ [.indent]) ++
        labelCalls page level true rest
    | none => script.calls (level + inBranch.toNat) ++ labelCalls page level inBranch rest

def blockCalls (page : Page) (inline : Bool) (opener closer : Directive) (indentsMiddles : Bool)
    (scripts : List Script) (level : Nat) : List LineCall :=
  if inline then
    [.raw (page.directiveText opener)] ++ allCalls scripts level ++
      [.raw (page.directiveText closer)]
  else
    page.lineCalls opener ++ [.indent] ++
      (if indentsMiddles then page.labelCalls (level + 1) false scripts
        else page.branchCalls scripts (level + 1)) ++
      [.dedent] ++ page.lineCalls closer

/-! ## Requests for markup -/

/-- The requests for a start tag with one entry per line, ended by `closing`. -/
def wrappedCalls (page : Page) (markup : Markup) (closing : Chars) : List LineCall :=
  [.append ('<' :: markup.tag), .newline, .indent] ++
    (page.orderedAttributes markup).flatMap (fun entry => [.raw (attributeText entry), .newline]) ++
    [.dedent, .append closing]

/-- The requests for a start tag, with one entry per line or on one line. -/
def startTagCalls (page : Page) (markup : Markup) (wrapped : Bool) : List LineCall :=
  if wrapped then page.wrappedCalls markup (tagEnd markup)
  else [.raw (page.startTagText markup)]

/-- The requests for an element whose body is not read as markup. -/
def rawTextCalls (page : Page) (markup : Markup) (children : List Node) (level : Nat) :
    List LineCall :=
  let reindents := Tag.isOneOf Tag.reindentedNames markup.tag
  let body := bodyText page.source children
  let body := if reindents then withoutLastIndent body else body
  let break_ := if isMultiline body then [.newline] else []
  break_ ++ page.startTagCalls markup (page.wraps markup level) ++
    (if reindents then [.raw body, .append (endTagText markup)]
      else [.raw (body ++ endTagText markup)]) ++
    break_

/-- The requests for a piece of an element's content; a slot has lines of its own. -/
def contentCalls (level : Nat) (script : Script) : List LineCall :=
  match script.node with
  | .slot .. => [.newline] ++ script.calls level ++ [.newline]
  | _ => script.calls level

/-- The requests for an element, component or slot that was never closed. -/
def unclosedCalls (page : Page) (markup : Markup) (scripts : List Script) (level : Nat) :
    List LineCall :=
  [.raw (page.startTagText markup)] ++
    allCalls (scripts.mergeSort fun a b => a.node.location.offset ≤ b.node.location.offset) level

/-- The requests for a start tag that has lines of its own, ended by `closing`. -/
def loneTagCalls (page : Page) (markup : Markup) (closing : Chars) : List LineCall :=
  [.newline] ++ page.wrappedCalls markup closing ++ [.newline]

/-- The requests for a closed element, component or slot. -/
def closedCalls (page : Page) (markup : Markup) (void : Bool) (slots children : List Script)
    (childrenInline : Bool) (level : Nat) : List LineCall :=
  let wrapped := page.wraps markup level
  let slotNodes := slots.map (·.node)
  let childNodes := children.map (·.node)
  if markup.selfClosing || void then
    if wrapped then page.loneTagCalls markup (tagEnd markup)
    else [.raw (page.startTagText markup)]
  else if isHollow slotNodes childNodes then
    if wrapped then page.loneTagCalls markup ('>' :: endTagText markup)
    else [.raw (page.startTagText markup ++ endTagText markup)]
  else if !page.breaks level markup slotNodes childNodes childrenInline then
    [.raw (page.startTagText markup)] ++ allCalls children level ++ [.append (endTagText markup)]
  else
    [.newline] ++ page.startTagCalls markup wrapped ++ [.newline, .indent] ++
      (slots ++ children).flatMap (contentCalls (level + 1)) ++
      [.dedent, .newline, .append (endTagText markup), .newline]

/-- The requests for an element, component or slot. -/
def markupCalls (page : Page) (markup : Markup) (void : Bool) (slots children : List Script)
    (level : Nat) : List LineCall :=
  if !markup.closed then page.unclosedCalls markup (slots ++ children) level
  else
    page.closedCalls markup void slots children
      (page.allInline level (children.map (·.node))) level

/-! ## Requests for trees -/

mutual

/-- The requests for a node at a level. -/
def calls (page : Page) : Node → Nat → List LineCall
  | .text _ content => fun _ => textCalls content
  | .echo echo => fun _ => [.raw (formatEcho echo.style echo.expression)]
  | .comment _ content => fun _ => [.raw content]
  | .region _ _ content => fun _ => [.raw content]
  | .directive directive => fun _ => [.raw (page.directiveText directive)]
  | .endTag _ _ content => fun _ => [.raw content]
  | .block location opener family children closer indentsMiddles => fun level =>
    match closer with
    | none => [.raw (trimRight (location.slice page.source))]
    | some last =>
      let inline :=
        page.isInline level (.block location opener family children closer indentsMiddles)
      page.blockCalls inline opener last indentsMiddles (scripts page children) level
  | .element markup void children => fun level =>
    if markup.closed && Tag.isOneOf Tag.rawTextNames markup.tag then
      page.rawTextCalls markup children level
    else page.markupCalls markup void [] (scripts page children) level
  | .component markup slots children =>
    page.markupCalls markup false (scripts page slots) (scripts page children)
  | .slot _ markup children => page.markupCalls markup false [] (scripts page children)
  | .attr entry => fun _ => [.raw (entry.location.slice page.source)]
  | .document location _ _ _ => fun _ => [.raw (location.slice page.source)]

/-- Nodes together with the requests for them. -/
def scripts (page : Page) : List Node → List Script
  | [] => []
  | node :: rest => ⟨node, calls page node⟩ :: scripts page rest

end

/-! ## Carrying out requests for a tree -/

theorem scripts_eq (page : Page) (nodes : List Node) :
    page.scripts nodes = nodes.map fun node => ⟨node, page.calls node⟩ := by
  induction nodes with
  | nil => rfl
  | cons node rest ih => rw [scripts, ih, List.map_cons]

theorem scripts_append (page : Page) (nodes more : List Node) :
    page.scripts (nodes ++ more) = page.scripts nodes ++ page.scripts more := by
  rw [scripts_eq, scripts_eq, scripts_eq, List.map_append]

theorem mergeSort_scripts (page : Page) (nodes : List Node) :
    (page.scripts nodes).mergeSort (fun a b => a.node.location.offset ≤ b.node.location.offset) =
      page.scripts (nodes.mergeSort fun a b => a.location.offset ≤ b.location.offset) := by
  rw [scripts_eq, scripts_eq, ← List.map_mergeSort]
  intro a _ b _
  rfl

theorem map_node_scripts (page : Page) (nodes : List Node) :
    (page.scripts nodes).map (·.node) = nodes := by
  rw [scripts_eq, List.map_map]
  exact List.map_id nodes

/-- Carrying out the requests for the node is printing it, at any level. -/
def Prints (page : Page) (node : Node) : Prop :=
  ∀ (out : Lines) (level : Nat), out.level = level →
    out.Leads (page.calls node level) (page.print node out) level

section content

variable (page : Page) {out : Lines} {level : Nat} {nodes : List Node}

theorem leads_printLine (directive : Directive) (at_ : out.level = level) :
    out.Leads (page.lineCalls directive) (page.printLine directive out) level :=
  ((Lines.Leads.nil at_).newline.raw (page.directiveText directive)).newline

theorem leads_printWrapped (markup : Markup) (closing : Chars) (at_ : out.level = level) :
    out.Leads (page.wrappedCalls markup closing) (page.printWrapped markup closing out) level := by
  have entries {out : Lines} (at_ : out.level = level + 1) :
      out.Leads
        ((page.orderedAttributes markup).flatMap fun entry =>
          [.raw (attributeText entry), .newline])
        ((page.orderedAttributes markup).foldl
          (fun out entry => (out.raw (attributeText entry)).newline) out) (level + 1) :=
    .foldl (fun entry _ _ at_ => ((Lines.Leads.nil at_).raw (attributeText entry)).newline) at_
  have named := ((Lines.Leads.nil at_).append ('<' :: markup.tag)).newline.indent
  have whole := (named.trans (entries named.level_eq)).dedent.append closing
  rw [List.append_assoc] at whole
  exact whole

theorem leads_printStartTag (markup : Markup) (wrapped : Bool) (at_ : out.level = level) :
    out.Leads (page.startTagCalls markup wrapped) (page.printStartTag markup wrapped out)
      level := by
  unfold startTagCalls printStartTag
  split
  · exact leads_printWrapped page markup (tagEnd markup) at_
  · exact (Lines.Leads.nil at_).raw (page.startTagText markup)

theorem leads_printRawText (markup : Markup) (children : List Node) (at_ : out.level = level) :
    out.Leads (page.rawTextCalls markup children level) (page.printRawText markup children out)
      level := by
  unfold rawTextCalls printRawText
  simp only
  generalize (if Tag.isOneOf Tag.reindentedNames markup.tag then
    withoutLastIndent (bodyText page.source children) else bodyText page.source children) = body
  have broken {calls : List LineCall} {next : Lines} (leads : out.Leads calls next level) :
      out.Leads (calls ++ if isMultiline body then [.newline] else [])
        (if isMultiline body then next.newline else next) level := by
    split
    · exact leads.newline
    · rw [List.append_nil]
      exact leads
  have copied {calls : List LineCall} {next : Lines} (leads : out.Leads calls next level) :
      out.Leads
        (calls ++ if Tag.isOneOf Tag.reindentedNames markup.tag then
            [.raw body, .append (endTagText markup)] else [.raw (body ++ endTagText markup)])
        (if Tag.isOneOf Tag.reindentedNames markup.tag then
            (next.raw body).append (endTagText markup) else next.raw (body ++ endTagText markup))
        level := by
    split
    · have whole := (leads.raw body).append (endTagText markup)
      rw [List.append_assoc] at whole
      exact whole
    · exact leads.raw (body ++ endTagText markup)
  have begun := broken (.nil at_)
  rw [begun.level_eq]
  have opened := begun.trans
    (leads_printStartTag page markup (page.wraps markup level) begun.level_eq)
  exact broken (copied opened)

variable {page} (prints : ∀ node ∈ nodes, page.Prints node)

include prints

theorem leads_printAll (at_ : out.level = level) :
    out.Leads (allCalls (page.scripts nodes) level) (printAll (page.pieces nodes) out) level := by
  unfold allCalls printAll
  rw [scripts_eq, pieces_eq, List.flatMap_map, List.foldl_map]
  exact .foldl (fun node member out at_ => prints node member out level at_) at_

theorem leads_printContent (at_ : out.level = level) :
    out.Leads ((page.scripts nodes).flatMap (contentCalls level))
      ((page.pieces nodes).foldl printContent out) level := by
  rw [scripts_eq, pieces_eq, List.flatMap_map, List.foldl_map]
  refine .foldl (fun node member out at_ => ?_) at_
  cases node with
  | slot name markup children =>
    have begun := (Lines.Leads.nil at_).newline
    exact (begun.trans (prints _ member _ level begun.level_eq)).newline
  | _ => exact prints _ member out level at_

theorem leads_printBranches (at_ : out.level = level + 1) :
    out.Leads (page.branchCalls (page.scripts nodes) (level + 1))
      (page.printBranches (page.pieces nodes) out) (level + 1) := by
  unfold branchCalls printBranches
  rw [scripts_eq, pieces_eq, List.flatMap_map, List.foldl_map]
  refine .foldl (fun node member out at_ => ?_) at_
  simp only
  cases node.middle? with
  | some middle =>
    have back := (Lines.Leads.nil at_).dedent
    exact (back.trans (leads_printLine page middle back.level_eq)).indent
  | none => exact prints node member out (level + 1) at_

theorem leads_printLabels (inBranch : Bool) (at_ : out.level = level + inBranch.toNat) :
    out.Leads (page.labelCalls level inBranch (page.scripts nodes))
      (page.printLabels inBranch (page.pieces nodes) out) level := by
  have ended {inBranch : Bool} {out : Lines} (at_ : out.level = level + inBranch.toNat) :
      out.Leads (branchEnd inBranch) (if inBranch then out.newline.dedent else out) level := by
    cases inBranch with
    | false => exact .nil at_
    | true => exact (Lines.Leads.nil at_).newline.dedent
  induction nodes generalizing inBranch out with
  | nil => exact ended at_
  | cons node rest ih =>
    have later {out : Lines} (inBranch : Bool) (at_ : out.level = level + inBranch.toNat) :=
      ih (fun other member => prints other (List.mem_cons_of_mem node member)) inBranch at_
    rw [scripts, pieces]
    unfold labelCalls printLabels
    simp only
    cases node.middle? with
    | some middle =>
      have back := ended at_
      simp only
      split
      · have deeper := back.indent
        have label := deeper.trans (leads_printLine page middle deeper.level_eq)
        rw [List.append_assoc] at label
        exact label.trans (later true label.level_eq)
      · have label := (back.trans (leads_printLine page middle back.level_eq)).indent
        rw [List.append_assoc] at label
        exact label.trans (later true label.level_eq)
    | none =>
      have first := prints node List.mem_cons_self out _ at_
      exact first.trans (later inBranch first.level_eq)

theorem leads_printBlock (inline : Bool) (opener closer : Directive) (indentsMiddles : Bool)
    (at_ : out.level = level) :
    out.Leads (page.blockCalls inline opener closer indentsMiddles (page.scripts nodes) level)
      (page.printBlock inline opener closer indentsMiddles (page.pieces nodes) out) level := by
  have branches {out : Lines} (at_ : out.level = level + 1) :
      out.Leads
        (if indentsMiddles then page.labelCalls (level + 1) false (page.scripts nodes)
          else page.branchCalls (page.scripts nodes) (level + 1))
        (if indentsMiddles then page.printLabels false (page.pieces nodes) out
          else page.printBranches (page.pieces nodes) out) (level + 1) := by
    split
    · exact leads_printLabels prints false at_
    · exact leads_printBranches prints at_
  unfold blockCalls printBlock
  split
  · have opened := (Lines.Leads.nil at_).raw (page.directiveText opener)
    exact (opened.trans (leads_printAll prints opened.level_eq)).raw (page.directiveText closer)
  · have opened := (leads_printLine page opener at_).indent
    have back := (opened.trans (branches opened.level_eq)).dedent
    exact back.trans (leads_printLine page closer back.level_eq)

theorem leads_printUnclosed (markup : Markup) (at_ : out.level = level) :
    out.Leads (page.unclosedCalls markup (page.scripts nodes) level)
      (page.printUnclosed markup (page.pieces nodes) out) level := by
  unfold unclosedCalls printUnclosed
  rw [mergeSort_scripts, mergeSort_pieces]
  have opened := (Lines.Leads.nil at_).raw (page.startTagText markup)
  exact opened.trans (leads_printAll (fun node member => prints node (List.mem_mergeSort.1 member))
    opened.level_eq)

end content

/-- A start tag that has lines of its own. -/
theorem leads_loneTag (page : Page) (markup : Markup) (closing : Chars) {out : Lines} {level : Nat}
    (at_ : out.level = level) :
    out.Leads (page.loneTagCalls markup closing)
      (page.printWrapped markup closing out.newline).newline level := by
  have begun := (Lines.Leads.nil at_).newline
  exact (begun.trans (leads_printWrapped page markup closing begun.level_eq)).newline

section markup

variable {page : Page} {out : Lines} {level : Nat} {slots children : List Node}
  (printsSlots : ∀ node ∈ slots, page.Prints node)
  (printsChildren : ∀ node ∈ children, page.Prints node)

include printsSlots printsChildren

theorem leads_printClosed (markup : Markup) (void childrenInline : Bool) (at_ : out.level = level) :
    out.Leads
      (page.closedCalls markup void (page.scripts slots) (page.scripts children) childrenInline
        level)
      (page.printClosed markup void (page.pieces slots) (page.pieces children) childrenInline out)
      level := by
  unfold closedCalls printClosed
  simp only [at_, map_node_scripts, map_node_pieces]
  split
  · split
    · exact leads_loneTag page markup (tagEnd markup) at_
    · exact (Lines.Leads.nil at_).raw (page.startTagText markup)
  split
  · split
    · exact leads_loneTag page markup ('>' :: endTagText markup) at_
    · exact (Lines.Leads.nil at_).raw (page.startTagText markup ++ endTagText markup)
  split
  · have opened := (Lines.Leads.nil at_).raw (page.startTagText markup)
    exact (opened.trans (leads_printAll printsChildren opened.level_eq)).append (endTagText markup)
  · have begun := (Lines.Leads.nil at_).newline
    have opened := (begun.trans (leads_printStartTag page markup (page.wraps markup level)
      begun.level_eq)).newline.indent
    have content := leads_printContent
      (List.forall_mem_append.2 ⟨printsSlots, printsChildren⟩) opened.level_eq
    have whole := ((opened.trans content).dedent.newline.append (endTagText markup)).newline
    rw [scripts_append, pieces_append] at whole
    simp only [List.append_assoc] at whole ⊢
    exact whole

theorem leads_printMarkup (markup : Markup) (void : Bool) (at_ : out.level = level) :
    out.Leads (page.markupCalls markup void (page.scripts slots) (page.scripts children) level)
      (page.printMarkup markup void (page.pieces slots) (page.pieces children) out) level := by
  unfold markupCalls printMarkup
  rw [map_node_scripts, map_node_pieces, at_]
  split
  · rw [← scripts_append, ← pieces_append]
    exact leads_printUnclosed (List.forall_mem_append.2 ⟨printsSlots, printsChildren⟩) markup at_
  · exact leads_printClosed printsSlots printsChildren markup void _ at_

end markup

mutual

/-- Printing a node is carrying out the requests for it. Whatever the node, no request goes back
from level 0, and the level is the same afterwards. -/
theorem leads_print (page : Page) : (node : Node) → page.Prints node
  | .text _ content => fun out level at_ => by
    rw [calls, print]
    exact leads_printText content at_
  | .echo _ | .comment .. | .region .. | .directive _ | .endTag .. | .attr _
  | .document .. => fun out level at_ => by
    rw [calls, print]
    exact (Lines.Leads.nil at_).raw _
  | .block location opener family children closer indentsMiddles => fun out level at_ => by
    rw [calls, print]
    cases closer with
    | none => exact (Lines.Leads.nil at_).raw _
    | some last =>
      subst at_
      exact leads_printBlock (leads_pieces page children) _ opener last indentsMiddles rfl
  | .element markup void children => fun out level at_ => by
    rw [calls, print]
    split
    · exact leads_printRawText page markup children at_
    · exact @leads_printMarkup page out level [] children nofun (leads_pieces page children) markup
        void at_
  | .component markup slots children => fun out level at_ => by
    rw [calls, print]
    exact leads_printMarkup (leads_pieces page slots) (leads_pieces page children) markup false at_
  | .slot _ markup children => fun out level at_ => by
    rw [calls, print]
    exact @leads_printMarkup page out level [] children nofun (leads_pieces page children) markup
      false at_

theorem leads_pieces (page : Page) : (nodes : List Node) → ∀ node ∈ nodes, page.Prints node
  | [] => nofun
  | first :: rest => fun node member => by
    rcases List.mem_cons.1 member with same | later
    · rw [same]
      exact leads_print page first
    · exact leads_pieces page rest node later

end

end Page
end BladeTemplate
