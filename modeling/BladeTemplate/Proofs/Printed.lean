import BladeTemplate.Proofs.Ink
import BladeTemplate.Stability

/-!
# The ink of what is printed

Whatever the layout, the ink that ends up in the output is told by the tree alone: printing adds
white space, and nothing else, to the texts of the constructs.

* `Lines.Holds` is the ink of output under construction, with a law for every request;
* `Page.printed` is the ink that a node leaves;
* `squeeze_render` says that the output of a template has the ink of its tree.
-/

namespace BladeTemplate

open Text

/-! ## Lines -/

namespace Lines

/-- The ink of everything written. -/
def ink (out : Lines) : Chars :=
  out.done.reverse.flatMap squeeze ++ squeeze out.current

/-- The output has the given ink, and indents with white space. -/
structure Holds (out : Lines) (ink : Chars) : Prop where
  blank : isBlankText out.unit = true
  inked : out.ink = ink

variable {out : Lines} {ink : Chars}

theorem Holds.indent (holds : out.Holds ink) : out.indent.Holds ink := ⟨holds.blank, holds.inked⟩

theorem Holds.dedent (holds : out.Holds ink) : out.dedent.Holds ink := ⟨holds.blank, holds.inked⟩

theorem Holds.space (holds : out.Holds ink) : out.space.Holds ink := by
  unfold Lines.space
  split
  · exact holds
  · exact ⟨holds.blank, holds.inked⟩

theorem Holds.askBlank (holds : out.Holds ink) (count : Nat) : (out.blank count).Holds ink := by
  unfold Lines.blank
  split
  · exact ⟨holds.blank, holds.inked⟩
  · exact holds

theorem Holds.newline (holds : out.Holds ink) : out.newline.Holds ink := by
  unfold Lines.newline
  split
  · exact ⟨holds.blank, holds.inked⟩
  · refine ⟨holds.blank, ?_⟩
    rw [← holds.inked]
    simp [Lines.ink]

theorem current_newline (out : Lines) : out.newline.current = [] := by
  unfold Lines.newline
  split
  · next start => exact List.isEmpty_iff.1 start
  · rfl

theorem squeeze_dueBlanks (out : Lines) : out.dueBlanks.reverse.flatMap squeeze = [] := by
  unfold dueBlanks
  split
  · rfl
  · rw [List.reverse_replicate]
    exact List.flatMap_eq_nil_iff.2 fun line member => by rw [List.eq_of_mem_replicate member]; rfl

/-- A fragment adds its ink. -/
theorem Holds.append (holds : out.Holds ink) (fragment : Chars) :
    (out.append fragment).Holds (ink ++ squeeze fragment) := by
  unfold Lines.append
  split
  · next empty =>
    rw [List.isEmpty_iff.1 empty, squeeze_nil, List.append_nil]
    exact holds
  split
  · next start =>
    refine ⟨holds.blank, ?_⟩
    have fresh : out.current = [] := List.isEmpty_iff.1 start
    rw [← holds.inked]
    simp [Lines.ink, fresh, squeeze_dueBlanks, squeeze_replicate holds.blank]
  · refine ⟨holds.blank, ?_⟩
    have spaced : squeeze (if out.pendingSpace then [' '] else []) = [] := by
      split <;> rfl
    rw [← holds.inked]
    simp [Lines.ink, spaced]

theorem Holds.breakTo (holds : out.Holds ink) (line : Chars) :
    (out.breakTo line).Holds (ink ++ squeeze line) := by
  refine ⟨holds.blank, ?_⟩
  rw [← holds.inked]
  simp [Lines.ink, Lines.breakTo, Lines.restart]

theorem Holds.breaks (holds : out.Holds ink) (lines : List Chars) :
    (lines.foldl Lines.breakTo out).Holds (ink ++ lines.flatMap squeeze) := by
  induction lines generalizing out ink with
  | nil => simpa using holds
  | cons line rest ih =>
    have later := ih (holds.breakTo line)
    rw [List.append_assoc] at later
    exact later

/-- A text of several lines adds its ink. -/
theorem Holds.raw (holds : out.Holds ink) (text : Chars) :
    (out.raw text).Holds (ink ++ squeeze text) := by
  rw [← squeeze_splitLines]
  unfold Lines.raw
  split
  · next none => exact absurd none (splitLines_ne_nil text)
  · next first one =>
    rw [one, List.flatMap_singleton]
    exact holds.append first
  · next first second rest several =>
    rw [several, List.flatMap_cons, List.flatMap_cons]
    simp only
    split
    · next fresh =>
      simp only [Bool.and_eq_true] at fresh
      have current : out.current = [] := List.isEmpty_iff.1 fresh.2
      have restarted : (out.restart second).Holds (ink ++ squeeze second) := by
        refine ⟨holds.blank, ?_⟩
        rw [← holds.inked]
        simp [Lines.ink, Lines.restart, current]
      rw [List.isEmpty_iff.1 fresh.1, squeeze_nil, List.nil_append, ← List.append_assoc]
      exact restarted.breaks rest
    · have broken := ((holds.append first).breakTo second).breaks rest
      rw [List.append_assoc, List.append_assoc] at broken
      exact broken

end Lines

/-! ## Trees -/

/-- A middle is a directive. -/
theorem Node.eq_of_middle {node : Node} {middle : Directive} (found : node.middle? = some middle) :
    node = .directive middle := by
  unfold Node.middle? at found
  split at found
  · split at found
    · cases found
      rfl
    · cases found
  · cases found

namespace Page

/-- The ink that markup leaves, given the offsets and the ink of its slots and its children. -/
def markupInk (page : Page) (markup : Markup) (void : Bool) (slots children : List (Int × Chars)) :
    Chars :=
  let opening := squeeze (page.startTagText markup)
  if !markup.closed then
    opening ++ ((slots ++ children).mergeSort fun a b => a.1 ≤ b.1).flatMap (·.2)
  else if markup.selfClosing || void then opening
  else
    opening ++ slots.flatMap (·.2) ++ children.flatMap (·.2) ++ squeeze (endTagText markup)

mutual

/-- The ink that a node leaves. -/
def printed (page : Page) : Node → Chars
  | .text _ content => squeeze content
  | .echo echo => squeeze (formatEcho echo.style echo.expression)
  | .comment _ content => squeeze content
  | .region _ _ content => squeeze content
  | .directive directive => squeeze (page.directiveText directive)
  | .endTag _ _ content => squeeze content
  | .block location opener _ children closer _ =>
    match closer with
    | none => squeeze (location.slice page.source)
    | some last =>
      squeeze (page.directiveText opener) ++ (printedAll page children).flatMap (·.2) ++
        squeeze (page.directiveText last)
  | .element markup void children =>
    if markup.closed && Tag.isOneOf Tag.rawTextNames markup.tag then
      squeeze (page.startTagText markup) ++ squeeze (bodyText page.source children) ++
        squeeze (endTagText markup)
    else page.markupInk markup void [] (printedAll page children)
  | .component markup slots children =>
    page.markupInk markup false (printedAll page slots) (printedAll page children)
  | .slot _ markup children => page.markupInk markup false [] (printedAll page children)
  | .attr entry => squeeze (entry.location.slice page.source)
  | .document location _ _ _ => squeeze (location.slice page.source)

/-- The offsets of several nodes and the ink that they leave. -/
def printedAll (page : Page) : List Node → List (Int × Chars)
  | [] => []
  | node :: rest => (node.location.offset, printed page node) :: printedAll page rest

end

theorem printedAll_eq (page : Page) (nodes : List Node) :
    page.printedAll nodes = nodes.map fun node => (node.location.offset, page.printed node) := by
  induction nodes with
  | nil => rfl
  | cons node rest ih => rw [printedAll, ih, List.map_cons]

theorem pieces_eq (page : Page) (nodes : List Node) :
    page.pieces nodes = nodes.map fun node => ⟨node, page.print node⟩ := by
  induction nodes with
  | nil => rfl
  | cons node rest ih => rw [pieces, ih, List.map_cons]

/-- Printing the node adds its ink. -/
def Inks (page : Page) (node : Node) : Prop :=
  ∀ out ink, Lines.Holds out ink → (page.print node out).Holds (ink ++ page.printed node)

section lists

variable {page : Page} {out : Lines} {ink : Chars}

theorem holds_printSegment (holds : out.Holds ink) (segment : Chars) :
    (printSegment segment out).Holds (ink ++ squeeze segment) := by
  have spaced (edge : Option Char) {out : Lines} {ink : Chars} (holds : out.Holds ink) :
      Lines.Holds (if (edge.map isBlank).getD false then out.space else out) ink := by
    split
    · exact holds.space
    · exact holds
  unfold printSegment
  simp only
  split
  · next empty =>
    have none : squeeze segment = [] := by
      rw [← squeeze_trim, List.isEmpty_iff.1 empty, squeeze_nil]
    rw [none, List.append_nil]
    split
    · exact holds
    · exact holds.space
  · have body := spaced segment.getLast? ((spaced segment.head? holds).append (trim segment))
    rw [squeeze_trim] at body
    exact body

theorem holds_printSegments (holds : out.Holds ink) (breaks : Nat) (segments : List Chars) :
    (printSegments breaks segments out).Holds (ink ++ segments.flatMap squeeze) := by
  induction segments generalizing breaks out ink with
  | nil =>
    unfold printSegments
    rw [List.flatMap_nil, List.append_nil]
    split
    · exact holds
    · exact holds.newline.askBlank _
  | cons segment rest ih =>
    unfold printSegments
    rw [List.flatMap_cons]
    split
    · next blank =>
      rw [squeeze_of_blank blank, List.nil_append]
      exact ih holds _
    · rw [← List.append_assoc]
      exact ih (holds_printSegment (holds.newline.askBlank _) segment) _

theorem holds_printText (holds : out.Holds ink) (content : Chars) :
    (printText content out).Holds (ink ++ squeeze content) := by
  rw [← squeeze_splitLines]
  unfold printText
  split
  · next none => exact absurd none (splitLines_ne_nil content)
  · next first rest lines =>
    rw [lines, List.flatMap_cons, ← List.append_assoc]
    exact holds_printSegments (holds_printSegment holds first) 0 rest

theorem holds_printLine (page : Page) (holds : out.Holds ink) (directive : Directive) :
    (page.printLine directive out).Holds (ink ++ squeeze (page.directiveText directive)) :=
  (holds.newline.raw _).newline

theorem printed_of_middle {node : Node} {middle : Directive} (found : node.middle? = some middle) :
    page.printed node = squeeze (page.directiveText middle) := by
  obtain rfl := Node.eq_of_middle found
  simp only [printed]

variable {nodes : List Node}

theorem holds_printAll (inks : ∀ node ∈ nodes, page.Inks node) (holds : out.Holds ink) :
    (printAll (nodes.map fun node => ⟨node, page.print node⟩) out).Holds
      (ink ++ nodes.flatMap page.printed) := by
  unfold printAll
  induction nodes generalizing out ink with
  | nil => simpa using holds
  | cons node rest ih =>
    have first := inks node List.mem_cons_self out ink holds
    have later := ih (fun other member => inks other (List.mem_cons_of_mem _ member)) first
    rw [List.append_assoc] at later
    exact later

theorem holds_printBranches (inks : ∀ node ∈ nodes, page.Inks node) (holds : out.Holds ink) :
    (page.printBranches (nodes.map fun node => ⟨node, page.print node⟩) out).Holds
      (ink ++ nodes.flatMap page.printed) := by
  unfold printBranches
  induction nodes generalizing out ink with
  | nil => simpa using holds
  | cons node rest ih =>
    have later {next : Lines} (first : next.Holds (ink ++ page.printed node)) :=
      ih (fun other member => inks other (List.mem_cons_of_mem _ member)) first
    rw [List.flatMap_cons, ← List.append_assoc, List.map_cons, List.foldl_cons]
    apply later
    simp only
    split
    · next middle found =>
      rw [printed_of_middle found]
      exact (holds_printLine page holds.dedent middle).indent
    · exact inks node List.mem_cons_self out ink holds

theorem holds_printLabels (inks : ∀ node ∈ nodes, page.Inks node) (inBranch : Bool)
    (holds : out.Holds ink) :
    (page.printLabels inBranch (nodes.map fun node => ⟨node, page.print node⟩) out).Holds
      (ink ++ nodes.flatMap page.printed) := by
  have ended {inBranch : Bool} {out : Lines} {ink : Chars} (holds : out.Holds ink) :
      Lines.Holds (if inBranch then out.newline.dedent else out) ink := by
    split
    · exact holds.newline.dedent
    · exact holds
  induction nodes generalizing inBranch out ink with
  | nil =>
    rw [List.flatMap_nil, List.append_nil]
    exact ended holds
  | cons node rest ih =>
    have later {next : Lines} (inBranch : Bool) (first : next.Holds (ink ++ page.printed node)) :=
      ih (fun other member => inks other (List.mem_cons_of_mem _ member)) inBranch first
    rw [List.flatMap_cons, ← List.append_assoc, List.map_cons]
    unfold printLabels
    simp only
    split
    · next middle found =>
      apply later
      rw [printed_of_middle found]
      split
      · exact holds_printLine page (ended holds).indent middle
      · exact (holds_printLine page (ended holds) middle).indent
    · exact later _ (inks node List.mem_cons_self out ink holds)

theorem holds_printContent (inks : ∀ node ∈ nodes, page.Inks node) (holds : out.Holds ink) :
    ((nodes.map fun node => (⟨node, page.print node⟩ : Piece)).foldl printContent out).Holds
      (ink ++ nodes.flatMap page.printed) := by
  induction nodes generalizing out ink with
  | nil => simpa using holds
  | cons node rest ih =>
    have later {next : Lines} (first : next.Holds (ink ++ page.printed node)) :=
      ih (fun other member => inks other (List.mem_cons_of_mem _ member)) first
    rw [List.flatMap_cons, ← List.append_assoc, List.map_cons, List.foldl_cons]
    apply later
    unfold printContent
    simp only
    split
    · exact (inks _ List.mem_cons_self _ _ holds.newline).newline
    · exact inks node List.mem_cons_self out ink holds

end lists

/-! ## Markup -/

section markup

variable {page : Page} {out : Lines} {ink : Chars}

theorem squeeze_tagEnd (markup : Markup) : squeeze (tagEnd markup) = tagEnd markup := by
  unfold tagEnd
  split <;> decide

/-- The ink of a start tag is that of its name, its entries and its end. -/
theorem squeeze_startTagText (page : Page) (markup : Markup) :
    squeeze (page.startTagText markup) = squeeze ('<' :: markup.tag) ++
      (page.orderedAttributes markup).flatMap (fun entry => squeeze (attributeText entry)) ++
      tagEnd markup := by
  have ended : squeeze (if markup.selfClosing then [' ', '/', '>'] else ['>']) = tagEnd markup := by
    unfold tagEnd
    split <;> decide
  unfold startTagText
  simp only
  rw [squeeze_append, squeeze_append, ended, squeeze_flatMap]
  simp

theorem holds_printWrapped (page : Page) (holds : out.Holds ink) (markup : Markup) (closing : Chars) :
    (page.printWrapped markup closing out).Holds (ink ++ (squeeze ('<' :: markup.tag) ++
      (page.orderedAttributes markup).flatMap (fun entry => squeeze (attributeText entry)) ++
      squeeze closing)) := by
  have entries {out : Lines} {ink : Chars} (holds : out.Holds ink) (run : List Attribute) :
      (run.foldl (fun out entry => (out.raw (attributeText entry)).newline) out).Holds
        (ink ++ run.flatMap fun entry => squeeze (attributeText entry)) := by
    induction run generalizing out ink with
    | nil => simpa using holds
    | cons entry rest ih =>
      have later := ih (holds.raw (attributeText entry)).newline
      rw [List.append_assoc] at later
      exact later
  have opened := ((holds.append ('<' :: markup.tag)).newline).indent
  have wrapped := ((entries opened (page.orderedAttributes markup)).dedent).append closing
  simp only [List.append_assoc] at wrapped ⊢
  exact wrapped

theorem holds_printStartTag (page : Page) (holds : out.Holds ink) (markup : Markup) (wrapped : Bool) :
    (page.printStartTag markup wrapped out).Holds (ink ++ squeeze (page.startTagText markup)) := by
  unfold printStartTag
  split
  · have split := holds_printWrapped page holds markup (tagEnd markup)
    rw [squeeze_tagEnd, ← squeeze_startTagText] at split
    exact split
  · exact holds.raw _

theorem squeeze_withoutLastIndent (body : Chars) :
    squeeze (withoutLastIndent body) = squeeze body := by
  unfold withoutLastIndent
  split
  · next head last split =>
    split
    · next blank =>
      rw [splitLastLine_spec split]
      simp [squeeze_of_blank blank]
    · rfl
  · rfl

theorem holds_printRawText (holds : out.Holds ink) (markup : Markup) (children : List Node) :
    (page.printRawText markup children out).Holds (ink ++ (squeeze (page.startTagText markup) ++
      squeeze (bodyText page.source children) ++ squeeze (endTagText markup))) := by
  have broken {out : Lines} {ink : Chars} (body : Chars) (holds : out.Holds ink) :
      Lines.Holds (if isMultiline body then out.newline else out) ink := by
    split
    · exact holds.newline
    · exact holds
  have inked : squeeze (if Tag.isOneOf Tag.reindentedNames markup.tag then
      withoutLastIndent (bodyText page.source children) else bodyText page.source children) =
      squeeze (bodyText page.source children) := by
    split
    · exact squeeze_withoutLastIndent _
    · rfl
  unfold printRawText
  simp only
  rw [← inked]
  generalize (if Tag.isOneOf Tag.reindentedNames markup.tag then
    withoutLastIndent (bodyText page.source children) else bodyText page.source children) = body
  apply broken
  have opened := holds_printStartTag page (broken body holds) markup
    (page.wraps markup (if isMultiline body then out.newline else out).level)
  split
  · have ended := (opened.raw body).append (endTagText markup)
    simp only [List.append_assoc] at ended ⊢
    exact ended
  · have ended := opened.raw (body ++ endTagText markup)
    simp only [List.append_assoc, squeeze_append] at ended ⊢
    exact ended

/-- The nodes that an element without content holds leave no ink. -/
theorem printed_of_hollow {slots children : List Node} (hollow : isHollow slots children = true) :
    slots = [] ∧ children.flatMap page.printed = [] := by
  simp only [isHollow, Bool.and_eq_true, List.isEmpty_iff, List.all_eq_true] at hollow
  refine ⟨hollow.1, List.flatMap_eq_nil_iff.2 ?_⟩
  intro node member
  have blank := hollow.2 node member
  unfold Node.isBlank at blank
  split at blank
  · rw [printed]
    exact squeeze_of_blank blank
  · cases blank

theorem flatMap_printedAll (page : Page) (nodes : List Node) :
    (page.printedAll nodes).flatMap (·.2) = nodes.flatMap page.printed := by
  rw [printedAll_eq, List.flatMap_map]

/-- Sorting the ink of nodes by offset is sorting the nodes. -/
theorem flatMap_sorted (page : Page) (nodes : List Node) :
    ((page.printedAll nodes).mergeSort fun a b => a.1 ≤ b.1).flatMap (·.2) =
      (nodes.mergeSort fun a b => a.location.offset ≤ b.location.offset).flatMap page.printed := by
  rw [printedAll_eq, ← List.map_mergeSort, List.flatMap_map]
  intro a _ b _
  rfl

theorem map_node_pieces (page : Page) (nodes : List Node) :
    (page.pieces nodes).map (·.node) = nodes := by
  rw [pieces_eq, List.map_map]
  exact List.map_id nodes

theorem pieces_append (page : Page) (nodes more : List Node) :
    page.pieces (nodes ++ more) = page.pieces nodes ++ page.pieces more := by
  rw [pieces_eq, pieces_eq, pieces_eq, List.map_append]

theorem mergeSort_pieces (page : Page) (nodes : List Node) :
    (page.pieces nodes).mergeSort (fun a b => a.node.location.offset ≤ b.node.location.offset) =
      page.pieces (nodes.mergeSort fun a b => a.location.offset ≤ b.location.offset) := by
  rw [pieces_eq, pieces_eq, ← List.map_mergeSort]
  intro a _ b _
  rfl

theorem holds_printUnclosed (markup : Markup) {nodes : List Node}
    (inks : ∀ node ∈ nodes, page.Inks node) (holds : out.Holds ink) :
    (page.printUnclosed markup (page.pieces nodes) out).Holds
      (ink ++ (squeeze (page.startTagText markup) ++
        ((page.printedAll nodes).mergeSort fun a b => a.1 ≤ b.1).flatMap (·.2))) := by
  unfold printUnclosed
  rw [mergeSort_pieces, pieces_eq, flatMap_sorted, ← List.append_assoc]
  refine holds_printAll ?_ (holds.raw _)
  intro node member
  exact inks node (List.mem_mergeSort.1 member)

/-- Printing closed markup adds the ink of its tags and of what it holds. -/
theorem holds_printClosed (markup : Markup) (void : Bool) {slots children : List Node}
    (childrenInline : Bool) (inkSlots : ∀ node ∈ slots, page.Inks node)
    (inkChildren : ∀ node ∈ children, page.Inks node) (holds : out.Holds ink) :
    (page.printClosed markup void (page.pieces slots) (page.pieces children) childrenInline
      out).Holds (ink ++ (if markup.selfClosing || void then squeeze (page.startTagText markup)
        else squeeze (page.startTagText markup) ++ slots.flatMap page.printed ++
          children.flatMap page.printed ++ squeeze (endTagText markup))) := by
  unfold printClosed
  simp only [map_node_pieces]
  split
  · split
    · have wrapped := (holds_printWrapped page holds.newline markup (tagEnd markup)).newline
      rw [squeeze_tagEnd, ← squeeze_startTagText] at wrapped
      exact wrapped
    · exact holds.raw _
  -- From here on the element has an end tag: without content, on one line, or on several.
  next opens =>
  simp only [Bool.or_eq_true, not_or, Bool.not_eq_true] at opens
  split
  · next hollow =>
    obtain ⟨rfl, none⟩ := printed_of_hollow hollow
    rw [none, List.flatMap_nil, List.append_nil, List.append_nil]
    split
    · have wrapped :=
        (holds_printWrapped page holds.newline markup ('>' :: endTagText markup)).newline
      have ended : squeeze ('>' :: endTagText markup) = tagEnd markup ++ squeeze (endTagText markup) := by
        rw [squeeze_cons_of_inked (by decide)]
        simp [tagEnd, opens.1]
      rw [ended] at wrapped
      rw [squeeze_startTagText]
      simp only [List.append_assoc] at wrapped ⊢
      exact wrapped
    · have whole := holds.raw (page.startTagText markup ++ endTagText markup)
      rw [squeeze_append] at whole
      exact whole
  split
  · next flows =>
    -- Slots always break the line, so an element on one line has none.
    have noSlots : slots = [] := by
      simp [breaks] at flows
      exact flows.1.1.2
    subst noSlots
    have whole := (holds_printAll inkChildren (holds.raw (page.startTagText markup))).append
      (endTagText markup)
    rw [← pieces_eq] at whole
    simp only [List.append_assoc, List.flatMap_nil, List.nil_append] at whole ⊢
    exact whole
  · have both : ∀ node ∈ slots ++ children, page.Inks node := by
      intro node member
      rcases List.mem_append.1 member with slot | child
      · exact inkSlots node slot
      · exact inkChildren node child
    have opened := ((holds_printStartTag page holds.newline markup
      (page.wraps markup out.level)).newline).indent
    have content := holds_printContent both opened
    have whole := ((content.dedent.newline).append (endTagText markup)).newline
    rw [List.map_append, ← pieces_eq, ← pieces_eq] at whole
    simp only [List.append_assoc, List.flatMap_append] at whole ⊢
    exact whole

theorem holds_printMarkup (markup : Markup) (void : Bool) {slots children : List Node}
    (inkSlots : ∀ node ∈ slots, page.Inks node)
    (inkChildren : ∀ node ∈ children, page.Inks node) (holds : out.Holds ink) :
    (page.printMarkup markup void (page.pieces slots) (page.pieces children) out).Holds
      (ink ++ page.markupInk markup void (page.printedAll slots) (page.printedAll children)) := by
  unfold printMarkup markupInk
  simp only
  split
  · have inks : page.printedAll slots ++ page.printedAll children =
        page.printedAll (slots ++ children) := by
      rw [printedAll_eq, printedAll_eq, printedAll_eq, List.map_append]
    rw [← pieces_append, inks]
    refine holds_printUnclosed markup ?_ holds
    intro node member
    rcases List.mem_append.1 member with slot | child
    · exact inkSlots node slot
    · exact inkChildren node child
  · rw [flatMap_printedAll, flatMap_printedAll]
    exact holds_printClosed markup void _ inkSlots inkChildren holds

end markup

/-! ## Whole trees -/

mutual

/-- Printing a node adds its ink, whatever the output so far. -/
theorem inks_print (page : Page) : (node : Node) → page.Inks node
  | .text _ content => fun out ink holds => by
    rw [print, printed]
    exact holds_printText holds content
  | .echo echo => fun out ink holds => by
    rw [print, printed]
    exact holds.raw _
  | .comment _ content | .region _ _ content | .endTag _ _ content => fun out ink holds => by
    rw [print, printed]
    exact holds.raw _
  | .directive directive => fun out ink holds => by
    rw [print, printed]
    exact holds.raw _
  | .attr entry => fun out ink holds => by
    rw [print, printed]
    exact holds.raw _
  | .document location _ _ _ => fun out ink holds => by
    rw [print, printed]
    exact holds.raw _
  | .block location opener family children closer indentsMiddles => fun out ink holds => by
    have inks := inks_pieces page children
    cases closer with
    | none =>
      rw [print, printed]
      have whole := holds.raw (trimRight (location.slice page.source))
      rw [squeeze_trimRight] at whole
      exact whole
    | some last =>
      rw [print, printed, flatMap_printedAll]
      simp only [pieces_eq]
      unfold printBlock
      split
      · have whole := ((holds_printAll inks (holds.raw (page.directiveText opener)))).raw
          (page.directiveText last)
        simp only [List.append_assoc] at whole ⊢
        exact whole
      · have opened := (holds_printLine page holds opener).indent
        simp only
        split
        · have whole := holds_printLine page (holds_printLabels inks false opened).dedent last
          simp only [List.append_assoc] at whole ⊢
          exact whole
        · have whole := holds_printLine page (holds_printBranches inks opened).dedent last
          simp only [List.append_assoc] at whole ⊢
          exact whole
  | .element markup void children => fun out ink holds => by
    rw [print, printed]
    split
    · exact holds_printRawText holds markup children
    · exact @holds_printMarkup page out ink markup void [] children
        (fun _ member => absurd member List.not_mem_nil) (inks_pieces page children) holds
  | .component markup slots children => fun out ink holds => by
    rw [print, printed]
    exact holds_printMarkup markup false (inks_pieces page slots) (inks_pieces page children) holds
  | .slot _ markup children => fun out ink holds => by
    rw [print, printed]
    exact @holds_printMarkup page out ink markup false [] children
      (fun _ member => absurd member List.not_mem_nil) (inks_pieces page children) holds

theorem inks_pieces (page : Page) : (nodes : List Node) → ∀ node ∈ nodes, page.Inks node
  | [] => fun _ member => absurd member List.not_mem_nil
  | first :: rest => fun node member => by
    rcases List.mem_cons.1 member with same | later
    · rw [same]
      exact inks_print page first
    · exact inks_pieces page rest node later

end

end Page

/-- The output of a template has the ink of its tree. -/
theorem squeeze_render (config : Config) (document : Document) :
    squeeze (render config document) =
      document.children.flatMap (Page.printed ⟨config, document.source⟩) := by
  have unit : isBlankText config.indentUnit = true := by
    refine List.all_eq_true.2 fun c member => ?_
    rcases config.eq_of_mem_indentUnit member with rfl | rfl <;> decide
  have empty : (Lines.new config.indentUnit config.preserveBlankLines).Holds [] := ⟨unit, rfl⟩
  have whole := (Page.holds_printAll
    (Page.inks_pieces ⟨config, document.source⟩ document.children) empty).newline
  rw [← Page.pieces_eq] at whole
  have inked := whole.inked
  unfold Lines.ink at inked
  rw [Lines.current_newline, squeeze_nil, List.append_nil, List.nil_append] at inked
  unfold render Lines.build Lines.text
  rw [squeeze_joinLines]
  exact inked

end BladeTemplate
