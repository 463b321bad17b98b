import BladeTemplate.Proofs.Copied
import BladeTemplate.Proofs.EchoSpacing

/-!
# Kept texts in the output

Printing a node puts the texts that are kept of it into the output, each at a place of its own,
whatever the layout: on one line or on several, with start tags wrapped or not, in closed elements
and in those that never were.

* `Page.Preserves` says that printing a node adds what is kept of it, and `Page.preserves_print`
  that it holds of every node of a template;
* `render_keeps_verbatim` is the result for whole templates.
-/

namespace BladeTemplate

open Text

/-- Steps that each add texts, one after the other. -/
theorem Lines.Shows.foldl {α : Type} {step : Lines → α → Lines} {kept : α → List Chars}
    {items : List α} {out : Lines} {texts : List Chars} (shows_ : out.Shows texts)
    (each : ∀ item ∈ items, ∀ out texts, Lines.Shows out texts →
      (step out item).Shows (texts ++ kept item)) :
    (items.foldl step out).Shows (texts ++ items.flatMap kept) := by
  induction items generalizing out texts with
  | nil => simpa using shows_
  | cons item rest ih =>
    have later := ih (each item List.mem_cons_self out texts shows_)
      fun other member => each other (List.mem_cons_of_mem _ member)
    rw [List.append_assoc] at later
    exact later

/-! ## Where kept texts start -/

theorem Text.starts_trimRight {text : Chars} (starts : text.head? ≠ some '\n') :
    (trimRight text).head? ≠ some '\n' := by
  obtain ⟨blank, whole, _⟩ := trimRight_cases text
  intro feed
  rw [whole, List.head?_append, feed] at starts
  exact starts rfl

theorem Directive.Written.starts {directive : Directive} {source : Chars} {a b : Nat}
    (written : directive.Written source a b) (rest : Chars) :
    (directive.source ++ rest).head? ≠ some '\n' := by
  rw [written.text]
  rcases written.shape with ⟨_, shape⟩ | ⟨gap, inside, _, _, shape⟩ <;> rw [shape] <;> simp

/-- What is kept of a region is all of it up to some character. -/
theorem RegionKind.keptText_isPrefix (reindented : Bool) (kind : RegionKind) (content : Chars) :
    kind.keptText reindented content <+: content := by
  have trimmed : trimRight content <+: content := by
    obtain ⟨blank, whole, _⟩ := trimRight_cases content
    exact ⟨blank, whole.symm⟩
  have dropped : dropBlankLine content <+: content := by
    unfold dropBlankLine
    simp only
    split
    · exact List.take_prefix _ _
    · exact List.prefix_rfl
  unfold keptText
  split
  · split
    · exact List.prefix_rfl
    · exact trimmed
  · split
    · exact dropped
    · exact List.prefix_rfl
  all_goals exact List.prefix_rfl

/-! ## Entries of start tags -/

theorem Text.normalizeEchoesAfter_of_plain (previous : Option Char) {text : Chars}
    (plain : '{' ∉ text) : normalizeEchoesAfter previous text = text := by
  induction text generalizing previous with
  | nil => simp [normalizeEchoesAfter]
  | cons c rest ih =>
    rw [List.mem_cons, not_or] at plain
    have none : echoToNormalize previous (c :: rest) = none := by
      simp [echoToNormalize, EchoStyle.startOf, startsWith, EchoStyle.opener, plain.1]
    unfold normalizeEchoesAfter
    simp only [none]
    rw [ih _ plain.2]

namespace Attribute

theorem perm_arrange (run entries : List Attribute) :
    (arrange run entries).Perm (run.reverse ++ entries) := by
  induction entries generalizing run with
  | nil =>
    rw [arrange, List.append_nil]
    exact List.mergeSort_perm _ _
  | cons entry rest ih =>
    unfold arrange
    split
    · exact (List.mergeSort_perm _ _).append ((ih []).cons entry)
    · have later := ih (entry :: run)
      rw [List.reverse_cons, List.append_assoc] at later
      exact later

theorem perm_order (entries : List Attribute) (sort : Bool) :
    (order entries sort).Perm entries := by
  unfold order
  split
  · exact perm_arrange [] entries
  · exact .refl _

/-- The text of an entry neither starts nor ends with a line break. -/
theorem Edged.snug_text {entry : Attribute} (edged : entry.Edged) :
    Snug (Page.attributeText entry) := by
  unfold Page.attributeText
  split
  · next echo _ =>
    rw [formatEcho_eq]
    refine Firm.snug ⟨?_, (endsInked_closer echo.style).after _⟩
    rw [List.append_assoc]
    exact (startsInked_opener _).before _
  split
  · exact edged.name
  · next value found =>
    obtain ⟨c, rest, split⟩ := List.exists_cons_of_ne_nil edged.name.nonempty
    have ends : EndsInLine (normalizeEchoes value) := by
      unfold EndsInLine normalizeEchoes
      rw [getLast?_normalizeEchoesAfter]
      exact edged.value value found
    refine ⟨by simp, ?_, .append (.append edged.name.ends (endsInLine_singleton (by decide))) ends⟩
    have starts := edged.name.starts
    rw [split] at starts ⊢
    simpa using starts

/-- What is kept of an entry, if anything, is the text that is printed for it. -/
theorem keptTexts_cases {entry : Attribute} (edged : entry.Edged) :
    entry.keptTexts false = [] ∨ (entry.keptTexts false = [Page.attributeText entry] ∧
      (Page.attributeText entry).head? ≠ some '\n') := by
  suffices kept : entry.keptTexts false = [] ∨
      entry.keptTexts false = [Page.attributeText entry] from
    kept.imp_right fun whole => ⟨whole, edged.snug_text.starts⟩
  unfold keptTexts
  split
  · next comment =>
    obtain ⟨_, noEcho, noValue⟩ := edged.comment comment
    exact .inr (by simp [Page.attributeText, noEcho, noValue])
  split
  · exact .inl rfl
  next noEcho =>
  have plain : entry.echo = none := by simpa using noEcho
  split
  · next noValue => exact .inr (by simp [Page.attributeText, plain, noValue])
  · next value found =>
    split
    · exact .inl rfl
    · next noBrace =>
      have same : normalizeEchoes value = value :=
        normalizeEchoesAfter_of_plain none (by simpa using noBrace)
      exact .inr (by simp [Page.attributeText, plain, found, same])

end Attribute

namespace Page

variable {page : Page} {out : Lines} {texts : List Chars} {registry : Registry}

/-! ## Start tags -/

theorem perm_entries (page : Page) (markup : Markup) :
    ((page.orderedAttributes markup).flatMap (·.keptTexts false)).Perm (markup.keptTexts false) :=
  (Attribute.perm_order _ _).flatMap_right _

theorem edged_ordered {markup : Markup} (edged : ∀ entry ∈ markup.attributes, entry.Edged) :
    ∀ entry ∈ page.orderedAttributes markup, entry.Edged :=
  fun entry member => edged entry ((Attribute.perm_order _ _).mem_iff.1 member)

/-- On one line, entries stand one after the other. -/
theorem inOrder_startTagText {markup : Markup} (edged : ∀ entry ∈ markup.attributes, entry.Edged) :
    InOrder ((page.orderedAttributes markup).flatMap (·.keptTexts false))
      (page.startTagText markup) := by
  have entries (run : List Attribute) (edged : ∀ entry ∈ run, entry.Edged) :
      InOrder (run.flatMap (·.keptTexts false))
        (run.flatMap fun entry => ' ' :: attributeText entry) := by
    induction run with
    | nil => exact .nil _
    | cons entry rest ih =>
      have later := ih fun other member => edged other (List.mem_cons_of_mem _ member)
      rw [List.flatMap_cons, List.flatMap_cons]
      refine InOrder.append ?_ later
      rcases Attribute.keptTexts_cases (edged entry List.mem_cons_self) with none | ⟨whole, _⟩
      · rw [none]
        exact .nil _
      · rw [whole]
        exact (InOrder.single _).after [' ']
  unfold startTagText
  exact ((entries _ (edged_ordered edged)).after _).before _

theorem startTagText_ends (page : Page) (markup : Markup) :
    ∃ head, page.startTagText markup = head ++ ['>'] := by
  unfold startTagText
  simp only
  split
  · exact ⟨_, (List.append_assoc _ [' ', '/'] ['>']).symm⟩
  · exact ⟨_, rfl⟩

/-- A start tag on one line. -/
theorem shows_startTagText (page : Page) {markup : Markup}
    (edged : ∀ entry ∈ markup.attributes, entry.Edged) (rest : Chars) (shows_ : out.Shows texts) :
    (out.raw (page.startTagText markup ++ rest)).Shows (texts ++ markup.keptTexts false) :=
  shows_.rawHolding (page.perm_entries markup) ((inOrder_startTagText edged).before rest)
    (.inl (by simp [startTagText]))

theorem current_startTagText (page : Page) (markup : Markup) (out : Lines) :
    (out.raw (page.startTagText markup)).current ≠ [] := by
  obtain ⟨head, ends⟩ := page.startTagText_ends markup
  exact Lines.current_raw (.inl (by simp [startTagText])) ends (by decide)

/-- A start tag with a line for each entry. -/
theorem shows_printWrapped {markup : Markup} (edged : ∀ entry ∈ markup.attributes, entry.Edged)
    (closing : Chars) (shows_ : out.Shows texts) :
    (page.printWrapped markup closing out).Shows (texts ++ markup.keptTexts false) := by
  unfold printWrapped
  simp only
  have entries : ∀ entry ∈ page.orderedAttributes markup, ∀ out texts, Lines.Shows out texts →
      ((out.raw (attributeText entry)).newline).Shows (texts ++ entry.keptTexts false) := by
    intro entry member out texts shows_
    rcases Attribute.keptTexts_cases (edged_ordered edged entry member) with none | ⟨whole, starts⟩
    · rw [none, List.append_nil]
      exact (shows_.raw _).newline
    · rw [whole]
      exact (shows_.rawKept (.inl starts)).newline
  have opened := ((shows_.append ('<' :: markup.tag)).newline).indent
  exact ((opened.foldl entries).dedent.append closing).perm
    ((page.perm_entries markup).append_left texts)

theorem shows_printStartTag (page : Page) {markup : Markup}
    (edged : ∀ entry ∈ markup.attributes, entry.Edged) (wrapped : Bool) (shows_ : out.Shows texts) :
    (page.printStartTag markup wrapped out).Shows (texts ++ markup.keptTexts false) := by
  unfold printStartTag
  split
  · exact shows_printWrapped edged _ shows_
  · have whole := shows_startTagText page edged [] shows_
    rwa [List.append_nil] at whole

theorem current_printStartTag (page : Page) (markup : Markup) (wrapped : Bool) (out : Lines) :
    (page.printStartTag markup wrapped out).current ≠ [] := by
  unfold printStartTag
  split
  · unfold printWrapped tagEnd
    exact Lines.current_append (by split <;> simp)
  · exact page.current_startTagText markup out

/-! ## Texts and directives -/

theorem shows_printSegment (segment : Chars) (shows_ : out.Shows texts) :
    (printSegment segment out).Shows texts := by
  have spaced (edge : Option Char) {out : Lines} (shows_ : out.Shows texts) :
      Lines.Shows (if (edge.map isBlank).getD false then out.space else out) texts := by
    split
    · exact shows_.space
    · exact shows_
  unfold printSegment
  simp only
  split
  · split
    · exact shows_
    · exact shows_.space
  · exact spaced _ ((spaced _ shows_).append _)

theorem shows_printSegments (breaks : Nat) (segments : List Chars) (shows_ : out.Shows texts) :
    (printSegments breaks segments out).Shows texts := by
  induction segments generalizing breaks out with
  | nil =>
    unfold printSegments
    split
    · exact shows_
    · exact shows_.newline.askBlank _
  | cons segment rest ih =>
    unfold printSegments
    split
    · exact ih _ shows_
    · exact ih _ (shows_printSegment segment (shows_.newline.askBlank _))

theorem shows_printText (content : Chars) (shows_ : out.Shows texts) :
    (printText content out).Shows texts := by
  unfold printText
  split
  · exact shows_
  · exact shows_printSegments 0 _ (shows_printSegment _ shows_)

theorem shows_directive {directive : Directive} {a b : Nat}
    (written : directive.Written page.source a b) (shows_ : out.Shows texts) :
    (out.raw (page.directiveText directive)).Shows (texts ++ directive.keptTexts) := by
  unfold directiveText Directive.keptTexts
  split
  · have starts := written.starts []
    rw [List.append_nil] at starts
    exact shows_.rawKept (.inl starts)
  · rw [List.append_nil]
    exact shows_.raw _

theorem shows_printLine {directive : Directive} {a b : Nat}
    (written : directive.Written page.source a b) (shows_ : out.Shows texts) :
    (page.printLine directive out).Shows (texts ++ directive.keptTexts) :=
  (shows_directive written shows_.newline).newline

/-- A region, of which a body that is not read as markup stands behind something on its line. -/
theorem shows_region (reindented : Bool) {location : Location} {kind : RegionKind}
    {content : Chars} (edged : kind.Edged location content)
    (behind : kind = .rawText → out.current ≠ []) (shows_ : out.Shows texts) :
    (out.raw content).Shows (texts ++ [kind.keptText reindented content]) := by
  refine shows_.rawHolding (.refl _) (.of_isPrefix (kind.keptText_isPrefix reindented content)) ?_
  cases kind with
  | verbatim | markupComment | declaration => exact .inl edged.starts.inLine
  | rawCode | frontMatter => exact .inl edged.1.inLine
  | rawText => exact .inr (behind rfl)

/-! ## Content -/

/-- Printing the node adds what is kept of it. A body that is not read as markup is added as it is
only behind something on its line. -/
def Preserves (page : Page) (node : Node) : Prop :=
  ∀ reindented out texts, Lines.Shows out texts → (node.isRawText = true → out.current ≠ []) →
    (page.print node out).Shows (texts ++ node.keptTexts page.source false reindented)

section content

variable {nodes : List Node} (reindented : Bool)
  (preserves : ∀ node ∈ nodes, page.Preserves node)
  (others : ∀ node ∈ nodes, node.isRawText = false)

include preserves others

theorem preserves_of_mem {node : Node} (member : node ∈ nodes) (shows_ : out.Shows texts) :
    (page.print node out).Shows (texts ++ node.keptTexts page.source false reindented) := by
  refine preserves node member reindented out texts shows_ ?_
  intro raw
  rw [others node member] at raw
  cases raw

theorem shows_printAll (shows_ : out.Shows texts) :
    (printAll (page.pieces nodes) out).Shows
      (texts ++ nodes.flatMap (Node.keptTexts page.source false reindented)) := by
  unfold printAll
  rw [pieces_eq, List.foldl_map]
  exact shows_.foldl fun node member out texts shows_ =>
    preserves_of_mem reindented preserves others member shows_

theorem shows_printContent (shows_ : out.Shows texts) :
    ((page.pieces nodes).foldl printContent out).Shows
      (texts ++ nodes.flatMap (Node.keptTexts page.source false reindented)) := by
  rw [pieces_eq, List.foldl_map]
  refine shows_.foldl fun node member out texts shows_ => ?_
  unfold printContent
  simp only
  split
  · exact (preserves_of_mem reindented preserves others member shows_.newline).newline
  · exact preserves_of_mem reindented preserves others member shows_

end content

/-! ## Blocks -/

/-- A middle is kept like any directive. -/
theorem written_of_middle {node : Node} {middle : Directive} (found : node.middle? = some middle)
    (whole : node.Whole registry page.source) (reindented : Bool) :
    (∃ a b, middle.Written page.source a b) ∧
      node.keptTexts page.source false reindented = middle.keptTexts := by
  obtain rfl := Node.eq_of_middle found
  cases whole with
  | directive placed => exact ⟨⟨_, _, placed.written⟩, by rw [Node.keptTexts]⟩

section branches

variable {nodes : List Node} (reindented : Bool)
  (preserves : ∀ node ∈ nodes, page.Preserves node)
  (others : ∀ node ∈ nodes, node.isRawText = false)
  (wholes : ∀ node ∈ nodes, node.Whole registry page.source)

include preserves others wholes

theorem shows_printBranches (shows_ : out.Shows texts) :
    (page.printBranches (page.pieces nodes) out).Shows
      (texts ++ nodes.flatMap (Node.keptTexts page.source false reindented)) := by
  unfold printBranches
  rw [pieces_eq, List.foldl_map]
  refine shows_.foldl fun node member out texts shows_ => ?_
  simp only
  split
  · next middle found =>
    obtain ⟨⟨a, b, written⟩, kept⟩ := written_of_middle found (wholes node member) reindented
    rw [kept]
    exact (shows_printLine written shows_.dedent).indent
  · exact preserves_of_mem reindented preserves others member shows_

theorem shows_printLabels (inBranch : Bool) (shows_ : out.Shows texts) :
    (page.printLabels inBranch (page.pieces nodes) out).Shows
      (texts ++ nodes.flatMap (Node.keptTexts page.source false reindented)) := by
  have ended {inBranch : Bool} {out : Lines} {texts : List Chars} (shows_ : out.Shows texts) :
      Lines.Shows (if inBranch then out.newline.dedent else out) texts := by
    split
    · exact shows_.newline.dedent
    · exact shows_
  induction nodes generalizing inBranch out texts with
  | nil =>
    rw [List.flatMap_nil, List.append_nil]
    exact ended shows_
  | cons node rest ih =>
    have later {next : Lines} (inBranch : Bool)
        (first : next.Shows (texts ++ node.keptTexts page.source false reindented)) :=
      ih (fun other member => preserves other (List.mem_cons_of_mem _ member))
        (fun other member => others other (List.mem_cons_of_mem _ member))
        (fun other member => wholes other (List.mem_cons_of_mem _ member)) inBranch first
    rw [List.flatMap_cons, ← List.append_assoc, pieces]
    unfold printLabels
    simp only
    split
    · next middle found =>
      obtain ⟨⟨a, b, written⟩, kept⟩ :=
        written_of_middle found (wholes node List.mem_cons_self) reindented
      apply later
      rw [kept]
      split
      · exact shows_printLine written (ended shows_).indent
      · exact (shows_printLine written (ended shows_)).indent
    · exact later _ (preserves_of_mem reindented preserves others List.mem_cons_self shows_)

theorem shows_printBlock (inline : Bool) {opener closer : Directive} (indentsMiddles : Bool)
    {a m n b : Nat} (opens : opener.Written page.source a m)
    (closes : closer.Written page.source n b) (shows_ : out.Shows texts) :
    (page.printBlock inline opener closer indentsMiddles (page.pieces nodes) out).Shows
      (texts ++ (opener.keptTexts ++ nodes.flatMap (Node.keptTexts page.source false reindented) ++
        closer.keptTexts)) := by
  rw [← List.append_assoc, ← List.append_assoc]
  unfold printBlock
  split
  · exact shows_directive closes
      (shows_printAll reindented preserves others (shows_directive opens shows_))
  · have opened := (shows_printLine opens shows_).indent
    simp only
    refine shows_printLine closes (Lines.Shows.dedent ?_)
    split
    · exact shows_printLabels reindented preserves others wholes false opened
    · exact shows_printBranches reindented preserves others wholes opened

end branches

/-! ## Markup -/

/-- The body of a closed element that is not read as markup. -/
theorem shows_printRawText {markup : Markup} {void : Bool} {children : List Node} {a b : Nat}
    (closed : markup.closed = true) (shaped : markup.Shaped page.source void children a b)
    (wholes : ∀ node ∈ children, node.Whole registry page.source)
    (edged : Node.Edged page.source (.element markup void children))
    (parts : ∀ part ∈ Node.walkAll children, part.Edged page.source) (shows_ : out.Shows texts) :
    (page.printRawText markup children out).Shows
      (texts ++ (markup.keptTexts false ++ children.flatMap (Node.keptTexts page.source true
        (Tag.isOneOf Tag.reindentedNames markup.tag)))) := by
  have broken {out : Lines} {texts : List Chars} (body : Chars) (shows_ : out.Shows texts) :
      Lines.Shows (if isMultiline body then out.newline else out) texts := by
    split
    · exact shows_.newline
    · exact shows_
  obtain ⟨order, perm, inOrder⟩ := inOrder_body closed shaped wholes edged parts
  unfold printRawText
  simp only
  generalize (if Tag.isOneOf Tag.reindentedNames markup.tag then
    withoutLastIndent (bodyText page.source children) else bodyText page.source children) = body
    at inOrder ⊢
  have opened := shows_printStartTag page edged.1
    (page.wraps markup (if isMultiline body then out.newline else out).level) (broken body shows_)
  have started := page.current_printStartTag markup
    (page.wraps markup (if isMultiline body then out.newline else out).level)
    (if isMultiline body then out.newline else out)
  rw [← List.append_assoc]
  apply broken
  split
  · exact (opened.rawHolding perm inOrder (.inr started)).append _
  · exact opened.rawHolding perm (inOrder.before _) (.inr started)

/-- Markup that was never closed. The first node of its content may be a body that is not read as
markup: it stands right behind the start tag. -/
theorem shows_printUnclosed {markup : Markup} (edged : ∀ entry ∈ markup.attributes, entry.Edged)
    {nodes : List Node} (reindented : Bool)
    (preserves : ∀ node ∈ nodes, page.Preserves node)
    (others : ∀ node ∈ (Node.byOffset nodes).tail, node.isRawText = false)
    (shows_ : out.Shows texts) :
    (page.printUnclosed markup (page.pieces nodes) out).Shows
      (texts ++ (markup.keptTexts false ++
        nodes.flatMap (Node.keptTexts page.source false reindented))) := by
  have sortedPieces : (page.pieces nodes).mergeSort
      (fun a b => a.node.location.offset ≤ b.node.location.offset) =
      page.pieces (Node.byOffset nodes) := page.mergeSort_pieces nodes
  have perm : (Node.byOffset nodes).Perm nodes := List.mergeSort_perm _ _
  have sorted : ∀ node ∈ Node.byOffset nodes, page.Preserves node :=
    fun node member => preserves node (perm.mem_iff.1 member)
  have opened := shows_startTagText page edged [] shows_
  rw [List.append_nil] at opened
  have started := page.current_startTagText markup out
  rw [← List.append_assoc]
  refine Lines.Shows.perm ?_ ((perm.flatMap_right _).append_left _)
  unfold printUnclosed
  rw [sortedPieces]
  generalize Node.byOffset nodes = content at others sorted ⊢
  cases content with
  | nil => simpa [pieces, printAll] using opened
  | cons first rest =>
    have begun := sorted first List.mem_cons_self reindented _ _ opened fun _ => started
    have later := shows_printAll reindented
      (fun node member => sorted node (List.mem_cons_of_mem _ member)) others begun
    rw [List.append_assoc] at later
    exact later

/-- Of an element without content nothing is kept but its start tag. -/
theorem kept_of_hollow {slots children : List Node} (hollow : isHollow slots children = true)
    (source : Chars) (reindented : Bool) :
    (slots ++ children).flatMap (Node.keptTexts source false reindented) = [] := by
  simp only [isHollow, Bool.and_eq_true, List.isEmpty_iff, List.all_eq_true] at hollow
  rw [hollow.1, List.nil_append, List.flatMap_eq_nil_iff]
  intro node member
  have blank := hollow.2 node member
  unfold Node.isBlank at blank
  split at blank
  · rw [Node.keptTexts]
  · cases blank

/-- Closed markup, in whatever layout. -/
theorem shows_printClosed {markup : Markup} (edged : ∀ entry ∈ markup.attributes, entry.Edged)
    {void : Bool} {slots children : List Node} (reindented childrenInline : Bool)
    (alone : (markup.selfClosing || void) = true → slots ++ children = [])
    (preserves : ∀ node ∈ slots ++ children, page.Preserves node)
    (others : ∀ node ∈ slots ++ children, node.isRawText = false) (shows_ : out.Shows texts) :
    (page.printClosed markup void (page.pieces slots) (page.pieces children) childrenInline
      out).Shows (texts ++ (markup.keptTexts false ++
        (slots ++ children).flatMap (Node.keptTexts page.source false reindented))) := by
  unfold printClosed
  simp only [map_node_pieces]
  split
  · next single =>
    rw [alone single, List.flatMap_nil, List.append_nil]
    split
    · exact (shows_printWrapped edged _ shows_.newline).newline
    · have whole := shows_startTagText page edged [] shows_
      rwa [List.append_nil] at whole
  split
  · next hollow =>
    rw [kept_of_hollow hollow, List.append_nil]
    split
    · exact (shows_printWrapped edged _ shows_.newline).newline
    · exact shows_startTagText page edged _ shows_
  rw [← List.append_assoc]
  split
  · next flows =>
    -- Slots always break the line, so an element on one line has none.
    have noSlots : slots = [] := by
      simp [breaks] at flows
      exact flows.1.1.2
    subst noSlots
    have opened := shows_startTagText page edged [] shows_
    rw [List.append_nil] at opened
    exact (shows_printAll reindented preserves others opened).append _
  · have opened := ((shows_printStartTag page edged (page.wraps markup out.level)
      shows_.newline).newline).indent
    have content := shows_printContent reindented preserves others opened
    rw [pieces_append] at content
    exact ((content.dedent.newline).append _).newline

theorem shows_printMarkup {markup : Markup} (edged : ∀ entry ∈ markup.attributes, entry.Edged)
    {void : Bool} {slots children : List Node} (reindented : Bool)
    (alone : (markup.selfClosing || void) = true → slots ++ children = [])
    (preserves : ∀ node ∈ slots ++ children, page.Preserves node)
    (others : markup.closed = true → ∀ node ∈ slots ++ children, node.isRawText = false)
    (behind : ∀ node ∈ (Node.byOffset (slots ++ children)).tail, node.isRawText = false)
    (shows_ : out.Shows texts) :
    (page.printMarkup markup void (page.pieces slots) (page.pieces children) out).Shows
      (texts ++ (markup.keptTexts false ++
        (slots ++ children).flatMap (Node.keptTexts page.source false reindented))) := by
  unfold printMarkup
  split
  · rw [← pieces_append]
    exact shows_printUnclosed edged reindented preserves behind shows_
  · next closed =>
    have others := others (by simpa using closed)
    exact shows_printClosed edged reindented _ alone preserves others shows_

/-! ## Whole trees -/

/-- Markup that closes itself, or is void, holds nothing. -/
theorem content_of_single {source : Chars} {markup : Markup} {void : Bool} {content : List Node}
    {a b : Nat} (shaped : markup.Shaped source void content a b)
    (alone : (markup.selfClosing || void) = true) : content = [] := by
  cases shaped with
  | single _ _ _ none => exact none
  | closed _ _ notSelf notVoid | unclosed _ notSelf notVoid =>
    rw [notSelf, notVoid] at alone
    cases alone

/-- A component that closes itself holds nothing. -/
theorem content_of_single_component {source : Chars} {markup : Markup} {slots children : List Node}
    (whole : (Node.component markup slots children).Whole registry source)
    (alone : (markup.selfClosing || false) = true) : slots ++ children = [] := by
  cases whole with
  | component _ shaped _ =>
    rw [content_of_single shaped alone]
    rfl

theorem print_element_eq (page : Page) (markup : Markup) (void : Bool) (children : List Node)
    (out : Lines) : page.print (.element markup void children) out =
      if markup.copiesBody then page.printRawText markup children out
      else page.printMarkup markup void [] (page.pieces children) out := by
  rw [print]
  rfl

/-- Printing a node adds what is kept of it, whatever the output so far. -/
theorem preserves_print {node : Node} (whole : node.Whole registry page.source) :
    (∀ part ∈ node.walk, part.Edged page.source) → page.Preserves node := by
  induction whole with
  | text =>
    intro _ _ out texts shows_ _
    rw [print, Node.keptTexts, List.append_nil]
    exact shows_printText _ shows_
  | echo =>
    intro _ _ out texts shows_ _
    rw [print, Node.keptTexts, List.append_nil]
    exact shows_.raw _
  | @comment location a b =>
    intro edged _ out texts shows_ _
    have firm : Firm (cut page.source a b) := edged (.comment location _) (Node.mem_walk_self _)
    rw [print, Node.keptTexts]
    exact shows_.rawKept (.inl firm.starts.inLine)
  | @endTag location name a b =>
    intro edged _ out texts shows_ _
    have firm : Firm (cut page.source a b) :=
      edged (.endTag location name _) (Node.mem_walk_self _)
    rw [print, Node.keptTexts]
    exact shows_.rawKept (.inl firm.starts.inLine)
  | region =>
    intro edged reindented out texts shows_ behind
    rw [print, Node.keptTexts]
    exact shows_region reindented (edged _ (Node.mem_walk_self _))
      (fun raw => behind (by rw [raw]; rfl)) shows_
  | directive placed =>
    intro _ _ out texts shows_ _
    rw [print, Node.keptTexts]
    exact shows_directive placed.written shows_
  | @openBlock location opener family _ indentsMiddles _ _ _ spans opens laid wholes =>
    intro _ _ out texts shows_ _
    have text : location.slice page.source = _ :=
      (@Node.Whole.openBlock _ _ _ _ family _ indentsMiddles _ _ _ spans opens laid wholes).lossless
    rw [print, Node.keptTexts]
    refine shows_.rawKept (.inl (starts_trimRight ?_))
    rw [text, List.append_assoc]
    exact opens.written.starts _
  | @block location opener closer family children indentsMiddles _ _ _ _ _ opens _ wholes closes
      ih =>
    intro edged _ out texts shows_ _
    have self : Node.RawFirst page.source none children :=
      edged (.block location opener family children (some closer) indentsMiddles)
        (Node.mem_walk_self _)
    have preserves : ∀ node ∈ children, page.Preserves node := fun node member =>
      ih node member fun part below => edged part
        (Node.mem_walk_of_child (List.mem_append_left _ (List.mem_cons_of_mem _ member)) below)
    rw [print, Node.keptTexts, Node.keptTextsAll_eq]
    exact shows_printBlock false preserves self.none_of_noTag wholes _ _ opens.written
      closes.written shows_
  | @element markup void children _ _ _ shaped wholes ih =>
    intro edged _ out texts shows_ _
    have self : Node.Edged page.source (.element markup void children) :=
      edged _ (Node.mem_walk_self _)
    have preserves : ∀ node ∈ children, page.Preserves node := fun node member =>
      ih node member fun part below => edged part (Node.mem_walk_of_child member below)
    have rawFirst := self.2.2
    rw [print_element_eq, Node.keptTexts, Node.keptTextsAll_eq, Bool.false_or]
    cases copies : markup.copiesBody with
    | true =>
      rw [Markup.copiesBody, Bool.and_eq_true] at copies
      exact shows_printRawText copies.1 shaped wholes self
        (fun part member => edged part (by simp [Node.walk, member])) shows_
    | false =>
      obtain ⟨m, n, laid⟩ := shaped.laid
      have sorted : Node.byOffset ([] ++ children) = children := laid.byOffset_eq wholes
      refine @shows_printMarkup page out texts markup self.1 void [] children _
        (content_of_single shaped) preserves ?_ ?_ shows_
      · intro closed
        refine rawFirst.none_of_other ?_
        rintro _ ⟨⟩
        rwa [Markup.copiesBody, closed, Bool.true_and] at copies
      · rw [sorted]
        exact rawFirst.rest
  | @slot name markup children _ _ _ shaped _ ih =>
    intro edged _ out texts shows_ _
    obtain ⟨entries, rawFirst⟩ : Node.Edged page.source (.slot name markup children) :=
      edged _ (Node.mem_walk_self _)
    have preserves : ∀ node ∈ children, page.Preserves node := fun node member =>
      ih node member fun part below => edged part (Node.mem_walk_of_child member below)
    rw [print, Node.keptTexts, Node.keptTextsAll_eq]
    refine @shows_printMarkup page out texts markup entries false [] children _
      (content_of_single shaped) preserves (fun _ => rawFirst.none_of_noTag) ?_ shows_
    intro node member
    exact rawFirst.none_of_noTag node (List.mem_mergeSort.1 (List.mem_of_mem_tail member))
  | @component markup children _ _ spans shaped wholes ih =>
    intro edged _ out texts shows_ _
    obtain ⟨entries, slotsFirst, othersFirst⟩ : Node.Edged page.source (.component markup
        (children.filter Builder.isSlotChild) (children.filter (!Builder.isSlotChild ·))) :=
      edged _ (Node.mem_walk_self _)
    have none := List.forall_mem_append.2 ⟨slotsFirst.none_of_noTag, othersFirst.none_of_noTag⟩
    rw [print, Node.keptTexts, Node.keptTextsAll_eq, Node.keptTextsAll_eq, ← List.flatMap_append]
    refine shows_printMarkup entries _
      (content_of_single_component (.component spans shaped wholes)) ?_ (fun _ => none) ?_ shows_
    · intro node member
      exact ih node ((List.filter_append_perm _ _).mem_iff.1 member) fun part below =>
        edged part (Node.mem_walk_of_child member below)
    · intro node member
      exact none node (List.mem_mergeSort.1 (List.mem_of_mem_tail member))

end Page

/-! ## Whole templates -/

/-- Every template that can be read has a tree, and in the text printed for the tree, under whatever
configuration, each text that is to be kept as it is has a place of its own. -/
theorem render_keeps_verbatim (config : Config) (dialect : Dialect) (file : Option String)
    (source : Chars) (read : (scan dialect source).fault = none) :
    ∃ document, (parse dialect file source).outcome = .ok document ∧
      Standing document.keptTexts (render config document) := by
  obtain ⟨document, parsed⟩ := parse_of_read file read
  refine ⟨document, parsed, ?_⟩
  obtain ⟨_, wholes⟩ := whole_of_parse parsed
  obtain ⟨rawFirst, edged⟩ := edged_of_parse parsed
  have same := source_of_parse parsed
  let page : Page := ⟨config, source⟩
  have preserves : ∀ node ∈ document.children, page.Preserves node := fun node member =>
    Page.preserves_print (wholes node member) (Node.forall_mem_walk edged member)
  have start : (Lines.new config.indentUnit config.preserveBlankLines).Shows [] :=
    ⟨[], .refl _, .nil _⟩
  have whole := (Page.shows_printAll false preserves rawFirst.none_of_noTag start).standing
  unfold render Document.keptTexts
  rw [same, Node.keptTextsAll_eq]
  exact whole

/-- An element that is never closed, with a comment among its attributes, a closer without a block,
a script whose end tag is indented, a stray end tag, and a block that is never closed either. -/
theorem render_keeps_verbatim_unclosed :
    let source := ("<!-- a -->\n<div id=\"b\"  \x7b\x7b-- c --\x7d\x7d class = d>\n@endif\n" ++
      "<script>\n  x\n  </script></p>\n@if($a)\n  b  ").toList
    (scan (Config.dialect {}) source).fault = none ∧
    (parse (Config.dialect {}) none source).outcome.toOption.map Document.keptTexts =
      some (["<!-- a -->", "id=\"b\"", "\x7b\x7b-- c --\x7d\x7d", "class=d", "@endif", "\n  x\n",
        "</p>", "@if($a)\n  b"].map String.toList) ∧
    ∃ document, (parse (Config.dialect {}) none source).outcome = .ok document ∧
      Standing document.keptTexts (render {} document) := by
  intro source
  have read : (scan (Config.dialect {}) source).fault = none := by decide +kernel
  exact ⟨read, by decide +kernel, render_keeps_verbatim {} (Config.dialect {}) none source read⟩

end BladeTemplate
