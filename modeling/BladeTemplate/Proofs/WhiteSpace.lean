import BladeTemplate.Proofs.Balance
import BladeTemplate.Proofs.Slices

/-!
# Printing changes only white space

A tree in which nothing is spelled in another way than it is printed leaves the ink of its template
on the page, character by character and in order: whatever is indented, wrapped, broken over lines
or recovered, only white space comes and goes.

* `Tag.isPlainEnd` and `Markup.endTagSource` tell whether an end tag holds only its name;
* `Node.isPlain` is what a node needs to be printed as it was written, and `Document.isPlain` the
  same for a whole template;
* `Page.keeps_of_plain` is the induction over the tree, and `render_changes_only_whiteSpace` the
  result.
-/

namespace BladeTemplate

open Text

/-! ## Nodes that are printed as they are written -/

/-- Whether a text is the end tag of the given name: the name, and nothing but white space between
it and the closing bracket. -/
def Tag.isPlainEnd (name text : Chars) : Bool :=
  startsWith (['<', '/'] ++ name) text && isBlankText (text.drop (name.length + 2)).dropLast &&
    (text.drop (name.length + 2)).getLast? = some '>'

theorem Tag.isPlainEnd_spec {name text : Chars} (plain : isPlainEnd name text = true) :
    ∃ gap, isBlankText gap = true ∧ text = ['<', '/'] ++ name ++ gap ++ ['>'] := by
  simp only [isPlainEnd, Bool.and_eq_true, decide_eq_true_eq] at plain
  obtain ⟨⟨starts, blank⟩, ends⟩ := plain
  obtain ⟨rest, rfl⟩ := startsWith_iff.1 starts
  have dropped : (['<', '/'] ++ name ++ rest).drop (name.length + 2) = rest := by
    rw [List.drop_left' (by simp)]
  rw [dropped] at blank ends
  refine ⟨rest.dropLast, blank, ?_⟩
  obtain ⟨before, rfl⟩ := List.getLast?_eq_some_iff.1 ends
  simp

namespace Markup

/-- The end tag of markup as it is written: what stands after the content or, if there is none,
after the bracket that ends the start tag. -/
def endTagSource (source : Chars) (markup : Markup) (content : List Node) : Chars :=
  match content.getLast? with
  | some last => slice source last.location.endOffset markup.location.endOffset
  | none => ((markup.location.slice source).dropLast.reverse.takeWhile (· ≠ '>')).reverse ++ ['>']

/-- Whether markup is printed as it is written: an element that is not read as markup does not close
itself, and the end tag holds nothing but its name. -/
def isPlain (source : Chars) (markup : Markup) (content : List Node) : Bool :=
  !(markup.selfClosing && Tag.isOneOf Tag.rawTextNames markup.tag) &&
    match markup.endTag with
    | none => true
    | some name => Tag.isPlainEnd name (markup.endTagSource source content)

end Markup

/-- Whether a node is printed as it is written: a closed component has no slots, a registered
directive is spelled as registered, and the tags of markup have nothing to be left out or added. -/
def Node.isPlain (source : Chars) : Node → Bool
  | .element markup _ children | .slot _ markup children => markup.isPlain source children
  | .component markup slots children =>
    (!markup.closed || slots.isEmpty) && markup.isPlain source (slots ++ children)
  | .directive found => !found.registered || found.writtenName = found.name
  | _ => true

/-- Whether every node of a template is printed as it is written. -/
def Document.isPlain (document : Document) : Bool :=
  (Node.walkAll document.children).all (Node.isPlain document.source)

/-! ## End tags -/

/-- The last of nodes that lie end to end ends where they end. -/
theorem Node.Laid.endOffset_getLast {nodes : List Node} {m n : Nat} (laid : Laid nodes m n)
    {last : Node} (found : nodes.getLast? = some last) : last.location.endOffset = n := by
  obtain ⟨before, rfl⟩ := List.getLast?_eq_some_iff.1 found
  obtain ⟨_, _, spans⟩ := Tiles.snoc_inv laid
  exact spans.endOffset

namespace Markup

variable {source : Chars} {markup : Markup} {children : List Node} {a m n b : Nat}

/-- A start tag ends in a closing bracket. -/
theorem Opens.ends (opens : markup.Opens source a m) :
    ∃ before, cut source a m = before ++ ['>'] := by
  obtain ⟨name, entries, close, first, _, spaced, gap, last, ending⟩ := opens.parts
  have middle := spaced.ordered
  have space := gap.ordered
  obtain ⟨slash, bracket⟩ : ∃ slash, Page.tagEnd markup = slash ++ ['>'] := by
    unfold Page.tagEnd
    split
    · exact ⟨['/'], rfl⟩
    · exact ⟨[], rfl⟩
  refine ⟨cut source a close ++ slash, ?_⟩
  rw [← cut_append source (by omega : a ≤ close) last, ending, bracket, List.append_assoc]

theorem Shaped.noEnd {void : Bool} (shaped : markup.Shaped source void children a b)
    (notClosed : markup.closed = false) : markup.endTag = none := by
  cases shaped with
  | single _ _ _ _ _ noEnd => exact noEnd
  | closed _ _ _ _ _ _ _ _ closed =>
    rw [notClosed] at closed
    cases closed
  | unclosed _ _ _ _ _ noEnd => exact noEnd

/-- Without end tag the content does not matter. -/
theorem isPlain_of_unclosed {content : List Node} (noEnd : markup.endTag = none)
    (plain : markup.isPlain source content = true) : markup.isPlain source children = true := by
  unfold isPlain at plain ⊢
  rw [noEnd] at plain ⊢
  exact plain

/-- The end tag of closed markup is the part of the template after its content. -/
theorem endTagSource_eq {inside : Chars} (spans : markup.location.Spans a b)
    (opens : markup.Opens source a m) (laid : Node.Laid children m n) (ordered : n ≤ b)
    (shape : cut source n b = ['<', '/'] ++ inside ++ ['>']) (notInside : '>' ∉ inside) :
    markup.endTagSource source children = cut source n b := by
  unfold endTagSource
  split
  · next last found =>
    rw [laid.endOffset_getLast found, spans.endOffset, slice_natCast]
    rfl
  · next none =>
    obtain rfl : children = [] := List.getLast?_eq_none_iff.1 none
    obtain rfl : m = n := by
      cases laid
      rfl
    -- Without content there is no bracket between that of the start tag and the last one.
    obtain ⟨before, opening⟩ := opens.ends
    have text : markup.location.slice source =
        before ++ ['>'] ++ (['<', '/'] ++ inside ++ ['>']) := by
      rw [spans.slice, ← cut_append source opens.ordered ordered, opening, shape]
    have kept : ∀ c ∈ (['<', '/'] ++ inside).reverse, decide (c ≠ '>') = true := by
      intro c member
      rw [decide_eq_true_eq]
      rintro rfl
      simp [notInside] at member
    rw [text, shape, ← List.append_assoc, List.dropLast_concat, List.reverse_append,
      List.takeWhile_append_of_pos kept, List.reverse_append, List.reverse_append,
      List.reverse_reverse]
    simp

end Markup

/-! ## Constructs -/

namespace Page

variable {registry : Registry} {page : Page} {a b : Nat}

/-- The node leaves the ink of its text. -/
def Keeps (page : Page) (node : Node) : Prop :=
  page.printed node = squeeze (node.location.slice page.source)

/-- Nodes side by side that each leave the ink of their text. -/
theorem flatMap_printed {nodes : List Node} (keeps : ∀ node ∈ nodes, page.Keeps node) :
    nodes.flatMap page.printed =
      squeeze (nodes.flatMap fun node => node.location.slice page.source) := by
  rw [squeeze_flatMap, List.flatMap_def, List.flatMap_def, List.map_congr_left keeps]

/-- A directive that is spelled as registered leaves the ink it is written with. -/
theorem squeeze_directiveText {directive : Directive}
    (placed : directive.Placed registry page.source a b)
    (spelled : (!directive.registered || directive.writtenName = directive.name) = true) :
    squeeze (page.directiveText directive) = squeeze (cut page.source a b) := by
  have written := placed.written
  unfold directiveText
  split
  · rw [written.text]
  next known =>
  split
  · rw [written.text]
  have name : directive.writtenName = directive.name := by
    simp only [Bool.or_eq_true, Bool.not_eq_true', not_or, Bool.not_eq_true,
      Bool.not_eq_false] at known
    simpa [known.2] using spelled
  rcases written.shape with ⟨none, shape⟩ | ⟨gap, inside, some, spaces, shape⟩
  · rw [none, shape, name]
  · have blank : squeeze gap = [] := by
      refine squeeze_of_blank (List.all_eq_true.2 ?_)
      intro c member
      have space := spaces c member
      simp only [isInlineSpace, Bool.or_eq_true, decide_eq_true_eq] at space
      rcases space with rfl | rfl <;> decide
    have spaced : squeeze (if directive.spacedArguments then [' '] else []) = [] := by
      split <;> rfl
    simp only [some, shape, name, squeeze_append, blank, spaced]

/-- A plain end tag is printed with the ink it is written with. -/
theorem squeeze_plainEnd {markup : Markup} {content : List Node} {m n : Nat} {inside : Chars}
    (plain : markup.isPlain page.source content = true) (spans : markup.location.Spans a b)
    (opens : markup.Opens page.source a m) (laid : Node.Laid content m n) (ordered : n ≤ b)
    (shape : cut page.source n b = ['<', '/'] ++ inside ++ ['>']) (notInside : '>' ∉ inside)
    (named : firstWord inside ≠ []) (endTag : markup.endTag = some (firstWord inside)) :
    squeeze (endTagText markup) = squeeze (cut page.source n b) := by
  simp only [Markup.isPlain, endTag, Bool.and_eq_true] at plain
  rw [Markup.endTagSource_eq spans opens laid ordered shape notInside] at plain
  obtain ⟨gap, blank, written⟩ := Tag.isPlainEnd_spec plain.2
  rw [squeeze_endTagText endTag named, written]
  simp only [squeeze_append, squeeze_of_blank blank, List.append_nil]

/-- Start tag, content and plain end tag together have the ink of the whole. -/
theorem squeeze_closed (unsorted : page.config.sortAttributes = false) {markup : Markup}
    {content : List Node} {m n : Nat} {inside : Chars}
    (plain : markup.isPlain page.source content = true) (spans : markup.location.Spans a b)
    (opens : markup.Opens page.source a m) (laid : Node.Laid content m n) (ordered : n ≤ b)
    (shape : cut page.source n b = ['<', '/'] ++ inside ++ ['>']) (notInside : '>' ∉ inside)
    (named : firstWord inside ≠ []) (endTag : markup.endTag = some (firstWord inside)) :
    squeeze (page.startTagText markup) ++ squeeze (cut page.source m n) ++
      squeeze (endTagText markup) = squeeze (markup.location.slice page.source) := by
  have mn := laid.ordered
  rw [spans.slice, squeeze_startTag unsorted opens,
    squeeze_plainEnd plain spans opens laid ordered shape notInside named endTag,
    ← squeeze_append, ← squeeze_append, cut_append _ opens.ordered mn,
    cut_append _ (Nat.le_trans opens.ordered mn) ordered]

/-- Markup that is printed from its parts leaves the ink of its text, if its content does. -/
theorem markupInk_eq (unsorted : page.config.sortAttributes = false) {markup : Markup} {void : Bool}
    {slots children kids : List Node} (spans : markup.location.Spans a b)
    (shaped : markup.Shaped page.source void kids a b)
    (plain : markup.isPlain page.source kids = true)
    (merged : Node.byOffset (slots ++ children) = kids)
    (inOrder : markup.closed = true → slots ++ children = kids)
    (keeps : ∀ node ∈ slots ++ children, page.Keeps node) :
    page.markupInk markup void (page.printedAll slots) (page.printedAll children) =
      squeeze (markup.location.slice page.source) := by
  unfold markupInk
  cases shaped with
  | single opens alone _ _ closed _ =>
    have ends : (markup.selfClosing || void) = true := by simpa using alone
    rw [spans.slice]
    simp only [closed, ends, Bool.not_true, Bool.false_eq_true, if_false, if_true]
    exact squeeze_startTag unsorted opens
  | closed inText opens notSelf notVoid laid ordered shape notInside closed named endTag =>
    have content := flatMap_printed keeps
    rw [List.flatMap_append] at content
    rw [inOrder closed, laid.flatMap_slice] at content
    simp only [closed, notSelf, notVoid, Bool.not_true, Bool.or_self, Bool.false_eq_true, if_false,
      flatMap_printedAll]
    rw [List.append_assoc (squeeze _), content]
    exact squeeze_closed unsorted plain spans opens laid ordered shape notInside named endTag
  | unclosed opens notSelf notVoid laid closed _ =>
    -- Slots are printed where they stand, so the order of the template is kept.
    have content : kids.flatMap page.printed =
        squeeze (kids.flatMap fun node => node.location.slice page.source) := by
      refine flatMap_printed ?_
      intro node member
      rw [← merged] at member
      exact keeps node (List.mem_mergeSort.1 member)
    have appended : page.printedAll slots ++ page.printedAll children =
        page.printedAll (slots ++ children) := by
      simp only [printedAll_eq, List.map_append]
    have sorted := flatMap_sorted page (slots ++ children)
    rw [← Node.byOffset, merged, content, laid.flatMap_slice] at sorted
    simp only [closed, Bool.not_false, if_true]
    rw [spans.slice, appended, sorted, squeeze_startTag unsorted opens, ← squeeze_append,
      cut_append _ opens.ordered laid.ordered]

/-- An element whose body is not read as markup leaves the ink of its text: it has an end tag, and
its body is copied. -/
theorem rawInk_eq (unsorted : page.config.sortAttributes = false) {markup : Markup} {void : Bool}
    {children : List Node} (spans : markup.location.Spans a b)
    (shaped : markup.Shaped page.source void children a b)
    (wholes : ∀ node ∈ children, node.Whole registry page.source)
    (plain : markup.isPlain page.source children = true)
    (raw : (markup.closed && Tag.isOneOf Tag.rawTextNames markup.tag) = true) :
    squeeze (page.startTagText markup) ++ squeeze (bodyText page.source children) ++
        squeeze (endTagText markup) = squeeze (markup.location.slice page.source) := by
  have isRaw : Tag.isOneOf Tag.rawTextNames markup.tag = true := by
    simp only [Bool.and_eq_true] at raw
    exact raw.2
  cases shaped with
  | single opens alone isVoid =>
    exfalso
    rcases alone with self | void
    · simp [Markup.isPlain, self, isRaw] at plain
    · exact absurd (isVoid void) (by simp [not_void_of_rawText isRaw])
  | closed inText opens _ _ laid ordered shape notInside _ named endTag =>
    rw [bodyText_eq wholes, laid.flatMap_slice]
    exact squeeze_closed unsorted plain spans opens laid ordered shape notInside named endTag
  | unclosed _ _ _ _ closed => simp [closed] at raw

end Page

/-! ## Trees -/

namespace Page

variable {registry : Registry} {page : Page}

/-- A plain node leaves the ink of its text. -/
theorem keeps_of_plain (unsorted : page.config.sortAttributes = false) {node : Node}
    (whole : node.Whole registry page.source) :
    (∀ part ∈ node.walk, part.isPlain page.source = true) → page.Keeps node := by
  induction whole with
  | text spans _ | comment spans _ | region spans _ | endTag spans _ =>
    exact fun _ => congrArg squeeze (spans.slice _).symm
  | echo written =>
    intro _
    unfold Keeps
    rw [printed, Node.location, written.spans.slice, written.shape, squeeze_formatEcho]
    simp
  | @directive found _ _ placed =>
    intro plain
    have spelled := plain (.directive found) List.mem_cons_self
    unfold Keeps
    rw [printed, Node.location, placed.written.spans.slice]
    exact squeeze_directiveText placed spelled
  | openBlock =>
    intro _
    rw [Keeps, printed]
    rfl
  | @block _ opener closer _ children _ _ _ _ _ spans opens laid _ closes ih =>
    intro plain
    have first := squeeze_directiveText opens (plain (.directive opener) (by simp [Node.walk]))
    have last := squeeze_directiveText closes (plain (.directive closer) (by simp [Node.walk]))
    have content := flatMap_printed fun node member => ih node member fun part inside =>
      plain part (Node.mem_walk_of_child
        (List.mem_append_left _ (List.mem_cons_of_mem _ member)) inside)
    have am := opens.written.spans.ordered
    have mn := laid.ordered
    unfold Keeps
    rw [printed, Node.location, spans.slice]
    simp only [flatMap_printedAll]
    rw [first, last, content, laid.flatMap_slice, ← squeeze_append, ← squeeze_append,
      cut_append _ am mn, cut_append _ (Nat.le_trans am mn) closes.written.spans.ordered]
  | @element markup void children _ _ spans shaped wholes ih =>
    intro plain
    have self := plain (.element markup void children) (Node.mem_walk_self _)
    rw [Keeps, printed]
    split
    · next raw => exact rawInk_eq unsorted spans shaped wholes self raw
    · obtain ⟨m, n, laid⟩ := shaped.laid
      exact @markupInk_eq page _ _ unsorted markup void [] children children spans shaped self
        (laid.byOffset_eq wholes) (fun _ => rfl) fun node member =>
          ih node member fun part inside => plain part (Node.mem_walk_of_child member inside)
  | @slot name markup children _ _ spans shaped wholes ih =>
    intro plain
    have self := plain (.slot name markup children) (Node.mem_walk_self _)
    obtain ⟨m, n, laid⟩ := shaped.laid
    rw [Keeps, printed]
    exact @markupInk_eq page _ _ unsorted markup false [] children children spans shaped self
      (laid.byOffset_eq wholes) (fun _ => rfl) fun node member =>
        ih node member fun part inside => plain part (Node.mem_walk_of_child member inside)
  | @component markup children _ _ spans shaped wholes ih =>
    intro plain
    have self := plain _ (Node.mem_walk_self _)
    simp only [Node.isPlain, Bool.and_eq_true, Bool.or_eq_true, Bool.not_eq_true',
      List.isEmpty_iff] at self
    -- Without slots nothing was taken apart; with slots there is no end tag to look at.
    have inOrder (closed : markup.closed = true) : children.filter Builder.isSlotChild ++
        children.filter (!Builder.isSlotChild ·) = children := by
      rcases self.1 with notClosed | noSlots
      · rw [closed] at notClosed
        cases notClosed
      · rw [noSlots, List.nil_append, List.filter_eq_self]
        intro node member
        simpa using List.filter_eq_nil_iff.1 noSlots node member
    have tags : markup.isPlain page.source children = true := by
      cases closed : markup.closed with
      | true => exact inOrder closed ▸ self.2
      | false => exact Markup.isPlain_of_unclosed (shaped.noEnd closed) self.2
    obtain ⟨m, n, laid⟩ := shaped.laid
    rw [Keeps, printed]
    refine markupInk_eq unsorted spans shaped tags (laid.byOffset_filter wholes _) inOrder ?_
    intro node member
    exact ih node ((List.filter_append_perm _ _).mem_iff.1 member) fun part inside =>
      plain part (Node.mem_walk_of_child member inside)

end Page

/-! ## Whole templates -/

/-- Every template that can be read has a tree, and if every node of it is printed as it is written,
printing the tree changes only white space: without white space, the text printed is the template,
whatever the configuration says about lines and indentation. -/
theorem render_changes_only_whiteSpace (config : Config) (dialect : Dialect)
    (file : Option String) (source : Chars) (unsorted : config.sortAttributes = false)
    (read : (scan dialect source).fault = none) :
    ∃ document, (parse dialect file source).outcome = .ok document ∧
      (document.isPlain = true → squeeze (render config document) = squeeze source) := by
  obtain ⟨document, parsed⟩ := parse_of_read file read
  refine ⟨document, parsed, ?_⟩
  intro plain
  obtain ⟨laid, wholes⟩ := whole_of_parse parsed
  have same := source_of_parse parsed
  unfold Document.isPlain at plain
  rw [same] at plain
  have keeps : ∀ node ∈ document.children, Page.Keeps ⟨config, source⟩ node :=
    fun node member => Page.keeps_of_plain unsorted (wholes node member)
      (Node.forall_mem_walk (List.all_eq_true.1 plain) member)
  rw [squeeze_render, same, Page.flatMap_printed keeps, laid.flatMap_slice, cut_all]

/-- An element in a block and, never closed, a component whose slot comes after its text. -/
theorem render_changes_only_whiteSpace_nested :
    let source := "@if ($a)<p id = x>{{$b}}</p >@endif<x-card>c<x-slot:top>t</x-slot>".toList
    (scan (Config.dialect {}) source).fault = none ∧
    ∃ document, (parse (Config.dialect {}) none source).outcome = .ok document ∧
      document.isPlain = true ∧ squeeze (render {} document) = squeeze source := by
  intro source
  have read : (scan (Config.dialect {}) source).fault = none := by decide +kernel
  have printed : (parse (Config.dialect {}) none source).outcome.toOption.map Document.isPlain =
      some true := by
    decide +kernel
  obtain ⟨document, parsed, keeps⟩ :=
    render_changes_only_whiteSpace {} (Config.dialect {}) none source rfl read
  rw [parsed] at printed
  have plain : document.isPlain = true := Option.some.inj printed
  exact ⟨read, document, parsed, plain, keeps plain⟩

end BladeTemplate
