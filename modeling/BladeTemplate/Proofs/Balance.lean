import BladeTemplate.Proofs.Lossless
import BladeTemplate.Proofs.Printed
import BladeTemplate.Proofs.Verdict

/-!
# What printing keeps, drops and adds

Character by character, the ink of a printed tree is that of its template, with three exceptions: an
end tag is reduced to its name, an element that is not read as markup gets an end tag even if it
closes itself, and a registered directive is spelled as registered.

* `Node.built` lists the nodes that are printed from their parts; the rest is copied;
* `Node.dropped`, `Node.invented` and `Page.respelled` are the three exceptions, node by node;
* `balance_printed` is the balance of a node, and `balance_render` that of a whole template.
-/

namespace BladeTemplate

open Text

/-! ## The exceptions -/

namespace Node

mutual

/-- A node and those below it that are printed from their parts: not those inside a block that was
never closed, and not those inside an element that is not read as markup. -/
def built : Node → List Node
  | .block location opener family children closer indentsMiddles =>
    .block location opener family children closer indentsMiddles ::
      match closer with
      | none => []
      | some last => .directive opener :: builtAll children ++ [.directive last]
  | .element markup void children =>
    .element markup void children ::
      if markup.closed && Tag.isOneOf Tag.rawTextNames markup.tag then [] else builtAll children
  | .component markup slots children =>
    .component markup slots children :: builtAll slots ++ builtAll children
  | .slot name markup children => .slot name markup children :: builtAll children
  | node => [node]

/-- Several nodes and those below them that are printed from their parts. -/
def builtAll : List Node → List Node
  | [] => []
  | node :: rest => node.built ++ builtAll rest

end

theorem builtAll_eq (nodes : List Node) : builtAll nodes = nodes.flatMap built := by
  induction nodes with
  | nil => rfl
  | cons node rest ih => rw [builtAll, ih, List.flatMap_cons]

end Node

/-- The ink of an end tag between its name and its closing bracket: what is left of the ink of the
markup after its start tag, its content, and the name in its end tag. -/
def Markup.dropped (source : Chars) (markup : Markup) (content : List Node) : Chars :=
  match markup.endTag with
  | none => []
  | some name =>
    let inside := content.flatMap fun node => squeeze (node.location.slice source)
    let before := markup.openingInk ++ inside ++ ['<', '/'] ++ name
    ((squeeze (markup.location.slice source)).drop before.length).dropLast

namespace Node

/-- The ink that is left out of a node's end tag. -/
def dropped (source : Chars) : Node → Chars
  | .element markup _ children => markup.dropped source children
  | .component markup slots children => markup.dropped source (slots ++ children)
  | .slot _ markup children => markup.dropped source children
  | _ => []

/-- Whether a node gets an end tag although it closes itself. -/
def invents : Node → Bool
  | .element markup _ _ =>
    markup.closed && Tag.isOneOf Tag.rawTextNames markup.tag && markup.selfClosing
  | _ => false

/-- The ink of an end tag that is in no template. -/
def invented : Node → Chars
  | .element markup void children =>
    if invents (.element markup void children) then squeeze (Page.endTagText markup) else []
  | _ => []

end Node

/-- The directive of a node that is printed in the spelling of the registry. -/
def Page.respelled (page : Page) : Node → List Directive
  | .directive directive =>
    if directive.orphan || !directive.registered then []
    else if directive.pairing = .closes && page.config.closingStyle = .asWritten then []
    else [directive]
  | _ => []

/-! ## Balances -/

/-- How often a character occurs in what is printed and in the template, if the given nodes are
printed from their parts. -/
def Balanced (page : Page) (c : Char) (nodes : List Node) (printed text : Chars) : Prop :=
  printed.count c + (nodes.flatMap (Node.dropped page.source)).count c +
      ((nodes.flatMap page.respelled).flatMap Directive.writtenName).count c =
    text.count c + (nodes.flatMap Node.invented).count c +
      ((nodes.flatMap page.respelled).flatMap Directive.name).count c

namespace Balanced

variable {page : Page} {c : Char}

theorem append {first second : List Node} {printed more text later : Chars}
    (one : Balanced page c first printed text) (other : Balanced page c second more later) :
    Balanced page c (first ++ second) (printed ++ more) (text ++ later) := by
  unfold Balanced at one other ⊢
  simp only [List.flatMap_append, List.count_append]
  omega

/-- Without nodes the two texts have the same ink. -/
theorem of_count {printed text : Chars} (same : printed.count c = text.count c) :
    Balanced page c [] printed text := by
  unfold Balanced
  simpa using same

/-- A node without any of the exceptions. -/
theorem of_plain {node : Node} {printed text : Chars} (drops : node.dropped page.source = [])
    (invents : node.invented = []) (respells : page.respelled node = [])
    (same : printed.count c = text.count c) : Balanced page c [node] printed text := by
  unfold Balanced
  simpa [drops, invents, respells] using same

end Balanced

/-- Squeezing a text leaves every character that is not white space. -/
theorem Text.count_squeeze {c : Char} (inked : isBlank c = false) (text : Chars) :
    (squeeze text).count c = text.count c := by
  unfold squeeze
  rw [List.count_filter]
  simp [inked]

section nodes

variable {registry : Registry} {page : Page} {c : Char}

/-- A directive: its name is the only thing that may change. -/
theorem balanced_directive (inked : isBlank c = false) {directive : Directive} {a b : Nat}
    (placed : directive.Placed registry page.source a b) :
    Balanced page c [.directive directive] (squeeze (page.directiveText directive))
      (cut page.source a b) := by
  have written := placed.written
  have gapless {gap : Chars} (spaces : ∀ d ∈ gap, isInlineSpace d = true) : gap.count c = 0 := by
    rw [List.count_eq_zero]
    intro member
    have space := spaces c member
    simp only [isInlineSpace, Bool.or_eq_true, decide_eq_true_eq] at space
    rcases space with rfl | rfl <;> exact absurd inked (by decide)
  unfold Balanced Page.directiveText
  simp only [List.flatMap_singleton, Node.dropped, Node.invented, Page.respelled, List.count_nil,
    count_squeeze inked]
  split
  · simp [written.text]
  split
  · simp [written.text]
  · rcases written.shape with ⟨none, shape⟩ | ⟨gap, inside, some, spaces, shape⟩
    · simp [none, shape, List.count_cons]
      omega
    · have spaced : (if directive.spacedArguments then [' '] else []).count c = 0 := by
        refine gapless ?_
        intro d member
        split at member
        · rw [List.mem_singleton.1 member]
          decide
        · cases member
      simp [some, shape, List.count_cons, gapless spaces, spaced]
      omega

/-- The start tag is printed with the ink it was written with. -/
theorem squeeze_startTag (unsorted : page.config.sortAttributes = false) {markup : Markup}
    {a b : Nat} (opens : markup.Opens page.source a b) :
    squeeze (page.startTagText markup) = squeeze (cut page.source a b) := by
  have tag : squeeze ('<' :: markup.tag) = '<' :: markup.tag := by
    refine squeeze_of_inked ?_
    intro d member
    rcases List.mem_cons.1 member with rfl | inName
    · decide
    · exact isBlank_of_nameChar (opens.nameChars d inName)
  have order : page.orderedAttributes markup = markup.attributes := by
    simp [Page.orderedAttributes, Attribute.order, unsorted]
  rw [Page.squeeze_startTagText, opens.ink, tag, order]
  rfl

/-- The ink of an end tag: its name, what is dropped, and its brackets. -/
theorem squeeze_endTag {source : Chars} {markup : Markup} {content children : List Node}
    {a m n b : Nat} {inside : Chars} (spans : markup.location.Spans a b)
    (opens : markup.Opens source a m) (laid : Node.Laid children m n) (ordered : n ≤ b)
    (shape : cut source n b = ['<', '/'] ++ inside ++ ['>'])
    (endTag : markup.endTag = some (firstWord inside)) (perm : content.Perm children) :
    squeeze (cut source n b) =
      ['<', '/'] ++ firstWord inside ++ markup.dropped source content ++ ['>'] := by
  obtain ⟨rest, word⟩ : ∃ rest, squeeze inside = firstWord inside ++ rest :=
    ⟨_, squeeze_eq_firstWord inside⟩
  have ink : squeeze (cut source n b) = ['<', '/'] ++ firstWord inside ++ (rest ++ ['>']) := by
    rw [shape, squeeze_append, squeeze_append, word]
    have brackets : squeeze ['<', '/'] = ['<', '/'] ∧ squeeze ['>'] = ['>'] := by decide
    rw [brackets.1, brackets.2]
    simp
  have contentInk : (content.flatMap fun node => squeeze (node.location.slice source)).length =
      (squeeze (cut source m n)).length := by
    rw [← laid.flatMap_slice, squeeze_flatMap]
    exact (perm.flatMap_right _).length_eq
  have am := opens.ordered
  have mn := laid.ordered
  have whole : squeeze (markup.location.slice source) =
      (markup.openingInk ++ squeeze (cut source m n) ++ ['<', '/'] ++ firstWord inside) ++
        (rest ++ ['>']) := by
    rw [spans.slice, ← cut_append source am (by omega : m ≤ b), ← cut_append source mn ordered,
      squeeze_append, squeeze_append, opens.ink, ink]
    simp
  have dropped : markup.dropped source content = rest := by
    unfold Markup.dropped
    simp only [endTag]
    have length : (markup.openingInk ++
        (content.flatMap fun node => squeeze (node.location.slice source)) ++ ['<', '/'] ++
          firstWord inside).length =
        (markup.openingInk ++ squeeze (cut source m n) ++ ['<', '/'] ++ firstWord inside).length := by
      simp only [List.length_append, contentInk]
    rw [length, whole, List.drop_left, List.dropLast_concat]
  rw [ink, dropped]
  simp

theorem squeeze_endTagText {markup : Markup} {name : Chars} (endTag : markup.endTag = some name)
    (named : name ≠ []) : Page.endTagText markup = ['<', '/'] ++ name ++ ['>'] := by
  simp [Page.endTagText, endTag, named]

/-- Markup that is printed from its parts, given the balance of its content. -/
theorem balanced_markup (inked : isBlank c = false)
    (unsorted : page.config.sortAttributes = false) {self : Node} {markup : Markup} {void : Bool}
    {slots children kids inner : List Node} {a b : Nat}
    (drops : self.dropped page.source = markup.dropped page.source (slots ++ children))
    (noDirective : page.respelled self = []) (nothingNew : self.invented = [])
    (spans : markup.location.Spans a b) (shaped : markup.Shaped page.source void kids a b)
    (perm : (slots ++ children).Perm kids)
    (balanced : Balanced page c inner ((slots ++ children).flatMap page.printed)
      ((slots ++ children).flatMap fun node => node.location.slice page.source)) :
    Balanced page c (self :: inner)
      (page.markupInk markup void (page.printedAll slots) (page.printedAll children))
      (markup.location.slice page.source) := by
  have inside {m n : Nat} (laid : Node.Laid kids m n) :
      ((slots ++ children).flatMap fun node => node.location.slice page.source).count c =
        (cut page.source m n).count c := by
    rw [← laid.flatMap_slice]
    exact (perm.flatMap_right _).count_eq c
  have starts {m : Nat} (opens : markup.Opens page.source a m) :
      (squeeze (page.startTagText markup)).count c = (cut page.source a m).count c := by
    rw [squeeze_startTag unsorted opens, count_squeeze inked]
  unfold Balanced at balanced ⊢
  simp only [List.flatMap_cons, List.count_append, drops, noDirective, nothingNew, List.nil_append]
  rw [spans.slice]
  unfold Page.markupInk
  simp only [Page.flatMap_printedAll]
  -- The children of a start tag by itself, of an element with an end tag and of one without lie
  -- differently, so the count is put together once for each.
  cases shaped with
  | single opens alone _ none closed noEnd =>
    have empty : slots ++ children = [] := by
      rw [none] at perm
      exact perm.eq_nil
    have ends : (markup.selfClosing || void) = true := by
      simpa using alone
    simp only [empty, List.flatMap_nil, List.count_nil] at balanced
    simp only [closed, ends, Markup.dropped, noEnd, starts opens, List.count_nil, Bool.not_true,
      Bool.false_eq_true, if_false, if_true]
    omega
  | closed inText opens notSelf notVoid laid ordered shape notInside closed named endTag =>
    have ended := congrArg (List.count c)
      (squeeze_endTag spans opens laid ordered shape endTag perm)
    rw [count_squeeze inked] at ended
    have content := inside laid
    have mn := laid.ordered
    rw [← cut_append _ opens.ordered (by omega : _ ≤ b), ← cut_append _ mn ordered]
    simp only [closed, notSelf, notVoid, Bool.not_true, Bool.false_eq_true, Bool.or_self, if_false,
      List.count_append, starts opens, count_squeeze inked, squeeze_endTagText endTag named,
      List.flatMap_append] at balanced content ended ⊢
    omega
  | unclosed opens notSelf notVoid laid closed noEnd =>
    have content := inside laid
    -- An unclosed element is printed in the order of the template, which does not change the count.
    have sorted := ((List.mergeSort_perm (page.printedAll slots ++ page.printedAll children)
      (fun a b => a.1 ≤ b.1)).flatMap_right (·.2)).count_eq c
    rw [← cut_append _ opens.ordered laid.ordered]
    simp only [List.flatMap_append, Page.flatMap_printedAll, List.count_append] at sorted content balanced
    simp only [closed, Bool.not_false, if_true, Markup.dropped, noEnd, List.count_append, sorted,
      starts opens, List.count_nil]
    omega

/-- The text inside an element is the part of the template that its children stand for. -/
theorem bodyText_eq {children : List Node}
    (wholes : ∀ node ∈ children, node.Whole registry page.source) :
    Page.bodyText page.source children =
      children.flatMap fun node => node.location.slice page.source := by
  unfold Page.bodyText
  induction children with
  | nil => rfl
  | cons node rest ih =>
    rw [List.flatMap_cons, List.flatMap_cons,
      ih fun other member => wholes other (List.mem_cons_of_mem _ member)]
    congr 1
    cases wholes node List.mem_cons_self with
    | text spans => exact (spans.slice _).symm
    | region spans => exact (spans.slice _).symm
    | echo | comment | directive | endTag | openBlock | block | element | slot | component => rfl

theorem not_void_of_rawText {tag : Chars} (raw : Tag.isOneOf Tag.rawTextNames tag = true) :
    Tag.isOneOf Tag.voidNames tag = false := by
  have apart : ∀ name ∈ Tag.rawTextNames, ∀ other ∈ Tag.voidNames, name.toList ≠ other.toList := by
    decide
  unfold Tag.isOneOf at raw ⊢
  obtain ⟨name, isRaw, same⟩ := List.any_eq_true.1 raw
  rw [List.any_eq_false]
  intro other isVoid equal
  rw [decide_eq_true_eq] at same equal
  exact apart name isRaw other isVoid (same.trans equal.symm)

/-- An element that is not read as markup is copied between its tags. -/
theorem balanced_rawText (inked : isBlank c = false)
    (unsorted : page.config.sortAttributes = false) {markup : Markup} {void : Bool}
    {children : List Node} {a b : Nat} (spans : markup.location.Spans a b)
    (shaped : markup.Shaped page.source void children a b)
    (wholes : ∀ node ∈ children, node.Whole registry page.source)
    (raw : (markup.closed && Tag.isOneOf Tag.rawTextNames markup.tag) = true) :
    Balanced page c [.element markup void children]
      (squeeze (page.startTagText markup) ++ squeeze (Page.bodyText page.source children) ++
        squeeze (Page.endTagText markup)) (markup.location.slice page.source) := by
  have starts {m : Nat} (opens : markup.Opens page.source a m) :
      (squeeze (page.startTagText markup)).count c = (cut page.source a m).count c := by
    rw [squeeze_startTag unsorted opens, count_squeeze inked]
  have isRaw : Tag.isOneOf Tag.rawTextNames markup.tag = true := by
    simp only [Bool.and_eq_true] at raw
    exact raw.2
  unfold Balanced
  rw [spans.slice, bodyText_eq wholes]
  simp only [List.flatMap_singleton, Node.dropped, Node.invented, Node.invents, Page.respelled,
    List.flatMap_nil, List.count_nil, List.count_append, raw, Bool.true_and]
  cases shaped with
  | single opens alone isVoid none closed noEnd =>
    have selfClosing : markup.selfClosing = true := by
      rcases alone with self | void
      · exact self
      · exact absurd (isVoid void) (by simp [not_void_of_rawText isRaw])
    simp only [none, starts opens, Markup.dropped, noEnd, selfClosing, List.flatMap_nil, squeeze_nil,
      List.count_nil, if_true]
    omega
  | closed inText opens notSelf notVoid laid ordered shape notInside closed named endTag =>
    have ended := congrArg (List.count c)
      (squeeze_endTag spans opens laid ordered shape endTag (.refl children))
    rw [count_squeeze inked] at ended
    have mn := laid.ordered
    rw [← cut_append _ opens.ordered (by omega : _ ≤ b), ← cut_append _ mn ordered,
      laid.flatMap_slice]
    simp only [notSelf, Bool.false_eq_true, if_false, List.count_append, starts opens,
      count_squeeze inked, squeeze_endTagText endTag named, List.count_nil] at ended ⊢
    omega
  | unclosed opens notSelf notVoid laid closed noEnd =>
    simp [closed] at raw

/-! ## Trees -/

/-- Balanced nodes side by side are balanced. -/
theorem balanced_nodes {nodes : List Node}
    (each : ∀ node ∈ nodes,
      Balanced page c node.built (page.printed node) (node.location.slice page.source)) :
    Balanced page c (Node.builtAll nodes) (nodes.flatMap page.printed)
      (nodes.flatMap fun node => node.location.slice page.source) := by
  induction nodes with
  | nil => exact .of_count rfl
  | cons node rest ih =>
    rw [List.forall_mem_cons] at each
    rw [Node.builtAll, List.flatMap_cons, List.flatMap_cons]
    exact each.1.append (ih each.2)

/-- A node is balanced: what it leaves on the page is what it stands for in the template, but for
the three exceptions. -/
theorem balance_printed (inked : isBlank c = false) (unsorted : page.config.sortAttributes = false)
    {node : Node} (whole : node.Whole registry page.source) :
    Balanced page c node.built (page.printed node) (node.location.slice page.source) := by
  induction whole with
  | text spans _ | comment spans _ | region spans _ | endTag spans _ =>
    simp only [Page.printed, Node.built, Node.location, spans.slice]
    exact .of_plain rfl rfl rfl (count_squeeze inked _)
  | echo written =>
    simp only [Page.printed, Node.built, Node.location, written.spans.slice, written.shape]
    refine .of_plain rfl rfl rfl ?_
    simp only [squeeze_formatEcho, List.count_append, count_squeeze inked]
  | directive placed =>
    simp only [Page.printed, Node.built, Node.location, placed.written.spans.slice]
    exact balanced_directive inked placed
  | openBlock =>
    simp only [Page.printed, Node.built, Node.location]
    exact .of_plain rfl rfl rfl (count_squeeze inked _)
  | @block location opener closer family children indentsMiddles _ _ _ _ spans opens laid _ closes
      ih =>
    -- Opener, content and closer touch, so their balances add up to that of the whole slice.
    have first := balanced_directive inked opens
    have last := balanced_directive inked closes
    have whole := (first.append (balanced_nodes ih)).append last
    rw [laid.flatMap_slice, cut_append _ opens.written.spans.ordered laid.ordered,
      cut_append _ (Nat.le_trans opens.written.spans.ordered laid.ordered)
        closes.written.spans.ordered] at whole
    have self : Balanced page c
        [.block location opener family children (some closer) indentsMiddles] [] [] :=
      .of_plain rfl rfl rfl rfl
    simp only [Page.printed, Node.built, Node.location, spans.slice, Page.flatMap_printedAll]
    exact self.append whole
  | @element markup void children _ _ spans shaped wholes ih =>
    rw [Page.printed, Node.built]
    split
    · next raw => exact balanced_rawText inked unsorted spans shaped wholes raw
    · next notRaw =>
      have nothingNew : (Node.element markup void children).invented = [] := by
        simp only [Node.invented, Node.invents, notRaw, Bool.false_and, Bool.false_eq_true, if_false]
      exact @balanced_markup page c inked unsorted (.element markup void children) markup void []
        children children (Node.builtAll children) _ _ rfl rfl nothingNew spans shaped (.refl _)
        (balanced_nodes ih)
  | @slot name markup children _ _ spans shaped _ ih =>
    rw [Page.printed, Node.built]
    exact @balanced_markup page c inked unsorted (.slot name markup children) markup false []
      children children (Node.builtAll children) _ _ rfl rfl rfl spans shaped (.refl _)
      (balanced_nodes ih)
  | @component _ children _ _ spans shaped _ ih =>
    -- The slots are kept apart, so the two halves are a permutation of the children.
    have half (keep : Node → Bool) (node : Node) (member : node ∈ children.filter keep) :=
      ih node (List.mem_filter.1 member).1
    have both := (balanced_nodes (half Builder.isSlotChild)).append
      (balanced_nodes (half (!Builder.isSlotChild ·)))
    rw [← List.flatMap_append, ← List.flatMap_append] at both
    rw [Page.printed, Node.built]
    exact balanced_markup inked unsorted rfl rfl rfl spans shaped
      (List.filter_append_perm _ children) both

end nodes

/-- The balance of a whole template. -/
theorem balance_render {config : Config} (unsorted : config.sortAttributes = false)
    {dialect : Dialect} {file : Option String} {source : Chars} {document : Document}
    (parsed : (parse dialect file source).outcome = .ok document) {c : Char}
    (inked : isBlank c = false) :
    Balanced ⟨config, source⟩ c (Node.builtAll document.children)
      (squeeze (render config document)) source := by
  obtain ⟨laid, wholes⟩ := whole_of_parse parsed
  have balanced := @balanced_nodes ⟨config, source⟩ c document.children fun node member =>
    balance_printed inked unsorted (wholes node member)
  rw [laid.flatMap_slice, cut_all] at balanced
  rw [squeeze_render, source_of_parse parsed]
  exact balanced

end BladeTemplate
