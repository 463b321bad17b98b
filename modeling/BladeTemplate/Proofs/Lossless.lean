import BladeTemplate.Proofs.Below
import BladeTemplate.Proofs.Frames
import BladeTemplate.Proofs.Tiling

/-!
# Trees lose nothing

Every node of a parsed tree stands for a part of its template. The children of a node lie end to
end between its start and its end, so a tree together with its template tells where every character
went, however the template was recovered.

* `Node.Laid` is a list of nodes end to end;
* `Node.Whole` ties a node, and all below it, to the template;
* `FrameStack.Lies` is the invariant of matching, and `whole_of_parse` what follows for whole trees;
* `Node.whole_of_mem_walk` takes what is known about a node to everything below it.
-/

namespace BladeTemplate

open Text

/-! ## What is known about a node -/

/-- The nodes lie end to end from one offset to another. -/
def Node.Laid (nodes : List Node) (first last : Nat) : Prop :=
  Tiles (fun node a b => node.location.Spans a b) nodes first last

/-- The directive stands from one offset to another; a registered one has the name of its
descriptor. -/
structure Directive.Placed (registry : Registry) (source : Chars) (directive : Directive)
    (first last : Nat) : Prop where
  written : directive.Written source first last
  known : directive.registered = true → ∃ descriptor,
    registry.lookup directive.writtenName = some descriptor ∧ directive.name = descriptor.name

/-- The three ways in which markup lies from one offset to another: as a start tag by itself, from a
start tag to an end tag, and from a start tag to where the surrounding construct ends. -/
inductive Markup.Shaped (source : Chars) (markup : Markup) (void : Bool) (children : List Node) :
    Nat → Nat → Prop
  | single {a b : Nat} : markup.Opens source a b → (markup.selfClosing = true ∨ void = true) →
      (void = true → Tag.isOneOf Tag.voidNames markup.tag = true) →
      children = [] → markup.closed = true → markup.endTag = none →
      Shaped source markup void children a b
  | closed {a m n b : Nat} (inside : Chars) : markup.Opens source a m →
      markup.selfClosing = false → void = false → Node.Laid children m n → n ≤ b →
      cut source n b = ['<', '/'] ++ inside ++ ['>'] → '>' ∉ inside →
      markup.closed = true → firstWord inside ≠ [] → markup.endTag = some (firstWord inside) →
      Shaped source markup void children a b
  | unclosed {a m b : Nat} : markup.Opens source a m → markup.selfClosing = false →
      void = false → Node.Laid children m b → markup.closed = false → markup.endTag = none →
      Shaped source markup void children a b

/-- The node, and all below it, is what the template holds at its location. -/
inductive Node.Whole (registry : Registry) (source : Chars) : Node → Prop
  | text {location : Location} {a b : Nat} : location.Spans a b → a < b →
      Whole registry source (.text location (cut source a b))
  | echo {echo : Echo} {a b : Nat} : echo.Written source a b → Whole registry source (.echo echo)
  | comment {location : Location} {a b : Nat} : location.Spans a b → a < b →
      Whole registry source (.comment location (cut source a b))
  | region {location : Location} {kind : RegionKind} {a b : Nat} : location.Spans a b → a < b →
      Whole registry source (.region location kind (cut source a b))
  | directive {directive : Directive} {a b : Nat} : directive.Placed registry source a b →
      Whole registry source (.directive directive)
  | endTag {location : Location} {name : Chars} {a b : Nat} : location.Spans a b → a < b →
      Whole registry source (.endTag location name (cut source a b))
  | openBlock {location : Location} {opener : Directive} {family : Chars} {children : List Node}
      {indentsMiddles : Bool} {a m b : Nat} : location.Spans a b →
      opener.Placed registry source a m → Laid children m b →
      (∀ node ∈ children, Whole registry source node) →
      Whole registry source (.block location opener family children none indentsMiddles)
  | block {location : Location} {opener closer : Directive} {family : Chars}
      {children : List Node} {indentsMiddles : Bool} {a m n b : Nat} : location.Spans a b →
      opener.Placed registry source a m → Laid children m n →
      (∀ node ∈ children, Whole registry source node) → closer.Placed registry source n b →
      Whole registry source (.block location opener family children (some closer) indentsMiddles)
  | element {markup : Markup} {void : Bool} {children : List Node} {a b : Nat} :
      markup.location.Spans a b → markup.Shaped source void children a b →
      (∀ node ∈ children, Whole registry source node) →
      Whole registry source (.element markup void children)
  | slot {name : Chars} {markup : Markup} {children : List Node} {a b : Nat} :
      markup.location.Spans a b → markup.Shaped source false children a b →
      (∀ node ∈ children, Whole registry source node) →
      Whole registry source (.slot name markup children)
  | component {markup : Markup} {children : List Node} {a b : Nat} :
      markup.location.Spans a b → markup.Shaped source false children a b →
      (∀ node ∈ children, Whole registry source node) →
      Whole registry source (.component markup (children.filter Builder.isSlotChild)
        (children.filter (!Builder.isSlotChild ·)))

variable {registry : Registry} {source : Chars}

theorem Tiles.snoc_inv {α : Type} {covers : α → Nat → Nat → Prop} {xs : List α} {x : α}
    {a c : Nat} (tiles : Tiles covers (xs ++ [x]) a c) :
    ∃ b, Tiles covers xs a b ∧ covers x b c := by
  induction xs generalizing a with
  | nil =>
    cases tiles with
    | cons covered rest =>
      cases rest
      exact ⟨a, .nil a, covered⟩
  | cons y ys ih =>
    cases tiles with
    | cons covered rest =>
      obtain ⟨b, before, last⟩ := ih rest
      exact ⟨b, .cons covered before, last⟩

theorem Node.Laid.ordered {nodes : List Node} {a b : Nat} (laid : Laid nodes a b) : a ≤ b := by
  induction laid with
  | nil => exact Nat.le_refl _
  | cons spans _ ih => exact Nat.le_trans spans.ordered ih

/-- The parts of the template that nodes stand for, joined. -/
theorem Node.Laid.flatMap_slice {source : Chars} {nodes : List Node} {m n : Nat}
    (laid : Node.Laid nodes m n) :
    (nodes.flatMap fun node => node.location.slice source) = cut source m n := by
  induction laid with
  | nil => simp
  | cons spans rest ih =>
    have later : Node.Laid _ _ _ := rest
    rw [List.flatMap_cons, ih, spans.slice, cut_append _ spans.ordered later.ordered]

theorem content_of_whole {location : Location} {content : Chars} {a b : Nat}
    (whole : Node.Whole registry source (.text location content)) (spans : location.Spans a b) :
    content = cut source a b ∧ a < b := by
  cases whole with
  | text found some =>
    obtain ⟨rfl, rfl⟩ := spans.unique found
    exact ⟨rfl, some⟩

/-! ## Bodies -/

/-- The children of a frame so far lie from one offset to another. -/
structure Body.Lies (registry : Registry) (source : Chars) (body : Body) (first last : Nat) :
    Prop where
  laid : Node.Laid body.children first last
  whole : ∀ node ∈ body.children, node.Whole registry source
  lastSpan : ∀ location, body.last = some location → ∃ a, location.Spans a last
  noLast : body.last = none → first = last

namespace Body

theorem lies_empty (n : Nat) : Lies registry source {} n n := by
  refine ⟨.nil n, ?_, ?_, fun _ => rfl⟩
  · intro node member
    cases member
  · intro location found
    cases found

/-- Adding a child that starts where the children end. -/
theorem Lies.append {body : Body} {m n k : Nat} (lies : body.Lies registry source m n)
    {node : Node} (spans : node.location.Spans n k) (whole : node.Whole registry source) :
    (body.append node).Lies registry source m k := by
  unfold Body.append
  split
  · next location content before head older joined =>
    -- A text right after a text: both together are one part of the template.
    have laid := lies.laid
    have wholes := lies.whole
    unfold Body.children at laid wholes
    rw [joined, List.reverse_cons] at laid wholes
    obtain ⟨a, earlier, last⟩ := laid.snoc_inv
    have both : (before.spanTo location).Spans a k :=
      last.spanTo spans (Nat.le_trans last.ordered spans.ordered)
    obtain ⟨headText, some⟩ := content_of_whole (wholes (.text before head) (by simp)) last
    have text : head ++ content = cut source a k := by
      rw [headText, (content_of_whole whole spans).1, cut_append _ last.ordered spans.ordered]
    refine ⟨?_, ?_, ?_, ?_⟩
    · unfold Body.children
      rw [List.reverse_cons]
      exact earlier.append (.single both)
    · intro child member
      unfold Body.children at member
      rw [List.reverse_cons] at member
      rcases List.mem_append.1 member with old | new
      · exact wholes child (List.mem_append_left _ old)
      · rw [List.mem_singleton.1 new, text]
        exact .text both (Nat.lt_of_lt_of_le some spans.ordered)
    · rintro found ⟨⟩
      exact ⟨n, spans⟩
    · intro none
      cases none
  · refine ⟨?_, ?_, ?_, ?_⟩
    · unfold Body.children
      rw [List.reverse_cons]
      exact lies.laid.append (.single spans)
    · intro child member
      unfold Body.children at member
      rw [List.reverse_cons] at member
      rcases List.mem_append.1 member with old | new
      · exact lies.whole child old
      · rw [List.mem_singleton.1 new]
        exact whole
    · rintro found ⟨⟩
      exact ⟨n, spans⟩
    · intro none
      cases none

/-- The span from the start of a frame to the end of its body. -/
theorem Lies.spanTo {body : Body} {start : Location} {a m n : Nat}
    (lies : body.Lies registry source m n) (spans : start.Spans a m) :
    (start.spanTo (body.last.getD start)).Spans a n := by
  have am := spans.ordered
  have mn := Node.Laid.ordered lies.laid
  cases last : body.last with
  | none =>
    obtain rfl := lies.noLast last
    exact spans.spanTo spans am
  | some location =>
    obtain ⟨b, found⟩ := lies.lastSpan location last
    exact spans.spanTo found (Nat.le_trans am mn)

end Body

/-! ## Frames -/

/-- What stands where a frame was opened. -/
def Opened.Begins (registry : Registry) (source : Chars) : Opened → Nat → Nat → Prop
  | .block opener _ _, a, m => opener.Placed registry source a m
  | .element _ markup, a, m => markup.Opens source a m ∧ markup.closed = true ∧
      markup.endTag = none ∧ markup.selfClosing = false

/-- The frames, and the template itself below them, lie end to end up to an offset: each starts
where the children of the one around it end. -/
inductive FramesLie (registry : Registry) (source : Chars) (root : Body) :
    List Frame → Nat → Prop
  | root {n : Nat} : root.Lies registry source 0 n → FramesLie registry source root [] n
  | frame {frame : Frame} {outer : List Frame} {a m n : Nat} :
      FramesLie registry source root outer a → frame.start.Spans a m →
      frame.opened.Begins registry source a m → frame.body.Lies registry source m n →
      FramesLie registry source root (frame :: outer) n

/-- Everything up to an offset is in the tree under construction. -/
def FrameStack.Lies (registry : Registry) (source : Chars) (stack : FrameStack) (n : Nat) : Prop :=
  FramesLie registry source stack.root stack.frames n

namespace FrameStack

variable {stack : FrameStack} {n k : Nat}

theorem Lies.append (lies : stack.Lies registry source n) (node : Node)
    (spans : node.location.Spans n k) (whole : node.Whole registry source) :
    (stack.append node).Lies registry source k := by
  unfold FrameStack.append
  unfold Lies at lies ⊢
  split
  · next empty =>
    rw [empty] at lies ⊢
    cases lies with
    | root body => exact .root (body.append spans whole)
  · next frame outer top =>
    rw [top] at lies
    cases lies with
    | frame around start begins body => exact .frame around start begins (body.append spans whole)

theorem Lies.push (lies : stack.Lies registry source n) {opened : Opened} {start : Location}
    (spans : start.Spans n k) (begins : opened.Begins registry source n k) :
    (stack.push ⟨opened, start, {}⟩).Lies registry source k :=
  .frame lies spans begins (Body.lies_empty k)

theorem Lies.pop? (lies : stack.Lies registry source n) {frame : Frame} {rest : FrameStack}
    (popped : stack.pop? = some (frame, rest)) :
    ∃ a m, rest.Lies registry source a ∧ frame.start.Spans a m ∧
      frame.opened.Begins registry source a m ∧ frame.body.Lies registry source m n := by
  unfold FrameStack.pop? at popped
  unfold Lies at lies
  split at popped
  · cases popped
  · next outer top =>
    cases popped
    rw [top] at lies
    cases lies with
    | frame around start begins body => exact ⟨_, _, around, start, begins, body⟩

end FrameStack

/-! ## Matching -/

namespace Builder

/-- The node of markup is whole if the markup is. -/
theorem whole_markupNode (kind : TagKind) (markup : Markup) {void : Bool} {children : List Node}
    {a b : Nat} (spans : markup.location.Spans a b)
    (shaped : markup.Shaped source void children a b)
    (wholes : ∀ node ∈ children, node.Whole registry source)
    (elements : kind ≠ .element → void = false) :
    (markupNode kind markup void children).Whole registry source ∧
      (markupNode kind markup void children).location.Spans a b := by
  cases kind with
  | element => exact ⟨.element spans shaped wholes, spans⟩
  | component =>
    obtain rfl := elements (by simp)
    exact ⟨.component spans shaped wholes, spans⟩
  | slot =>
    obtain rfl := elements (by simp)
    exact ⟨.slot spans shaped wholes, spans⟩

/-- Giving up a frame moves what it holds to where it was opened. -/
theorem lies_abandon {builder : Builder} {n : Nat} (lies : builder.stack.Lies registry source n)
    (cause : Option Directive) : (builder.abandon cause).stack.Lies registry source n := by
  unfold abandon
  split
  · exact lies
  · next frame rest popped =>
    obtain ⟨a, m, around, start, begins, body⟩ := lies.pop? popped
    simp only
    split
    · next opener family indentsMiddles opened =>
      rw [opened] at begins
      have spans := body.spanTo start
      exact around.append (blockNode frame opener family indentsMiddles none) spans
        (.openBlock spans begins body.laid body.whole)
    · next kind markup opened =>
      rw [opened] at begins
      obtain ⟨opens, _, noEnd, notSelf⟩ := begins
      have spans := body.spanTo start
      obtain ⟨whole, spans⟩ := whole_markupNode kind
        { markup with location := frame.span, closed := false } spans
        (.unclosed ⟨opens.named, opens.nameChars, opens.parts⟩ notSelf rfl body.laid rfl noEnd)
        body.whole (fun _ => rfl)
      exact around.append _ spans whole

theorem lies_abandonMany {builder : Builder} {n : Nat}
    (lies : builder.stack.Lies registry source n) (cause : Option Directive) (count : Nat) :
    (builder.abandonMany cause count).stack.Lies registry source n := by
  induction count generalizing builder with
  | zero => exact lies
  | succ count ih => exact ih (lies_abandon lies cause)

theorem lies_addStartTag {builder : Builder} {n k : Nat}
    (lies : builder.stack.Lies registry source n) (kind : TagKind) {markup : Markup}
    (spans : markup.location.Spans n k) (opens : markup.Opens source n k)
    (closed : markup.closed = true) (noEnd : markup.endTag = none) :
    (builder.addStartTag kind markup).stack.Lies registry source k := by
  unfold addStartTag
  simp only
  split
  · next alone =>
    have elements : kind ≠ .element →
        (kind = .element && Tag.isOneOf Tag.voidNames markup.tag) = false := by
      intro other
      simp [other]
    obtain ⟨whole, spans⟩ := whole_markupNode kind markup spans
      (.single opens (by simpa using alone) (by simp) rfl closed noEnd)
      (fun _ member => absurd member List.not_mem_nil) elements
    exact lies.append _ spans whole
  · next notAlone =>
    have notSelf : markup.selfClosing = false := by
      simp only [Bool.or_eq_true, not_or] at notAlone
      simpa using notAlone.1
    exact lies.push spans ⟨opens, closed, noEnd, notSelf⟩

theorem lower_ne_nil {text : Chars} (some : text ≠ []) : lower text ≠ [] := by
  cases text with
  | nil => exact absurd rfl some
  | cons c rest =>
    unfold lower lowerAfter
    simp only
    split
    · simp
    split <;> simp

/-- An end tag that closes something has a name. -/
theorem name_of_closes {name tag : Chars} (named : tag ≠ []) (closes : Tag.closes name tag = true) :
    name ≠ [] := by
  rintro rfl
  unfold Tag.closes at closes
  simp only [Bool.or_eq_true, Bool.and_eq_true, decide_eq_true_eq] at closes
  rcases closes with same | ⟨slot, _⟩
  · exact lower_ne_nil named same
  · exact absurd slot (by decide)

/-- The name in an end tag is the first word between its brackets. -/
theorem endTagName_eq {inside : Chars} (notInside : '>' ∉ inside) :
    Tag.endTagName (['<', '/'] ++ inside ++ ['>']) = firstWord inside := by
  have bare : inside.reverse.dropWhile (· = '>') = inside.reverse := by
    cases reversed : inside.reverse with
    | nil => rfl
    | cons c rest =>
      have member : c ∈ inside := by
        rw [← List.mem_reverse, reversed]
        exact List.mem_cons_self
      rw [List.dropWhile_cons_of_neg]
      intro angle
      rw [decide_eq_true_eq] at angle
      exact notInside (angle ▸ member)
  unfold Tag.endTagName
  have dropped : (['<', '/'] ++ inside ++ ['>']).drop 2 = inside ++ ['>'] := rfl
  rw [dropped, List.reverse_append, List.reverse_singleton, List.singleton_append,
    List.dropWhile_cons_of_pos (by simp), bare, List.reverse_reverse]

/-- Closing an element by an end tag that stands where its children end. -/
theorem lies_closeElement {builder : Builder} {n k : Nat}
    (lies : builder.stack.Lies registry source n) {location : Location} {inside : Chars}
    (spans : location.Spans n k) (shape : cut source n k = ['<', '/'] ++ inside ++ ['>'])
    (notInside : '>' ∉ inside) {kind : TagKind} {markup : Markup} {outer : List Opened}
    (top : builder.stack.openings = .element kind markup :: outer)
    (closes : Tag.closes (firstWord inside) markup.tag = true) :
    (builder.closeElement location (firstWord inside)).stack.Lies registry source k := by
  unfold closeElement
  split
  · next kind found start body stack popped =>
    obtain ⟨a, m, around, begun, begins, lain⟩ := lies.pop? popped
    -- The frame that is popped is the one the end tag was matched with.
    have same := (FrameStack.openings_pop? popped).symm.trans top
    simp only [List.cons.injEq, Opened.element.injEq] at same
    obtain ⟨⟨sameKind, sameMarkup⟩, _⟩ := same
    subst sameKind sameMarkup
    obtain ⟨opens, closed, _, notSelf⟩ := begins
    have am := begun.ordered
    have mn := Node.Laid.ordered lain.laid
    have whole := begun.spanTo spans (Nat.le_trans am (Nat.le_trans mn spans.ordered))
    obtain ⟨whole, spans⟩ := whole_markupNode _
      { found with location := start.spanTo location, endTag := some (firstWord inside) } whole
      (.closed inside ⟨opens.named, opens.nameChars, opens.parts⟩ notSelf rfl lain.laid
        spans.ordered shape notInside closed (name_of_closes opens.named closes) rfl)
      lain.whole (fun _ => rfl)
    exact around.append _ spans whole
  · next other =>
    exfalso
    unfold FrameStack.openings at top
    cases frames : builder.stack.frames with
    | nil => simp [frames] at top
    | cons frame rest =>
      obtain ⟨opened, start, body⟩ := frame
      simp only [frames, List.map_cons, List.cons.injEq] at top
      obtain ⟨rfl, _⟩ := top
      exact other kind markup start body { builder.stack with frames := rest }
        (by simp [FrameStack.pop?, frames])

theorem lies_addEndTag {builder : Builder} {n k : Nat}
    (lies : builder.stack.Lies registry source n) {location : Location} {inside : Chars}
    (spans : location.Spans n k) (shape : cut source n k = ['<', '/'] ++ inside ++ ['>'])
    (notInside : '>' ∉ inside) :
    (builder.addEndTag location (cut source n k)).stack.Lies registry source k := by
  have name : Tag.endTagName (cut source n k) = firstWord inside := by
    rw [shape, endTagName_eq notInside]
  unfold addEndTag
  simp only [name]
  split
  · have some : n < k := by
      apply lt_of_cut_ne_nil
      rw [shape]
      exact List.cons_ne_nil _ _
    exact lies.append _ spans (.endTag spans some)
  · next above found =>
    obtain ⟨kind, markup, outer, top, closes⟩ := openings_of_findElement found
    exact lies_closeElement (lies_abandonMany lies none above) spans shape notInside
      ((openings_abandonMany builder none above).trans top) closes

/-- Settling the role of a directive leaves it where it stands. -/
theorem placed_settle {directive : Directive} {n k : Nat} (written : directive.Written source n k)
    {descriptor : Descriptor} (found : registry.lookup directive.writtenName = some descriptor)
    (openFamily : Option Chars) :
    (settle descriptor openFamily directive).Placed registry source n k :=
  ⟨⟨written.spans, written.text, written.shape⟩, fun _ => ⟨descriptor, found, rfl⟩⟩

theorem lies_addOrphan {builder : Builder} {n k : Nat}
    (lies : builder.stack.Lies registry source n) {directive : Directive}
    (placed : directive.Placed registry source n k) (complaint : String) :
    (builder.addOrphan directive complaint).stack.Lies registry source k := by
  have orphan : Directive.Placed registry source { directive with orphan := true } n k :=
    ⟨⟨placed.written.spans, placed.written.text, placed.written.shape⟩, placed.known⟩
  exact lies.append _ orphan.written.spans (.directive orphan)

theorem lies_addMiddle {builder : Builder} {n k : Nat}
    (lies : builder.stack.Lies registry source n) {directive : Directive}
    (placed : directive.Placed registry source n k) :
    (builder.addMiddle directive).stack.Lies registry source k := by
  unfold addMiddle
  split
  · exact (lies_abandonMany lies _ _).append _ placed.written.spans (.directive placed)
  · exact lies_addOrphan lies placed _

/-- Closing a block by a closer that stands where its children end. -/
theorem lies_closeBlock {builder : Builder} {n k : Nat}
    (lies : builder.stack.Lies registry source n) {closer : Directive}
    (placed : closer.Placed registry source n k) {frame : Frame} {outer : List Opened}
    (top : builder.stack.openings = frame.opened :: outer) (block : frame.isBlock = true) :
    (builder.closeBlock closer).stack.Lies registry source k := by
  unfold closeBlock
  split
  · next opener family indentsMiddles start body stack popped =>
    obtain ⟨a, m, around, begun, begins, lain⟩ := lies.pop? popped
    have am := begun.ordered
    have mn := Node.Laid.ordered lain.laid
    have nk := placed.written.spans.ordered
    have spans := begun.spanTo placed.written.spans (by omega)
    exact around.append _ spans (.block spans begins lain.laid lain.whole placed)
  · next other =>
    exfalso
    unfold FrameStack.openings at top
    cases frames : builder.stack.frames with
    | nil => simp [frames] at top
    | cons first rest =>
      obtain ⟨opened, start, body⟩ := first
      simp only [frames, List.map_cons, List.cons.injEq] at top
      cases opened with
      | block opener family indentsMiddles =>
        exact other opener family indentsMiddles start body { builder.stack with frames := rest }
          (by simp [FrameStack.pop?, frames])
      | element kind markup => simp [Frame.isBlock, Frame.family?, ← top.1] at block

theorem lies_addCloser {builder : Builder} {n k : Nat}
    (lies : builder.stack.Lies registry source n) {directive : Directive}
    (placed : directive.Placed registry source n k) (family : Chars) :
    (builder.addCloser directive family).stack.Lies registry source k := by
  unfold addCloser
  split
  · next above found =>
    obtain ⟨frame, outer, top, same⟩ := openings_of_findIdx found
    have block : frame.isBlock = true := by
      simp only [decide_eq_true_eq] at same
      simp [Frame.isBlock, same]
    exact lies_closeBlock (lies_abandonMany lies _ above) placed
      ((openings_abandonMany builder _ above).trans top) block
  · exact lies_addOrphan lies placed _

theorem lies_addDirective {builder : Builder} {n k : Nat}
    (lies : builder.stack.Lies registry source n) {directive : Directive}
    (written : directive.Written source n k) (unsettled : directive.registered = false) :
    (builder.addDirective registry directive).stack.Lies registry source k := by
  unfold addDirective
  split
  · refine lies.append _ written.spans (.directive ⟨written, ?_⟩)
    intro registered
    rw [unsettled] at registered
    cases registered
  · next descriptor found =>
    have placed := placed_settle written found builder.stack.openFamily
    simp only
    split
    · exact lies.push placed.written.spans placed
    · exact lies_addCloser lies placed _
    · exact lies_addMiddle lies placed
    · exact lies.append _ placed.written.spans (.directive placed)

/-- Adding an item that starts where the tree ends. -/
theorem lies_add {builder : Builder} {n k : Nat} (lies : builder.stack.Lies registry source n)
    {item : Item} (covers : item.Covers source n k) :
    (builder.add registry item).stack.Lies registry source k := by
  cases covers with
  | text spans some => exact lies.append _ spans (.text spans some)
  | echo written => exact lies.append _ written.spans (.echo written)
  | comment spans some => exact lies.append _ spans (.comment spans some)
  | region spans some => exact lies.append _ spans (.region spans some)
  | directive written unsettled => exact lies_addDirective lies written unsettled
  | startTag _ spans opens closed noEnd => exact lies_addStartTag lies _ spans opens closed noEnd
  | endTag inside spans shape notInside => exact lies_addEndTag lies spans shape notInside

theorem lies_foldl {items : List Item} {m n : Nat} {builder : Builder}
    (lies : builder.stack.Lies registry source m) (tiles : Tiles (Item.Covers source) items m n) :
    (items.foldl (add registry) builder).stack.Lies registry source n := by
  induction items generalizing builder m with
  | nil =>
    cases tiles
    exact lies
  | cons item rest ih =>
    cases tiles with
    | cons covers later => exact ih (lies_add lies covers) later

/-- Matching the items of a template gives a tree that lies from its start to its end. -/
theorem lies_build (registry : Registry) {items : List Item} {n : Nat}
    (tiles : Tiles (Item.Covers source) items 0 n) :
    (build registry items).stack.root.Lies registry source 0 n := by
  have start : ({} : Builder).stack.Lies registry source 0 := .root (Body.lies_empty 0)
  have lies : (build registry items).stack.Lies registry source n :=
    lies_abandonMany (lies_foldl start tiles) none _
  -- Everything has been given up, so only the template itself is left.
  have empty : (build registry items).stack.frames = [] := by
    refine List.map_eq_nil_iff.1 ((openings_abandonMany _ none _).trans ?_)
    simp [FrameStack.openings]
  unfold FrameStack.Lies at lies
  rw [empty] at lies
  cases lies with
  | root body => exact body

end Builder

/-- The tree of a template lies from its start to its end, and every node is what the template holds
at its location. -/
theorem whole_of_parse {dialect : Dialect} {file : Option String} {source : Chars}
    {document : Document} (parsed : (parse dialect file source).outcome = .ok document) :
    Node.Laid document.children 0 source.length ∧
      ∀ node ∈ document.children, node.Whole dialect.registry source := by
  unfold parse at parsed
  simp only at parsed
  split at parsed
  · cases parsed
  · next read =>
    cases parsed
    have lies := Builder.lies_build dialect.registry (tiles_ofTokens dialect file source read)
    exact ⟨lies.laid, lies.whole⟩

namespace Node

/-- What the template holds at the location of a node, it holds at those of its children. -/
theorem Whole.child {node child : Node} (whole : node.Whole registry source)
    (below : child ∈ node.childNodes) : child.Whole registry source := by
  cases whole with
  | openBlock _ opens _ wholes =>
    simp only [childNodes, Option.map_none, Option.toList_none, List.append_nil,
      List.mem_cons] at below
    rcases below with rfl | inside
    · exact .directive opens
    · exact wholes child inside
  | block _ opens _ wholes closes =>
    simp only [childNodes, Option.map_some, Option.toList_some, List.mem_append, List.mem_cons,
      List.not_mem_nil, or_false] at below
    rcases below with (rfl | inside) | rfl
    · exact .directive opens
    · exact wholes child inside
    · exact .directive closes
  | element _ _ wholes | slot _ _ wholes => exact wholes child below
  | component _ _ wholes =>
    exact wholes child ((List.filter_append_perm _ _).mem_iff.1 below)
  | _ => cases below

/-- Whatever is below a node is what the template holds at its location, too. -/
theorem whole_of_mem_walk (node : Node) :
    node.Whole registry source → ∀ part ∈ node.walk, part.Whole registry source := by
  induction node using induction_children with
  | step node ih =>
    intro whole part member
    rcases mem_walk.1 member with rfl | ⟨child, below, inside⟩
    · exact whole
    · exact ih child below (whole.child below) part inside

theorem whole_of_mem_walkAll (nodes : List Node) (wholes : ∀ node ∈ nodes, node.Whole registry source) :
    ∀ part ∈ walkAll nodes, part.Whole registry source := by
  rw [walkAll_eq, List.forall_mem_flatMap]
  exact fun node member => whole_of_mem_walk node (wholes node member)

end Node

end BladeTemplate
