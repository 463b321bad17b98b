import BladeTemplate.Proofs.Matching
import BladeTemplate.Proofs.Registration
import BladeTemplate.Proofs.Slices
import Mathlib.Data.List.Chain

/-!
# How nodes stand in a tree

However a template was recovered, its tree is in order: blocks stand between an opener and a closer
of their family, middles stand in the blocks they divide, and what was never closed ends where the
construct around it goes on or ends.

* `Node.Arranged` lists these facts for one node and its children;
* `FrameStack.Orderly` is the invariant of matching: between two items no open frame ends in a node
  that was never closed, and while frames are given up only the innermost one may;
* `parse_arranged` is the result for whole trees.
-/

namespace BladeTemplate

open Text

/-! ## The order of a tree -/

/-- The directive may stand among the children of a node: of a block of the given family, or of
another node. -/
def Directive.Fits (directive : Directive) (family : Option Chars) : Prop :=
  directive.pairing = .standalone ∨
  (directive.orphan = true ∧ (directive.pairing = .middle ∨ directive.pairing = .closes)) ∨
  (directive.orphan = false ∧ directive.pairing = .middle ∧
    ∃ divided, directive.family = some divided ∧ family = some divided)

/-- The end tag of the given name closes a tag: the names agree but for case, or a named slot is
closed without its name. -/
def Markup.EndsWith (markup : Markup) (name : Chars) : Prop :=
  lower name = lower markup.tag ∨
    (lower name = "x-slot".toList ∧ startsWith "x-slot:".toList (lower markup.tag) = true)

namespace Node

/-- The children of a node in the order of the template. -/
def content : Node → List Node
  | .block _ _ _ children _ _ | .element _ _ children | .slot _ _ children
  | .document _ children _ _ => children
  | .component _ slots children => byOffset (slots ++ children)
  | _ => []

/-- The family of a block. -/
def family? : Node → Option Chars
  | .block _ _ family _ _ _ => some family
  | _ => none

/-- Whether a node is a block that was never closed. -/
def isOpenBlock : Node → Bool
  | .block _ _ _ _ none _ => true
  | _ => false

/-- Whether a node is a block or markup that was never closed. -/
def unclosed (node : Node) : Bool :=
  node.isOpenBlock || node.markup?.any (!·.closed)

/-- A block stands between an opener and, if it was closed, a closer of its family. -/
def Paired : Node → Prop
  | .block _ opener family _ closer _ =>
    opener.pairing = .opens ∧ opener.family = some family ∧
      ∀ last, closer = some last →
        last.pairing = .closes ∧ last.orphan = false ∧ last.family = some family
  | _ => True

/-- A node may stand right before another one: what was never closed ends at a middle. -/
def Follows (node next : Node) : Prop :=
  node.unclosed = true → next.middle?.isSome = true

/-- A node and its children are in order. -/
structure Arranged (node : Node) : Prop where
  paired : node.Paired
  directives : ∀ directive, .directive directive ∈ node.content → directive.Fits node.family?
  closed : ∀ markup, node.markup? = some markup → markup.closed = true →
    ∀ child ∈ node.content, child.isOpenBlock = false
  recovered : node.content.IsChain Follows
  endTag : ∀ markup name, node.markup? = some markup → markup.endTag = some name →
    markup.EndsWith name

/-- A node without children, which is neither a block nor markup, is in order. -/
theorem arranged_leaf {node : Node} (paired : node.Paired) (empty : node.content = [])
    (plain : node.markup? = none) : node.Arranged := by
  refine ⟨paired, ?_, ?_, ?_, ?_⟩
  · intro directive member
    rw [empty] at member
    cases member
  · intro markup found
    rw [plain] at found
    cases found
  · rw [empty]
    exact .nil
  · intro markup name found
    rw [plain] at found
    cases found

theorem not_unclosed_of_isText {node : Node} (text : node.isText = true) :
    node.unclosed = false := by
  obtain ⟨location, content, rfl⟩ := Node.eq_text_of_isText text
  rfl

theorem not_middle_of_isText {node : Node} (text : node.isText = true) : node.middle? = none := by
  obtain ⟨location, content, rfl⟩ := Node.eq_text_of_isText text
  rfl

theorem isOpenBlock_markupNode (kind : TagKind) (markup : Markup) (void : Bool)
    (children : List Node) : (Builder.markupNode kind markup void children).isOpenBlock = false := by
  cases kind <;> rfl

theorem markup?_markupNode (kind : TagKind) (markup : Markup) (void : Bool)
    (children : List Node) :
    (Builder.markupNode kind markup void children).markup? = some markup := by
  cases kind <;> rfl

/-- The children that markup is given stay in their order, though slots are kept apart. -/
theorem content_markupNode {registry : Registry} {source : Chars} (kind : TagKind)
    (markup : Markup) (void : Bool) {children : List Node} {m n : Nat} (laid : Laid children m n)
    (wholes : ∀ node ∈ children, node.Whole registry source) :
    (Builder.markupNode kind markup void children).content = children := by
  cases kind with
  | element | slot => rfl
  | component => exact laid.byOffset_filter wholes Builder.isSlotChild

end Node

/-! ## Bodies -/

/-- The children of a frame are in order so far. The last of them may be unclosed only if it is one
of those that `left` allows. -/
structure Body.Orderly (family : Option Chars) (left : Node → Prop) (body : Body) : Prop where
  directives : ∀ directive, .directive directive ∈ body.children → directive.Fits family
  recovered : body.children.IsChain Node.Follows
  last : ∀ node ∈ body.children.getLast?, node.unclosed = true → left node

namespace Body.Orderly

variable {family : Option Chars} {left : Node → Prop} {body : Body}

theorem empty (family : Option Chars) (left : Node → Prop) : Orderly family left {} := by
  refine ⟨?_, .nil, ?_⟩
  · intro directive member
    cases member
  · intro node member
    cases member

theorem mono {more : Node → Prop} (orderly : body.Orderly family left)
    (weaker : ∀ node, left node → more node) : body.Orderly family more :=
  ⟨orderly.directives, orderly.recovered,
    fun node member unclosed => weaker node (orderly.last node member unclosed)⟩

/-- A node goes after the children of a frame if none of them was left unclosed, or if it is a
middle. -/
theorem append (orderly : body.Orderly family left) {node : Node} {more : Node → Prop}
    (fits : ∀ directive, node = .directive directive → directive.Fits family)
    (follows : (∀ other, ¬ left other) ∨ node.middle?.isSome = true)
    (stays : node.unclosed = true → more node) : (body.append node).Orderly family more := by
  rcases body.append_cases node with added | ⟨text, older, before, after, wasText, isText, old, new⟩
  · refine ⟨?_, ?_, ?_⟩
    · intro directive member
      rw [added, List.mem_append, List.mem_singleton] at member
      rcases member with old | new
      · exact orderly.directives directive old
      · exact fits directive new.symm
    · rw [added]
      refine List.isChain_append.2 ⟨orderly.recovered, List.isChain_singleton _, ?_⟩
      intro last member next first unclosed
      obtain rfl : node = next := by simpa using first
      rcases follows with none | middle
      · exact absurd (orderly.last last member unclosed) (none last)
      · exact middle
    · intro last member unclosed
      rw [added, List.getLast?_append_of_ne_nil _ (List.cons_ne_nil _ _)] at member
      obtain rfl : node = last := by simpa using member
      exact stays unclosed
  · -- Joined to a text, a text changes neither what is unclosed nor what divides.
    have chain := orderly.recovered
    rw [old, List.isChain_append] at chain
    refine ⟨?_, ?_, ?_⟩
    · intro directive member
      rw [new, List.mem_append, List.mem_singleton] at member
      rcases member with inOlder | last
      · refine orderly.directives directive ?_
        rw [old]
        exact List.mem_append_left _ inOlder
      · rw [← last] at isText
        cases isText
    · rw [new]
      refine List.isChain_append.2 ⟨chain.1, List.isChain_singleton _, ?_⟩
      intro last member next first unclosed
      have divides := chain.2.2 last member before (by simp) unclosed
      rw [Node.not_middle_of_isText wasText] at divides
      cases divides
    · intro last member unclosed
      rw [new, List.getLast?_append_of_ne_nil _ (List.cons_ne_nil _ _)] at member
      obtain rfl : after = last := by simpa using member
      rw [Node.not_unclosed_of_isText isText] at unclosed
      cases unclosed

/-- Where nothing can be divided, only the last child may have been left unclosed. -/
theorem left_of_unclosed (orderly : body.Orderly none left) {child : Node}
    (member : child ∈ body.children) (unclosed : child.unclosed = true) : left child := by
  obtain ⟨before, after, split⟩ := List.append_of_mem member
  cases after with
  | nil =>
    refine orderly.last child ?_ unclosed
    rw [split, List.getLast?_append_of_ne_nil _ (List.cons_ne_nil _ _)]
    rfl
  | cons next rest =>
    have chain := orderly.recovered
    rw [split, List.isChain_append_cons_cons] at chain
    have divides := chain.2.1 unclosed
    cases next with
    | directive middle =>
      have fits := orderly.directives middle (by simp [split])
      simp only [Node.middle?, Directive.separates] at divides
      rcases fits with alone | ⟨orphan, _⟩ | ⟨_, _, divided, _, none⟩
      · simp [alone] at divides
      · simp [orphan] at divides
      · cases none
    | _ => cases divides

end Body.Orderly

/-! ## Nodes that are finished -/

namespace Builder

variable {registry : Registry} {source : Chars} {left : Node → Prop}

theorem arranged_blockNode {frame : Frame} {opener : Directive} {family : Chars}
    {indentsMiddles : Bool} {closer : Option Directive}
    (body : frame.body.Orderly (some family) left)
    (paired : (blockNode frame opener family indentsMiddles closer).Paired) :
    (blockNode frame opener family indentsMiddles closer).Arranged := by
  refine ⟨paired, body.directives, ?_, body.recovered, ?_⟩
  · intro markup found
    cases found
  · intro markup name found
    cases found

theorem arranged_markupNode (kind : TagKind) (markup : Markup) (void : Bool) {body : Body}
    {m n : Nat} (lies : body.Lies registry source m n) (orderly : body.Orderly none left)
    (closed : markup.closed = true → ∀ node, left node → node.isOpenBlock = false)
    (ends : ∀ name, markup.endTag = some name → markup.EndsWith name) :
    (markupNode kind markup void body.children).Arranged := by
  have content := Node.content_markupNode kind markup void lies.laid lies.whole
  have family : (markupNode kind markup void body.children).family? = none := by
    cases kind <;> rfl
  refine ⟨?_, ?_, ?_, ?_, ?_⟩
  · cases kind <;> trivial
  · rw [content, family]
    exact orderly.directives
  · intro found same
    rw [Node.markup?_markupNode] at same
    cases same
    intro whole child member
    rw [content] at member
    by_cases isOpen : child.isOpenBlock = true
    · have unclosed : child.unclosed = true := by simp [Node.unclosed, isOpen]
      exact closed whole child (orderly.left_of_unclosed member unclosed)
    · simpa using isOpen
  · rw [content]
    exact orderly.recovered
  · intro found name same
    rw [Node.markup?_markupNode] at same
    cases same
    exact ends name

end Builder

/-! ## Frames -/

/-- The frames, and the template itself below them, are in order, and none but the innermost ends in
a node that was left unclosed. -/
inductive FramesOrderly (root : Body) : (Node → Prop) → List Frame → Prop
  | root {left : Node → Prop} : root.Orderly none left → FramesOrderly root left []
  | frame {left : Node → Prop} {frame : Frame} {outer : List Frame} :
      FramesOrderly root (fun _ => False) outer → frame.body.Orderly frame.family? left →
      FramesOrderly root left (frame :: outer)

namespace FrameStack

/-- The family of the innermost frame, when it is a block. -/
def topFamily (stack : FrameStack) : Option Chars :=
  stack.frames.head?.bind Frame.family?

/-- A tree under construction is in order. -/
structure Orderly (stack : FrameStack) (left : Node → Prop) : Prop where
  frames : FramesOrderly stack.root left stack.frames
  arranged : ∀ node ∈ stack.finished, node.Arranged

variable {stack : FrameStack} {left more : Node → Prop}

theorem Orderly.mono (orderly : stack.Orderly left) (weaker : ∀ node, left node → more node) :
    stack.Orderly more := by
  obtain ⟨root, frames⟩ := stack
  refine ⟨?_, orderly.arranged⟩
  cases orderly.frames with
  | root body => exact .root (body.mono weaker)
  | frame outer body => exact .frame outer (body.mono weaker)

theorem Orderly.append (orderly : stack.Orderly left) {node : Node}
    (parts : ∀ part ∈ Node.parts [node], part.Arranged)
    (fits : ∀ directive, node = .directive directive → directive.Fits stack.topFamily)
    (follows : (∀ other, ¬ left other) ∨ node.middle?.isSome = true)
    (stays : node.unclosed = true → more node) : (stack.append node).Orderly more := by
  refine ⟨?_, ?_⟩
  · have frames := orderly.frames
    unfold topFamily at fits
    unfold FrameStack.append
    split
    · next root =>
      rw [root] at frames fits ⊢
      cases frames with
      | root body => exact .root (body.append fits follows stays)
    · next frame outer top =>
      rw [top] at frames fits
      cases frames with
      | frame around body => exact .frame around (body.append fits follows stays)
  · intro part member
    rcases List.mem_append.1 ((stack.finished_append node).mem_iff.1 member) with old | new
    · exact orderly.arranged part old
    · exact parts part new

/-- A leaf goes anywhere, unless it is a directive that does not fit. -/
theorem Orderly.append_leaf (orderly : stack.Orderly fun _ => False) {node : Node}
    (leaf : node.walk = [node]) (arranged : node.Arranged) (closed : node.unclosed = false)
    (fits : ∀ directive, node = .directive directive → directive.Fits stack.topFamily) :
    (stack.append node).Orderly more := by
  refine orderly.append ?_ fits (.inl fun _ => id) (by simp [closed])
  intro part member
  rw [Node.mem_parts, Node.walkAll_eq] at member
  obtain rfl : part = node := by simpa [leaf] using member.1
  exact arranged

theorem Orderly.push (orderly : stack.Orderly fun _ => False) {frame : Frame}
    (empty : frame.body = {}) : (stack.push frame).Orderly left := by
  refine ⟨.frame orderly.frames ?_, ?_⟩
  · rw [empty]
    exact .empty _ _
  · intro node member
    refine orderly.arranged node ?_
    simpa [finished, FrameStack.push, empty, Body.children, Node.parts, Node.walkAll] using member

end FrameStack

/-! ## Matching -/

namespace Builder

variable {registry : Registry} {source : Chars} {builder : Builder} {left more : Node → Prop}

/-- The innermost frame ends, and becomes a node of the frame around it. -/
theorem orderly_close (orderly : builder.stack.Orderly left) {frame : Frame} {outer : List Frame}
    (top : builder.stack.frames = frame :: outer) {node : Node} {added : List Node}
    (parts : (Node.parts [node]).Perm (added ++ Node.parts frame.body.children))
    (arranged : ∀ part ∈ added, part.Arranged) (other : ∀ directive, node ≠ .directive directive)
    (stays : node.unclosed = true → more node) :
    ((builder.within outer).stack.append node).Orderly more := by
  have frames := orderly.frames
  rw [top] at frames
  cases frames with
  | frame around body =>
    have kept : ∀ part ∈ Node.parts frame.body.children, part.Arranged := by
      intro part member
      refine orderly.arranged part ?_
      simp [FrameStack.finished, top, member]
    have outside : (builder.within outer).stack.Orderly fun _ => False := by
      refine ⟨around, ?_⟩
      intro part member
      refine orderly.arranged part ?_
      simp only [FrameStack.finished, within, List.mem_append] at member ⊢
      rw [top, List.flatMap_cons, List.mem_append]
      exact member.imp_right .inr
    refine outside.append ?_ ?_ (.inl fun _ => id) stays
    · intro part member
      rcases List.mem_append.1 (parts.mem_iff.1 member) with new | old
      · exact arranged part new
      · exact kept part old
    · intro directive same
      exact absurd same (other directive)

theorem markupNode_ne_directive (kind : TagKind) (markup : Markup) (void : Bool)
    (children : List Node) (directive : Directive) :
    markupNode kind markup void children ≠ .directive directive := by
  cases kind <;> simp [markupNode]

/-- The innermost frame, an element, ends. -/
theorem orderly_closeMarkup {n : Nat} (lies : builder.stack.Lies registry source n)
    (orderly : builder.stack.Orderly left) {kind : TagKind} {opening : Markup} {start : Location}
    {body : Body} {outer : List Frame}
    (top : builder.stack.frames = ⟨.element kind opening, start, body⟩ :: outer) (markup : Markup)
    (closed : markup.closed = true → ∀ node, left node → node.isOpenBlock = false)
    (ends : ∀ name, markup.endTag = some name → markup.EndsWith name)
    (stays : markup.closed = false → more (markupNode kind markup false body.children)) :
    ((builder.within outer).stack.append (markupNode kind markup false body.children)).Orderly
      more := by
  have frames := orderly.frames
  rw [top] at frames
  cases frames with
  | frame _ inside =>
    have popped : builder.stack.pop? =
        some (⟨.element kind opening, start, body⟩, (builder.within outer).stack) := by
      simp [FrameStack.pop?, top, within]
    obtain ⟨a, m, _, _, _, held⟩ := lies.pop? popped
    have arranged := arranged_markupNode kind markup false held inside closed ends
    have parts : (Node.parts [markupNode kind markup false body.children]).Perm
        ([markupNode kind markup false body.children] ++ Node.parts body.children) :=
      Node.parts_markupNode kind markup false body.children
    refine orderly_close orderly top parts (by simpa using arranged)
      (markupNode_ne_directive kind markup false _) ?_
    intro unclosed
    rw [Node.unclosed, Node.isOpenBlock_markupNode, Node.markup?_markupNode] at unclosed
    exact stays (by simpa using unclosed)

/-- The innermost frame, a block, ends. -/
theorem orderly_closeBlock (sound : builder.stack.Sound)
    (orderly : builder.stack.Orderly left) {opener : Directive}
    {family : Chars} {indentsMiddles : Bool} {start : Location} {body : Body} {outer : List Frame}
    (top : builder.stack.frames = ⟨.block opener family indentsMiddles, start, body⟩ :: outer)
    (closer : Option Directive)
    (closes : ∀ last, closer = some last →
      last.pairing = .closes ∧ last.orphan = false ∧ last.family = some family)
    (stays : closer = none → ∀ node, more node) :
    ((builder.within outer).stack.append
      (blockNode ⟨.block opener family indentsMiddles, start, body⟩ opener family indentsMiddles
        closer)).Orderly more := by
  have frames := orderly.frames
  rw [top] at frames
  cases frames with
  | frame _ inside =>
    obtain ⟨opens, named, _⟩ := (sound_pop sound top).1
    have leaf (found : Directive) : (Node.directive found).Arranged :=
      Node.arranged_leaf trivial rfl rfl
    have block : (blockNode ⟨.block opener family indentsMiddles, start, body⟩ opener family
        indentsMiddles closer).Arranged :=
      arranged_blockNode inside ⟨opens, named, closes⟩
    refine orderly_close orderly top (Node.parts_blockNode _ opener family _ closer) ?_
      (by simp [blockNode]) ?_
    · intro part member
      simp only [List.mem_cons, Option.mem_toList, Option.map_eq_some_iff]
        at member
      rcases member with rfl | rfl | ⟨last, _, rfl⟩
      · exact block
      · exact leaf opener
      · exact leaf last
    · intro unclosed
      cases closer with
      | none => exact stays rfl _
      | some last => simp [blockNode, Node.unclosed, Node.isOpenBlock, Node.markup?] at unclosed

/-- What is given up is left unclosed at the end of the frame around it. -/
theorem orderly_abandon {n : Nat} (lies : builder.stack.Lies registry source n)
    (sound : builder.stack.Sound) (orderly : builder.stack.Orderly left) (cause : Option Directive)
    (markup : ∀ node, node.isOpenBlock = false → left node)
    (blocks : ∀ opener family indentsMiddles,
      .block opener family indentsMiddles ∈ builder.stack.openings.take 1 → ∀ node, left node) :
    (builder.abandon cause).stack.Orderly left := by
  cases frames : builder.stack.frames with
  | nil =>
    rw [abandon_root cause frames]
    exact orderly
  | cons frame outer =>
    obtain ⟨opened, start, body⟩ := frame
    cases opened with
    | block opener family indentsMiddles =>
      rw [(abandon_block cause frames).1]
      refine orderly_closeBlock sound orderly frames none (by simp) fun _ => ?_
      exact blocks opener family indentsMiddles (by simp [FrameStack.openings, frames])
    | element kind opening =>
      obtain ⟨_, noEnd⟩ := (sound_pop sound frames).1
      rw [(abandon_element cause frames).1]
      refine orderly_closeMarkup lies orderly frames _ (by simp) ?_ fun _ => ?_
      · intro name ended
        rw [noEnd] at ended
        cases ended
      · exact markup _ (Node.isOpenBlock_markupNode kind _ _ _)

/-- While frames are given up, the tree stays in order. A block is left unclosed only if one of the
frames is a block. -/
theorem orderly_abandonMany {n : Nat} (lies : builder.stack.Lies registry source n)
    (sound : builder.stack.Sound) (orderly : builder.stack.Orderly left)
    (cause : Option Directive) (count : Nat)
    (markup : ∀ node, node.isOpenBlock = false → left node)
    (blocks : ∀ opener family indentsMiddles,
      .block opener family indentsMiddles ∈ builder.stack.openings.take count →
        ∀ node, left node) :
    (builder.abandonMany cause count).stack.Orderly left := by
  induction count generalizing builder with
  | zero => exact orderly
  | succ count ih =>
    refine ih (lies_abandon lies cause) (sound_abandonMany sound cause 1)
      (orderly_abandon lies sound orderly cause markup ?_) ?_
    · intro opener family indentsMiddles member
      refine blocks opener family indentsMiddles (List.take_subset_take_left _ ?_ member)
      omega
    · intro opener family indentsMiddles member
      rw [openings_abandon, ← List.drop_one] at member
      refine blocks opener family indentsMiddles ?_
      rw [Nat.add_comm, List.take_add]
      exact List.mem_append_right _ member

theorem not_block_of_elements {count : Nat}
    (elements : ∀ frame ∈ builder.stack.frames.take count, frame.isBlock = false)
    (opener : Directive) (family : Chars) (indentsMiddles : Bool) :
    .block opener family indentsMiddles ∉ builder.stack.openings.take count := by
  intro member
  rw [FrameStack.openings, ← List.map_take] at member
  obtain ⟨frame, inside, opened⟩ := List.mem_map.1 member
  have notBlock := elements frame inside
  simp [Frame.isBlock, Frame.family?, opened] at notBlock

/-- A directive that opens or closes a block has a family. -/
theorem Settles.family {written directive : Directive} (families : registry.HasFamilies)
    (settles : Settles registry builder written directive)
    (role : directive.pairing = .opens ∨ directive.pairing = .closes) :
    directive.family ≠ none := by
  obtain ⟨descriptor, found, rfl⟩ := settles
  exact Option.isSome_iff_ne_none.1 (Descriptor.family_of_resolve
    (families descriptor (Registry.mem_of_lookup found)) _ _ role)

theorem orderly_append_directive (orderly : builder.stack.Orderly fun _ => False)
    {directive : Directive} (fits : directive.Fits builder.stack.topFamily) :
    (builder.stack.append (.directive directive)).Orderly left := by
  refine orderly.append_leaf rfl (Node.arranged_leaf trivial rfl rfl) rfl ?_
  rintro _ ⟨⟩
  exact fits

/-- Adding an item keeps the tree in order. -/
theorem orderly_of_adds (families : registry.HasFamilies) {item : Item} {next : Builder}
    (adds : Adds registry builder item next) (unsettled : item.Unsettled) {n : Nat}
    (lies : builder.stack.Lies registry source n) (sound : builder.stack.Sound)
    (orderly : builder.stack.Orderly fun _ => False) : next.stack.Orderly fun _ => False := by
  have givenUp (cause : Option Directive) (count : Nat) :
      (builder.abandonMany cause count).stack.Orderly fun _ => True :=
    orderly_abandonMany lies sound (orderly.mono (by simp)) cause count (by simp) (by simp)
  cases adds with
  | text | echo | comment | region | strayEnd =>
    exact orderly.append_leaf rfl (Node.arranged_leaf trivial rfl rfl) rfl (by simp)
  | @single kind markup void alone =>
    have arranged : (markupNode kind markup void ({} : Body).children).Arranged := by
      have lies : Body.Lies registry source {} 0 0 := Body.lies_empty 0
      refine arranged_markupNode kind markup void lies (.empty none fun _ => False)
        (fun _ _ => False.elim) ?_
      intro name ended
      rw [unsettled.2] at ended
      cases ended
    refine orderly.append ?_ ?_ (.inl fun _ => id) ?_
    · intro part member
      have found := (Node.parts_markupNode kind markup void []).mem_iff.1 member
      obtain rfl : part = markupNode kind markup void [] := by
        simpa [Node.parts, Node.walkAll] using found
      exact arranged
    · intro directive same
      exact absurd same (markupNode_ne_directive kind markup void [] directive)
    · intro unclosed
      rw [Node.unclosed, Node.isOpenBlock_markupNode, Node.markup?_markupNode] at unclosed
      simp [unsettled.1] at unclosed
  | startTag => exact orderly.push rfl
  | @endTag location content above kind markup start body outer elements top closes =>
    -- Only elements are given up, so no block is left unclosed in what is closed.
    have inOrder : (builder.abandonMany none above).stack.Orderly fun node =>
        node.isOpenBlock = false := by
      refine orderly_abandonMany lies sound (orderly.mono fun _ => False.elim) none above
        (fun _ => id) ?_
      intro opener family indentsMiddles member
      exact absurd member (not_block_of_elements elements opener family indentsMiddles)
    obtain ⟨closed, _⟩ := (sound_pop (sound_abandonMany sound none above) top).1
    refine orderly_closeMarkup (lies_abandonMany lies none above) inOrder top _ (fun _ _ => id) ?_ ?_
    · rintro name ⟨⟩
      simp only [Tag.closes, Bool.or_eq_true, Bool.and_eq_true, decide_eq_true_eq] at closes
      exact closes.imp Eq.symm id
    · intro unclosed
      rw [show markup.closed = true from closed] at unclosed
      cases unclosed
  | unregistered => exact orderly_append_directive orderly (.inl unsettled.pairing)
  | opener => exact orderly.push rfl
  | @closer written directive family above opener indentsMiddles start body outer settles closes
      named _ top =>
    have inBlock : directive.orphan = false := settles.orphan.trans unsettled.orphan
    refine orderly_closeBlock (sound_abandonMany sound _ _) (givenUp (some directive) above) top
      (some directive) ?_ (by simp)
    rintro last ⟨⟩
    exact ⟨closes, inBlock, named⟩
  | orphanCloser settles closes =>
    exact orderly_append_directive orderly (.inr (.inl ⟨rfl, .inr closes⟩))
  | @middle written directive family above opener indentsMiddles start body outer settles middle
      named _ _ top =>
    have inBlock : directive.orphan = false := settles.orphan.trans unsettled.orphan
    refine (givenUp (some directive) above).append ?_ ?_ (.inr ?_) ?_
    · intro part member
      obtain rfl : part = .directive directive := by
        simpa [Node.parts, Node.walkAll, Node.walk, Node.isText] using member
      exact Node.arranged_leaf trivial rfl rfl
    · rintro _ ⟨⟩
      refine .inr (.inr ⟨inBlock, middle, family, named, ?_⟩)
      simp [FrameStack.topFamily, top, Frame.family?]
    · simp [Node.middle?, Directive.separates, middle, inBlock]
    · simp [Node.unclosed, Node.isOpenBlock, Node.markup?]
  | orphanMiddle settles middle =>
    exact orderly_append_directive orderly (.inr (.inl ⟨rfl, .inl middle⟩))
  | @standalone _ directive settles notMiddle alone =>
    refine orderly_append_directive orderly (.inl ?_)
    rcases alone with standing | noFamily
    · exact standing
    · cases pairing : directive.pairing with
      | standalone => rfl
      | middle => exact absurd pairing notMiddle
      | opens => exact absurd noFamily (settles.family families (.inl pairing))
      | closes => exact absurd noFamily (settles.family families (.inr pairing))

theorem orderly_foldl (families : registry.HasFamilies) {items : List Item} {m n : Nat}
    (unsettled : ∀ item ∈ items, item.Unsettled) (lies : builder.stack.Lies registry source m)
    (tiles : Tiles (Item.Covers source) items m n) (sound : builder.stack.Sound)
    (orderly : builder.stack.Orderly fun _ => False) :
    (items.foldl (add registry) builder).stack.Sound ∧
      (items.foldl (add registry) builder).stack.Orderly fun _ => False := by
  induction items generalizing builder m with
  | nil => exact ⟨sound, orderly⟩
  | cons item rest ih =>
    cases tiles with
    | cons covers later =>
      rw [List.forall_mem_cons] at unsettled
      have adds := adds_add registry builder item
      exact ih unsettled.2 (lies_add lies covers) later (sound_of_adds adds unsettled.1 sound)
        (orderly_of_adds families adds unsettled.1 lies sound orderly)

/-- The nodes of a whole template are in order, and so are the outermost ones among themselves. -/
theorem orderly_build (families : registry.HasFamilies) {items : List Item} {n : Nat}
    (unsettled : ∀ item ∈ items, item.Unsettled) (tiles : Tiles (Item.Covers source) items 0 n) :
    (build registry items).stack.root.Orderly none (fun _ => True) ∧
      ∀ node ∈ Node.parts (build registry items).stack.root.children, node.Arranged := by
  have start : ({} : Builder).stack.Orderly fun _ => False :=
    ⟨.root (.empty none _), by simp [FrameStack.finished, Body.children, Node.parts, Node.walkAll]⟩
  have lies : ({} : Builder).stack.Lies registry source 0 := .root (Body.lies_empty 0)
  have noFrames : ({} : Builder).stack.Sound := by
    intro opened member
    cases member
  obtain ⟨sound, between⟩ := orderly_foldl families unsettled lies tiles noFrames start
  have orderly : (build registry items).stack.Orderly fun _ => True :=
    orderly_abandonMany (lies_foldl lies tiles) sound (between.mono (by simp)) none _ (by simp)
      (by simp)
  have empty : (build registry items).stack.frames = [] := frames_build registry items
  have frames := orderly.frames
  rw [empty] at frames
  cases frames with
  | root body =>
    refine ⟨body, ?_⟩
    intro node member
    refine orderly.arranged node ?_
    rw [FrameStack.finished]
    exact List.mem_append_left _ member

end Builder

/-! ## Whole trees -/

/-- The tree of every template that can be read, with every registry that registration leads to, is
in order. -/
theorem parse_arranged (dialect : Dialect) (file : Option String) (source : Chars)
    (built : dialect.registry.Built) (read : (scan dialect source).fault = none) :
    ∃ document, (parse dialect file source).outcome = .ok document ∧
      ∀ node ∈ document.toNode.walk, node.Arranged := by
  obtain ⟨body, parts⟩ := Builder.orderly_build built.hasFamilies
    (Item.unsettled_of_mem ⟨dialect.registry, file, source⟩ _)
    (tiles_ofTokens dialect file source read)
  unfold parse
  simp only [read]
  refine ⟨_, rfl, ?_⟩
  intro node member
  rw [Document.toNode, Node.walk, List.mem_cons] at member
  rcases member with rfl | below
  · refine ⟨trivial, body.directives, ?_, body.recovered, ?_⟩
    · intro markup found
      cases found
    · intro markup name found
      cases found
  · by_cases text : node.isText = true
    · refine Node.arranged_leaf ?_ ?_ ?_
      all_goals cases node <;> trivial
    · exact parts node (Node.mem_parts.2 ⟨below, by simpa using text⟩)

/-- An element that ends at a middle, a block that ends at an outer closer, a named slot closed
without its name, and a middle outside of any block. -/
theorem parse_arranged_recovered :
    let source := "<x-slot:a>@if($b)<li>x@else @foreach($c)<p>@endif</X-SLOT>@else".toList
    (scan (Config.dialect {}) source).fault = none ∧
    ∃ document, (parse (Config.dialect {}) none source).outcome = .ok document ∧
      ∀ node ∈ document.toNode.walk, node.Arranged := by
  intro source
  have read : (scan (Config.dialect {}) source).fault = none := by decide +kernel
  exact ⟨read, parse_arranged (Config.dialect {}) none source .builtin read⟩

end BladeTemplate
