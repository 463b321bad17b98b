import BladeTemplate.Proofs.PairingMachine

/-!
# What directives come to

A directive of a template is settled when it is matched: it opens, closes or divides a block, stands
alone, or is kept where it stands. What it came to can be read off the tree, and off a tree under
construction.

* `Node.occurrences` reads off a node what the directives that stand in it came to;
* `Builder.Gains` says which directives a step of matching settles, in the words of the machine on
  families;
* `Builder.gains_closeMarkup`, `Builder.gains_closeBlock` and `Builder.gains_abandon` are the steps
  that end a frame.
-/

namespace BladeTemplate

open Text PairingMachine

/-! ## What the directives of a tree came to -/

/-- What a directive came to, given the opener of the block that it closes or divides. -/
def Directive.occurrence (directive : Directive) (block : Option Location) (unclosed : Bool) :
    Occurrence Location :=
  ⟨directive.pairing, directive.family, directive.closeKind, directive.orphan, block, unclosed⟩

namespace Node

/-- What a child that is a directive came to, given the opener of the block it stands in. -/
def standing (host : Option Location) : Node → List (Location × Occurrence Location)
  | .directive found =>
    [(found.location, found.occurrence (if found.separates then host else none) false)]
  | _ => []

/-- What the directives came to that stand in a node itself, with where they stand. -/
def occurrences : Node → List (Location × Occurrence Location)
  | .block _ opener _ children closer _ =>
    (opener.location, opener.occurrence none closer.isNone) ::
      (children.flatMap (standing (some opener.location)) ++
        closer.toList.map fun last => (last.location, last.occurrence (some opener.location) false))
  | .element _ _ children | .slot _ _ children | .document _ children _ _ =>
    children.flatMap (standing none)
  | .component _ slots children => (slots ++ children).flatMap (standing none)
  | _ => []

end Node

/-! ## What a step of matching settles -/

/-- The location of the opener, if the frame is a block. -/
def Opened.host : Opened → Option Location
  | .block opener _ _ => some opener.location
  | .element _ _ => none

/-- The open block of a frame that is one. -/
def Opened.block? : Opened → Option (OpenBlock Location)
  | .block opener family _ => some ⟨opener.location, opener.writtenName, family⟩
  | .element _ _ => none

/-- What the directives came to that are settled in the frame. -/
def Frame.standing (frame : Frame) : List (Location × Occurrence Location) :=
  frame.body.children.flatMap (Node.standing frame.opened.host)

namespace FrameStack

/-- The opener of the innermost frame, if it is a block. -/
def topHost (stack : FrameStack) : Option Location :=
  stack.frames.head?.bind (·.opened.host)

/-- What the directives came to that are settled in a tree under construction. -/
def occurrences (stack : FrameStack) : List (Location × Occurrence Location) :=
  stack.finished.flatMap Node.occurrences ++
    (stack.root.children.flatMap (Node.standing none) ++ stack.frames.flatMap Frame.standing)

/-- The open blocks, innermost first. -/
def blocks (stack : FrameStack) : List (OpenBlock Location) :=
  stack.openings.filterMap Opened.block?

end FrameStack

theorem Body.standing_append (body : Body) (host : Option Location) (node : Node) :
    (body.append node).children.flatMap (Node.standing host) =
      body.children.flatMap (Node.standing host) ++ node.standing host := by
  have none {text : Node} (isText : text.isText = true) : text.standing host = [] := by
    obtain ⟨location, content, rfl⟩ := Node.eq_text_of_isText isText
    rfl
  rcases body.append_cases node with added | ⟨text, older, before, after, wasText, isText, old, new⟩
  · rw [added, List.flatMap_append, List.flatMap_singleton]
  · rw [old, new, List.flatMap_append, List.flatMap_append, List.flatMap_singleton,
      List.flatMap_singleton, none wasText, none isText, none text, List.append_nil, List.append_nil]

namespace FrameStack

theorem occurrences_append (stack : FrameStack) (node : Node) :
    (stack.append node).occurrences.Perm
      (stack.occurrences ++
        ((Node.parts [node]).flatMap Node.occurrences ++ node.standing stack.topHost)) := by
  refine List.perm_iff_count.2 fun fact => ?_
  have finished := ((stack.finished_append node).flatMap_right Node.occurrences).count_eq fact
  unfold occurrences
  rw [List.count_append, finished]
  unfold FrameStack.append topHost
  cases frames : stack.frames with
  | nil =>
    simp only [Body.standing_append, List.flatMap_append, List.count_append]
    simp
    omega
  | cons frame outer =>
    simp only [Frame.standing, Body.standing_append, List.flatMap_append, List.count_append,
      List.flatMap_cons]
    simp
    omega

end FrameStack

/-- What a settled directive came to, with where it stands. -/
def PairingMachine.Entry.fact (entry : Entry Location) : Location × Occurrence Location :=
  (entry.label, entry.occurrence)

/-- What is said about a settled directive, where it stands. -/
def PairingMachine.Entry.diagnostic? (entry : Entry Location) : Option Diagnostic :=
  entry.complaint.map (.warning entry.label .unmatchedDirective)

namespace Builder

/-- What was said about unmatched directives. -/
def complaints (builder : Builder) : List Diagnostic :=
  builder.diagnostics.filter (·.code = .unmatchedDirective)

/-- From one tree under construction to another, some directives are settled. -/
structure Gains (builder next : Builder) (entries : List (Entry Location)) : Prop where
  occurrences : next.stack.occurrences.Perm
    (builder.stack.occurrences ++ entries.map Entry.fact)
  complaints : next.complaints = builder.complaints ++ entries.filterMap Entry.diagnostic?

variable {registry : Registry} {builder next : Builder}

theorem Gains.refl (builder : Builder) : Gains builder builder [] :=
  ⟨by simp, by simp⟩

theorem Gains.trans {last : Builder} {entries more : List (Entry Location)}
    (first : Gains builder next entries) (second : Gains next last more) :
    Gains builder last (entries ++ more) := by
  refine ⟨?_, ?_⟩
  · rw [List.map_append, ← List.append_assoc]
    exact second.occurrences.trans (first.occurrences.append_right _)
  · rw [second.complaints, first.complaints, List.filterMap_append, List.append_assoc]

/-- A node is added, and settles its directives. -/
theorem gains_append {node : Node} {added : List Diagnostic} {entries : List (Entry Location)}
    (stack : next.stack = builder.stack.append node)
    (diagnostics : next.diagnostics = builder.diagnostics ++ added)
    (facts : ((Node.parts [node]).flatMap Node.occurrences ++
      node.standing builder.stack.topHost).Perm (entries.map Entry.fact))
    (said : added.filter (·.code = .unmatchedDirective) = entries.filterMap Entry.diagnostic?) :
    Gains builder next entries := by
  refine ⟨?_, ?_⟩
  · rw [stack]
    exact (FrameStack.occurrences_append _ _).trans (facts.append_left _)
  · rw [complaints, diagnostics, List.filter_append, said]
    rfl

/-- The innermost frame ends, and settles directives beyond those that were settled in it. -/
theorem gains_close {frame : Frame} {outer : List Frame}
    (top : builder.stack.frames = frame :: outer) {node : Node} {news : List Node}
    (parts : (Node.parts [node]).Perm (news ++ Node.parts frame.body.children))
    (other : ∀ host, node.standing host = []) {entries : List (Entry Location)}
    (facts : (news.flatMap Node.occurrences).Perm (frame.standing ++ entries.map Entry.fact))
    {added : List Diagnostic} (stack : next.stack = (builder.within outer).stack.append node)
    (diagnostics : next.diagnostics = builder.diagnostics ++ added)
    (said : added.filter (·.code = .unmatchedDirective) = entries.filterMap Entry.diagnostic?) :
    Gains builder next entries := by
  refine ⟨?_, ?_⟩
  · rw [stack]
    refine (FrameStack.occurrences_append _ _).trans (List.perm_iff_count.2 fun fact => ?_)
    have inside := (parts.flatMap_right Node.occurrences).count_eq fact
    have gained := facts.count_eq fact
    rw [other, List.append_nil, List.count_append, inside]
    simp only [FrameStack.occurrences, FrameStack.finished, within, top, List.flatMap_append,
      List.flatMap_cons, List.count_append] at gained ⊢
    omega
  · rw [complaints, diagnostics, List.filter_append, said]
    rfl

theorem gains_push (builder : Builder) (opened : Opened) (start : Location) :
    Gains builder (builder.within (⟨opened, start, {}⟩ :: builder.stack.frames)) [] := by
  refine ⟨?_, by simp [complaints, within]⟩
  simp [FrameStack.occurrences, FrameStack.finished, within, Frame.standing, Body.children,
    Node.parts, Node.walkAll]

end Builder

/-! ## Frames that end -/

namespace Node

theorem occurrences_markupNode (kind : TagKind) (markup : Markup) (void : Bool)
    (children : List Node) :
    (Builder.markupNode kind markup void children).occurrences.Perm
      (children.flatMap (standing none)) := by
  cases kind with
  | element | slot => exact .refl _
  | component =>
    exact (List.filter_append_perm Builder.isSlotChild children).flatMap_right (standing none)

theorem standing_markupNode (kind : TagKind) (markup : Markup) (void : Bool)
    (children : List Node) (host : Option Location) :
    (Builder.markupNode kind markup void children).standing host = [] := by
  cases kind <;> rfl

end Node

namespace Builder

variable {builder next : Builder}

/-- The innermost frame, an element, ends: no directive is settled by that. -/
theorem gains_closeMarkup {kind : TagKind} {opening : Markup} {start : Location} {body : Body}
    {outer : List Frame}
    (top : builder.stack.frames = ⟨.element kind opening, start, body⟩ :: outer) (markup : Markup)
    {added : List Diagnostic}
    (stack : next.stack = (builder.within outer).stack.append
      (markupNode kind markup false body.children))
    (diagnostics : next.diagnostics = builder.diagnostics ++ added)
    (other : added.filter (·.code = .unmatchedDirective) = []) : Gains builder next [] := by
  have parts : (Node.parts [markupNode kind markup false body.children]).Perm
      ([markupNode kind markup false body.children] ++ Node.parts body.children) :=
    Node.parts_markupNode kind markup false body.children
  refine gains_close top parts (Node.standing_markupNode kind markup false _) ?_ stack diagnostics
    other
  rw [List.flatMap_singleton]
  simpa [Frame.standing, Opened.host] using
    Node.occurrences_markupNode kind markup false body.children

/-- The innermost frame, a block, ends: its opener is settled, and its closer if it has one. -/
theorem gains_closeBlock {opener : Directive} {family : Chars} {indentsMiddles : Bool}
    {start : Location} {body : Body} {outer : List Frame}
    (top : builder.stack.frames = ⟨.block opener family indentsMiddles, start, body⟩ :: outer)
    (closer : Option Directive) {entries : List (Entry Location)}
    (facts : entries.map Entry.fact =
      (opener.location, opener.occurrence none closer.isNone) ::
        closer.toList.map fun last => (last.location, last.occurrence (some opener.location) false))
    {added : List Diagnostic}
    (stack : next.stack = (builder.within outer).stack.append
      (blockNode ⟨.block opener family indentsMiddles, start, body⟩ opener family indentsMiddles
        closer))
    (diagnostics : next.diagnostics = builder.diagnostics ++ added)
    (said : added.filter (·.code = .unmatchedDirective) = entries.filterMap Entry.diagnostic?) :
    Gains builder next entries := by
  refine gains_close top (Node.parts_blockNode _ opener family _ closer) (fun _ => rfl) ?_ stack
    diagnostics said
  have directives : ((closer.map Node.directive).toList).flatMap Node.occurrences = [] := by
    cases closer <;> rfl
  rw [facts, List.flatMap_cons, List.flatMap_cons, directives]
  simp only [blockNode, Node.occurrences, List.append_nil]
  exact List.perm_middle.symm

/-- The occurrence of the opener of a block. -/
theorem occurrence_of_sound {opener : Directive} {family : Chars} {indentsMiddles : Bool}
    (sound : (Opened.block opener family indentsMiddles).Sound) (unclosed : Bool) :
    opener.occurrence none unclosed =
      { pairing := .opens, family := some family, unclosed := unclosed } := by
  obtain ⟨opens, named, closeKind, _, inBlock⟩ := sound
  simp [Directive.occurrence, opens, named, closeKind, inBlock]

/-- Of the frames that are given up, the blocks leave their openers unclosed. -/
theorem gains_abandon (sound : builder.stack.Sound) (cause : Option Directive) :
    Gains builder (builder.abandon cause)
      (((builder.stack.openings.take 1).filterMap Opened.block?).map
        (OpenBlock.unclosed (cause.map (·.writtenName)))) := by
  cases frames : builder.stack.frames with
  | nil =>
    rw [abandon_root cause frames, FrameStack.openings, frames]
    exact .refl builder
  | cons frame outer =>
    obtain ⟨opened, start, body⟩ := frame
    rw [FrameStack.openings, frames]
    cases opened with
    | block opener family indentsMiddles =>
      obtain ⟨stack, diagnostics⟩ := abandon_block cause frames
      refine gains_closeBlock frames none ?_ stack diagnostics ?_
      · rw [occurrence_of_sound (sound_pop sound frames).1]
        rfl
      · rfl
    | element kind markup =>
      obtain ⟨stack, diagnostics⟩ := abandon_element cause frames
      exact gains_closeMarkup frames _ stack diagnostics rfl

theorem gains_abandonMany (sound : builder.stack.Sound) (cause : Option Directive) (count : Nat) :
    Gains builder (builder.abandonMany cause count)
      (((builder.stack.openings.take count).filterMap Opened.block?).map
        (OpenBlock.unclosed (cause.map (·.writtenName)))) := by
  induction count generalizing builder with
  | zero => exact .refl builder
  | succ count ih =>
    have first := gains_abandon sound cause
    have later := ih (sound_abandonMany sound cause 1)
    have split : builder.stack.openings.take (count + 1) =
        builder.stack.openings.take 1 ++ (builder.abandon cause).stack.openings.take count := by
      rw [openings_abandon, Nat.add_comm, List.take_add, List.drop_one]
    rw [split, List.filterMap_append, List.map_append]
    exact first.trans later

theorem no_block_of_elements {count : Nat}
    (elements : ∀ frame ∈ builder.stack.frames.take count, frame.isBlock = false) :
    (builder.stack.openings.take count).filterMap Opened.block? = [] := by
  rw [List.filterMap_eq_nil_iff, FrameStack.openings, ← List.map_take]
  intro opened member
  obtain ⟨frame, inside, rfl⟩ := List.mem_map.1 member
  have notBlock := elements frame inside
  cases opened : frame.opened with
  | block => simp [Frame.isBlock, Frame.family?, opened] at notBlock
  | element => rfl

/-- Elements that are given up settle no directive. -/
theorem gains_abandonMany_elements (sound : builder.stack.Sound) (cause : Option Directive)
    {count : Nat} (elements : ∀ frame ∈ builder.stack.frames.take count, frame.isBlock = false) :
    Gains builder (builder.abandonMany cause count) [] := by
  have gains := gains_abandonMany sound cause count
  rw [no_block_of_elements elements] at gains
  exact gains

end Builder

end BladeTemplate
