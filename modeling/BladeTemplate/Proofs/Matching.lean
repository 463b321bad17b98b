import BladeTemplate.Proofs.Below
import BladeTemplate.Proofs.Frames

/-!
# What adding an item does

Adding an item to a tree under construction does one of a dozen things. They are listed once, each
with the conditions under which it happens and the frames it finds, so that whatever is to be shown
of every tree is shown of each of them.

* `Builder.Adds` is the list, and `Builder.adds_add` says that it is complete;
* `Builder.abandon_block` and `Builder.abandon_element` say what becomes of a frame that is given
  up;
* `FrameStack.Sound` is what the open frames have in common, and `Builder.sound_of_adds` that items
  keep it;
* `FrameStack.finished` collects the nodes that are finished so far: an item adds to them and never
  takes one away.
-/

namespace BladeTemplate

open Text

/-! ## Frames that are given up -/

namespace Builder

/-- The tree under construction with other frames open. -/
def within (builder : Builder) (frames : List Frame) : Builder :=
  { builder with stack := { builder.stack with frames } }

/-- What is said about a block that is never closed: it ends at a directive or at the end of the
template. -/
def neverClosed (opener : Chars) (cause : Option Chars) : String :=
  let shown := String.ofList opener
  let place :=
    match cause with
    | some name => "'@" ++ String.ofList name ++ "'"
    | none => "end of input"
  s!"'@{shown}' is never closed; block ends at {place}"

/-- What is said about an element without end tag. -/
def noEndTag (tag : Chars) : String :=
  let shown := String.ofList tag
  s!"'<{shown}>' has no end tag; its content is kept at the same level"

section abandon

variable {builder : Builder} {start : Location} {body : Body} {outer : List Frame}

theorem abandon_root (cause : Option Directive) (root : builder.stack.frames = []) :
    builder.abandon cause = builder := by
  simp [abandon, FrameStack.pop?, root]

/-- A block that is given up becomes a block without closer, and a warning at its opener. -/
theorem abandon_block (cause : Option Directive) {opener : Directive} {family : Chars}
    {indentsMiddles : Bool}
    (top : builder.stack.frames = ⟨.block opener family indentsMiddles, start, body⟩ :: outer) :
    (builder.abandon cause).stack = (builder.within outer).stack.append
        (blockNode ⟨.block opener family indentsMiddles, start, body⟩ opener family indentsMiddles
          none) ∧
      (builder.abandon cause).diagnostics = builder.diagnostics ++
        [.warning opener.location .unmatchedDirective
          (neverClosed opener.writtenName (cause.map (·.writtenName)))] := by
  constructor
  · simp [abandon, FrameStack.pop?, top, append, within, report]
  · cases cause <;>
      simp [abandon, FrameStack.pop?, top, append, report, neverClosed]

/-- An element that is given up stays unclosed, and is reported at its start. -/
theorem abandon_element (cause : Option Directive) {kind : TagKind} {markup : Markup}
    (top : builder.stack.frames = ⟨.element kind markup, start, body⟩ :: outer) :
    (builder.abandon cause).stack = (builder.within outer).stack.append
        (markupNode kind
          { markup with
            location := Frame.span ⟨.element kind markup, start, body⟩, closed := false }
          false body.children) ∧
      (builder.abandon cause).diagnostics = builder.diagnostics ++
        [.info start .unclosedElement (noEndTag markup.tag)] := by
  constructor <;>
    simp [abandon, FrameStack.pop?, top, append, within, report, noEndTag]

end abandon

/-! ## Items as they come -/

end Builder

/-- Nothing has been settled about the directive yet. -/
structure Directive.Unsettled (directive : Directive) : Prop where
  pairing : directive.pairing = .standalone
  family : directive.family = none
  closeKind : directive.closeKind = none
  registered : directive.registered = false
  orphan : directive.orphan = false

namespace Item

/-- Nothing has been settled about the item yet: a directive has no role, and a start tag no end. -/
def Unsettled : Item → Prop
  | .directive found => found.Unsettled
  | .startTag _ markup => markup.closed = true ∧ markup.endTag = none
  | _ => True

theorem unsettled_readDirective (origin : Origin) (name : Token) (rest : List Token) :
    (readDirective origin name rest).1.Unsettled := by
  unfold readDirective
  simp only
  split <;> exact ⟨rfl, rfl, rfl, rfl, rfl⟩

theorem unsettled_of_mem (origin : Origin) (tokens : List Token) :
    ∀ item ∈ ofTokens origin tokens, item.Unsettled := by
  fun_induction ofTokens origin tokens with
  | case1 | case2 => simp
  | case3 _ _ _ read ih =>
    exact List.forall_mem_cons.2 ⟨unsettled_readDirective origin _ _, ih⟩
  | case6 _ _ _ _ read ih => exact List.forall_mem_cons.2 ⟨⟨rfl, rfl⟩, ih⟩
  | case4 _ _ _ _ _ ih | case5 _ _ _ _ ih | case7 _ _ _ _ ih | case8 _ _ _ _ _ _ _ _ _ _ ih
  | case9 _ _ _ _ _ _ _ _ _ ih =>
    exact List.forall_mem_cons.2 ⟨trivial, ih⟩

end Item

namespace Builder

/-! ## The cases -/

/-- The directive is the written one in the role that it plays where it stands. -/
def Settles (registry : Registry) (builder : Builder) (written directive : Directive) : Prop :=
  ∃ descriptor, registry.lookup written.writtenName = some descriptor ∧
    directive = settle descriptor builder.stack.openFamily written

/-- What adding an item does to a tree under construction. -/
inductive Adds (registry : Registry) (builder : Builder) : Item → Builder → Prop
  | text (location : Location) (content : Chars) :
      Adds registry builder (.text location content) (builder.append (.text location content))
  | echo (echo : Echo) : Adds registry builder (.echo echo) (builder.append (.echo echo))
  | comment (location : Location) (content : Chars) :
      Adds registry builder (.comment location content) (builder.append (.comment location content))
  | region (location : Location) (kind : RegionKind) (content : Chars) :
      Adds registry builder (.region location kind content)
        (builder.append (.region location kind content))
  -- A start tag that is all there is of its element.
  | single {kind : TagKind} {markup : Markup} (void : Bool) : (markup.selfClosing || void) = true →
      Adds registry builder (.startTag kind markup)
        (builder.append (markupNode kind markup void []))
  | startTag {kind : TagKind} {markup : Markup} :
      Adds registry builder (.startTag kind markup)
        (builder.within (⟨.element kind markup, markup.location, {}⟩ :: builder.stack.frames))
  | strayEnd {location : Location} {content : Chars} (message : String) :
      builder.stack.findElement (Tag.endTagName content) = none →
      Adds registry builder (.endTag location content)
        ((builder.report (.warning location .strayEndTag message)).append
          (.endTag location (Tag.endTagName content) content))
  -- What is opened after the construct that is closed or divided ends with it.
  | endTag {location : Location} {content : Chars} {above : Nat} {kind : TagKind} {markup : Markup}
      {start : Location} {body : Body} {outer : List Frame} :
      (∀ frame ∈ builder.stack.frames.take above, frame.isBlock = false) →
      (builder.abandonMany none above).stack.frames =
        ⟨.element kind markup, start, body⟩ :: outer →
      Tag.closes (Tag.endTagName content) markup.tag = true →
      Adds registry builder (.endTag location content)
        (((builder.abandonMany none above).within outer).append
          (markupNode kind
            { markup with
              location := start.spanTo location, endTag := some (Tag.endTagName content) }
            false body.children))
  | unregistered {written : Directive} : registry.lookup written.writtenName = none →
      Adds registry builder (.directive written) (builder.append (.directive written))
  | opener {written directive : Directive} {family : Chars} (indentsMiddles : Bool) :
      Settles registry builder written directive → directive.pairing = .opens →
      directive.family = some family →
      Adds registry builder (.directive written)
        (builder.within (⟨.block directive family indentsMiddles, directive.location, {}⟩ ::
          builder.stack.frames))
  | closer {written directive : Directive} {family : Chars} {above : Nat} {opener : Directive}
      {indentsMiddles : Bool} {start : Location} {body : Body} {outer : List Frame} :
      Settles registry builder written directive → directive.pairing = .closes →
      directive.family = some family → builder.stack.findBlock family = some above →
      (builder.abandonMany (some directive) above).stack.frames =
        ⟨.block opener family indentsMiddles, start, body⟩ :: outer →
      Adds registry builder (.directive written)
        (((builder.abandonMany (some directive) above).within outer).append
          (blockNode ⟨.block opener family indentsMiddles, start, body⟩ opener family
            indentsMiddles (some directive)))
  | orphanCloser {written directive : Directive} {family : Chars} :
      Settles registry builder written directive → directive.pairing = .closes →
      directive.family = some family → builder.stack.findBlock family = none →
      Adds registry builder (.directive written)
        (builder.addOrphan directive
          (let shown := String.ofList family; s!"has no open '{shown}' block"))
  | middle {written directive : Directive} {family : Chars} {above : Nat} {opener : Directive}
      {indentsMiddles : Bool} {start : Location} {body : Body} {outer : List Frame} :
      Settles registry builder written directive → directive.pairing = .middle →
      directive.family = some family → builder.stack.openFamily = some family →
      (∀ frame ∈ builder.stack.frames.take above, frame.isBlock = false) →
      (builder.abandonMany (some directive) above).stack.frames =
        ⟨.block opener family indentsMiddles, start, body⟩ :: outer →
      Adds registry builder (.directive written)
        ((builder.abandonMany (some directive) above).append (.directive directive))
  | orphanMiddle {written directive : Directive} :
      Settles registry builder written directive → directive.pairing = .middle →
      directive.family = none →
      Adds registry builder (.directive written)
        (builder.addOrphan directive "outside of a matching block")
  | standalone {written directive : Directive} :
      Settles registry builder written directive → directive.pairing ≠ .middle →
      (directive.pairing = .standalone ∨ directive.family = none) →
      Adds registry builder (.directive written) (builder.append (.directive directive))

/-! ## The frames that are found -/

section found

variable {builder : Builder}

theorem frames_of_openings {opened : Opened} {outer : List Opened}
    (top : builder.stack.openings = opened :: outer) :
    ∃ start body rest, builder.stack.frames = ⟨opened, start, body⟩ :: rest := by
  unfold FrameStack.openings at top
  cases frames : builder.stack.frames with
  | nil => simp [frames] at top
  | cons frame rest =>
    obtain ⟨found, start, body⟩ := frame
    simp only [frames, List.map_cons, List.cons.injEq] at top
    rw [← top.1]
    exact ⟨start, body, rest, rfl⟩

/-- A block that was found is innermost after everything above it was given up. -/
theorem block_of_findIdx {wanted : Frame → Bool} {above : Nat} {frame : Frame} {family : Chars}
    (cause : Option Directive) (found : builder.stack.frames.findIdx? wanted = some above)
    (there : builder.stack.frames[above]? = some frame) (same : frame.family? = some family) :
    ∃ opener indentsMiddles start body outer,
      (builder.abandonMany cause above).stack.frames =
        ⟨.block opener family indentsMiddles, start, body⟩ :: outer := by
  obtain ⟨bound, _, _⟩ := List.findIdx?_eq_some_iff_getElem.1 found
  obtain rfl : builder.stack.frames[above] = frame := by
    rw [List.getElem?_eq_getElem bound] at there
    exact Option.some.inj there
  have top : (builder.abandonMany cause above).stack.openings =
      builder.stack.frames[above].opened ::
        (builder.stack.frames.drop (above + 1)).map (·.opened) := by
    rw [openings_abandonMany, FrameStack.openings, ← List.map_drop,
      List.drop_eq_getElem_cons bound, List.map_cons]
  cases opened : builder.stack.frames[above].opened with
  | block opener other indentsMiddles =>
    obtain rfl : other = family := by simpa [Frame.family?, opened] using same
    rw [opened] at top
    obtain ⟨start, body, rest, frames⟩ := frames_of_openings top
    exact ⟨opener, indentsMiddles, start, body, rest, frames⟩
  | element kind markup => simp [Frame.family?, opened] at same

theorem elements_of_nearestBlock {above : Nat} (found : builder.stack.nearestBlock = some above) :
    ∀ frame ∈ builder.stack.frames.take above, frame.isBlock = false := by
  obtain ⟨bound, _, before⟩ := List.findIdx?_eq_some_iff_getElem.1 found
  intro frame member
  obtain ⟨index, less, rfl⟩ := List.mem_iff_getElem.1 member
  rw [List.length_take] at less
  rw [List.getElem_take]
  exact eq_false_of_ne_true (before index (by omega))

theorem elements_of_findElement {name : Chars} {frames : List Frame} {above : Nat}
    (found : FrameStack.findElementIn name frames = some above) :
    ∀ frame ∈ frames.take above, frame.isBlock = false := by
  induction frames generalizing above with
  | nil => simp
  | cons frame outer ih =>
    unfold FrameStack.findElementIn at found
    split at found
    · cases found
    · next kind markup opened =>
      split at found
      · cases found
        simp
      · obtain ⟨rest, later, rfl⟩ := Option.map_eq_some_iff.1 found
        intro other member
        rcases List.mem_cons.1 member with rfl | inRest
        · simp [Frame.isBlock, Frame.family?, opened]
        · exact ih later other inRest

/-- The innermost open block is the one whose family counts. -/
theorem openFamily_of_nearestBlock {above : Nat}
    (found : builder.stack.nearestBlock = some above) :
    ∃ frame, builder.stack.frames[above]? = some frame ∧
      builder.stack.openFamily = frame.family? := by
  obtain ⟨bound, holds, before⟩ := List.findIdx?_eq_some_iff_getElem.1 found
  refine ⟨builder.stack.frames[above], List.getElem?_eq_getElem bound, ?_⟩
  have first : builder.stack.frames.find? Frame.isBlock = some builder.stack.frames[above] := by
    rw [List.find?_eq_some_iff_getElem]
    exact ⟨holds, above, bound, rfl, fun index less => by simpa using before index less⟩
  rw [FrameStack.openFamily, first, Option.bind_some]

end found

/-- At the end of a template every frame has been given up. -/
theorem frames_build (registry : Registry) (items : List Item) :
    (build registry items).stack.frames = [] := by
  refine List.map_eq_nil_iff.1 ((openings_abandonMany _ none _).trans ?_)
  simp [FrameStack.openings]

/-! ## Every item does one of these things -/

/-- A middle with a family divides the block it was asked for in. -/
theorem openFamily_of_middle {descriptor : Descriptor} {count : Int} {openFamily : Option Chars}
    {family : Chars} (role : descriptor.resolve count openFamily = (.middle, some family)) :
    openFamily = some family := by
  unfold Descriptor.resolve at role
  split at role
  · cases role
  split at role
  · cases role
  split at role
  · next bare =>
    rw [bare.2.2]
    exact congrArg Prod.snd role
  split at role
  · split at role
    · next open_ =>
      split at role
      · exact congrArg Prod.snd role
      · cases role
    · cases role
  · next notMiddle =>
    exact absurd (congrArg Prod.fst role) notMiddle

section cases

variable (registry : Registry) (builder : Builder)

theorem adds_startTag (kind : TagKind) (markup : Markup) :
    Adds registry builder (.startTag kind markup) (builder.addStartTag kind markup) := by
  unfold addStartTag
  simp only
  split
  · next alone => exact .single _ alone
  · exact .startTag

theorem adds_endTag (location : Location) (content : Chars) :
    Adds registry builder (.endTag location content) (builder.addEndTag location content) := by
  unfold addEndTag
  simp only
  split
  · next none => exact .strayEnd _ none
  · next above found =>
    obtain ⟨kind, markup, outer, opened, closes⟩ := openings_of_findElement found
    obtain ⟨start, body, rest, frames⟩ :=
      frames_of_openings ((openings_abandonMany builder none above).trans opened)
    have closed : (builder.abandonMany none above).closeElement location (Tag.endTagName content) =
        ((builder.abandonMany none above).within rest).append (markupNode kind
          { markup with location := start.spanTo location, endTag := some (Tag.endTagName content) }
          false body.children) := by
      simp [closeElement, FrameStack.pop?, frames, within]
    rw [closed]
    exact .endTag (elements_of_findElement found) frames closes

theorem adds_closer {written directive : Directive} {family : Chars}
    (settles : Settles registry builder written directive) (closes : directive.pairing = .closes)
    (named : directive.family = some family) :
    Adds registry builder (.directive written) (builder.addCloser directive family) := by
  unfold addCloser
  split
  · next above found =>
    obtain ⟨bound, holds, _⟩ := List.findIdx?_eq_some_iff_getElem.1 found
    obtain ⟨opener, indentsMiddles, start, body, outer, frames⟩ := block_of_findIdx (some directive)
      found (List.getElem?_eq_getElem bound) (of_decide_eq_true holds)
    have closed : (builder.abandonMany (some directive) above).closeBlock directive =
        ((builder.abandonMany (some directive) above).within outer).append
          (blockNode ⟨.block opener family indentsMiddles, start, body⟩ opener family
            indentsMiddles (some directive)) := by
      simp [closeBlock, FrameStack.pop?, frames, within]
    rw [closed]
    exact .closer settles closes named found frames
  · next none => exact .orphanCloser settles closes named none

theorem adds_middle {written directive : Directive}
    (settles : Settles registry builder written directive) (middle : directive.pairing = .middle) :
    Adds registry builder (.directive written) (builder.addMiddle directive) := by
  obtain ⟨descriptor, _, rfl⟩ := settles
  have settles : Settles registry builder written
    (settle descriptor builder.stack.openFamily written) := ⟨descriptor, ‹_›, rfl⟩
  have inside {family : Chars}
      (named : (settle descriptor builder.stack.openFamily written).family = some family) :
      builder.stack.openFamily = some family :=
    openFamily_of_middle (Prod.ext middle named)
  generalize settle descriptor builder.stack.openFamily written = directive at *
  unfold addMiddle
  split
  · next family above named found =>
    obtain ⟨frame, there, same⟩ := openFamily_of_nearestBlock found
    obtain ⟨opener, indentsMiddles, start, body, outer, frames⟩ := block_of_findIdx (some directive)
      found there (same.symm.trans (inside named))
    exact .middle settles middle named (inside named) (elements_of_nearestBlock found) frames
  · next none =>
    cases named : directive.family with
    | none => exact .orphanMiddle settles middle named
    | some family =>
      -- A family is only given where a block is open.
      exfalso
      have open_ := inside named
      unfold FrameStack.openFamily at open_
      obtain ⟨frame, found, _⟩ := Option.bind_eq_some_iff.1 open_
      obtain ⟨holds, index, bound, rfl, before⟩ := List.find?_eq_some_iff_getElem.1 found
      refine none family index named (List.findIdx?_eq_some_iff_getElem.2 ⟨bound, holds, ?_⟩)
      intro earlier less
      simpa using before earlier less

theorem adds_directive (written : Directive) :
    Adds registry builder (.directive written) (builder.addDirective registry written) := by
  unfold addDirective
  split
  · next none => exact .unregistered none
  · next descriptor found =>
    have settles : Settles registry builder written
      (settle descriptor builder.stack.openFamily written) := ⟨descriptor, found, rfl⟩
    simp only
    generalize settle descriptor builder.stack.openFamily written = directive at *
    split
    · next family opens named => exact .opener _ settles opens named
    · next family closes named => exact adds_closer registry builder settles closes named
    · next middle => exact adds_middle registry builder settles middle
    · next notMiddle notOpener notCloser =>
      refine .standalone settles notMiddle ?_
      cases pairing : directive.pairing with
      | standalone => exact .inl rfl
      | middle => exact absurd pairing notMiddle
      | opens | closes =>
        cases named : directive.family with
        | none => exact .inr rfl
        | some family => simp_all

/-- Adding an item does one of the things listed. -/
theorem adds_add (item : Item) : Adds registry builder item (builder.add registry item) := by
  cases item with
  | text location content => exact .text location content
  | echo echo => exact .echo echo
  | comment location content => exact .comment location content
  | region location kind content => exact .region location kind content
  | directive written => exact adds_directive registry builder written
  | startTag kind markup => exact adds_startTag registry builder kind markup
  | endTag location content => exact adds_endTag registry builder location content

end cases

end Builder

/-! ## What is open -/

/-- What a frame will become is known as far as it was opened. -/
def Opened.Sound : Opened → Prop
  | .block opener family _ => opener.pairing = .opens ∧ opener.family = some family ∧
      opener.closeKind = none ∧ opener.registered = true ∧ opener.orphan = false
  | .element _ markup => markup.closed = true ∧ markup.endTag = none

/-- Every frame was opened by an opener or by a start tag. -/
def FrameStack.Sound (stack : FrameStack) : Prop :=
  ∀ opened ∈ stack.openings, opened.Sound

namespace Builder

section settles

variable {registry : Registry} {builder : Builder} {written directive : Directive}

theorem Settles.location (settles : Settles registry builder written directive) :
    directive.location = written.location := by
  obtain ⟨_, _, rfl⟩ := settles
  rfl

theorem Settles.orphan (settles : Settles registry builder written directive) :
    directive.orphan = written.orphan := by
  obtain ⟨_, _, rfl⟩ := settles
  rfl

theorem Settles.registered (settles : Settles registry builder written directive) :
    directive.registered = true := by
  obtain ⟨_, _, rfl⟩ := settles
  rfl

/-- Only closers have a closing kind. -/
theorem Settles.closeKind (settles : Settles registry builder written directive)
    (other : directive.pairing ≠ .closes) : directive.closeKind = none := by
  obtain ⟨_, _, rfl⟩ := settles
  exact if_neg other

theorem Settles.known (settles : Settles registry builder written directive) :
    registry.lookup written.writtenName ≠ none := by
  obtain ⟨descriptor, found, _⟩ := settles
  simp [found]

end settles

section sound

variable {registry : Registry} {builder next : Builder}

theorem sound_abandonMany (sound : builder.stack.Sound) (cause : Option Directive) (count : Nat) :
    (builder.abandonMany cause count).stack.Sound := by
  intro opened member
  rw [openings_abandonMany] at member
  exact sound opened (List.mem_of_mem_drop member)

theorem sound_append (sound : builder.stack.Sound) (node : Node) :
    (builder.append node).stack.Sound := by
  intro opened member
  rw [append, FrameStack.openings_append] at member
  exact sound opened member

theorem sound_pop (sound : builder.stack.Sound) {frame : Frame} {outer : List Frame}
    (top : builder.stack.frames = frame :: outer) :
    frame.opened.Sound ∧ (builder.within outer).stack.Sound := by
  have openings : builder.stack.openings = frame.opened :: outer.map (·.opened) := by
    simp [FrameStack.openings, top]
  unfold FrameStack.Sound at sound
  rw [openings, List.forall_mem_cons] at sound
  exact sound

theorem sound_push (sound : builder.stack.Sound) {frame : Frame} (opened : frame.opened.Sound) :
    (builder.within (frame :: builder.stack.frames)).stack.Sound :=
  List.forall_mem_cons.2 ⟨opened, sound⟩

theorem sound_of_adds {item : Item} (adds : Adds registry builder item next)
    (unsettled : item.Unsettled) (sound : builder.stack.Sound) : next.stack.Sound := by
  cases adds with
  | text | echo | comment | region | single | unregistered | standalone =>
    exact sound_append sound _
  | strayEnd | orphanCloser | orphanMiddle => 
    exact sound_append (show (report _ _).stack.Sound from sound) _
  | startTag => exact sound_push sound unsettled
  | opener indentsMiddles settles opens named =>
    exact sound_push sound
      ⟨opens, named, settles.closeKind (by simp [opens]), settles.registered,
        settles.orphan.trans unsettled.orphan⟩
  | endTag _ top => exact sound_append (sound_pop (sound_abandonMany sound _ _) top).2 _
  | closer _ _ _ _ top => exact sound_append (sound_pop (sound_abandonMany sound _ _) top).2 _
  | middle => exact sound_append (sound_abandonMany sound _ _) _

end sound

end Builder

/-! ## Finished nodes -/

namespace Node

/-- Whether a node is a text. -/
def isText : Node → Bool
  | .text .. => true
  | _ => false

theorem eq_text_of_isText {node : Node} (isText : node.isText = true) :
    ∃ location content, node = .text location content := by
  cases node with
  | text location content => exact ⟨location, content, rfl⟩
  | _ => cases isText

/-- Several nodes and everything below them, except for the texts: of a text one cannot tell whether
it is finished, since the next one may be joined to it. -/
def parts (nodes : List Node) : List Node :=
  (walkAll nodes).filter (!·.isText)

theorem parts_append (nodes more : List Node) :
    parts (nodes ++ more) = parts nodes ++ parts more := by
  simp [parts, walkAll_eq]

theorem parts_perm {nodes others : List Node} (perm : nodes.Perm others) :
    (parts nodes).Perm (parts others) := by
  unfold parts
  rw [walkAll_eq, walkAll_eq]
  exact (perm.flatMap_right walk).filter _

/-- What gives nothing for texts may as well be taken of all nodes. -/
theorem flatMap_parts {α : Type} {f : Node → List α}
    (texts : ∀ location content, f (.text location content) = []) (nodes : List Node) :
    (parts nodes).flatMap f = (walkAll nodes).flatMap f := by
  unfold parts
  induction walkAll nodes with
  | nil => rfl
  | cons node rest ih =>
    by_cases text : node.isText = true
    · have none : f node = [] := by
        obtain ⟨location, content, rfl⟩ := eq_text_of_isText text
        exact texts location content
      rw [List.filter_cons_of_neg (by simp [text]), List.flatMap_cons, none, List.nil_append, ih]
    · rw [List.filter_cons_of_pos (by simp [text]), List.flatMap_cons, List.flatMap_cons, ih]

theorem mem_parts {nodes : List Node} {node : Node} :
    node ∈ parts nodes ↔ node ∈ walkAll nodes ∧ node.isText = false := by
  simp [parts]

theorem parts_blockNode (frame : Frame) (opener : Directive) (family : Chars)
    (indentsMiddles : Bool) (closer : Option Directive) :
    (parts [Builder.blockNode frame opener family indentsMiddles closer]).Perm
      (Builder.blockNode frame opener family indentsMiddles closer :: .directive opener ::
        (closer.map Node.directive).toList ++ parts frame.body.children) := by
  have shown : parts [Builder.blockNode frame opener family indentsMiddles closer] =
      Builder.blockNode frame opener family indentsMiddles closer :: .directive opener ::
        (parts frame.body.children ++ (closer.map Node.directive).toList) := by
    cases closer <;> simp [parts, walkAll_eq, walk, Builder.blockNode, isText]
  rw [shown]
  exact (List.perm_append_comm.cons _).cons _

theorem parts_markupNode (kind : TagKind) (markup : Markup) (void : Bool) (children : List Node) :
    (parts [Builder.markupNode kind markup void children]).Perm
      (Builder.markupNode kind markup void children :: parts children) := by
  cases kind with
  | element | slot => simp [parts, walkAll_eq, walk, Builder.markupNode, isText]
  | component =>
    have split := parts_perm (List.filter_append_perm Builder.isSlotChild children)
    rw [parts_append] at split
    have shown : parts [Builder.markupNode .component markup void children] =
        Builder.markupNode .component markup void children ::
          (parts (children.filter Builder.isSlotChild) ++
            parts (children.filter (!Builder.isSlotChild ·))) := by
      simp [parts, walkAll_eq, walk, Builder.markupNode, isText]
    rw [shown]
    exact split.cons _

end Node

/-- Adding a child puts it at the end, or joins a text to the text at the end. -/
theorem Body.append_cases (body : Body) (node : Node) :
    (body.append node).children = body.children ++ [node] ∨
      node.isText = true ∧ ∃ older before after, before.isText = true ∧ after.isText = true ∧
        body.children = older ++ [before] ∧ (body.append node).children = older ++ [after] := by
  unfold Body.append
  split
  · next location content before head older joined =>
    refine .inr ⟨rfl, older.reverse, .text before head, _, rfl, rfl, ?_, List.reverse_cons⟩
    rw [Body.children, joined, List.reverse_cons]
  · exact .inl List.reverse_cons

/-- A new child adds its parts. -/
theorem Body.parts_append (body : Body) (node : Node) :
    Node.parts (body.append node).children = Node.parts body.children ++ Node.parts [node] := by
  have none {text : Node} (isText : text.isText = true) : Node.parts [text] = [] := by
    obtain ⟨location, content, rfl⟩ := Node.eq_text_of_isText isText
    rfl
  rcases body.append_cases node with added | ⟨text, older, before, after, wasText, isText, old, new⟩
  · rw [added, Node.parts_append]
  · rw [old, new, Node.parts_append, Node.parts_append, none wasText, none isText, none text,
      List.append_nil, List.append_nil]

namespace FrameStack

/-- The finished nodes of a tree under construction, texts apart. -/
def finished (stack : FrameStack) : List Node :=
  Node.parts stack.root.children ++ stack.frames.flatMap fun frame => Node.parts frame.body.children

theorem finished_append (stack : FrameStack) (node : Node) :
    (stack.append node).finished.Perm (stack.finished ++ Node.parts [node]) := by
  unfold FrameStack.append finished
  split
  · next root =>
    simp only [root, List.flatMap_nil, List.append_nil]
    rw [Body.parts_append]
  · next frame outer top =>
    simp only [top, List.flatMap_cons]
    rw [Body.parts_append, List.append_assoc, List.append_assoc, List.append_assoc]
    exact (List.perm_append_comm.append_left _).append_left _

end FrameStack

namespace Builder

variable {builder : Builder}

/-- Finishing the innermost frame adds the nodes that were not finished as long as it was open. -/
theorem finished_close {frame : Frame} {outer : List Frame}
    (top : builder.stack.frames = frame :: outer) {node : Node} {added : List Node}
    (parts : (Node.parts [node]).Perm (added ++ Node.parts frame.body.children)) :
    ((builder.within outer).stack.append node).finished.Perm (builder.stack.finished ++ added) := by
  refine (FrameStack.finished_append _ _).trans ((parts.append_left _).trans ?_)
  unfold FrameStack.finished within
  simp only [top, List.flatMap_cons, List.append_assoc]
  rw [← List.append_assoc (outer.flatMap _)]
  exact List.perm_append_comm.append_left _

end Builder

end BladeTemplate
