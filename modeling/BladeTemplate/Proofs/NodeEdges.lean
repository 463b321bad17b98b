import BladeTemplate.Proofs.Balance
import BladeTemplate.Proofs.ItemEdges
import BladeTemplate.Proofs.Matching

/-!
# Where nodes start and end

The edges of items are those of the nodes made from them. A body that is not read as markup is the
first child of its element, and stands nowhere else.

* `Node.RawFirst` says where such bodies stand among children, `Node.Edged` what is known about a
  node and its children;
* `FrameStack.Edged` is the invariant of matching, with `Builder.Awaits` for the moment between a
  start tag and its body;
* `edged_of_parse` is what follows for whole trees.
-/

namespace BladeTemplate

open Text

/-! ## Nodes -/

namespace Node

/-- Whether a node is a body that is not read as markup. -/
def isRawText : Node → Bool
  | .region _ .rawText _ => true
  | _ => false

/-- Of the children of a tag, only the first may be a body that is not read as markup. It stops at
the end tag of the element, and only an element has one. -/
structure RawFirst (source : Chars) (tag : Option Chars) (children : List Node) : Prop where
  first : ∀ child, children.head? = some child → child.isRawText = true → ∃ name n,
    tag = some name ∧ Tag.isOneOf Tag.rawTextNames name = true ∧
    child.location.endOffset = (n : Nat) ∧ EndTagAhead source (lower name) n
  rest : ∀ child ∈ children.tail, child.isRawText = false

/-- What is known about the edges of a node, and where the bodies that are not read as markup stand
among its children. -/
def Edged (source : Chars) : Node → Prop
  | .comment _ content | .endTag _ _ content => Firm content
  | .region location kind content => kind.Edged location content
  | .directive found => found.Edged
  | .block _ _ _ children _ _ => RawFirst source none children
  | .element markup _ children => (∀ entry ∈ markup.attributes, entry.Edged) ∧
      (∀ name, markup.endTag = some name → Tag.closes name markup.tag = true) ∧
      RawFirst source (some markup.tag) children
  | .component markup slots children => (∀ entry ∈ markup.attributes, entry.Edged) ∧
      RawFirst source none slots ∧ RawFirst source none children
  | .slot _ markup children => (∀ entry ∈ markup.attributes, entry.Edged) ∧
      RawFirst source none children
  | _ => True

namespace RawFirst

variable {source : Chars} {tag : Option Chars} {children : List Node}

theorem nil (source : Chars) (tag : Option Chars) : RawFirst source tag [] :=
  ⟨by simp, by simp⟩

/-- Children none of which is such a body. -/
theorem of_none (none : ∀ child ∈ children, child.isRawText = false) :
    RawFirst source tag children := by
  refine ⟨?_, fun child member => none child (List.mem_of_mem_tail member)⟩
  intro child first raw
  rw [none child (List.mem_of_mem_head? first)] at raw
  cases raw

/-- Only the elements that are not read as markup have such a body. -/
theorem none_of_other (rawFirst : RawFirst source tag children)
    (other : ∀ name, tag = some name → Tag.isOneOf Tag.rawTextNames name = false) :
    ∀ child ∈ children, child.isRawText = false := by
  intro child member
  cases children with
  | nil => cases member
  | cons first rest =>
    rcases List.mem_cons.1 member with rfl | later
    · refine eq_false_of_ne_true ?_
      intro raw
      obtain ⟨name, _, tagged, isRaw, _⟩ := rawFirst.first child rfl raw
      rw [other name tagged] at isRaw
      cases isRaw
    · exact rawFirst.rest child later

theorem none_of_noTag (rawFirst : RawFirst source none children) :
    ∀ child ∈ children, child.isRawText = false :=
  rawFirst.none_of_other (by simp)

/-- Any other node may be added behind. -/
theorem concat (rawFirst : RawFirst source tag children) {node : Node}
    (other : node.isRawText = false) : RawFirst source tag (children ++ [node]) := by
  cases children with
  | nil => exact .of_none (by simpa using other)
  | cons first rest =>
    refine ⟨rawFirst.first, ?_⟩
    intro child member
    rcases List.mem_append.1 (show child ∈ rest ++ [node] from member) with old | new
    · exact rawFirst.rest child old
    · rw [List.mem_singleton.1 new]
      exact other

theorem of_concat {node : Node} (rawFirst : RawFirst source tag (children ++ [node])) :
    RawFirst source tag children := by
  cases children with
  | nil => exact .nil source tag
  | cons first rest =>
    exact ⟨rawFirst.first, fun child member => rawFirst.rest child (List.mem_append_left _ member)⟩

/-- Adding a child of another kind to a body under construction. -/
theorem append {body : Body} (rawFirst : RawFirst source tag body.children) {node : Node}
    (other : node.isRawText = false) : RawFirst source tag (body.append node).children := by
  have text {node : Node} (isText : node.isText = true) : node.isRawText = false := by
    obtain ⟨location, content, rfl⟩ := Node.eq_text_of_isText isText
    rfl
  rcases body.append_cases node with added | ⟨_, older, before, after, _, isText, old, new⟩
  · rw [added]
    exact rawFirst.concat other
  · rw [old] at rawFirst
    rw [new]
    exact rawFirst.of_concat.concat (text isText)

end RawFirst

end Node

/-! ## Matching -/

/-- What is known about the edges of what opened a frame. -/
def Opened.Edged : Opened → Prop
  | .block opener _ _ => opener.Edged
  | .element _ markup => (∀ entry ∈ markup.attributes, entry.Edged) ∧ markup.endTag = none

/-- The tag of an element under construction. -/
def Opened.tag? : Opened → Option Chars
  | .element .element markup => some markup.tag
  | _ => none

/-- What is known about an open frame and its children so far. -/
structure Frame.Edged (source : Chars) (frame : Frame) : Prop where
  opened : frame.opened.Edged
  children : Node.RawFirst source frame.opened.tag? frame.body.children

/-- What is known about all frames, and about the nodes that are finished. -/
structure FrameStack.Edged (source : Chars) (stack : FrameStack) : Prop where
  root : Node.RawFirst source none stack.root.children
  frames : ∀ frame ∈ stack.frames, frame.Edged source
  finished : ∀ node ∈ stack.finished, node.Edged source

namespace Builder

variable {registry : Registry} {source : Chars} {builder : Builder}

theorem edged_append (edged : builder.stack.Edged source) {node : Node}
    (other : node.isRawText = false) (parts : ∀ part ∈ Node.parts [node], part.Edged source) :
    (builder.stack.append node).Edged source := by
  have finished : ∀ part ∈ (builder.stack.append node).finished, part.Edged source := by
    intro part member
    rcases List.mem_append.1 ((FrameStack.finished_append _ _).mem_iff.1 member) with old | new
    · exact edged.finished part old
    · exact parts part new
  unfold FrameStack.append at finished ⊢
  split at finished
  · next none =>
    exact ⟨edged.root.append other, by simp [none], finished⟩
  · next frame outer top =>
    have frames := edged.frames
    rw [top, List.forall_mem_cons] at frames
    refine ⟨edged.root, List.forall_mem_cons.2 ⟨⟨frames.1.opened, ?_⟩, frames.2⟩, finished⟩
    exact frames.1.children.append other

/-- A leaf other than a body that is not read as markup. -/
theorem edged_append_leaf (edged : builder.stack.Edged source) {node : Node}
    (other : node.isRawText = false) (leaf : node.walk = [node]) (known : node.Edged source) :
    (builder.stack.append node).Edged source := by
  refine edged_append edged other ?_
  intro part member
  have inside := (Node.mem_parts.1 member).1
  rw [Node.walkAll, Node.walkAll, leaf, List.append_nil, List.mem_singleton] at inside
  rw [inside]
  exact known

/-- Finishing the innermost frame. -/
theorem edged_close (edged : builder.stack.Edged source) {frame : Frame} {outer : List Frame}
    (top : builder.stack.frames = frame :: outer) {node : Node} {added : List Node}
    (parts : (Node.parts [node]).Perm (added ++ Node.parts frame.body.children))
    (known : ∀ part ∈ added, part.Edged source) (other : node.isRawText = false) :
    ((builder.within outer).stack.append node).Edged source := by
  have frames := edged.frames
  rw [top, List.forall_mem_cons] at frames
  have inBody : ∀ part ∈ Node.parts frame.body.children, part.Edged source := by
    intro part member
    refine edged.finished part (List.mem_append_right _ ?_)
    rw [top, List.flatMap_cons]
    exact List.mem_append_left _ member
  have around : (builder.within outer).stack.Edged source := by
    refine ⟨edged.root, frames.2, ?_⟩
    intro part member
    refine edged.finished part ?_
    rcases List.mem_append.1 member with inRoot | inFrames
    · exact List.mem_append_left _ inRoot
    · refine List.mem_append_right _ ?_
      rw [top, List.flatMap_cons]
      exact List.mem_append_right _ inFrames
  refine edged_append around other ?_
  intro part member
  rcases List.mem_append.1 (parts.mem_iff.1 member) with new | inside
  · exact known part new
  · exact inBody part inside

theorem edged_markupNode (kind : TagKind) {markup : Markup} (void : Bool) {children : List Node}
    (entries : ∀ entry ∈ markup.attributes, entry.Edged)
    (closes : ∀ name, markup.endTag = some name → Tag.closes name markup.tag = true)
    (rawFirst : Node.RawFirst source (Opened.tag? (.element kind markup)) children) :
    (markupNode kind markup void children).Edged source ∧
      (markupNode kind markup void children).isRawText = false := by
  cases kind with
  | element => exact ⟨⟨entries, closes, rawFirst⟩, rfl⟩
  | slot => exact ⟨⟨entries, rawFirst⟩, rfl⟩
  | component =>
    have none := rawFirst.none_of_noTag
    refine ⟨⟨entries, .of_none ?_, .of_none ?_⟩, rfl⟩
    · exact fun child member => none child (List.mem_filter.1 member).1
    · exact fun child member => none child (List.mem_filter.1 member).1

theorem edged_closeMarkup (edged : builder.stack.Edged source) {kind : TagKind}
    {opening markup : Markup} {start : Location} {body : Body} {outer : List Frame}
    (top : builder.stack.frames = ⟨.element kind opening, start, body⟩ :: outer)
    (sameTag : markup.tag = opening.tag) (sameEntries : markup.attributes = opening.attributes)
    (closes : ∀ name, markup.endTag = some name → Tag.closes name markup.tag = true) :
    ((builder.within outer).stack.append (markupNode kind markup false body.children)).Edged
      source := by
  have frame := edged.frames _ (by rw [top]; exact List.mem_cons_self)
  have tag : Opened.tag? (.element kind markup) = Opened.tag? (.element kind opening) := by
    cases kind <;> simp [Opened.tag?, sameTag]
  have entries : ∀ entry ∈ markup.attributes, entry.Edged := by
    rw [sameEntries]
    exact frame.opened.1
  obtain ⟨known, other⟩ := edged_markupNode kind false entries closes
    (by rw [tag]; exact frame.children)
  have parts : (Node.parts [markupNode kind markup false body.children]).Perm
      ([markupNode kind markup false body.children] ++ Node.parts body.children) :=
    Node.parts_markupNode kind markup false body.children
  exact edged_close edged top parts (List.forall_mem_singleton.2 known) other

theorem edged_closeBlock (edged : builder.stack.Edged source) {opener : Directive} {family : Chars}
    {indentsMiddles : Bool} {start : Location} {body : Body} {outer : List Frame}
    (top : builder.stack.frames = ⟨.block opener family indentsMiddles, start, body⟩ :: outer)
    (closer : Option Directive) (closes : ∀ last, closer = some last → last.Edged) :
    ((builder.within outer).stack.append
      (blockNode ⟨.block opener family indentsMiddles, start, body⟩ opener family indentsMiddles
        closer)).Edged source := by
  have frame := edged.frames _ (by rw [top]; exact List.mem_cons_self)
  refine edged_close edged top (Node.parts_blockNode _ opener family indentsMiddles closer) ?_ rfl
  intro part member
  simp only [List.mem_cons, Option.mem_toList, Option.map_eq_some_iff] at member
  rcases member with rfl | rfl | ⟨last, found, rfl⟩
  · exact frame.children
  · exact frame.opened
  · exact closes last found

theorem edged_abandon (edged : builder.stack.Edged source) (cause : Option Directive) :
    (builder.abandon cause).stack.Edged source := by
  cases frames : builder.stack.frames with
  | nil =>
    rw [abandon_root cause frames]
    exact edged
  | cons frame outer =>
    obtain ⟨opened, start, body⟩ := frame
    cases opened with
    | block opener family indentsMiddles =>
      rw [(abandon_block cause frames).1]
      exact edged_closeBlock edged frames none (by simp)
    | element kind markup =>
      have frame := edged.frames _ (by rw [frames]; exact List.mem_cons_self)
      rw [(abandon_element cause frames).1]
      refine edged_closeMarkup edged frames rfl rfl ?_
      intro name ended
      rw [show markup.endTag = none from frame.opened.2] at ended
      cases ended

theorem edged_abandonMany (edged : builder.stack.Edged source) (cause : Option Directive)
    (count : Nat) : (builder.abandonMany cause count).stack.Edged source := by
  induction count generalizing builder with
  | zero => exact edged
  | succ count ih => exact ih (edged_abandon edged cause)

theorem edged_push (edged : builder.stack.Edged source) {opened : Opened} (start : Location)
    (known : opened.Edged) :
    (builder.within (⟨opened, start, {}⟩ :: builder.stack.frames)).stack.Edged source := by
  refine ⟨edged.root, List.forall_mem_cons.2 ⟨⟨known, .nil source _⟩, edged.frames⟩, ?_⟩
  intro part member
  refine edged.finished part ?_
  simpa [FrameStack.finished, within, Body.children, Node.parts, Node.walkAll] using member

theorem Settles.edged {written directive : Directive}
    (settles : Settles registry builder written directive) (edged : written.Edged) :
    directive.Edged := by
  obtain ⟨_, _, rfl⟩ := settles
  exact edged

/-- Adding an item other than a body that is not read as markup. -/
theorem edged_of_adds {item : Item} {next : Builder} (adds : Adds registry builder item next)
    (unsettled : item.Unsettled) (known : item.Edged) (other : item.rawText? = none)
    (edged : builder.stack.Edged source) : next.stack.Edged source := by
  cases adds with
  | text | echo => exact edged_append_leaf edged rfl rfl trivial
  | comment => exact edged_append_leaf edged rfl rfl known
  | region location kind content =>
    refine edged_append_leaf edged ?_ rfl known
    cases kind with
    | rawText => cases other
    | _ => rfl
  | @single kind markup void _ =>
    obtain ⟨markupKnown, notRaw⟩ := edged_markupNode kind void known (by rw [unsettled.2]; simp)
      (.nil source _)
    refine edged_append edged notRaw ?_
    intro part member
    have found := (Node.parts_markupNode kind markup void []).mem_iff.1 member
    obtain rfl : part = markupNode kind markup void [] := by
      simpa [Node.parts, Node.walkAll] using found
    exact markupKnown
  | startTag => exact edged_push edged _ ⟨known, unsettled.2⟩
  | strayEnd =>
    exact edged_append_leaf (show (report _ _).stack.Edged source from edged) rfl rfl known
  | endTag _ top closes =>
    refine edged_closeMarkup (edged_abandonMany edged none _) top rfl rfl ?_
    rintro name ⟨⟩
    exact closes
  | unregistered => exact edged_append_leaf edged rfl rfl known
  | opener indentsMiddles settles => exact edged_push edged _ (settles.edged known)
  | closer settles _ _ _ top =>
    refine edged_closeBlock (edged_abandonMany edged _ _) top _ ?_
    rintro last ⟨⟩
    exact settles.edged known
  | orphanCloser settles | orphanMiddle settles =>
    exact edged_append_leaf (show (report _ _).stack.Edged source from edged) rfl rfl
      (settles.edged known)
  | middle settles =>
    exact edged_append_leaf (edged_abandonMany edged _ _) rfl rfl (settles.edged known)
  | standalone settles => exact edged_append_leaf edged rfl rfl (settles.edged known)

/-- The innermost frame is an element without content whose body is not read as markup. -/
def Awaits (builder : Builder) (tag : Option Chars) : Prop :=
  ∀ name, tag = some name → Tag.isOneOf Tag.rawTextNames name = true ∧ ∃ markup start outer,
    markup.tag = name ∧ builder.stack.frames = ⟨.element .element markup, start, {}⟩ :: outer

theorem awaits_add (registry : Registry) (builder : Builder) (item : Item) :
    (builder.add registry item).Awaits item.rawTag? := by
  intro name found
  unfold Item.rawTag? at found
  split at found
  · next kind markup =>
    unfold Markup.rawTag? at found
    obtain ⟨waits, same⟩ := Option.ite_none_right_eq_some.1 found
    simp only [Bool.and_eq_true, decide_eq_true_eq, Bool.not_eq_true'] at waits
    obtain ⟨⟨rfl, raw⟩, notSelf⟩ := waits
    cases same
    refine ⟨raw, markup, markup.location, builder.stack.frames, rfl, ?_⟩
    simp [add, addStartTag, notSelf, not_void_of_rawText raw, FrameStack.push]
  · cases found

/-- A body that is not read as markup becomes the first child of its element. -/
theorem edged_rawText (edged : builder.stack.Edged source) {name : Chars}
    (awaits : builder.Awaits (some name)) {location : Location} {n : Nat}
    (ends : location.endOffset = n) (ahead : EndTagAhead source (lower name) n) (content : Chars) :
    (builder.stack.append (.region location .rawText content)).Edged source := by
  obtain ⟨raw, markup, start, outer, rfl, top⟩ := awaits name rfl
  have frames := edged.frames
  rw [top, List.forall_mem_cons] at frames
  have finished : ∀ part ∈ (builder.stack.append (.region location .rawText content)).finished,
      part.Edged source := by
    intro part member
    rcases List.mem_append.1 ((FrameStack.finished_append _ _).mem_iff.1 member) with old | new
    · exact edged.finished part old
    · obtain rfl : part = .region location .rawText content := by
        simpa [Node.parts, Node.walkAll, Node.walk, Node.isText] using new
      trivial
  simp only [FrameStack.append, top] at finished ⊢
  refine ⟨edged.root, List.forall_mem_cons.2 ⟨⟨frames.1.opened, ?_⟩, frames.2⟩, finished⟩
  refine ⟨?_, by simp [Body.append, Body.children]⟩
  rintro child ⟨⟩ _
  exact ⟨markup.tag, n, rfl, raw, ends, ahead⟩

theorem edged_foldl {items : List Item} {tag : Option Chars}
    (unsettled : ∀ item ∈ items, item.Unsettled) (sequence : Item.Sequence source tag items)
    (awaits : builder.Awaits tag) (edged : builder.stack.Edged source) :
    (items.foldl (add registry) builder).stack.Edged source := by
  induction items generalizing builder tag with
  | nil => exact edged
  | cons item rest ih =>
    obtain ⟨known, behind, later⟩ := sequence
    rw [List.forall_mem_cons] at unsettled
    refine ih unsettled.2 later (awaits_add registry builder item) ?_
    cases found : item.rawText? with
    | none =>
      exact edged_of_adds (adds_add registry builder item) unsettled.1 known found edged
    | some location =>
      obtain ⟨name, n, rfl, ends, ahead⟩ := behind location found
      unfold Item.rawText? at found
      split at found
      · cases found
        exact edged_rawText edged awaits ends ahead _
      · cases found

/-- Matching a sequence of items gives nodes with the edges of their kinds. -/
theorem edged_build (registry : Registry) {items : List Item}
    (unsettled : ∀ item ∈ items, item.Unsettled) (sequence : Item.Sequence source none items) :
    (build registry items).stack.Edged source := by
  have start : ({} : Builder).stack.Edged source := by
    refine ⟨.nil source none, by simp, ?_⟩
    simp [FrameStack.finished, Body.children, Node.parts, Node.walkAll]
  exact edged_abandonMany (edged_foldl unsettled sequence (by simp [Awaits]) start) none _

end Builder

/-- In the tree of a template every node has the edges of its kind. -/
theorem edged_of_parse {dialect : Dialect} {file : Option String} {source : Chars}
    {document : Document} (parsed : (parse dialect file source).outcome = .ok document) :
    Node.RawFirst source none document.children ∧
      ∀ node ∈ Node.walkAll document.children, node.Edged source := by
  unfold parse at parsed
  simp only at parsed
  split at parsed
  · cases parsed
  · next read =>
    cases parsed
    have edged := Builder.edged_build dialect.registry
      (Item.unsettled_of_mem ⟨dialect.registry, file, source⟩ _)
      (sequence_scan dialect file source read)
    refine ⟨edged.root, ?_⟩
    intro node member
    by_cases text : node.isText = true
    · cases node with
      | text => trivial
      | _ => cases text
    · refine edged.finished node (List.mem_append_left _ (Node.mem_parts.2 ⟨member, ?_⟩))
      simpa using text

end BladeTemplate
