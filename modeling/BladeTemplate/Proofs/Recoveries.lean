import BladeTemplate.Proofs.Fallback
import BladeTemplate.Proofs.Matching
import BladeTemplate.Proofs.Notes
import BladeTemplate.Proofs.Slices

/-!
# Diagnostics are recoveries

Every diagnostic of a template goes with one place of its tree where something was recovered, and
every such place has its diagnostic.

* `Node.recoveries` is what is to be said about a node itself;
* `Builder.Accounted` is the invariant of matching: what was reported so far, and what the items so
  far call for, is what is to be said about the finished nodes and the open start tags;
* `diagnostics_are_recoveries` is the result for whole trees.
-/

namespace BladeTemplate

open Text

/-! ## What is to be said about a tree -/

/-- What is to be said about the entries of a start tag. -/
def Markup.ambiguities (markup : Markup) : List Notice :=
  markup.attributes.flatMap fun entry =>
    if entry.ambiguous then [.placed entry.location .info .ambiguousAttribute] else []

/-- What is to be said about markup: that it was never closed, and about its entries. -/
def Markup.recoveries (markup : Markup) : List Notice :=
  (if markup.closed then [] else [.placed markup.location .info .unclosedElement]) ++
    markup.ambiguities

/-- What is to be said about a directive: that it has no block, and that it is not registered. -/
def Directive.recoveries (reportUnknown : Bool) (directive : Directive) : List Notice :=
  (if directive.orphan then [.placed directive.location .warning .unmatchedDirective] else []) ++
    if !directive.registered && reportUnknown then
      [.placed directive.location .info .unknownDirective]
    else []

/-- What is to be said about a node itself, not about what is below it. -/
def Node.recoveries (reportUnknown : Bool) : Node → List Notice
  | .directive found => found.recoveries reportUnknown
  | .block _ opener _ _ closer _ =>
    if closer.isNone then [.placed opener.location .warning .unmatchedDirective] else []
  | .element markup _ _ | .component markup _ _ | .slot _ markup _ => markup.recoveries
  | .endTag location _ _ => [.placed location .warning .strayEndTag]
  | _ => []

/-- What is to be said about a start tag whose element is still open. -/
def Opened.recoveries : Opened → List Notice
  | .block _ _ _ => []
  | .element _ markup => markup.ambiguities

theorem Node.recoveries_markupNode (reportUnknown : Bool) (kind : TagKind) (markup : Markup)
    (void : Bool) (children : List Node) :
    (Builder.markupNode kind markup void children).recoveries reportUnknown =
      markup.recoveries := by
  cases kind <;> rfl

/-- Nothing is to be said about a directive that plays a part in a block. -/
theorem Directive.recoveries_of_settled {directive : Directive} (reportUnknown : Bool)
    (registered : directive.registered = true) (inBlock : directive.orphan = false) :
    directive.recoveries reportUnknown = [] := by
  simp [recoveries, registered, inBlock]

/-! ## Matching -/

namespace Builder

/-- How often a notice was given, or is called for by the items so far, is how often it is to be
said about the finished nodes and the open start tags. -/
def Accounted (reportUnknown : Bool) (notice : Notice) (called : List Notice) (builder : Builder) :
    Prop :=
  (builder.diagnostics.map Diagnostic.notice).count notice + called.count notice =
    (builder.stack.finished.flatMap (Node.recoveries reportUnknown)).count notice +
      (builder.stack.openings.flatMap Opened.recoveries).count notice

variable {dialect : Dialect} {reportUnknown : Bool} {notice : Notice} {called : List Notice}
  {builder : Builder}

theorem count_recoveries {nodes others : List Node} (perm : nodes.Perm others) :
    (nodes.flatMap (Node.recoveries reportUnknown)).count notice =
      (others.flatMap (Node.recoveries reportUnknown)).count notice :=
  (perm.flatMap_right _).count_eq notice

/-- A node is added: what is to be said about its parts has been reported or is called for. -/
theorem accounted_append {node : Node} {more : List Notice} (added : List Diagnostic)
    (accounted : builder.Accounted reportUnknown notice called)
    (said : (added.map Diagnostic.notice).count notice + more.count notice =
      ((Node.parts [node]).flatMap (Node.recoveries reportUnknown)).count notice)
    {next : Builder} (stack : next.stack = builder.stack.append node)
    (diagnostics : next.diagnostics = builder.diagnostics ++ added) :
    next.Accounted reportUnknown notice (called ++ more) := by
  unfold Accounted at accounted ⊢
  rw [stack, diagnostics, FrameStack.openings_append,
    count_recoveries (builder.stack.finished_append node)]
  simp only [List.map_append, List.count_append, List.flatMap_append]
  omega

/-- The innermost frame ends: what is to be said about the new nodes beyond its start tag has been
reported. -/
theorem accounted_close {frame : Frame} {outer : List Frame}
    (accounted : builder.Accounted reportUnknown notice called)
    (top : builder.stack.frames = frame :: outer) {node : Node} (news : List Node)
    (parts : (Node.parts [node]).Perm (news ++ Node.parts frame.body.children))
    (added : List Diagnostic)
    (said : (added.map Diagnostic.notice).count notice + frame.opened.recoveries.count notice =
      (news.flatMap (Node.recoveries reportUnknown)).count notice)
    {next : Builder} (stack : next.stack = (builder.within outer).stack.append node)
    (diagnostics : next.diagnostics = builder.diagnostics ++ added) :
    next.Accounted reportUnknown notice called := by
  have openings : builder.stack.openings =
      frame.opened :: (builder.within outer).stack.openings := by
    simp [FrameStack.openings, within, top]
  unfold Accounted at accounted ⊢
  rw [openings] at accounted
  rw [stack, diagnostics, FrameStack.openings_append, count_recoveries (finished_close top parts)]
  simp only [List.map_append, List.count_append, List.flatMap_append, List.flatMap_cons]
    at accounted ⊢
  omega

/-- A frame is opened by a start tag or an opener. -/
theorem accounted_push (accounted : builder.Accounted reportUnknown notice called)
    (opened : Opened) (start : Location) :
    (builder.within (⟨opened, start, {}⟩ :: builder.stack.frames)).Accounted reportUnknown notice
      (called ++ opened.recoveries) := by
  have finished : (builder.within (⟨opened, start, {}⟩ :: builder.stack.frames)).stack.finished =
      builder.stack.finished := by
    simp [FrameStack.finished, within, Body.children, Node.parts, Node.walkAll]
  unfold Accounted at accounted ⊢
  rw [finished]
  simp only [FrameStack.openings, within, List.map_cons, List.flatMap_cons, List.count_append]
    at accounted ⊢
  omega

/-- What is given up is reported. -/
theorem accounted_abandon (sound : builder.stack.Sound)
    (accounted : builder.Accounted reportUnknown notice called) (cause : Option Directive) :
    (builder.abandon cause).Accounted reportUnknown notice called := by
  cases frames : builder.stack.frames with
  | nil =>
    rw [abandon_root cause frames]
    exact accounted
  | cons frame outer =>
    obtain ⟨opened, start, body⟩ := frame
    cases opened with
    | block opener family indentsMiddles =>
      obtain ⟨_, _, _, registered, inBlock⟩ := (sound_pop sound frames).1
      obtain ⟨stack, diagnostics⟩ := abandon_block cause frames
      refine accounted_close accounted frames _ (Node.parts_blockNode _ opener family _ none) _ ?_
        stack diagnostics
      have quiet := Directive.recoveries_of_settled reportUnknown registered inBlock
      simp [Node.recoveries, blockNode, quiet, Opened.recoveries, Diagnostic.notice, Notice.placed,
        Diagnostic.warning, Diagnostic.placed]
    | element kind markup =>
      obtain ⟨stack, diagnostics⟩ := abandon_element cause frames
      have parts := Node.parts_markupNode kind
        { markup with
          location := Frame.span ⟨.element kind markup, start, body⟩, closed := false } false
        body.children
      refine accounted_close accounted frames [_] parts _ ?_ stack diagnostics
      rw [List.flatMap_singleton, Node.recoveries_markupNode, Markup.recoveries, List.count_append]
      rfl

theorem accounted_abandonMany (sound : builder.stack.Sound)
    (accounted : builder.Accounted reportUnknown notice called) (cause : Option Directive)
    (count : Nat) : (builder.abandonMany cause count).Accounted reportUnknown notice called := by
  induction count generalizing builder with
  | zero => exact accounted
  | succ count ih =>
    exact ih (sound_abandonMany sound cause 1) (accounted_abandon sound accounted cause)

/-- What an item calls for. -/
def callsFor (dialect : Dialect) (item : Item) : List Notice :=
  item.notes.flatMap (Note.report dialect)

theorem callsFor_startTag (dialect : Dialect) (kind : TagKind) (markup : Markup) :
    callsFor dialect (.startTag kind markup) = markup.ambiguities := by
  unfold callsFor Item.notes Markup.ambiguities
  simp only [List.flatMap_assoc]
  congr 1
  funext entry
  unfold Attribute.notes
  split <;> rfl

theorem callsFor_directive {written : Directive}
    (known : dialect.registry.lookup written.writtenName ≠ none) :
    callsFor dialect (.directive written) = [] := by
  have has : dialect.registry.has written.writtenName = true :=
    Option.isSome_iff_ne_none.2 known
  simp [callsFor, Item.notes, Note.report, has]

/-- Adding an item keeps account of what it calls for. -/
theorem accounted_of_adds {item : Item} {next : Builder}
    (adds : Adds dialect.registry builder item next) (unsettled : item.Unsettled)
    (sound : builder.stack.Sound)
    (accounted : builder.Accounted dialect.reportUnknown notice called) :
    next.Accounted dialect.reportUnknown notice (called ++ callsFor dialect item) := by
  have givenUp (cause : Option Directive) (count : Nat) :=
    accounted_abandonMany sound accounted cause count
  cases adds with
  | text | echo | comment | region =>
    exact accounted_append [] accounted rfl rfl (by simp [append])
  | @single kind markup void alone =>
    refine accounted_append [] accounted ?_ rfl (by simp [append])
    rw [count_recoveries (Node.parts_markupNode kind markup void []), callsFor_startTag,
      List.flatMap_cons, Node.recoveries_markupNode]
    simp [Markup.recoveries, show markup.closed = true from unsettled.1, Node.parts, Node.walkAll]
  | @startTag kind markup =>
    rw [callsFor_startTag]
    exact accounted_push accounted _ _
  | strayEnd message none =>
    refine accounted_append [_] accounted ?_ rfl rfl
    rfl
  | @endTag location content above kind markup start body outer _ top =>
    obtain ⟨closed, _⟩ := (sound_pop (sound_abandonMany sound none above) top).1
    have parts := Node.parts_markupNode kind
      { markup with location := start.spanTo location, endTag := some (Tag.endTagName content) }
      false body.children
    show Accounted _ _ (called ++ []) _
    rw [List.append_nil]
    refine accounted_close (givenUp none above) top [_] parts [] ?_ rfl (by simp [append, within])
    rw [List.flatMap_singleton, Node.recoveries_markupNode]
    simp [Markup.recoveries, show markup.closed = true from closed, Opened.recoveries,
      Markup.ambiguities]
  | @unregistered written none =>
    refine accounted_append [] accounted ?_ rfl (by simp [append])
    have unknown : dialect.registry.has written.writtenName = false := by
      simp [Registry.has, none]
    simp only [callsFor, Item.notes, List.flatMap_singleton, Note.report, unknown]
    simp [Node.parts, Node.walkAll, Node.walk, Node.isText, Node.recoveries, Directive.recoveries,
      unsettled.orphan, unsettled.registered, Notice.placed]
  | opener indentsMiddles settles =>
    rw [callsFor_directive settles.known]
    exact accounted_push accounted _ _
  | @closer written directive family above opener indentsMiddles start body outer settles _ _ _
      top =>
    obtain ⟨_, _, _, registered, inBlock⟩ := (sound_pop (sound_abandonMany sound _ above) top).1
    rw [callsFor_directive settles.known, List.append_nil]
    refine accounted_close (givenUp (some directive) above) top _
      (Node.parts_blockNode _ opener family _ _) [] ?_ rfl (by simp [append, within])
    have first := Directive.recoveries_of_settled dialect.reportUnknown registered inBlock
    have last := Directive.recoveries_of_settled dialect.reportUnknown settles.registered
      (settles.orphan.trans unsettled.orphan)
    simp [Node.recoveries, blockNode, first, last, Opened.recoveries]
  | orphanCloser settles | orphanMiddle settles =>
    rw [callsFor_directive settles.known]
    refine accounted_append [_] accounted ?_ rfl rfl
    simp [Node.parts, Node.walkAll, Node.walk, Node.isText, Node.recoveries, Directive.recoveries,
      settles.registered, Diagnostic.notice, Notice.placed, Diagnostic.warning, Diagnostic.placed]
  | middle settles =>
    rw [callsFor_directive settles.known]
    refine accounted_append [] (givenUp _ _) ?_ rfl (by simp [append])
    have quiet := Directive.recoveries_of_settled dialect.reportUnknown settles.registered
      (settles.orphan.trans unsettled.orphan)
    simp [Node.parts, Node.walkAll, Node.walk, Node.isText, Node.recoveries, quiet]
  | standalone settles =>
    rw [callsFor_directive settles.known]
    refine accounted_append [] accounted ?_ rfl (by simp [append])
    have quiet := Directive.recoveries_of_settled dialect.reportUnknown settles.registered
      (settles.orphan.trans unsettled.orphan)
    simp [Node.parts, Node.walkAll, Node.walk, Node.isText, Node.recoveries, quiet]

theorem accounted_foldl {items : List Item} (unsettled : ∀ item ∈ items, item.Unsettled)
    (sound : builder.stack.Sound)
    (accounted : builder.Accounted dialect.reportUnknown notice called) :
    (items.foldl (add dialect.registry) builder).stack.Sound ∧
      (items.foldl (add dialect.registry) builder).Accounted dialect.reportUnknown notice
        (called ++ items.flatMap (callsFor dialect)) := by
  induction items generalizing builder called with
  | nil =>
    rw [List.flatMap_nil, List.append_nil]
    exact ⟨sound, accounted⟩
  | cons item rest ih =>
    rw [List.forall_mem_cons] at unsettled
    have adds := adds_add dialect.registry builder item
    rw [List.flatMap_cons, ← List.append_assoc]
    exact ih unsettled.2 (sound_of_adds adds unsettled.1 sound)
      (accounted_of_adds adds unsettled.1 sound accounted)

/-- What was reported while matching the items of a template, and what they call for, is what is to
be said about its nodes. -/
theorem perm_build {items : List Item} (unsettled : ∀ item ∈ items, item.Unsettled) :
    ((build dialect.registry items).diagnostics.map Diagnostic.notice ++
        items.flatMap (callsFor dialect)).Perm
      ((Node.parts (build dialect.registry items).stack.root.children).flatMap
        (Node.recoveries dialect.reportUnknown)) := by
  refine List.perm_iff_count.2 fun notice => ?_
  have nothing : ({} : Builder).Accounted dialect.reportUnknown notice [] := rfl
  have noFrames : ({} : Builder).stack.Sound := by
    intro opened member
    cases member
  obtain ⟨sound, before⟩ := accounted_foldl unsettled noFrames nothing
  have after := accounted_abandonMany sound before none
    (items.foldl (add dialect.registry) {}).stack.frames.length
  have empty : (build dialect.registry items).stack.frames = [] := frames_build _ _
  change (build dialect.registry items).Accounted _ _ _ at after
  unfold Accounted FrameStack.finished FrameStack.openings at after
  simpa [empty] using after

end Builder

/-! ## Whole trees -/

/-- The diagnostics of a template that can be read are the recoveries in its tree. -/
theorem perm_recoveries {dialect : Dialect} {file : Option String} {source : Chars}
    {document : Document} (parsed : (parse dialect file source).outcome = .ok document) :
    (document.diagnostics.map Diagnostic.notice).Perm
      (document.toNode.walk.flatMap (Node.recoveries dialect.reportUnknown)) := by
  unfold parse at parsed
  simp only at parsed
  split at parsed
  · cases parsed
  · next read =>
    cases parsed
    have built := @Builder.perm_build dialect _
      (Item.unsettled_of_mem ⟨dialect.registry, file, source⟩ (scan dialect source).tokens)
    have calls : (Item.ofTokens ⟨dialect.registry, file, source⟩
        (scan dialect source).tokens).flatMap (Builder.callsFor dialect) =
          (scan dialect source).diagnostics.map Diagnostic.notice := by
      rw [notices_scan dialect source read, ← notes_ofTokens dialect file source read,
        List.flatMap_assoc]
      rfl
    rw [calls, ← List.map_append, Node.flatMap_parts fun _ _ => rfl] at built
    exact ((List.mergeSort_perm _ _).map _).trans built

/-- The diagnostics of every template that can be read are exactly the recoveries in its tree, in
the order of their positions. -/
theorem diagnostics_are_recoveries (dialect : Dialect) (file : Option String) (source : Chars)
    (read : (scan dialect source).fault = none) :
    ∃ document, (parse dialect file source).outcome = .ok document ∧
      (document.diagnostics.map Diagnostic.notice).Perm
        (document.toNode.walk.flatMap (Node.recoveries dialect.reportUnknown)) ∧
      document.diagnostics.Pairwise (fun a b =>
        a.line < b.line ∨ (a.line = b.line ∧ a.column ≤ b.column)) := by
  obtain ⟨document, parsed⟩ := parse_of_read file read
  have sorted := pairwise_parse parsed
  exact ⟨document, parsed, perm_recoveries parsed, sorted.imp (by simp [Diagnostic.notAfter])⟩

/-- An attribute that could be a directive, an unknown directive, a stray end tag, and a block and
an element that are never closed. -/
theorem diagnostics_are_recoveries_of_each_kind :
    let dialect := Config.dialect { reportUnknownDirectives := true }
    let source := "@if($a)<div @else>@unheard</p>".toList
    (scan dialect source).fault = none ∧
    ∃ document, (parse dialect none source).outcome = .ok document ∧
      (document.diagnostics.map Diagnostic.notice).Perm
        (document.toNode.walk.flatMap (Node.recoveries dialect.reportUnknown)) ∧
      document.diagnostics.Pairwise (fun a b =>
        a.line < b.line ∨ (a.line = b.line ∧ a.column ≤ b.column)) := by
  intro dialect source
  have read : (scan dialect source).fault = none := by decide +kernel
  exact ⟨read, diagnostics_are_recoveries dialect none source read⟩

end BladeTemplate
