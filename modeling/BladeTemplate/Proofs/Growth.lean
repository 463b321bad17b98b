import BladeTemplate.Proofs.Counted

/-!
# How a tree grows

Matching takes nothing back: nodes that are finished stay in the tree, and reports stay reported.
What is reported about the ends of elements stands where an item does, and so does every frame that
is open.

* `Builder.Grows` says this of two trees under construction, with the places of the items between
  them;
* `Builder.grows_of_adds` is the step, and `Builder.grows_foldl` what follows for several items.
-/

namespace BladeTemplate

/-- Whether a diagnostic is about the end of an element: one that is missing, or one too many. -/
def Diagnostic.isAboutEnds (diagnostic : Diagnostic) : Bool :=
  diagnostic.code = .unclosedElement || diagnostic.code = .strayEndTag

/-- The diagnostic stands where the location starts. -/
def Diagnostic.StandsAt (diagnostic : Diagnostic) (place : Location) : Prop :=
  diagnostic.line = place.line ∧ diagnostic.column = place.column

namespace FrameStack

/-- Where the open frames start, innermost first. -/
def starts (stack : FrameStack) : List Location :=
  stack.frames.map (·.start)

theorem starts_append (stack : FrameStack) (node : Node) :
    (stack.append node).starts = stack.starts := by
  unfold append starts
  split
  · rfl
  · next frame outer top => simp [top]

end FrameStack

namespace Builder

/-- From one tree under construction to another, with items at the given places added in between. -/
structure Grows (places : List Location) (builder next : Builder) : Prop where
  finished : ∀ node ∈ builder.stack.finished, node ∈ next.stack.finished
  starts : ∀ start ∈ next.stack.starts, start ∈ builder.stack.starts ++ places
  diagnostics : ∃ more, next.diagnostics = builder.diagnostics ++ more ∧
    ∀ diagnostic ∈ more, diagnostic.isAboutEnds = true →
      ∃ place ∈ builder.stack.starts ++ places, diagnostic.StandsAt place

variable {registry : Registry} {builder next last : Builder} {places later : List Location}

theorem Grows.refl (places : List Location) (builder : Builder) : Grows places builder builder :=
  ⟨fun _ member => member, fun _ member => List.mem_append_left _ member, [], by simp, by simp⟩

theorem Grows.trans (first : Grows places builder next) (second : Grows later next last) :
    Grows (places ++ later) builder last := by
  have from_ {place : Location} (member : place ∈ next.stack.starts ++ later) :
      place ∈ builder.stack.starts ++ (places ++ later) := by
    rw [← List.append_assoc]
    rcases List.mem_append.1 member with old | new
    · exact List.mem_append_left _ (first.starts place old)
    · exact List.mem_append_right _ new
  obtain ⟨more, reported, about⟩ := first.diagnostics
  obtain ⟨others, reportedLater, aboutLater⟩ := second.diagnostics
  refine ⟨fun node member => second.finished node (first.finished node member),
    fun start member => from_ (second.starts start member), more ++ others, ?_, ?_⟩
  · rw [reportedLater, reported, List.append_assoc]
  · intro diagnostic member ends
    rcases List.mem_append.1 member with old | new
    · obtain ⟨place, inside, stands⟩ := about diagnostic old ends
      refine ⟨place, ?_, stands⟩
      rw [← List.append_assoc]
      exact List.mem_append_left _ inside
    · obtain ⟨place, inside, stands⟩ := aboutLater diagnostic new ends
      exact ⟨place, from_ inside, stands⟩

/-- A node is added. -/
theorem grows_append {node : Node} (added : List Diagnostic)
    (about : ∀ diagnostic ∈ added, diagnostic.isAboutEnds = true →
      ∃ place ∈ builder.stack.starts ++ places, diagnostic.StandsAt place)
    (stack : next.stack = builder.stack.append node)
    (diagnostics : next.diagnostics = builder.diagnostics ++ added) :
    Grows places builder next := by
  refine ⟨?_, ?_, added, diagnostics, about⟩
  · intro old member
    rw [stack]
    exact (FrameStack.finished_append _ _).mem_iff.2 (List.mem_append_left _ member)
  · rw [stack, FrameStack.starts_append]
    exact fun start member => List.mem_append_left _ member

/-- The innermost frame ends. -/
theorem grows_close {frame : Frame} {outer : List Frame}
    (top : builder.stack.frames = frame :: outer) {node : Node} (news : List Node)
    (parts : (Node.parts [node]).Perm (news ++ Node.parts frame.body.children))
    (added : List Diagnostic)
    (about : ∀ diagnostic ∈ added, diagnostic.isAboutEnds = true →
      ∃ place ∈ builder.stack.starts ++ places, diagnostic.StandsAt place)
    (stack : next.stack = (builder.within outer).stack.append node)
    (diagnostics : next.diagnostics = builder.diagnostics ++ added) :
    Grows places builder next := by
  refine ⟨?_, ?_, added, diagnostics, about⟩
  · intro old member
    rw [stack]
    exact (finished_close top parts).mem_iff.2 (List.mem_append_left _ member)
  · rw [stack, FrameStack.starts_append]
    intro start member
    refine List.mem_append_left _ ?_
    rw [FrameStack.starts, top]
    exact List.mem_cons_of_mem _ member

/-- A frame is opened where an item stands. -/
theorem grows_push (builder : Builder) (opened : Opened) (start : Location) :
    Grows [start] builder
      (builder.within (⟨opened, start, {}⟩ :: builder.stack.frames)) := by
  refine ⟨?_, ?_, [], by simp [within], by simp⟩
  · intro node member
    simpa [FrameStack.finished, within, Body.children, Node.parts, Node.walkAll] using member
  · intro place member
    rcases List.mem_cons.1 member with rfl | old
    · exact List.mem_append_right _ (List.mem_singleton_self _)
    · exact List.mem_append_left _ old

theorem grows_abandon (builder : Builder) (cause : Option Directive) :
    Grows [] builder (builder.abandon cause) := by
  cases frames : builder.stack.frames with
  | nil =>
    rw [abandon_root cause frames]
    exact .refl [] builder
  | cons frame outer =>
    obtain ⟨opened, start, body⟩ := frame
    cases opened with
    | block opener family indentsMiddles =>
      obtain ⟨stack, diagnostics⟩ := abandon_block cause frames
      refine grows_close frames _ (Node.parts_blockNode _ opener family _ none) _ ?_ stack
        diagnostics
      refine List.forall_mem_singleton.2 ?_
      intro ends
      cases ends
    | element kind markup =>
      obtain ⟨stack, diagnostics⟩ := abandon_element cause frames
      refine grows_close frames [_] (Node.parts_markupNode kind _ false body.children) _ ?_ stack
        diagnostics
      refine List.forall_mem_singleton.2 ?_
      intro _
      refine ⟨start, ?_, rfl, rfl⟩
      rw [FrameStack.starts, frames]
      simp

theorem grows_abandonMany (builder : Builder) (cause : Option Directive) (count : Nat) :
    Grows [] builder (builder.abandonMany cause count) := by
  induction count generalizing builder with
  | zero => exact .refl [] builder
  | succ count ih => exact (grows_abandon builder cause).trans (ih _)

/-- Adding an item. -/
theorem grows_of_adds {item : Item} (adds : Adds registry builder item next) :
    Grows [item.location] builder next := by
  have givenUp (cause : Option Directive) (count : Nat) := grows_abandonMany builder cause count
  cases adds with
  | text | echo | comment | region | single | unregistered | standalone =>
    exact grows_append [] (by simp) rfl (by simp [append])
  | startTag => exact grows_push builder _ _
  | @opener written directive family _ settles =>
    show Grows [written.location] _ _
    rw [← settles.location]
    exact grows_push builder _ _
  | @strayEnd location content message none =>
    refine grows_append [.warning location .strayEndTag message] ?_ rfl rfl
    refine List.forall_mem_singleton.2 fun _ => ⟨location, ?_, rfl, rfl⟩
    exact List.mem_append_right _ (List.mem_singleton_self _)
  | orphanCloser | orphanMiddle =>
    refine grows_append [_] ?_ rfl rfl
    refine List.forall_mem_singleton.2 ?_
    intro ends
    cases ends
  | @endTag location content above kind markup start body outer _ top =>
    refine (givenUp none above).trans ?_
    exact grows_close top [_] (Node.parts_markupNode kind _ false body.children) [] (by simp) rfl
      (by simp [append, within])
  | @closer written directive family above opener indentsMiddles start body outer _ _ _ _ top =>
    refine (givenUp (some directive) above).trans ?_
    exact grows_close top _ (Node.parts_blockNode _ opener family _ _) [] (by simp) rfl
      (by simp [append, within])
  | @middle written directive family above =>
    refine (givenUp (some directive) above).trans ?_
    exact grows_append [] (by simp) rfl (by simp [append])

/-- Adding several items. -/
theorem grows_foldl (registry : Registry) (items : List Item) (builder : Builder) :
    Grows (items.map Item.location) builder (items.foldl (add registry) builder) := by
  induction items generalizing builder with
  | nil => exact .refl [] builder
  | cons item rest ih => exact (grows_of_adds (adds_add registry builder item)).trans (ih _)

/-- Adding several items, and giving up what is still open. -/
theorem grows_finish (registry : Registry) (items : List Item) (builder : Builder) :
    Grows (items.map Item.location) builder (items.foldl (add registry) builder).finish := by
  have grows := (grows_foldl registry items builder).trans
    (grows_abandonMany (items.foldl (add registry) builder) none
      (items.foldl (add registry) builder).stack.frames.length)
  rwa [List.append_nil] at grows

end Builder

end BladeTemplate
