import BladeTemplate.Proofs.Occurrences
import BladeTemplate.Proofs.Positions
import Mathlib.Data.List.TakeWhile

/-!
# Matching simulates the machine on families

Matching keeps blocks and elements on one stack, but a closer, a middle or an end tag gives up only
what the machine on families gives up, and elements leave no trace in what the directives come to.

* `Builder.Simulates` ties a tree under construction to the machine;
* `Builder.simulates_of_adds` is the step, one case for each way of adding an item;
* `Builder.gains_build` is what follows for all items of a template.
-/

namespace BladeTemplate

open Text PairingMachine

/-! ## The blocks in sight -/

namespace Builder

variable {builder next : Builder}

theorem openFamily_eq (builder : Builder) :
    builder.stack.openFamily = builder.stack.blocks.head?.map (·.family) := by
  unfold FrameStack.openFamily FrameStack.blocks FrameStack.openings
  induction builder.stack.frames with
  | nil => rfl
  | cons frame outer ih =>
    cases opened : frame.opened with
    | block opener family indentsMiddles =>
      simp [Frame.isBlock, Frame.family?, opened, Opened.block?]
    | element kind markup =>
      rw [List.find?_cons_of_neg (by simp [Frame.isBlock, Frame.family?, opened]), List.map_cons,
        opened, List.filterMap_cons_none rfl]
      exact ih

/-- The search for the block of a family passes over elements and over blocks of other families. -/
theorem blocks_of_findBlock {family : Chars} {above : Nat}
    (found : builder.stack.findBlock family = some above) :
    builder.stack.blocks.takeWhile (·.family ≠ family) =
        (builder.stack.openings.take above).filterMap Opened.block? ∧
      builder.stack.blocks.dropWhile (·.family ≠ family) =
        (builder.stack.openings.drop above).filterMap Opened.block? := by
  unfold FrameStack.findBlock at found
  unfold FrameStack.blocks FrameStack.openings
  generalize builder.stack.frames = frames at found
  induction frames generalizing above with
  | nil => cases found
  | cons frame outer ih =>
    rw [List.findIdx?_cons] at found
    by_cases here : frame.family? = some family
    · simp only [here, decide_true, if_true, Option.some.injEq] at found
      subst found
      cases opened : frame.opened with
      | block opener other indentsMiddles =>
        obtain rfl : other = family := by simpa [Frame.family?, opened] using here
        simp [opened, Opened.block?]
      | element kind markup => simp [Frame.family?, opened] at here
    · simp only [here, decide_false, Bool.false_eq_true, if_false] at found
      obtain ⟨rest, later, rfl⟩ := Option.map_eq_some_iff.1 found
      obtain ⟨taken, dropped⟩ := ih later
      cases opened : frame.opened with
      | block opener other indentsMiddles =>
        have differs : other ≠ family := by simpa [Frame.family?, opened] using here
        simp only [List.map_cons, opened, List.filterMap_cons, Opened.block?, List.take_succ_cons,
          List.drop_succ_cons]
        rw [List.takeWhile_cons_of_pos (by simpa using differs),
          List.dropWhile_cons_of_pos (by simpa using differs), taken, dropped]
        exact ⟨rfl, rfl⟩
      | element kind markup =>
        simp only [List.map_cons, opened, List.filterMap_cons, Opened.block?, List.take_succ_cons,
          List.drop_succ_cons]
        exact ⟨taken, dropped⟩

theorem blocks_of_findBlock_none {family : Chars}
    (none : builder.stack.findBlock family = none) :
    builder.stack.blocks.dropWhile (·.family ≠ family) = [] := by
  rw [List.dropWhile_eq_nil_iff]
  intro block member
  unfold FrameStack.blocks FrameStack.openings at member
  obtain ⟨opened, inside, isBlock⟩ := List.mem_filterMap.1 member
  obtain ⟨frame, inFrames, rfl⟩ := List.mem_map.1 inside
  have differs := List.findIdx?_eq_none_iff.1 none frame inFrames
  cases opened : frame.opened with
  | block opener other indentsMiddles =>
    rw [opened] at isBlock
    cases isBlock
    simpa [Frame.family?, opened] using differs
  | element kind markup =>
    rw [opened] at isBlock
    cases isBlock

end Builder

/-! ## Simulation -/

/-- A directive as it is called. -/
def Directive.call (directive : Directive) : Call :=
  ⟨directive.writtenName, directive.arguments.getD []⟩

/-- The call of an item that is a directive, with where it stands. -/
def Item.call? (item : Item) : Option (Location × Call) :=
  item.directive?.map fun read => (read.location, read.call)

namespace Builder

variable {registry : Registry} {builder next : Builder} {machine : PairingMachine Location}
  {written directive : Directive}

theorem Settles.writtenName (settles : Settles registry builder written directive) :
    directive.writtenName = written.writtenName := by
  obtain ⟨_, _, rfl⟩ := settles
  rfl

/-- The machine gives a directive the role that matching gives it. An argument list without
arguments counts like none. -/
theorem role_of_settles (settles : Settles registry builder written directive)
    (inBlock : written.orphan = false) :
    role registry builder.stack.openFamily written.call = directive.occurrence none false := by
  obtain ⟨descriptor, found, rfl⟩ := settles
  have count : countArguments (some ('(' :: written.arguments.getD [] ++ [')'])) =
      countArguments (written.arguments.map fun text => '(' :: text ++ [')']) := by
    cases written.arguments <;> rfl
  unfold role
  rw [show written.call.name = written.writtenName from rfl, found]
  simp only [Directive.call, count]
  simp only [Directive.occurrence, settle, inBlock]

theorem role_of_unregistered (none : registry.lookup written.writtenName = none)
    (unsettled : written.Unsettled) (openFamily : Option Chars) :
    role registry openFamily written.call = written.occurrence Option.none false := by
  unfold role
  rw [show written.call.name = written.writtenName from rfl, none]
  simp only [Directive.occurrence, unsettled.pairing, unsettled.family, unsettled.closeKind,
    unsettled.orphan]

/-- The machine has the open blocks of the tree under construction, and has settled the directives
that are settled there. -/
structure Simulates (builder : Builder) (machine : PairingMachine Location) : Prop where
  opened : machine.opened = builder.stack.blocks
  gains : Gains {} builder machine.entries

theorem Simulates.openFamily (simulates : Simulates builder machine) :
    machine.openFamily = builder.stack.openFamily := by
  rw [PairingMachine.openFamily, simulates.opened, openFamily_eq]

/-- What settles directives and leaves the blocks alone. -/
theorem Simulates.record (simulates : Simulates builder machine) {entries : List (Entry Location)}
    (gains : Gains builder next entries) (blocks : next.stack.blocks = builder.stack.blocks) :
    Simulates next { machine with entries := machine.entries ++ entries } :=
  ⟨simulates.opened.trans blocks.symm, simulates.gains.trans gains⟩

theorem Simulates.idle (simulates : Simulates builder machine) (gains : Gains builder next [])
    (blocks : next.stack.blocks = builder.stack.blocks) : Simulates next machine := by
  have recorded := simulates.record gains blocks
  rw [List.append_nil] at recorded
  exact recorded

theorem blocks_append (stack : FrameStack) (node : Node) :
    (stack.append node).blocks = stack.blocks := by
  rw [FrameStack.blocks, FrameStack.openings_append, FrameStack.blocks]

theorem blocks_of_top {opened : Opened} {start : Location} {body : Body} {outer : List Frame}
    (top : builder.stack.frames = ⟨opened, start, body⟩ :: outer) :
    builder.stack.blocks = opened.block?.toList ++ (builder.within outer).stack.blocks := by
  unfold FrameStack.blocks FrameStack.openings within
  rw [top]
  cases opened <;> rfl

theorem blocks_abandonMany_elements (cause : Option Directive) {count : Nat}
    (elements : ∀ frame ∈ builder.stack.frames.take count, frame.isBlock = false) :
    (builder.abandonMany cause count).stack.blocks = builder.stack.blocks := by
  unfold FrameStack.blocks
  rw [openings_abandonMany]
  conv => rhs; rw [← List.take_append_drop count builder.stack.openings, List.filterMap_append]
  rw [no_block_of_elements elements, List.nil_append]

/-- A directive that is added as a node of its own. -/
theorem gains_directive (builder : Builder) (directive : Directive) :
    Gains builder (builder.append (.directive directive))
      [⟨directive.location,
        directive.occurrence (if directive.separates then builder.stack.topHost else none) false,
        none⟩] := by
  refine @gains_append builder _ (.directive directive) [] _ rfl (by simp [append]) ?_ rfl
  exact .refl _

/-- A directive that is kept where it stands, and about which something is said. -/
theorem gains_orphan (builder : Builder) (directive : Directive) (why : String) :
    Gains builder (builder.addOrphan directive why)
      [⟨directive.location, { directive.occurrence none false with orphan := true },
        some (keptAsWritten directive.writtenName why)⟩] := by
  refine @gains_append builder _ (.directive { directive with orphan := true }) [_] _ rfl rfl ?_ ?_
  · have apart : Directive.separates { directive with orphan := true } = false := by
      simp [Directive.separates]
    simp [Node.parts, Node.walkAll, Node.walk, Node.isText, Node.occurrences, Node.standing, apart,
      Directive.occurrence, Entry.fact]
  · rfl

/-- A directive that is one, and the machine. -/
theorem step_of_role {found : Occurrence Location} (simulates : Simulates builder machine)
    (same : role registry builder.stack.openFamily written.call = found) :
    (Item.directive written).call?.toList.foldl (step registry) machine =
      machine.act written.location written.writtenName found := by
  show machine.act written.location written.writtenName _ = _
  rw [simulates.openFamily, same]

/-- A registered directive acts on the machine with the role that matching gives it. -/
theorem step_of_settles (simulates : Simulates builder machine)
    (settles : Settles registry builder written directive) (inBlock : written.orphan = false) :
    (Item.directive written).call?.toList.foldl (step registry) machine =
      machine.act directive.location directive.writtenName (directive.occurrence none false) := by
  rw [step_of_role simulates (role_of_settles settles inBlock), ← settles.location,
    ← settles.writtenName]

/-- A closer closes the block that the machine closes. -/
theorem simulates_closer (sound : builder.stack.Sound) (simulates : Simulates builder machine)
    {family : Chars} {above : Nat} {opener : Directive} {indentsMiddles : Bool} {start : Location}
    {body : Body} {outer : List Frame} (closes : directive.pairing = .closes)
    (named : directive.family = some family) (found : builder.stack.findBlock family = some above)
    (top : (builder.abandonMany (some directive) above).stack.frames =
      ⟨.block opener family indentsMiddles, start, body⟩ :: outer) :
    Simulates
      (((builder.abandonMany (some directive) above).within outer).append
        (blockNode ⟨.block opener family indentsMiddles, start, body⟩ opener family indentsMiddles
          (some directive)))
      (machine.act directive.location directive.writtenName (directive.occurrence none false)) := by
  obtain ⟨taken, dropped⟩ := blocks_of_findBlock found
  have here : (builder.stack.openings.drop above).filterMap Opened.block? =
      ⟨opener.location, opener.writtenName, family⟩ ::
        ((builder.abandonMany (some directive) above).within outer).stack.blocks := by
    rw [← openings_abandonMany builder (some directive) above]
    exact blocks_of_top top
  rw [here] at dropped
  have gains := (gains_abandonMany sound (some directive) above).trans
    (@gains_closeBlock _ (((builder.abandonMany (some directive) above).within outer).append _)
      opener family indentsMiddles start body outer top (some directive)
      [OpenBlock.closed ⟨opener.location, opener.writtenName, family⟩,
        ⟨directive.location, directive.occurrence (some opener.location) false, none⟩]
      (by
        have opening := occurrence_of_sound (sound_pop (sound_abandonMany sound _ above) top).1 false
        simp only [Option.isNone_some, opening]
        rfl)
      [] rfl (by simp [append, within]) rfl)
  rw [← taken, ← simulates.opened] at gains
  rw [← simulates.opened] at dropped
  have acted : machine.act directive.location directive.writtenName
      (directive.occurrence none false) =
      ⟨((builder.abandonMany (some directive) above).within outer).stack.blocks,
        machine.entries ++
          ((machine.opened.takeWhile (·.family ≠ family)).map
              (OpenBlock.unclosed (some directive.writtenName)) ++
            [OpenBlock.closed ⟨opener.location, opener.writtenName, family⟩,
              ⟨directive.location, directive.occurrence (some opener.location) false, none⟩])⟩ := by
    simp only [act, Directive.occurrence, closes, named, dropped, List.append_assoc]
  rw [acted]
  refine ⟨?_, simulates.gains.trans gains⟩
  rw [append, blocks_append]

/-- A middle divides the innermost block of the machine: only elements are given up for it. -/
theorem simulates_middle (sound : builder.stack.Sound) (simulates : Simulates builder machine)
    {family : Chars} {above : Nat} {opener : Directive} {indentsMiddles : Bool} {start : Location}
    {body : Body} {outer : List Frame} (middle : directive.pairing = .middle)
    (named : directive.family = some family) (inBlock : directive.orphan = false)
    (elements : ∀ frame ∈ builder.stack.frames.take above, frame.isBlock = false)
    (top : (builder.abandonMany (some directive) above).stack.frames =
      ⟨.block opener family indentsMiddles, start, body⟩ :: outer) :
    Simulates ((builder.abandonMany (some directive) above).append (.directive directive))
      (machine.act directive.location directive.writtenName (directive.occurrence none false)) := by
  have divides : directive.separates = true := by
    simp [Directive.separates, middle, inBlock]
  have host : (builder.abandonMany (some directive) above).stack.topHost =
      some opener.location := by
    simp [FrameStack.topHost, top, Opened.host]
  have blocks := blocks_abandonMany_elements (some directive) elements
  have innermost : machine.opened.head?.map (·.label) = some opener.location := by
    rw [simulates.opened, ← blocks, blocks_of_top top]
    rfl
  have gains := (gains_abandonMany_elements sound (some directive) elements).trans
    (gains_directive _ directive)
  rw [if_pos divides, host] at gains
  have acted : machine.act directive.location directive.writtenName
      (directive.occurrence none false) =
      machine.record ⟨directive.location, directive.occurrence (some opener.location) false,
        none⟩ := by
    simp only [act, Directive.occurrence, middle, named, innermost]
  rw [acted]
  exact simulates.record gains ((blocks_append _ _).trans blocks)

/-- Adding an item does to the tree what its directive, if it is one, does to the machine. -/
theorem simulates_of_adds {item : Item} (adds : Adds registry builder item next)
    (unsettled : item.Unsettled) (sound : builder.stack.Sound)
    (simulates : Simulates builder machine) :
    Simulates next (item.call?.toList.foldl (step registry) machine) := by
  have leaf {node : Node} {diagnostics : List Diagnostic} {last : Builder}
      (stack : last.stack = builder.stack.append node)
      (reported : last.diagnostics = builder.diagnostics ++ diagnostics)
      (none : (Node.parts [node]).flatMap Node.occurrences ++
        node.standing builder.stack.topHost = [])
      (other : diagnostics.filter (·.code = .unmatchedDirective) = []) :
      Simulates last machine := by
    refine simulates.idle (gains_append stack reported ?_ other) ?_
    · rw [none]
      exact .refl _
    · rw [stack, blocks_append]
  cases adds with
  | text | echo | comment | region => exact leaf rfl (List.append_nil _).symm rfl rfl
  | strayEnd message none => exact leaf rfl rfl rfl rfl
  | @single kind markup void alone =>
    refine leaf rfl (List.append_nil _).symm ?_ rfl
    have parts : ((Node.parts [markupNode kind markup void []]).flatMap Node.occurrences).Perm
        [] := by
      refine ((Node.parts_markupNode kind markup void []).flatMap_right _).trans ?_
      rw [List.flatMap_cons]
      exact (Node.occurrences_markupNode kind markup void []).append_right _
    rw [List.perm_nil.1 parts, Node.standing_markupNode]
    rfl
  | @startTag kind markup => exact simulates.idle (gains_push builder _ _) rfl
  | @endTag location content above kind markup start body outer elements top =>
    refine simulates.idle ((gains_abandonMany_elements sound none elements).trans
      (gains_closeMarkup top _ rfl (List.append_nil _).symm rfl)) ?_
    rw [append, blocks_append, ← blocks_abandonMany_elements none elements, blocks_of_top top]
    rfl
  | @unregistered written none =>
    rw [step_of_role simulates (role_of_unregistered none unsettled _)]
    have apart : written.separates = false := by simp [Directive.separates, unsettled.pairing]
    have gains := gains_directive builder written
    simp only [apart, Bool.false_eq_true, if_false] at gains
    have acted : machine.act written.location written.writtenName
        (written.occurrence Option.none false) =
        machine.record ⟨written.location, written.occurrence Option.none false, Option.none⟩ := by
      simp only [act, Directive.occurrence, unsettled.pairing]
    rw [acted]
    exact simulates.record gains (blocks_append _ _)
  | @opener written directive family indentsMiddles settles opens named =>
    rw [step_of_settles simulates settles unsettled.orphan]
    have acted : machine.act directive.location directive.writtenName
        (directive.occurrence none false) =
        ⟨⟨directive.location, directive.writtenName, family⟩ :: machine.opened,
          machine.entries⟩ := by
      simp only [act, Directive.occurrence, opens, named]
    rw [acted]
    refine ⟨?_, ?_⟩
    · rw [simulates.opened]
      rfl
    · have gains := simulates.gains.trans (gains_push builder
        (.block directive family indentsMiddles) directive.location)
      rw [List.append_nil] at gains
      exact gains
  | @closer written directive family above opener indentsMiddles start body outer settles closes
      named found top =>
    rw [step_of_settles simulates settles unsettled.orphan]
    exact simulates_closer sound simulates closes named found top
  | @orphanCloser written directive family settles closes named none =>
    rw [step_of_settles simulates settles unsettled.orphan]
    have gone := blocks_of_findBlock_none none
    rw [← simulates.opened] at gone
    have acted : machine.act directive.location directive.writtenName
        (directive.occurrence Option.none false) =
        machine.record ⟨directive.location,
          { directive.occurrence Option.none false with orphan := true },
          some (keptAsWritten directive.writtenName
            (let shown := String.ofList family; s!"has no open '{shown}' block"))⟩ := by
      simp only [act, Directive.occurrence, closes, named, gone]
    rw [acted]
    exact simulates.record (gains_orphan builder directive _) (blocks_append _ _)
  | @middle written directive family above opener indentsMiddles start body outer settles middle
      named _ elements top =>
    rw [step_of_settles simulates settles unsettled.orphan]
    exact simulates_middle sound simulates middle named (settles.orphan.trans unsettled.orphan)
      elements top
  | @orphanMiddle written directive settles middle named =>
    rw [step_of_settles simulates settles unsettled.orphan]
    have acted : machine.act directive.location directive.writtenName
        (directive.occurrence none false) =
        machine.record ⟨directive.location,
          { directive.occurrence none false with orphan := true },
          some (keptAsWritten directive.writtenName "outside of a matching block")⟩ := by
      simp only [act, Directive.occurrence, middle, named]
    rw [acted]
    exact simulates.record (gains_orphan builder directive _) (blocks_append _ _)
  | @standalone written directive settles notMiddle alone =>
    rw [step_of_settles simulates settles unsettled.orphan]
    have apart : directive.separates = false := by simp [Directive.separates, notMiddle]
    have gains := gains_directive builder directive
    simp only [apart, Bool.false_eq_true, if_false] at gains
    have acted : machine.act directive.location directive.writtenName
        (directive.occurrence none false) =
        machine.record ⟨directive.location, directive.occurrence none false, none⟩ := by
      unfold act Directive.occurrence
      rcases alone with standing | noFamily
      · simp only [standing]
      · cases pairing : directive.pairing with
        | middle => exact absurd pairing notMiddle
        | standalone | opens | closes => simp only [noFamily]
    rw [acted]
    exact simulates.record gains (blocks_append _ _)

theorem simulates_foldl {items : List Item} (unsettled : ∀ item ∈ items, item.Unsettled)
    (sound : builder.stack.Sound) (simulates : Simulates builder machine) :
    (items.foldl (add registry) builder).stack.Sound ∧
      Simulates (items.foldl (add registry) builder)
        ((items.filterMap Item.call?).foldl (step registry) machine) := by
  induction items generalizing builder machine with
  | nil => exact ⟨sound, simulates⟩
  | cons item rest ih =>
    rw [List.forall_mem_cons] at unsettled
    have adds := adds_add registry builder item
    have split : (item :: rest).filterMap Item.call? =
        item.call?.toList ++ rest.filterMap Item.call? := by
      cases call : item.call? <;> simp [call]
    rw [List.foldl_cons, split, List.foldl_append]
    exact ih unsettled.2 (sound_of_adds adds unsettled.1 sound)
      (simulates_of_adds adds unsettled.1 sound simulates)

/-- Matching the items of a template settles its directives as the machine does. -/
theorem gains_build (registry : Registry) {items : List Item}
    (unsettled : ∀ item ∈ items, item.Unsettled) :
    Gains {} (build registry items) (run registry (items.filterMap Item.call?)) := by
  have noFrames : ({} : Builder).stack.Sound := by
    intro opened member
    cases member
  have start : Simulates {} ({} : PairingMachine Location) := ⟨rfl, .refl _⟩
  obtain ⟨sound, simulates⟩ := @simulates_foldl registry _ _ _ unsettled noFrames start
  have last := gains_abandonMany sound none
    (items.foldl (add registry) {}).stack.frames.length
  rw [List.take_of_length_le (by simp [FrameStack.openings])] at last
  have blocks : (items.foldl (add registry) {}).stack.openings.filterMap Opened.block? =
      ((items.filterMap Item.call?).foldl (step registry) {}).opened := simulates.opened.symm
  rw [blocks] at last
  exact simulates.gains.trans last

end Builder

end BladeTemplate
