import BladeTemplate.Directive.Builtin
import BladeTemplate.Proofs.Measure
import BladeTemplate.Proofs.Run
import BladeTemplate.Proofs.Tiling

/-!
# Reading drafts

The reader passes over a draft without a fault and without a word, and puts its constructs together
one by one.

* `Registry.Structural` is what has to be registered;
* `Flow.Itemized` relates a flow to the items it is read as;
* `ScanState.Passes` is a run of steps, one lemma for each kind of construct;
* `ScanState.ends_flow` reads a flow and all that follows, `itemized_scan` a whole template.
-/

namespace BladeTemplate

open Text Lookahead

/-- The directives of drafts are registered as they are built in. -/
structure Registry.Structural (registry : Registry) : Prop where
  opener : ∀ keyword : Keyword,
    registry.lookup keyword.name.toList = some (.opener keyword.name)
  closer : ∀ keyword : Keyword,
    registry.lookup keyword.endName.toList = some (.closer keyword.endName keyword.name)
  otherwise : registry.lookup "else".toList =
    some (Descriptor.separator "else" Registry.conditionalFamilies).bare

/-! ## Items -/

/-- A directive with the given name and arguments whose role is not settled. -/
structure Directive.Raw (directive : Directive) (name : Chars) (arguments : Option Chars) :
    Prop where
  written : directive.writtenName = name
  arguments : directive.arguments = arguments
  inBlock : directive.orphan = false

/-- A start tag without entries that is open. -/
structure Markup.Bare (markup : Markup) (tag : TagName) : Prop where
  tag : markup.tag = tag.text
  attributes : markup.attributes = []
  selfClosing : markup.selfClosing = false
  closed : markup.closed = true

namespace Flow

/-- The items of a text: none if it is empty. -/
inductive Texts : Chars → List Item → Prop
  | none : Texts [] []
  | some {gap : Chars} {location : Location} : gap ≠ [] → Texts gap [.text location gap]

/-- The items that a flow is read as. -/
inductive Itemized : Flow → List Item → Prop
  | plain {gap : Chars} {items : List Item} : Texts gap items → Itemized (.plain gap) items
  | echo {gap : Chars} {braced : Interpolation} {rest : Flow} {before more : List Item}
      {location : Location} : Texts gap before → Itemized rest more →
      Itemized (.echo gap braced rest) (before ++ .echo ⟨location, braced.body, false⟩ :: more)
  | element {gap : Chars} {tag : TagName} {inside rest : Flow} {before kids more : List Item}
      {markup : Markup} {location : Location} : Texts gap before → markup.Bare tag →
      Itemized inside kids → Itemized rest more →
      Itemized (.element gap tag inside rest)
        (before ++ .startTag .element markup :: (kids ++ .endTag location tag.closing :: more))
  | block {gap : Chars} {opening : Opening} {inside rest : Flow} {before kids more : List Item}
      {opener closer : Directive} : Texts gap before →
      opener.Raw opening.keyword.name.toList (some opening.arguments) →
      Itemized inside kids → closer.Raw opening.keyword.endName.toList none → Itemized rest more →
      Itemized (.block gap opening inside rest)
        (before ++ .directive opener :: (kids ++ .directive closer :: more))
  | otherwise {gap : Chars} {rest : Flow} {before more : List Item} {middle : Directive} :
      Texts gap before → middle.Raw "else".toList none → Itemized rest more →
      Itemized (.otherwise gap rest) (before ++ .directive middle :: more)

end Flow

namespace Item

variable {origin : Origin} {rest : List Token}

theorem bare_startMarkup {opening closing : Token} {tag : TagName}
    (name : opening.value.drop 1 = tag.text) (bracket : closing.value = ['>']) :
    (startMarkup origin opening closing []).Bare tag :=
  ⟨name, rfl, by simp [startMarkup, bracket], rfl⟩

theorem raw_directiveOf (origin : Origin) (name last : Token) (inside : Option Chars) :
    (directiveOf origin name last inside).Raw (name.value.drop 1) inside :=
  ⟨rfl, rfl, rfl⟩

end Item

/-! ## Runs of steps -/

namespace ScanState

variable {dialect : Dialect} {s next : ScanState} {gap later : Chars}

/-- The run from one state is some tokens and the run from another state, without a word. -/
structure Passes (dialect : Dialect) (s : ScanState) (tokens : List Token) (next : ScanState) :
    Prop where
  yields : (s.run dialect).tokens = tokens ++ (next.run dialect).tokens
  diagnostics : (s.run dialect).diagnostics = (next.run dialect).diagnostics
  fault : (s.run dialect).fault = (next.run dialect).fault

theorem Passes.trans {last : ScanState} {tokens more : List Token}
    (first : Passes dialect s tokens next) (second : Passes dialect next more last) :
    Passes dialect s (tokens ++ more) last where
  yields := by rw [first.yields, second.yields, List.append_assoc]
  diagnostics := by rw [first.diagnostics, second.diagnostics]
  fault := by rw [first.fault, second.fault]

theorem passes_step (ahead : s.rest ≠ []) {step : Step} (taken : s.step dialect = step)
    (goes : step.next = .ok next) (quiet : step.diagnostics = []) :
    Passes dialect s step.tokens next := by
  subst taken
  have whole := run_of_stepped ahead goes
  constructor <;> rw [whole]
  · rfl
  · exact (congrArg (· ++ _) quiet).trans (List.nil_append _)
  · rfl

theorem skip_zero (s : ScanState) : s.skip 0 = s := by
  simp [skip, Position.advance]

/-- The token of a text, if there is a text. -/
def gapTokens (s : ScanState) (gap : Chars) : List Token :=
  if gap = [] then [] else [s.token .text gap.length]

theorem ofTokens_gap {origin : Origin} (ahead : s.rest = gap ++ later) (rest : List Token) :
    ∃ before, Flow.Texts gap before ∧
      Item.ofTokens origin (s.gapTokens gap ++ rest) = before ++ Item.ofTokens origin rest := by
  unfold gapTokens
  split
  · next empty =>
    subst empty
    exact ⟨[], .none, rfl⟩
  · next nonempty =>
    have value : (s.token .text gap.length).value = gap := by
      simp [token, ahead]
    refine ⟨[.text ((s.token .text gap.length).location origin.file) gap], .some nonempty, ?_⟩
    rw [List.singleton_append, Item.ofTokens_text _ _ rfl, value]
    rfl

/-- Plain text before a construct is read in one step with the start of the construct. -/
theorem step_gap (inText : s.modes = []) (ahead : s.rest = gap ++ later) (some : later ≠ [])
    (plain : ∀ c ∈ gap, isPlain c = true)
    (halts : textRunLength (gap.getLast?.or s.previous) later = 0) :
    s.step dialect =
      { (s.skip gap.length).stepConstruct with
        tokens := s.gapTokens gap ++ (s.skip gap.length).stepConstruct.tokens } := by
  -- The run of plain text ends where the construct starts.
  have length : textRunLength s.previous s.rest = gap.length := by
    rw [ahead, textRunLength_append s.previous plain, halts, Nat.add_zero]
  have top : s.step dialect = s.stepText := by
    unfold step
    rw [inText]
  rw [top]
  unfold stepText gapTokens
  simp only [length, List.length_eq_zero_iff]
  split
  · next empty =>
    subst empty
    rw [List.length_nil, skip_zero]
    rfl
  · have unfinished : (s.skip gap.length).rest.isEmpty = false := by
      simpa [ahead] using some
    rw [unfinished]
    rfl

/-- Plain text before a construct that has a mode of its own. -/
theorem passes_enter (inText : s.modes = []) (ahead : s.rest = gap ++ later) (some : later ≠ [])
    (plain : ∀ c ∈ gap, isPlain c = true)
    (halts : textRunLength (gap.getLast?.or s.previous) later = 0) {mode : Mode}
    (enters : (s.skip gap.length).stepConstruct = (s.skip gap.length).enter mode) :
    Passes dialect s (s.gapTokens gap) ((s.skip gap.length).push mode) := by
  have nonempty : s.rest ≠ [] := by
    rw [ahead]
    exact List.append_ne_nil_of_right_ne_nil gap some
  have step := @step_gap dialect s gap later inText ahead some plain halts
  rw [enters] at step
  have passes := passes_step nonempty step rfl rfl
  simpa [enter] using passes

theorem skip_gap (ahead : s.rest = gap ++ later) : (s.skip gap.length).rest = later := by
  simp [ahead]

/-! ## Constructs -/

variable {start : Position}

/-- An echo from its opening braces on. -/
theorem passes_echo {braced : Interpolation} (top : s.modes = [⟨.echo, start⟩])
    (ahead : s.rest = '{' :: '{' :: (braced.body ++ '}' :: '}' :: later)) :
    ∃ next opening content closing, Passes dialect s [opening, content, closing] next ∧
      next.rest = later ∧ next.modes = [] ∧ opening.kind = .echoOpen .escaped ∧
      content.kind = .echoContent .escaped ∧ content.value = braced.body ∧
      closing.kind = .echoClose .escaped := by
  have style : EchoStyle.startOf s.rest = some .escaped := by
    rw [ahead]
    rfl
  have length : findDelimiter EchoStyle.escaped.closer (s.rest.drop 2) =
      some braced.body.length := by
    rw [ahead]
    exact findDelimiter_body braced.simple_body later
  have echo : s.step dialect =
      s.takeTriple (.echoOpen .escaped) (.echoContent .escaped) (.echoClose .escaped) 2
        braced.body.length := by
    have width : EchoStyle.escaped.width = 2 := rfl
    unfold step
    simp only [top, stepEcho, style, Option.getD_some, width, length]
  refine ⟨_, _, _, _, passes_step (by simp [ahead]) echo rfl rfl, ?_, ?_, rfl, rfl, ?_, rfl⟩
  · simp [ahead]
  · simp [top]
  · simp [token, ahead]

/-- The end of a start tag, right behind its name. -/
theorem passes_tagClose {tag : TagName} (top : s.modes = [⟨.tag tag.text, start⟩])
    (ahead : s.rest = '>' :: later) :
    Passes dialect s [s.token .tagClose 1] (s.skip 1).pop := by
  have none : s.skip (countWhile isTagSpace s.rest) = s := by
    rw [ahead]
    exact skip_zero s
  have closing : s.step dialect =
      { tokens := [s.token .tagClose 1], next := .ok (s.skip 1).pop } := by
    unfold step
    simp only [top, stepTag, none]
    rw [ahead]
    -- The content is read as markup, so that the tag leaves no mode behind.
    simp [startsWith, tag.notRaw]
  exact passes_step (by simp [ahead]) closing rfl rfl

/-- A start tag without entries, from its angle bracket on. -/
theorem passes_startTag {tag : TagName} (top : s.modes = [⟨.tagStart, start⟩])
    (ahead : s.rest = '<' :: (tag.text ++ '>' :: later)) :
    ∃ next opening closing, Passes dialect s [opening, closing] next ∧
      next.rest = later ∧ next.modes = [] ∧ opening.kind = .tagOpen .element ∧
      opening.value.drop 1 = tag.text ∧ closing.kind = .tagClose ∧ closing.value = ['>'] := by
  have length : Tag.nameLength (s.rest.drop 1) = tag.text.length := by
    rw [ahead]
    exact nameLength_tag tag.markupName later
  have named : (s.rest.drop 1).take tag.text.length = tag.text := by
    simp [ahead]
  -- The angle bracket and the name.
  have head : s.step dialect = s.stepTagStart := by
    unfold step
    rw [top]
  unfold stepTagStart at head
  simp only [length, named, tag.kindOf_text] at head
  have first := passes_step (by simp [ahead]) head rfl rfl
  -- The closing bracket, right behind the name.
  obtain ⟨t, isT⟩ : ∃ t, t = (s.skip (1 + tag.text.length)).become (.tag tag.text) := ⟨_, rfl⟩
  have tRest : t.rest = '>' :: later := by
    rw [isT]
    simp [ahead, Nat.add_comm]
  have tModes : t.modes = [⟨.tag tag.text, start⟩] := by
    rw [isT]
    simp [become, top]
  have second := @passes_tagClose dialect t later start tag tModes tRest
  rw [← isT] at first
  refine ⟨_, _, _, first.trans second, ?_, ?_, rfl, ?_, rfl, ?_⟩
  · simp [tRest]
  · simp [tModes]
  · simp [token, ahead, Nat.add_comm]
  · simp [token, tRest]

/-- The name of a directive, from its sign on. -/
theorem step_directiveHead {name : Chars} {descriptor : Descriptor}
    (top : s.modes = [⟨.directiveHead, start⟩]) (ahead : s.rest = '@' :: (name ++ later))
    (word : ∀ c ∈ name, isWordChar c = true)
    (stops : ∀ c, later.head? = some c → isWordChar c = false ∧ c ≠ ':')
    (known : dialect.registry.lookup name = some descriptor)
    (plainBody : descriptor.keepsBody = false) :
    s.step dialect =
      { tokens := [s.token .directiveName (1 + name.length)]
        next :=
          match argumentsOffset (some descriptor) name.length s.rest with
          | none => .ok (s.skip (1 + name.length)).pop
          | some offset =>
            .ok (((s.skip (1 + name.length)).skip (offset - (1 + name.length))).become .arguments) } := by
  have length : directiveNameLength (s.rest.drop 1) = name.length := by
    rw [ahead]
    exact directiveNameLength_name word stops
  have named : (s.rest.drop 1).take name.length = name := by
    simp [ahead]
  have head : s.step dialect = s.stepDirectiveHead dialect := by
    unfold step
    rw [top]
  have noBody : (some descriptor).filter (fun d => d.keepsBody &&
      (argumentsOffset (some descriptor) name.length s.rest).isNone) = none := by
    simp only [Option.filter, plainBody, Bool.false_and, Bool.false_eq_true, if_false]
  rw [head]
  unfold stepDirectiveHead
  simp only [length, named, known, noBody]
  rfl

/-- A directive without arguments. -/
theorem passes_bare {name : Chars} {descriptor : Descriptor}
    (top : s.modes = [⟨.directiveHead, start⟩]) (ahead : s.rest = '@' :: (name ++ later))
    (word : ∀ c ∈ name, isWordChar c = true)
    (stops : ∀ c, later.head? = some c → isBlank c = true)
    (known : dialect.registry.lookup name = some descriptor)
    (plainBody : descriptor.keepsBody = false) (noList : descriptor.acceptsArguments = false) :
    ∃ next token, Passes dialect s [token] next ∧ next.rest = later ∧ next.modes = [] ∧
      token.kind = .directiveName ∧ token.value.drop 1 = name := by
  have apart : ∀ c, later.head? = some c → isWordChar c = false ∧ c ≠ ':' := by
    intro c first
    have blank := stops c first
    refine ⟨isWordChar_of_isBlank blank, ?_⟩
    rintro rfl
    exact absurd blank (by decide)
  have head := step_directiveHead top ahead word apart known plainBody
  have alone : argumentsOffset (some descriptor) name.length s.rest = none := by
    simp [argumentsOffset, noList]
  rw [alone] at head
  refine ⟨_, _, passes_step (by simp [ahead]) head rfl rfl, ?_, ?_, rfl, ?_⟩
  · simp [ahead, Nat.add_comm]
  · simp [top]
  · simp [token, ahead, Nat.add_comm]

theorem word_name (keyword : Keyword) :
    (∀ c ∈ keyword.name.toList, isWordChar c = true) ∧
      ∀ c ∈ keyword.endName.toList, isWordChar c = true := by
  cases keyword <;> exact ⟨forall_of_all (by decide), forall_of_all (by decide)⟩

/-- An argument list without brackets in it. -/
theorem passes_arguments {opening : Opening} (top : s.modes = [⟨.arguments, start⟩])
    (ahead : s.rest = '(' :: (opening.arguments ++ ')' :: later)) :
    Passes dialect s
      [s.token .argumentsOpen 1, (s.skip 1).token .arguments opening.arguments.length,
        ((s.skip 1).skip opening.arguments.length).token .argumentsClose 1]
      (((s.skip 1).skip opening.arguments.length).skip 1).pop := by
  have length : groupLength s.rest = some (opening.arguments.length + 2) := by
    rw [ahead]
    exact groupLength_arguments opening later
  have list : s.step dialect =
      { tokens :=
          [s.token .argumentsOpen 1, (s.skip 1).token .arguments opening.arguments.length,
            ((s.skip 1).skip opening.arguments.length).token .argumentsClose 1]
        next := .ok (((s.skip 1).skip opening.arguments.length).skip 1).pop } := by
    unfold step
    simp [top, stepArguments, length, opening.nonempty]
  exact passes_step (by simp [ahead]) list rfl rfl

/-- No word goes on behind the name of an opener. -/
theorem apart_of_opening (opening : Opening) (rest : Chars) :
    ∀ c, (opening.gap ++ '(' :: rest).head? = some c → isWordChar c = false ∧ c ≠ ':' := by
  intro c first
  cases gap : opening.gap with
  | nil =>
    rw [gap] at first
    cases first
    decide
  | cons d more =>
    rw [gap] at first
    cases first
    have space := opening.spaces c (by simp [gap])
    simp only [isInlineSpace, Bool.or_eq_true, decide_eq_true_eq] at space
    rcases space with rfl | rfl <;> decide

/-- A directive that opens a block, with its arguments. -/
theorem passes_opening (structural : dialect.registry.Structural) {opening : Opening}
    (top : s.modes = [⟨.directiveHead, start⟩]) (ahead : s.rest = opening.text ++ later) :
    ∃ next name first inside last, Passes dialect s [name, first, inside, last] next ∧
      next.rest = later ∧ next.modes = [] ∧ name.kind = .directiveName ∧
      name.value.drop 1 = opening.keyword.name.toList ∧ first.kind = .argumentsOpen ∧
      inside.kind = .arguments ∧ inside.value = opening.arguments ∧
      last.kind = .argumentsClose := by
  obtain ⟨name, isName⟩ : ∃ name, name = opening.keyword.name.toList := ⟨_, rfl⟩
  have shape : s.rest =
      '@' :: (name ++ (opening.gap ++ '(' :: (opening.arguments ++ ')' :: later))) := by
    rw [ahead, isName]
    simp [Opening.text]
  have spaces : countWhile isInlineSpace
      (opening.gap ++ '(' :: (opening.arguments ++ ')' :: later)) = opening.gap.length := by
    refine countWhile_append opening.spaces ?_
    intro c first
    cases first
    decide
  have known := structural.opener opening.keyword
  rw [← isName] at known
  have head := step_directiveHead top shape (isName ▸ (word_name opening.keyword).1)
    (apart_of_opening opening _) known rfl
  have offset : argumentsOffset (some (Descriptor.opener opening.keyword.name)) name.length s.rest =
      some (1 + name.length + opening.gap.length) := by
    have behind : s.rest.drop (1 + name.length) =
        opening.gap ++ '(' :: (opening.arguments ++ ')' :: later) := by
      simp [shape, Nat.add_comm]
    simp [argumentsOffset, behind, spaces, Descriptor.opener]
  rw [offset] at head
  have first := passes_step (by simp [shape]) head rfl rfl
  -- The argument list.
  obtain ⟨t, isT⟩ : ∃ t, t = ((s.skip (1 + name.length)).skip
      (1 + name.length + opening.gap.length - (1 + name.length))).become .arguments := ⟨_, rfl⟩
  have tRest : t.rest = '(' :: (opening.arguments ++ ')' :: later) := by
    rw [isT]
    simp [shape, Nat.add_comm]
  have tModes : t.modes = [⟨.arguments, start⟩] := by
    rw [isT]
    simp [become, top]
  have second := @passes_arguments dialect t later start opening tModes tRest
  rw [← isT] at first
  refine ⟨_, _, _, _, _, first.trans second, ?_, ?_, rfl, ?_, rfl, rfl, ?_, rfl⟩
  · simp [tRest]
  · simp [tModes]
  · simp [token, shape, isName, Nat.add_comm 1]
  · simp [token, tRest]

/-! ## Runs to the end -/

variable {origin : Origin}

/-- The run from a state ends without a fault and without a word, it does not start with an argument
list, and its items are as told. -/
structure Ends (dialect : Dialect) (origin : Origin) (s : ScanState) (told : List Item → Prop) :
    Prop where
  fault : (s.run dialect).fault = none
  diagnostics : (s.run dialect).diagnostics = []
  alone : Item.nextIs .argumentsOpen (s.run dialect).tokens = none
  items : told (Item.ofTokens origin (s.run dialect).tokens)

theorem Ends.mono {told more : List Item → Prop} (ends : Ends dialect origin s told)
    (follows : ∀ items, told items → more items) : Ends dialect origin s more :=
  ⟨ends.fault, ends.diagnostics, ends.alone, follows _ ends.items⟩

/-- Some tokens, and a run to the end. -/
theorem Ends.of_passes {told more : List Item → Prop} {tokens : List Token}
    (ends : Ends dialect origin next told) (passes : Passes dialect s tokens next)
    (alone : ∀ rest, Item.nextIs .argumentsOpen (tokens ++ rest) = none)
    (items : ∀ rest, Item.nextIs .argumentsOpen rest = none → told (Item.ofTokens origin rest) →
      more (Item.ofTokens origin (tokens ++ rest))) : Ends dialect origin s more where
  fault := passes.fault.trans ends.fault
  diagnostics := passes.diagnostics.trans ends.diagnostics
  alone := by
    rw [passes.yields]
    exact alone _
  items := by
    rw [passes.yields]
    exact items _ ends.alone ends.items

/-- Whatever text stands before `tail`, reading it and `tail` gives the text and items as told. -/
def Ready (dialect : Dialect) (origin : Origin) (tail : Chars) (told : List Item → Prop) : Prop :=
  ∀ (s : ScanState) (gap : Chars) (fresh : Bool), s.modes = [] → s.rest = gap ++ tail →
    Flow.Fits fresh (!tail.isEmpty) gap → (fresh = true → s.previous = none) →
    Ends dialect origin s fun items =>
      ∃ before more, items = before ++ more ∧ Flow.Texts gap before ∧ told more

/-- Whatever is read after a construct. -/
abbrev After (dialect : Dialect) (origin : Origin) (later : Chars) (told : List Item → Prop) :
    Prop :=
  ∀ s : ScanState, s.modes = [] → s.rest = later → Ends dialect origin s told

theorem nextIs_gapTokens (s : ScanState) (gap : Chars) {rest : List Token}
    (alone : Item.nextIs .argumentsOpen rest = none) :
    Item.nextIs .argumentsOpen (s.gapTokens gap ++ rest) = none := by
  unfold gapTokens
  split
  · exact alone
  · rfl

/-- The end of a template. -/
theorem ready_nil : Ready dialect origin [] (· = []) := by
  intro s gap fresh inText ahead fits _
  rw [List.append_nil] at ahead
  have finished {s : ScanState} (inText : s.modes = []) (ended : s.rest = []) :
      Ends dialect origin s (· = []) := by
    have run := @run_of_ended dialect s ended
    unfold finish at run
    rw [inText] at run
    constructor <;> rw [run]
    · rfl
    · rw [Item.ofTokens]
      rfl
  -- Without a last text the template ends right here, otherwise one step later.
  by_cases empty : gap = []
  · subst empty
    refine (finished inText ahead).mono ?_
    rintro items rfl
    exact ⟨[], [], rfl, .none, rfl⟩
  · have length : textRunLength s.previous s.rest = gap.length := by
      have whole := textRunLength_append s.previous fits.plain []
      rw [List.append_nil] at whole
      rw [ahead, whole, textRunLength]
      rfl
    have step : s.step dialect = s.take .text gap.length := by
      unfold step
      rw [inText]
      unfold stepText
      simp only [length]
      simp [ahead, empty]
    have passes := passes_step (by rwa [ahead]) step rfl rfl
    have ends : Ends dialect origin (s.skip gap.length) (· = []) :=
      finished (by simp [inText]) (by simp [ahead])
    refine ends.of_passes passes (fun _ => rfl) ?_
    intro rest _ none
    have value : (s.token .text gap.length).value = gap := by simp [token, ahead]
    refine ⟨[.text ((s.token .text gap.length).location origin.file) gap], [], ?_, .some empty, rfl⟩
    simp only [take, List.singleton_append]
    rw [Item.ofTokens_text _ _ rfl, value, none]

/-- A text followed by a construct with a mode of its own, given the construct. -/
theorem ready_of_enter {tail : Chars} {told : List Item → Prop} {mode : Mode} (some : tail ≠ [])
    (halts : ∀ previous : Option Char, (previous.map isWordChar).getD false = false →
      textRunLength previous tail = 0)
    (enters : ∀ s : ScanState, s.rest = tail → s.stepConstruct = s.enter mode)
    (construct : ∀ (s : ScanState) (start : Position), s.modes = [⟨mode, start⟩] →
      s.rest = tail → Ends dialect origin s told) : Ready dialect origin tail told := by
  intro s gap fresh inText ahead fits atStart
  have followed : (!tail.isEmpty) = true := by simpa using some
  -- Before a construct stands a blank, or it starts the template: no word runs into it.
  have apart : ((gap.getLast?.or s.previous).map isWordChar).getD false = false := by
    cases last : gap.getLast? with
    | some c => simpa using isWordChar_of_isBlank (fits.ends followed c last)
    | none =>
      have empty : gap = [] := List.getLast?_eq_none_iff.1 last
      cases fresh with
      | true => simp [atStart rfl]
      | false => exact absurd (fits.breaks rfl followed) (by simp [empty])
  have front := skip_gap ahead
  have passes := @passes_enter dialect s gap tail inText ahead some fits.plain (halts _ apart) mode
    (enters _ front)
  have ends := construct ((s.skip gap.length).push mode) (s.skip gap.length).position
    (by simp [inText]) front
  have begins : Item.nextIs .argumentsOpen (s.run dialect).tokens = none := by
    rw [passes.yields]
    exact nextIs_gapTokens s gap ends.alone
  refine ⟨passes.fault.trans ends.fault, passes.diagnostics.trans ends.diagnostics, begins, ?_⟩
  obtain ⟨before, texts, items⟩ := @ofTokens_gap s gap tail origin ahead
    (((s.skip gap.length).push mode).run dialect).tokens
  rw [passes.yields, items]
  exact ⟨before, _, rfl, texts, ends.items⟩

/-- A start tag is entered like this, whatever its name. -/
theorem stepConstruct_startTag {c : Char} {rest : Chars} (letter : c.isAlpha = true)
    (ahead : s.rest = '<' :: c :: rest) : s.stepConstruct = s.enter .tagStart := by
  have signs : '/' ≠ c ∧ '!' ≠ c ∧ '?' ≠ c := by
    refine ⟨?_, ?_, ?_⟩ <;> rintro rfl <;> exact absurd letter (by decide)
  unfold stepConstruct
  simp [ahead, startsWith, commentOpener, List.isPrefixOf, signs]

/-- A directive is entered like this, whatever follows. -/
theorem stepConstruct_directive {c : Char} {rest : Chars} (ahead : s.rest = '@' :: c :: rest) :
    s.stepConstruct = s.enter .directiveHead := by
  unfold stepConstruct
  simp [ahead, startsWith, commentOpener]

/-- A text followed by a start tag, given the tag. -/
theorem ready_of_tagStart {c : Char} {rest tail : Chars} {told : List Item → Prop}
    (shape : tail = '<' :: c :: rest) (letter : c.isAlpha = true)
    (construct : ∀ (s : ScanState) (start : Position), s.modes = [⟨.tagStart, start⟩] →
      s.rest = tail → Ends dialect origin s told) : Ready dialect origin tail told := by
  subst shape
  exact ready_of_enter (by simp) (fun previous _ => textRunLength_startTag previous letter _)
    (fun _ => stepConstruct_startTag letter) construct

/-- A text followed by a directive, given the directive. -/
theorem ready_of_directiveHead {c : Char} {rest tail : Chars} {told : List Item → Prop}
    (shape : tail = '@' :: c :: rest) (letter : c.isAlpha = true)
    (construct : ∀ (s : ScanState) (start : Position), s.modes = [⟨.directiveHead, start⟩] →
      s.rest = tail → Ends dialect origin s told) : Ready dialect origin tail told := by
  subst shape
  exact ready_of_enter (by simp) (fun _ apart => textRunLength_directive letter apart)
    (fun _ => stepConstruct_directive) construct

theorem ready_echo {braced : Interpolation} {told : List Item → Prop}
    (after : After dialect origin later told) :
    Ready dialect origin (braced.text ++ later) fun items =>
      ∃ location more, items = .echo ⟨location, braced.body, false⟩ :: more ∧ told more := by
  have shape : braced.text ++ later = '{' :: '{' :: (braced.body ++ '}' :: '}' :: later) := by
    simp [Interpolation.text]
  rw [shape]
  refine @ready_of_enter dialect origin _ _ .echo (by simp) (fun _ _ => textRunLength_echo _ _) ?_ ?_
  · intro s ahead
    -- The expression does not start with dashes, so the braces do not open a comment.
    have notComment : startsWith commentOpener s.rest = false := by
      have dashes := braced.not_comment ('}' :: later)
      rw [ahead]
      simpa [startsWith, commentOpener, List.isPrefixOf] using dashes
    unfold stepConstruct
    rw [notComment, ahead]
    rfl
  · intro s start top ahead
    obtain ⟨next, opening, content, closing, passes, rest, modes, first, second, value, third⟩ :=
      passes_echo top ahead
    refine (after next modes rest).of_passes passes ?_ ?_
    · intro more
      simp [Item.nextIs, first]
    · intro more _ items
      refine ⟨Item.span origin opening closing, _, ?_, items⟩
      rw [← value]
      exact Item.ofTokens_echoTokens origin more first second third

theorem ready_startTag {tag : TagName} {told : List Item → Prop}
    (after : After dialect origin later told) :
    Ready dialect origin (tag.opening ++ later) fun items =>
      ∃ markup more, markup.Bare tag ∧ items = .startTag .element markup :: more ∧ told more := by
  obtain ⟨c, letters, name, alpha, _⟩ := tag.exists_cons
  have shape : tag.opening ++ later = '<' :: (tag.text ++ '>' :: later) := by
    simp [TagName.opening]
  refine ready_of_tagStart (by rw [shape, name]; rfl) alpha fun s start top ahead => ?_
  obtain ⟨next, opening, closing, passes, rest, modes, first, value, second, bracket⟩ :=
    passes_startTag top (ahead.trans shape)
  refine (after next modes rest).of_passes passes ?_ ?_
  · intro more
    simp [Item.nextIs, first]
  · intro more _ items
    have read := Item.ofTokens_startMarkup origin (closing :: more) first
      (Item.readEntries_close origin more second)
    exact ⟨_, _, Item.bare_startMarkup value bracket, read, items⟩

/-- An end tag is one token. -/
theorem stepConstruct_endTag (tag : MarkupName)
    (ahead : s.rest = '<' :: '/' :: (tag.text ++ '>' :: later)) :
    s.stepConstruct = s.take (.endTag (Tag.kindOf tag.text)) (tag.text.length + 3) := by
  have length : Tag.nameLength (s.rest.drop 2) = tag.text.length := by
    rw [ahead]
    exact nameLength_tag tag later
  have behind : s.rest.drop (2 + tag.text.length) = '>' :: later := by
    simp [ahead, Nat.add_comm 2]
  have found : indexOf ['>'] ('>' :: later) = some 0 := by
    simp [indexOf, startsWith]
  have named : (s.rest.drop 2).take tag.text.length = tag.text := by
    simp [ahead]
  have isEnd : s.stepConstruct = s.stepEndTag := by
    unfold stepConstruct
    simp [ahead, startsWith, commentOpener]
  rw [isEnd]
  unfold stepEndTag takeThrough
  simp only [length, named, behind, found]
  congr 1
  simp
  omega

/-- Unlike the other constructs, an end tag is read in one step with the text before it, whatever
that text is. -/
theorem ends_endTag (tag : MarkupName) {told : List Item → Prop}
    (after : After dialect origin later told) (s : ScanState) (gap : Chars) (inText : s.modes = [])
    (ahead : s.rest = gap ++ (tag.closing ++ later)) (plain : ∀ c ∈ gap, isPlain c = true) :
    Ends dialect origin s fun items => ∃ before location more,
      items = before ++ .endTag location tag.closing :: more ∧ Flow.Texts gap before ∧
        told more := by
  obtain ⟨c, letters, name, alpha⟩ := tag.exists_cons
  have shape : tag.closing ++ later = '<' :: '/' :: (tag.text ++ '>' :: later) := by
    simp [MarkupName.closing]
  have front := skip_gap ahead
  have halts : textRunLength (gap.getLast?.or s.previous) (tag.closing ++ later) = 0 := by
    rw [shape, name]
    exact textRunLength_endTag _ (isLetter_of_isAlpha alpha) _
  obtain ⟨t, isT⟩ : ∃ t, t = s.skip gap.length := ⟨_, rfl⟩
  rw [← isT, shape] at front
  have step := @step_gap dialect s gap _ inText ahead (by simp [MarkupName.closing]) plain halts
  rw [← isT, stepConstruct_endTag tag front] at step
  have passes := passes_step (by simp [ahead, MarkupName.closing]) step rfl rfl
  have ends := after (t.skip (tag.text.length + 3)) (by simp [isT, inText]) (by simp [front])
  have value : (t.token (.endTag (Tag.kindOf tag.text)) (tag.text.length + 3)).value =
      tag.closing := by
    have length : tag.closing.length = tag.text.length + 3 := by simp [MarkupName.closing]
    unfold token
    rw [front, ← shape, ← length]
    exact List.take_left
  refine ends.of_passes passes ?_ ?_
  · intro rest
    simp only [take]
    rw [List.append_assoc]
    exact nextIs_gapTokens s gap rfl
  · intro rest _ items
    simp only [take]
    obtain ⟨before, texts, read⟩ := @ofTokens_gap s gap _ origin ahead
      ([t.token (.endTag (Tag.kindOf tag.text)) (tag.text.length + 3)] ++ rest)
    rw [List.append_assoc, read, List.singleton_append,
      @Item.ofTokens_endTag origin _ rest (Tag.kindOf tag.text) rfl, value]
    exact ⟨before, _, _, rfl, texts, items⟩

theorem ready_endTag (tag : MarkupName) {told : List Item → Prop}
    (after : After dialect origin later told) :
    Ready dialect origin (tag.closing ++ later) fun items =>
      ∃ location more, items = .endTag location tag.closing :: more ∧ told more := by
  intro s gap fresh inText ahead fits _
  refine (ends_endTag tag after s gap inText ahead fits.plain).mono ?_
  rintro items ⟨before, location, more, rfl, texts, rest⟩
  exact ⟨before, _, rfl, texts, location, more, rfl, rest⟩

theorem ready_opening (structural : dialect.registry.Structural) {opening : Opening}
    {told : List Item → Prop} (after : After dialect origin later told) :
    Ready dialect origin (opening.text ++ later) fun items =>
      ∃ directive more, directive.Raw opening.keyword.name.toList (some opening.arguments) ∧
        items = .directive directive :: more ∧ told more := by
  obtain ⟨c, letters, name, alpha⟩ : ∃ c letters,
      opening.keyword.name.toList = c :: letters ∧ c.isAlpha = true := by
    cases opening.keyword <;> exact ⟨_, _, rfl, by decide⟩
  have shape : opening.text ++ later = '@' :: c :: (letters ++ opening.gap ++ ['('] ++
      opening.arguments ++ [')'] ++ later) := by
    simp [Opening.text, name]
  refine ready_of_directiveHead shape alpha fun s start top ahead => ?_
  obtain ⟨next, name, first, inside, last, passes, rest, modes, isName, named, isFirst, isInside,
    value, isLast⟩ := passes_opening structural top ahead
  refine (after next modes rest).of_passes passes ?_ ?_
  · intro more
    simp [Item.nextIs, isName]
  · intro more _ items
    have raw := Item.raw_directiveOf origin name last (some inside.value)
    have read := Item.ofTokens_called origin _ isName
      (Item.readArguments_inside more isFirst isInside isLast)
    rw [value] at raw read
    rw [named] at raw
    exact ⟨_, _, raw, read, items⟩

theorem ready_bare {name : Chars} {descriptor : Descriptor}
    (starts : (name.head?.map Char.isAlpha).getD false = true)
    (word : ∀ c ∈ name, isWordChar c = true)
    (stops : ∀ c, later.head? = some c → isBlank c = true)
    (known : dialect.registry.lookup name = some descriptor)
    (plainBody : descriptor.keepsBody = false) (noList : descriptor.acceptsArguments = false)
    {told : List Item → Prop} (after : After dialect origin later told) :
    Ready dialect origin ('@' :: name ++ later) fun items =>
      ∃ directive more, directive.Raw name none ∧ items = .directive directive :: more ∧
        told more := by
  obtain ⟨c, letters, spelled, alpha⟩ : ∃ c letters, name = c :: letters ∧ c.isAlpha = true := by
    cases name with
    | nil => simp at starts
    | cons c letters => exact ⟨c, letters, rfl, starts⟩
  refine ready_of_directiveHead (by rw [spelled]; rfl) alpha fun s start top ahead => ?_
  obtain ⟨next, token, passes, rest, modes, isName, named⟩ :=
    passes_bare top ahead word stops known plainBody noList
  refine (after next modes rest).of_passes passes ?_ ?_
  · intro more
    simp [Item.nextIs, isName]
  · intro more alone items
    have raw := Item.raw_directiveOf origin token token none
    rw [named] at raw
    exact ⟨_, _, raw, Item.ofTokens_bare origin more isName alone, items⟩

/-- What follows a construct on its line is blank. -/
theorem head_of_readable {flow : Flow} {followed : Bool} (readable : flow.Readable false followed)
    {tail : Chars} (ended : followed = !tail.isEmpty) :
    ∀ c, (flow.text ++ tail).head? = some c → isBlank c = true := by
  have ofGap {gap rest : Chars} (fits : Flow.Fits false true gap) :
      ∀ c, (gap ++ rest).head? = some c → isBlank c = true := by
    intro c first
    cases gap with
    | nil => exact absurd (fits.breaks rfl rfl) List.not_mem_nil
    | cons d more => exact fits.starts rfl c first
  cases flow with
  | plain gap =>
    cases followed with
    | true => exact ofGap readable
    | false =>
      have nothing : tail = [] := by simpa using ended.symm
      rw [nothing, List.append_nil]
      exact readable.starts rfl
  | echo | otherwise =>
    simp only [Flow.text, List.append_assoc]
    exact ofGap readable.1
  | element | block =>
    simp only [Flow.text, List.append_assoc]
    exact ofGap readable.1

/-- A flow is read as its items. The induction follows the flow: what comes after a construct is
read by the hypothesis for the rest, so the construct is ready before it. -/
theorem ends_flow (structural : dialect.registry.Structural) (flow : Flow) {fresh followed : Bool}
    (readable : flow.Readable fresh followed) {tail : Chars} (ended : followed = !tail.isEmpty)
    {told : List Item → Prop} (ready : Ready dialect origin tail told) (s : ScanState)
    (inText : s.modes = []) (ahead : s.rest = flow.text ++ tail)
    (atStart : fresh = true → s.previous = none) :
    Ends dialect origin s fun items =>
      ∃ mine more, items = mine ++ more ∧ flow.Itemized mine ∧ told more := by
  induction flow generalizing fresh followed tail told s with
  | plain gap =>
    rw [Flow.Readable, ended] at readable
    refine (ready s gap fresh inText ahead readable atStart).mono ?_
    rintro _ ⟨before, more, rfl, texts, rest⟩
    exact ⟨before, more, rfl, .plain texts, rest⟩
  | echo gap braced rest ih =>
    obtain ⟨fits, later⟩ := readable
    have after : After dialect origin (rest.text ++ tail) _ :=
      fun s inText ahead => ih later ended ready s inText ahead (by simp)
    simp only [Flow.text, List.append_assoc] at ahead
    refine (ready_echo after s gap fresh inText ahead (by simpa [Interpolation.text] using fits)
      atStart).mono ?_
    rintro _ ⟨before, _, rfl, texts, location, _, rfl, mine, more, rfl, itemized, rest⟩
    exact ⟨before ++ .echo ⟨location, braced.body, false⟩ :: mine, more, by simp,
      .echo texts itemized, rest⟩
  | element gap tag inside rest ihInside ih =>
    obtain ⟨fits, within, later⟩ := readable
    have after : After dialect origin (rest.text ++ tail) _ :=
      fun s inText ahead => ih later ended ready s inText ahead (by simp)
    -- The end tag is ready before the rest, and so the content before the end tag.
    have stop := ready_endTag tag.markupName after
    simp only [TagName.closing_markupName] at stop
    have content : After dialect origin (inside.text ++ (tag.closing ++ (rest.text ++ tail))) _ :=
      fun s inText ahead => ihInside within (by simp [TagName.closing]) stop s inText ahead (by simp)
    simp only [Flow.text, List.append_assoc] at ahead
    refine (ready_startTag content s gap fresh inText ahead (by simpa [TagName.opening] using fits)
      atStart).mono ?_
    rintro _ ⟨before, _, rfl, texts, markup, _, bare, rfl, kids, _, rfl, itemizedKids, location, _,
      rfl, mine, more, rfl, itemized, rest⟩
    exact ⟨before ++ .startTag .element markup :: (kids ++ .endTag location tag.closing :: mine),
      more, by simp, .element texts bare itemizedKids itemized, rest⟩
  | block gap opening inside rest ihInside ih =>
    obtain ⟨fits, within, later⟩ := readable
    have after : After dialect origin (rest.text ++ tail) _ :=
      fun s inText ahead => ih later ended ready s inText ahead (by simp)
    -- As for elements, with the closer in the place of the end tag.
    have closing := ready_bare (by cases opening.keyword <;> decide) (word_name opening.keyword).2
      (head_of_readable later ended) (structural.closer opening.keyword) rfl rfl after
    have content : After dialect origin
        (inside.text ++ (opening.keyword.closing ++ (rest.text ++ tail))) _ :=
      fun s inText ahead => ihInside within (by simp) closing s inText ahead
        (by simp)
    simp only [Flow.text, List.append_assoc] at ahead
    refine (ready_opening structural content s gap fresh inText ahead
      (by simpa [Opening.text] using fits) atStart).mono ?_
    rintro _ ⟨before, _, rfl, texts, opener, _, raw, rfl, kids, _, rfl, itemizedKids, closer, _,
      rawCloser, rfl, mine, more, rfl, itemized, rest⟩
    exact ⟨before ++ .directive opener :: (kids ++ .directive closer :: mine), more, by simp,
      .block texts raw itemizedKids rawCloser itemized, rest⟩
  | otherwise gap rest ih =>
    obtain ⟨fits, later⟩ := readable
    have after : After dialect origin (rest.text ++ tail) _ :=
      fun s inText ahead => ih later ended ready s inText ahead (by simp)
    simp only [Flow.text, List.append_assoc] at ahead
    have middle := ready_bare (by decide) (forall_of_all (by decide)) (head_of_readable later ended)
      structural.otherwise rfl rfl after
    refine (middle s gap fresh inText ahead (by simpa using fits) atStart).mono ?_
    rintro _ ⟨before, _, rfl, texts, directive, _, raw, rfl, mine, more, rfl, itemized, rest⟩
    exact ⟨before ++ .directive directive :: mine, more, by simp, .otherwise texts raw itemized,
      rest⟩

end ScanState

/-- A whole template is read as the items of its flow, unless it starts with front matter. -/
theorem itemized_scan {dialect : Dialect} (structural : dialect.registry.Structural) {flow : Flow}
    (readable : flow.Readable true false)
    (noFrontMatter : dialect.frontMatter = true → frontMatterLength flow.text = none)
    (origin : Origin) :
    (scan dialect flow.text).fault = none ∧ (scan dialect flow.text).diagnostics = [] ∧
      flow.Itemized (Item.ofTokens origin (scan dialect flow.text).tokens) := by
  have whole : scan dialect flow.text = (ScanState.start flow.text).run dialect := by
    unfold scan
    cases reads : dialect.frontMatter with
    | false => rfl
    | true => simp [noFrontMatter reads]
  have ends := @ScanState.ends_flow dialect origin structural flow true false readable [] rfl _
    ScanState.ready_nil (.start flow.text) rfl (by simp [ScanState.start])
    (fun _ => rfl)
  rw [whole]
  refine ⟨ends.fault, ends.diagnostics, ?_⟩
  obtain ⟨mine, more, items, itemized, rfl⟩ := ends.items
  rw [items, List.append_nil]
  exact itemized

end BladeTemplate
