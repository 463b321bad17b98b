import BladeTemplate.Proofs.Grammar
import BladeTemplate.Proofs.Run

/-!
# Reading follows the grammar

The reader is a machine with a stack of modes. Every stack that it reaches is one of a few, each at
a place of the grammar, and every step goes from one of them to another along the grammar.

* `ScanState.Stands` lists the mode stacks of the reader, each with its place in the grammar;
* `ScanState.Leads` is what one step does to the grammar, and `leads_step` that every step does it;
* `reads_run` and `reads_scan` are what follows for whole runs.
-/

namespace BladeTemplate

open Text Lookahead

/-! ## Mode stacks -/

namespace ScanState

/-- The mode stacks of the reader, with what is known about the text ahead, and where in the grammar
each of them stands. -/
inductive Stands (s : ScanState) : Place → Prop
  | text : s.modes = [] → Stands s .content
  | directiveHead {start : Position} {rest : Chars} : s.modes = [⟨.directiveHead, start⟩] →
      s.rest = '@' :: rest → Stands s .content
  | arguments {start : Position} {rest : Chars} : s.modes = [⟨.arguments, start⟩] →
      s.rest = '(' :: rest → Stands s .arguments
  | echo {start : Position} {style : EchoStyle} : s.modes = [⟨.echo, start⟩] →
      EchoStyle.startOf s.rest = some style → Stands s .content
  | comment {start : Position} {rest : Chars} : s.modes = [⟨.comment, start⟩] →
      s.rest = commentOpener ++ rest → Stands s .content
  | tagStart {start : Position} {c : Char} {rest : Chars} : s.modes = [⟨.tagStart, start⟩] →
      s.rest = '<' :: c :: rest → c.isAlpha = true → Stands s .content
  | verbatim {start : Position} : s.modes = [⟨.verbatim, start⟩] → Stands s .content
  | rawCode {start : Position} : s.modes = [⟨.rawCode, start⟩] → Stands s .content
  | rawText {start : Position} {name : Chars} : s.modes = [⟨.rawText name, start⟩] →
      startsAlpha name = true → Stands s (.rawBody name)
  | rawEnd {c : Char} {rest : Chars} : s.modes = [] → s.rest = '<' :: '/' :: c :: rest →
      isLetter c = true → Stands s .rawEnd
  | tag {start : Position} {name : Chars} : s.modes = [⟨.tag name, start⟩] →
      startsAlpha name = true → Stands s (.tag name)
  | tagEcho {start inner : Position} {name : Chars} {style : EchoStyle} :
      s.modes = [⟨.echo, inner⟩, ⟨.tag name, start⟩] → startsAlpha name = true →
      EchoStyle.startOf s.rest = some style → Stands s (.tag name)
  | tagComment {start inner : Position} {name rest : Chars} :
      s.modes = [⟨.comment, inner⟩, ⟨.tag name, start⟩] → startsAlpha name = true →
      s.rest = commentOpener ++ rest → Stands s (.tag name)
  | value {start inner : Position} {name entry : Chars} :
      s.modes = [⟨.attributeValue entry, inner⟩, ⟨.tag name, start⟩] →
      startsAlpha name = true → Stands s (.value name)

/-- What a step from `s` does to the grammar: when it goes on, its tokens continue the grammar, and
when it fails, they are the last ones. -/
structure Leads (source : Chars) (s : ScanState) (place : Place) (step : Step) : Prop where
  goesOn : ∀ next, step.next = .ok next → next.On source ∧ ∃ after, next.Stands after ∧
    ∀ faulted later, Reads source faulted after next.offset later →
      Reads source faulted place s.offset (step.tokens ++ later)
  fails : ∀ fault, step.next = .error fault → Reads source true place s.offset step.tokens

variable {source : Chars} {s : ScanState}

theorem leads_of_next {place after : Place} {step : Step} {next : ScanState}
    (moves : step.next = .ok next) (on : next.On source) (stands : next.Stands after)
    (continues : ∀ faulted later, Reads source faulted after next.offset later →
      Reads source faulted place s.offset (step.tokens ++ later)) :
    s.Leads source place step := by
  refine ⟨?_, ?_⟩
  · intro other h
    rw [moves] at h
    cases h
    exact ⟨on, after, stands, continues⟩
  · intro fault h
    rw [moves] at h
    cases h

/-- A step that fails without a token. -/
theorem leads_fault (on : s.On source) (place : Place) {step : Step} {fault : LexFault × Position}
    (silent : step.tokens = []) (failed : step.next = .error fault) :
    s.Leads source place step := by
  refine ⟨?_, ?_⟩
  · intro next h
    rw [failed] at h
    cases h
  · intro _ _
    rw [silent]
    exact .stop rfl on.bound

/-- A step without tokens that ends at the same offset and the same place. -/
theorem leads_silent {place : Place} {step : Step} {next : ScanState} (silent : step.tokens = [])
    (moves : step.next = .ok next) (on : next.On source) (stands : next.Stands place)
    (stays : next.offset = s.offset) : s.Leads source place step := by
  refine leads_of_next moves on stands ?_
  intro faulted later reads
  rw [silent, List.nil_append, ← stays]
  exact reads

/-- Reports do not matter to the grammar. -/
theorem Leads.reported {place : Place} {tokens : List Token}
    {next : Except (LexFault × Position) ScanState} (diagnostics : List Diagnostic)
    (events : List Event) (leads : s.Leads source place { tokens, next }) :
    s.Leads source place { tokens, diagnostics, events, next } :=
  ⟨leads.goesOn, leads.fails⟩

/-- A token as long as the piece ahead is that piece. -/
theorem value_token {piece after : Chars} (ahead : s.rest = piece ++ after) (kind : TokenKind)
    {length : Nat} (measured : length = piece.length) : (s.token kind length).value = piece := by
  unfold token
  simp only
  rw [ahead, measured, List.take_left]

theorem rest_skip_of_ahead {piece after : Chars} (ahead : s.rest = piece ++ after) {length : Nat}
    (measured : length = piece.length) : (s.skip length).rest = after := by
  rw [rest_skip, ahead, measured, List.drop_left]

/-! ## Constructs in plain text -/

theorem leads_take (on : s.On source) (inText : s.modes = []) (ahead : s.rest ≠ [])
    {kind : TokenKind} (leaf : kind.isLeaf = true) {length : Nat} (positive : 0 < length) :
    s.Leads source .content (s.take kind length) := by
  refine leads_of_next rfl (on.skip length) (.text inText) ?_
  intro faulted later reads
  exact .leaf leaf (on.token_at kind length) (offset_lt_skip ahead positive) reads

theorem leads_takeThrough (on : s.On source) (inText : s.modes = []) (ahead : s.rest ≠ [])
    {kind : TokenKind} (leaf : kind.isLeaf = true) {lead : Nat} (positive : 0 < lead)
    (closer : Chars) (fault : LexFault) :
    s.Leads source .content (s.takeThrough kind lead closer fault) := by
  unfold takeThrough
  split
  · exact leads_take on inText ahead leaf (by omega)
  · exact leads_fault on _ rfl rfl

/-- An end tag runs up to the first angle bracket. -/
theorem leads_stepEndTag (on : s.On source) (inText : s.modes = []) {rest : Chars}
    (ahead : s.rest = '<' :: '/' :: rest) {place : Place}
    (continues : ∀ {m : Nat} {token : Token} {kind : TagKind} (inside : Chars),
      token.kind = .endTag kind → token.At source s.offset m →
      token.value = ['<', '/'] ++ inside ++ ['>'] → '>' ∉ inside →
      ∀ faulted later, Reads source faulted .content m later →
        Reads source faulted place s.offset (token :: later)) :
    s.Leads source place s.stepEndTag := by
  unfold stepEndTag takeThrough
  simp only [ahead, List.drop_succ_cons, List.drop_zero]
  split
  · next length found =>
    -- The name holds no angle bracket, and the search stops at the first one after it.
    have named : '>' ∉ rest.take (Tag.nameLength rest) := by
      intro member
      exact absurd (take_countWhile Tag.isNameChar rest _ member) (by decide)
    rw [Nat.add_comm 2, List.drop_succ_cons, List.drop_succ_cons] at found
    have between := not_mem_take_indexOf found
    obtain ⟨bound, after, closes⟩ := indexOf_spec found
    have shorter : Tag.nameLength rest ≤ rest.length := countWhile_le Tag.isNameChar rest
    rw [List.length_drop] at bound
    have whole : s.rest = (['<', '/'] ++ (rest.take (Tag.nameLength rest) ++
        (rest.drop (Tag.nameLength rest)).take length) ++ ['>']) ++ after := by
      rw [ahead, List.append_assoc, List.append_assoc, List.append_assoc, ← closes,
        List.take_append_drop, List.take_append_drop]
      rfl
    refine leads_of_next rfl (on.skip _) (.text inText) ?_
    refine continues (rest.take (Tag.nameLength rest) ++
      (rest.drop (Tag.nameLength rest)).take length) rfl (on.token_at _ _) ?_ ?_
    · refine value_token whole _ ?_
      simp
      omega
    · simp [named, between]
  · exact leads_fault on _ rfl rfl

theorem leads_stepBang (on : s.On source) (inText : s.modes = []) (ahead : s.rest ≠ []) :
    s.Leads source .content s.stepBang := by
  unfold stepBang
  split
  · exact leads_takeThrough on inText ahead rfl (by omega) _ _
  split
  · exact leads_takeThrough on inText ahead rfl (by omega) _ _
  split
  · exact leads_takeThrough on inText ahead rfl (by omega) _ _
  split
  · exact leads_silent rfl rfl (on.push _) (.rawCode (by rw [modes_push, inText])) rfl
  · exact .reported _ _ (leads_take on inText ahead rfl Nat.one_pos)

/-- At a trigger stands a construct that the reader knows how to read. -/
theorem leads_stepConstruct (on : s.On source) (inText : s.modes = []) (ahead : s.rest ≠ [])
    (trigger : Trigger s.rest) : s.Leads source .content s.stepConstruct := by
  have pushed (mode : Mode) : (s.push mode).modes = [⟨mode, s.position⟩] := by
    rw [modes_push, inText]
  unfold stepConstruct
  split
  · next starts =>
    obtain ⟨rest, comment⟩ := startsWith_iff.1 starts
    exact leads_silent rfl rfl (on.push _) (.comment (pushed .comment) comment) rfl
  split
  · next notComment brace =>
    -- A brace is a trigger only where an echo starts.
    cases h : s.rest with
    | nil => exact absurd h ahead
    | cons c rest =>
      rw [h] at trigger brace
      obtain rfl : c = '{' := by simpa using brace
      cases trigger with
      | echo starts =>
        obtain ⟨style, found⟩ := Option.isSome_iff_exists.1 starts
        exact leads_silent rfl rfl (on.push _)
          (.echo (pushed .echo) (by rw [← found, ← h]; rfl)) rfl
  split
  · next at_ =>
    cases h : s.rest with
    | nil => exact absurd h ahead
    | cons c rest =>
      obtain rfl : c = '@' := by simpa [h] using at_
      exact leads_silent rfl rfl (on.push _) (.directiveHead (pushed .directiveHead) h) rfl
  split
  · next starts =>
    obtain ⟨rest, slash⟩ := startsWith_iff.1 starts
    exact leads_stepEndTag on inText slash
      fun inside kind placed value open_ _ _ => .endTag inside kind placed value open_
  split
  · exact leads_stepBang on inText ahead
  · next notBrace notAt notSlash notBang =>
    -- What is left of the triggers is markup that starts with a letter.
    generalize h : s.rest = text at *
    cases trigger with
    | ended => exact absurd rfl ahead
    | echo starts =>
      obtain ⟨style, found⟩ := Option.isSome_iff_exists.1 starts
      obtain ⟨rest, rfl⟩ := startOf_spec found
      cases style <;> simp [EchoStyle.opener] at notBrace
    | directive => simp at notAt
    | @markup rest starts =>
      cases rest with
      | nil => cases starts
      | cons c rest =>
        have letter : c.isAlpha = true := by
          simp [startsWith] at notSlash notBang
          exact isAlpha_of_startsMarkup starts (Ne.symm notSlash) (Ne.symm notBang.1)
            (Ne.symm notBang.2)
        exact leads_silent rfl rfl (on.push _) (.tagStart (pushed .tagStart) h letter) rfl

theorem leads_stepText (on : s.On source) (inText : s.modes = []) (ahead : s.rest ≠ []) :
    s.Leads source .content s.stepText := by
  have trigger := trigger_of_textRun s.previous s.rest
  unfold stepText
  simp only
  split
  · next none =>
    rw [none, List.drop_zero] at trigger
    exact leads_stepConstruct on inText ahead trigger
  next some =>
  have positive := Nat.pos_of_ne_zero some
  split
  · exact leads_take on inText ahead rfl positive
  · next unfinished =>
    have construct := leads_stepConstruct (on.skip _) (by simpa using inText)
      (by simpa using unfinished) trigger
    have text {faulted : Bool} {later : List Token}
        (reads : Reads source faulted .content (s.skip (textRunLength s.previous s.rest)).offset
          later) : Reads source faulted .content s.offset
            (s.token .text (textRunLength s.previous s.rest) :: later) :=
      .leaf rfl (on.token_at .text _) (offset_lt_skip ahead positive) reads
    refine ⟨?_, ?_⟩
    · intro next h
      obtain ⟨onNext, place, stands, continues⟩ := construct.goesOn next h
      exact ⟨onNext, place, stands, fun faulted later reads => text (continues faulted later reads)⟩
    · intro fault h
      exact text (construct.fails fault h)

/-- Where the body of an element stops that is not read as markup, its end tag is read next. -/
theorem leads_stepText_rawEnd (on : s.On source) (inText : s.modes = []) {c : Char} {rest : Chars}
    (ahead : s.rest = '<' :: '/' :: c :: rest) (letter : isLetter c = true) :
    s.Leads source .rawEnd s.stepText := by
  have noText : textRunLength s.previous s.rest = 0 := by
    rw [ahead]
    exact textRunLength_endTag _ letter rest
  have construct : s.stepText = s.stepEndTag := by
    unfold stepText
    simp only [noText, if_true]
    unfold stepConstruct
    simp [ahead, startsWith, commentOpener]
  rw [construct]
  exact leads_stepEndTag on inText ahead
    fun inside kind placed value open_ _ _ => .rawEnd inside kind placed value open_

/-! ## Directives -/

/-- The token of the name of a directive is its sign and the name. -/
theorem value_directiveName {rest : Chars} (ahead : s.rest = '@' :: rest) (length : Nat) :
    (s.token .directiveName (1 + length)).value = '@' :: rest.take length := by
  unfold token
  simp only
  rw [ahead, Nat.add_comm 1, List.take_succ_cons]

/-- Between the name of a directive and its argument list there is only the gap. -/
theorem gap_of_argumentsOffset {descriptor : Option Descriptor} {length offset : Nat}
    (on : s.On source) (found : argumentsOffset descriptor length s.rest = some offset) :
    InlineGap source (s.skip (1 + length)).offset
        ((s.skip (1 + length)).skip (offset - (1 + length))).offset ∧
      ∃ tail, ((s.skip (1 + length)).skip (offset - (1 + length))).rest = '(' :: tail := by
  obtain ⟨behind, spaces, opens⟩ := argumentsOffset_spec found
  obtain ⟨tail, paren⟩ := List.head?_eq_some_iff.1 opens
  refine ⟨⟨?_, ?_⟩, tail, ?_⟩
  · rw [offset_skip (s.skip _)]
    omega
  · rw [(on.skip _).cut_skip, rest_skip]
    exact spaces
  · rw [rest_skip, rest_skip, List.drop_drop, ← paren]
    congr 1
    omega

theorem leads_stepDirectiveHead (dialect : Dialect) (on : s.On source) {start : Position}
    {rest : Chars} (top : s.modes = [⟨.directiveHead, start⟩]) (ahead : s.rest = '@' :: rest) :
    s.Leads source .content (s.stepDirectiveHead dialect) := by
  have became (s : ScanState) (mode : Mode) (top : s.modes = [⟨.directiveHead, start⟩]) :
      (s.become mode).modes = [⟨mode, start⟩] := by
    simp [become, top]
  unfold stepDirectiveHead
  simp only
  split
  -- A body that is kept as it is takes the place of the directive.
  · next descriptor kept =>
    refine leads_silent rfl rfl (on.become _) ?_ (offset_become s _)
    split
    · exact .verbatim (became s _ top)
    · exact .rawCode (became s _ top)
  · have written := value_directiveName ahead (directiveNameLength (s.rest.drop 1))
    refine .reported _ _ ?_
    split
    · refine leads_of_next rfl (on.skip _).pop (.text (by simp [top])) ?_
      intro faulted later reads
      exact .directive rfl (on.token_at _ _) written reads
    · next offset found =>
      obtain ⟨gap, tail, atOpen⟩ := gap_of_argumentsOffset on found
      refine leads_of_next rfl (((on.skip _).skip _).become _)
        (.arguments (became _ _ top) ((rest_become _ _).trans atOpen)) ?_
      intro faulted later reads
      rw [offset_become] at reads
      exact .directiveWith rfl (on.token_at _ _) written gap reads

theorem leads_stepArguments (on : s.On source) {start : Position} {rest : Chars}
    (top : s.modes = [⟨.arguments, start⟩]) (ahead : s.rest = '(' :: rest) :
    s.Leads source .arguments (s.stepArguments start) := by
  unfold stepArguments
  split
  · exact leads_fault on _ rfl rfl
  · next length found =>
    rw [ahead] at found
    obtain ⟨inside, after, rfl, rfl⟩ := groupLength_spec found
    have opened : s.rest = ['('] ++ (inside ++ ')' :: after) := ahead
    have onInside := on.skip 1
    have atInside := rest_skip_of_ahead opened rfl
    have onClosing := onInside.skip (inside.length + 2 - 2)
    have atClosing : ((s.skip 1).skip (inside.length + 2 - 2)).rest = [')'] ++ after :=
      rest_skip_of_ahead atInside rfl
    refine leads_of_next rfl (onClosing.skip 1).pop (.text (by simp [top])) ?_
    intro faulted later reads
    simp only
    split
    · next empty =>
      -- Without anything inside, the closing token follows the opening one.
      have none : inside.length + 2 - 2 = 0 := by omega
      have same : ((s.skip 1).skip (inside.length + 2 - 2)).offset = (s.skip 1).offset := by
        rw [none, offset_skip, List.take_zero, List.length_nil, Nat.add_zero]
      refine .noArguments rfl (on.token_at _ _) (value_token opened _ rfl) rfl ?_
        (value_token atClosing _ rfl) reads
      rw [← same]
      exact onClosing.token_at _ _
    · exact .arguments rfl (on.token_at _ _) (value_token opened _ rfl) rfl
        (onInside.token_at _ _) rfl (onClosing.token_at _ _) (value_token atClosing _ rfl) reads

/-! ## Echoes and comments -/

/-- An echo is read as one construct, wherever it stands. -/
theorem leads_stepEcho (on : s.On source) {style : EchoStyle}
    (starts : EchoStyle.startOf s.rest = some style) (start : Position) {place : Place}
    (stands : ∀ after : ScanState, after.modes = s.modes.tail → after.Stands place)
    (continues : ∀ {m : Nat} {opening content closing : Token},
      EchoAt source style opening content closing s.offset m →
      ∀ faulted later, Reads source faulted place m later →
        Reads source faulted place s.offset (opening :: content :: closing :: later)) :
    s.Leads source place (s.stepEcho start) := by
  unfold stepEcho
  simp only [starts, Option.getD_some]
  split
  · exact leads_fault on _ rfl rfl
  · next length found =>
    obtain ⟨rest, opened⟩ := startOf_spec starts
    have onInside := on.skip style.width
    have onClosing := onInside.skip length
    have measured := style.length_opener.symm
    have dropped : s.rest.drop style.width = rest := rest_skip_of_ahead opened measured
    rw [dropped] at found
    obtain ⟨_, later, closer⟩ := findDelimiter_spec found
    have atClosing : ((s.skip style.width).skip length).rest = style.closer ++ later := by
      rw [rest_skip, rest_skip, dropped, closer]
    refine leads_of_next rfl (onClosing.skip _).pop (stands _ rfl) (continues ?_)
    exact ⟨rfl, rfl, rfl, value_token opened _ measured,
      value_token atClosing _ style.length_closer.symm, _, _, on.token_at _ _,
      onInside.token_at _ _, onClosing.token_at _ _⟩

/-- A comment is read as one construct, wherever it stands. -/
theorem leads_stepComment (on : s.On source) {rest : Chars}
    (ahead : s.rest = commentOpener ++ rest) (start : Position) {place : Place}
    (stands : ∀ after : ScanState, after.modes = s.modes.tail → after.Stands place)
    (continues : ∀ {m : Nat} {opening content closing : Token},
      CommentAt source opening content closing s.offset m →
      ∀ faulted later, Reads source faulted place m later →
        Reads source faulted place s.offset (opening :: content :: closing :: later)) :
    s.Leads source place (s.stepComment start) := by
  unfold stepComment
  split
  · exact leads_fault on _ rfl rfl
  · next length found =>
    have onInside := on.skip 4
    have onClosing := onInside.skip length
    obtain ⟨_, later, closer⟩ := indexOf_spec found
    have atClosing : ((s.skip 4).skip length).rest = commentCloser ++ later := by
      rw [rest_skip, rest_skip, closer]
    refine leads_of_next rfl (onClosing.skip _).pop (stands _ rfl) (continues ?_)
    exact ⟨rfl, rfl, rfl, value_token ahead _ rfl, value_token atClosing _ rfl, _, _,
      on.token_at _ _, onInside.token_at _ _, onClosing.token_at _ _⟩

/-! ## Start tags -/

theorem leads_stepTagStart (on : s.On source) {start : Position} {c : Char} {rest : Chars}
    (top : s.modes = [⟨.tagStart, start⟩]) (ahead : s.rest = '<' :: c :: rest)
    (letter : c.isAlpha = true) : s.Leads source .content s.stepTagStart := by
  have named : Tag.isNameChar c = true := by
    simp [Tag.isNameChar, Char.isAlphanum, letter]
  -- The name starts with the letter.
  obtain ⟨more, name⟩ :
      ∃ more, (s.rest.drop 1).take (Tag.nameLength (s.rest.drop 1)) = c :: more := by
    rw [ahead, List.drop_one, List.tail_cons, Tag.nameLength, List.takeWhile_cons, named]
    simp
  have became : ((s.skip (1 + Tag.nameLength (s.rest.drop 1))).become
      (.tag ((s.rest.drop 1).take (Tag.nameLength (s.rest.drop 1))))).modes =
      [⟨.tag ((s.rest.drop 1).take (Tag.nameLength (s.rest.drop 1))), start⟩] := by
    simp [become, top]
  refine leads_of_next rfl ((on.skip _).become _) (.tag became ?_) ?_
  · rw [name]
    exact letter
  intro faulted later reads
  rw [offset_become] at reads
  refine .tagOpen rfl (on.token_at _ _) ?_ ?_ (take_countWhile Tag.isNameChar _) reads
  · unfold token
    simp only
    rw [ahead, Nat.add_comm 1, List.take_succ_cons]
    rfl
  · rw [name]
    exact List.cons_ne_nil c more

/-- An equals sign ahead, with white space on either side of it. -/
theorem equalsGap_skip (on : s.On source)
    (sign : (s.rest.drop (countWhile isTagSpace s.rest)).head? = some '=') :
    EqualsGap source s.offset
      ((s.skip (countWhile isTagSpace s.rest + 1)).skip
        (countWhile isTagSpace (s.skip (countWhile isTagSpace s.rest + 1)).rest)).offset := by
  obtain ⟨tail, text⟩ := List.head?_eq_some_iff.1 sign
  have some : countWhile isTagSpace s.rest + 1 ≤ s.rest.length := by
    have measured := congrArg List.length text
    rw [List.length_drop, List.length_cons] at measured
    omega
  have onEquals := on.skip (countWhile isTagSpace s.rest + 1)
  have atEquals := offset_skip_of_le some
  have atSign := offset_skip_of_le (countWhile_le isTagSpace s.rest)
  generalize s.skip (countWhile isTagSpace s.rest + 1) = equals at *
  refine ⟨s.offset + countWhile isTagSpace s.rest, ⟨?_, ?_⟩, ?_, ⟨?_, ?_⟩⟩
  · omega
  · rw [← atSign, on.cut_skip]
    exact take_countWhile isTagSpace _
  · have drop : source.drop (s.offset + countWhile isTagSpace s.rest) = ['='] ++ tail := by
      rw [← List.drop_drop, ← on.rest, text]
      rfl
    exact cut_of_drop drop
  · rw [offset_skip, atEquals]
    omega
  · rw [Nat.add_assoc, ← atEquals, onEquals.cut_skip]
    exact take_countWhile isTagSpace _

theorem leads_stepAttribute (dialect : Dialect) (on : s.On source) {start : Position}
    {name : Chars} (top : s.modes = [⟨.tag name, start⟩]) (named : startsAlpha name = true) :
    s.Leads source (.tag name) (s.stepAttribute dialect) := by
  have onName := on.skip (attributeNameLength dialect.registry s.rest)
  unfold stepAttribute
  refine .reported _ _ ?_
  split
  · next sign =>
    have gap := equalsGap_skip onName sign
    have onEquals := onName.skip
      (countWhile isTagSpace (s.skip (attributeNameLength dialect.registry s.rest)).rest + 1)
    refine leads_of_next rfl ((onEquals.skip _).push _)
      (.value (by rw [modes_push, modes_skip, modes_skip, modes_skip, top]) named) ?_
    intro faulted later reads
    exact .entryWith (.refl source _) rfl (on.token_at _ _) gap reads
  · refine leads_of_next rfl onName (.tag top named) ?_
    intro faulted later reads
    exact .entry (.refl source _) rfl (on.token_at _ _) reads

/-- What holds past the white space of a start tag holds before it. -/
theorem Leads.before_gap {name : Chars} {past : ScanState} {step : Step}
    (gap : TagGap source s.offset past.offset) (leads : past.Leads source (.tag name) step) :
    s.Leads source (.tag name) step := by
  refine ⟨?_, ?_⟩
  · intro next h
    obtain ⟨onNext, place, stands, continues⟩ := leads.goesOn next h
    exact ⟨onNext, place, stands, fun faulted later reads =>
      (continues faulted later reads).after_gap gap⟩
  · intro fault h
    exact (leads.fails fault h).after_gap gap

/-- The white space in front of a part of a start tag. -/
theorem On.tagGap (on : s.On source) :
    TagGap source s.offset (s.skip (countWhile isTagSpace s.rest)).offset where
  ordered := by
    rw [offset_skip]
    omega
  spaces := by
    rw [on.cut_skip]
    exact take_countWhile isTagSpace s.rest

theorem leads_stepTag (dialect : Dialect) (on : s.On source) {start : Position} {name : Chars}
    (top : s.modes = [⟨.tag name, start⟩]) (named : startsAlpha name = true) :
    s.Leads source (.tag name) (s.stepTag dialect name) := by
  have gap := on.tagGap
  have onPast := on.skip (countWhile isTagSpace s.rest)
  have topPast : (s.skip (countWhile isTagSpace s.rest)).modes = [⟨.tag name, start⟩] := top
  unfold stepTag
  simp only
  generalize s.skip (countWhile isTagSpace s.rest) = past at *
  have pushed (mode : Mode) :
      (past.push mode).modes = [⟨mode, past.position⟩, ⟨.tag name, start⟩] := by
    rw [modes_push, topPast]
  apply Leads.before_gap gap
  split
  · exact leads_silent rfl rfl onPast (.tag topPast named) rfl
  split
  · next starts =>
    obtain ⟨after, ahead⟩ := startsWith_iff.1 starts
    refine leads_of_next rfl (onPast.skip 2).pop (.text (by simp [topPast])) ?_
    intro faulted later reads
    exact .tagClose (.refl source _) rfl (onPast.token_at _ _)
      (.inr (value_token ahead _ rfl)) reads
  split
  · next ends =>
    obtain ⟨tail, ahead⟩ := List.head?_eq_some_iff.1 ends
    have closed : past.rest = ['>'] ++ tail := ahead
    have value := value_token closed .tagClose rfl
    split
    · next raw =>
      have modes : ((past.skip 1).pop.push (.rawText name)).modes =
          [⟨.rawText name, (past.skip 1).position⟩] := by
        rw [modes_push, modes_pop, modes_skip, topPast]
        rfl
      refine leads_of_next rfl ((onPast.skip 1).pop.push _) (.rawText modes named) ?_
      intro faulted later reads
      exact .rawOpen (.refl source _) rfl (onPast.token_at _ _) value raw reads
    · next plain =>
      refine leads_of_next rfl (onPast.skip 1).pop (.text (by simp [topPast])) ?_
      intro faulted later reads
      exact .tagClose (.refl source _) rfl (onPast.token_at _ _)
        (.inl ⟨value, eq_false_of_ne_true plain⟩) reads
  split
  · next starts =>
    obtain ⟨rest, comment⟩ := startsWith_iff.1 starts
    exact leads_silent rfl rfl (onPast.push _) (.tagComment (pushed .comment) named comment) rfl
  split
  · next starts =>
    obtain ⟨style, found⟩ := Option.isSome_iff_exists.1 starts
    exact leads_silent rfl rfl (onPast.push _) (.tagEcho (pushed .echo) named found) rfl
  · exact leads_stepAttribute dialect onPast topPast named

theorem leads_stepValue (on : s.On source) {start inner : Position} {name entry : Chars}
    (top : s.modes = [⟨.attributeValue entry, inner⟩, ⟨.tag name, start⟩])
    (named : startsAlpha name = true) : s.Leads source (.value name) (s.stepValue inner) := by
  unfold stepValue
  split
  · exact leads_fault on _ rfl rfl
  · refine leads_of_next rfl (on.skip _).pop
      (.tag (by rw [modes_pop, modes_skip, top]; rfl) named) ?_
    intro faulted later reads
    exact .value rfl (on.token_at _ _) reads

/-! ## Bodies kept as they are -/

/-- A step that reads one token and closes its mode. -/
theorem leads_body (on : s.On source) (ahead : s.rest ≠ []) {mode : OpenMode}
    (top : s.modes = [mode]) {kind : TokenKind} (leaf : kind.isLeaf = true) {length : Nat}
    (positive : 0 < length) : s.Leads source .content
      { tokens := [s.token kind length], next := .ok (s.skip length).pop } := by
  refine leads_of_next rfl (on.skip length).pop
    (.text (by rw [modes_pop, modes_skip, top]; rfl)) ?_
  intro faulted later reads
  exact .leaf leaf (on.token_at kind length) (offset_lt_skip ahead positive) reads

theorem leads_takeBody (on : s.On source) (ahead : s.rest ≠ []) {mode : OpenMode}
    (top : s.modes = [mode]) {kind : TokenKind} (leaf : kind.isLeaf = true) {lead : Nat}
    (positive : 0 < lead) (closer : Chars) (fault : LexFault) (start : Position) :
    s.Leads source .content (s.takeBody kind lead closer fault start) := by
  unfold takeBody
  split
  · exact leads_fault on _ rfl rfl
  · exact leads_body on ahead top leaf (by omega)

theorem leads_stepRawCode (on : s.On source) (ahead : s.rest ≠ []) {mode : OpenMode}
    (top : s.modes = [mode]) (start : Position) :
    s.Leads source .content (s.stepRawCode start) := by
  unfold stepRawCode
  split
  · refine leads_body on ahead top rfl ?_
    split
    · exact Nat.succ_pos _
    · exact List.length_pos_iff.2 ahead
  · exact leads_takeBody on ahead top rfl (by omega) _ _ _

theorem leads_stepRawText (on : s.On source) (ahead : s.rest ≠ []) {tag : Chars}
    {start : Position} (top : s.modes = [⟨.rawText tag, start⟩]) (named : startsAlpha tag = true) :
    s.Leads source (.rawBody tag) (s.stepRawText tag start) := by
  unfold stepRawText
  split
  · exact leads_fault on _ rfl rfl
  · next length found =>
    obtain ⟨_, ends⟩ := rawTextLength_spec found
    obtain ⟨c, rest, atEnd, letter⟩ := endsRawText_spec named ends
    have stands : (s.skip length).pop.Stands .rawEnd :=
      .rawEnd (by rw [modes_pop, modes_skip, top]; rfl) atEnd letter
    refine leads_of_next rfl (on.skip length).pop stands ?_
    intro faulted later reads
    simp only
    split
    · next empty =>
      have stays : (s.skip length).pop.offset = s.offset := by
        rw [offset_pop, offset_skip, empty, List.take_zero, List.length_nil, Nat.add_zero]
      rw [stays] at reads
      exact .noRawText reads
    · next some =>
      exact .rawText rfl (on.token_at _ length)
        (offset_lt_skip ahead (Nat.pos_of_ne_zero some)) reads

/-! ## Runs -/

/-- Every step continues the grammar. -/
theorem leads_step (dialect : Dialect) (on : s.On source) (ahead : s.rest ≠ []) {place : Place}
    (stands : s.Stands place) : s.Leads source place (s.step dialect) := by
  unfold step
  cases stands with
  | text top =>
    rw [top]
    exact leads_stepText on top ahead
  | directiveHead top at_ =>
    rw [top]
    exact leads_stepDirectiveHead dialect on top at_
  | arguments top paren =>
    rw [top]
    exact leads_stepArguments on top paren
  | echo top starts =>
    rw [top]
    exact leads_stepEcho on starts _ (fun after modes => .text (by rw [modes, top]; rfl))
      fun read _ _ => .echo read
  | comment top starts =>
    rw [top]
    exact leads_stepComment on starts _ (fun after modes => .text (by rw [modes, top]; rfl))
      fun read _ _ => .comment read
  | tagStart top angle letter =>
    rw [top]
    exact leads_stepTagStart on top angle letter
  | verbatim top =>
    rw [top]
    exact leads_takeBody on ahead top rfl (by omega) _ _ _
  | rawCode top =>
    rw [top]
    exact leads_stepRawCode on ahead top _
  | rawText top named =>
    rw [top]
    exact leads_stepRawText on ahead top named
  | rawEnd top angle letter =>
    rw [top]
    exact leads_stepText_rawEnd on top angle letter
  | tag top named =>
    rw [top]
    exact leads_stepTag dialect on top named
  | tagEcho top named starts =>
    rw [top]
    exact leads_stepEcho on starts _ (fun after modes => .tag (by rw [modes, top]; rfl) named)
      fun read _ _ => .tagEcho (.refl source _) read
  | tagComment top named starts =>
    rw [top]
    exact leads_stepComment on starts _ (fun after modes => .tag (by rw [modes, top]; rfl) named)
      fun read _ _ => .tagComment (.refl source _) read
  | value top named =>
    rw [top]
    exact leads_stepValue on top named

/-- In plain text at the end of the template, the grammar may end. -/
theorem Stands.content_of_ended {place : Place} (stands : s.Stands place) (inText : s.modes = [])
    (ended : s.rest = []) : place = .content := by
  cases stands <;> simp_all

/-- A run reads tokens of the grammar, from where it stands to the end or to its fault. -/
theorem reads_run (dialect : Dialect) (s : ScanState) : ∀ place, s.On source → s.Stands place →
    Reads source (s.run dialect).fault.isSome place s.offset (s.run dialect).tokens := by
  induction s using run_induction dialect with
  | ended s atEnd =>
    intro place on stands
    unfold finish
    split
    · next inText =>
      obtain rfl := stands.content_of_ended inText atEnd
      have stays : (s.skip 0).offset = s.offset := by
        rw [offset_skip, List.take_zero, List.length_nil, Nat.add_zero]
      have placed := on.token_at .eof 0
      rw [stays] at placed
      exact .eof rfl rfl placed (on.offset_of_ended atEnd)
    · exact .stop rfl on.bound
  | failed s fault ahead h =>
    intro place on stands
    exact (leads_step dialect on ahead stands).fails fault h
  | stepped s next ahead h ih =>
    intro place on stands
    obtain ⟨onNext, after, standsNext, continues⟩ :=
      (leads_step dialect on ahead stands).goesOn next h
    exact continues _ _ (ih after onNext standsNext)

end ScanState

/-- The tokens of a template follow the grammar from its start to its end, or to its fault. -/
theorem reads_scan (dialect : Dialect) (source : Chars) :
    Reads source (scan dialect source).fault.isSome .start 0 (scan dialect source).tokens := by
  have on := ScanState.on_start source
  unfold scan
  simp only
  split
  · next length front =>
    obtain ⟨positive, ahead⟩ := frontMatterLength_pos (Option.ite_none_right_eq_some.1 front).2
    have moved : 0 < ((ScanState.start source).skip length).offset :=
      ScanState.offset_lt_skip (s := .start source) ahead positive
    refine .front rfl (on.token_at .frontMatter length) moved ?_
    exact ScanState.reads_run dialect _ .content (on.skip length) (.text rfl)
  · exact .noFront (ScanState.reads_run dialect _ .content on (.text rfl))

end BladeTemplate
