import BladeTemplate.Proofs.Stream

/-!
# Bodies of elements that are not read as markup

Behind the start tag of such an element the reader looks for its end tag. What lies before that is
one token, if it is anything, and the next token is the end tag that was found.

* `ReadRaw` says this of a body and the end tag behind it;
* `openTag` is the start tag that is open in a stack of modes, `Token.tagAfter` the one that is open
  behind a token;
* `RawBodies` says of all tokens of a template that such bodies follow such start tags;
* `rawBodies_scan` is the result for the tokens of a template.
-/

namespace BladeTemplate

open Text Lookahead

/-- The body of the element of the given name begins at offset `n`, where its start tag ends; the
reader has found the end tag `last` by the search for it. -/
structure ReadRaw (source name : Chars) (n : Nat) (body : List Token) (last : Token) : Prop where
  found : ∃ length, rawTextLength name (source.drop n) = some length ∧
    last.start.offset = n + length
  body : (body = [] ∧ last.start.offset = n) ∨
    ∃ token, body = [token] ∧ token.kind = .rawText (lower name) ∧
      token.At source n last.start.offset
  last : ∃ kind, last.kind = .endTag kind

/-- Tokens that start with such a body and its end tag. -/
def StartsRaw (source name : Chars) (n : Nat) (tokens : List Token) : Prop :=
  ∃ body last later, tokens = body ++ last :: later ∧ ReadRaw source name n body last

/-! ## The start tag that is open -/

/-- Whether a token of the kind begins or ends a start tag. -/
def TokenKind.bounds : TokenKind → Bool
  | .tagOpen _ | .tagClose => true
  | _ => false

/-- The name of the start tag that is open behind a token, given that of the one before it. -/
def Token.tagAfter (tag : Option Chars) (token : Token) : Option Chars :=
  match token.kind with
  | .tagOpen _ => some (token.value.drop 1)
  | .tagClose => none
  | _ => tag

theorem Token.tagAfter_of_inner {token : Token} (inner : token.kind.bounds = false)
    (tag : Option Chars) : token.tagAfter tag = tag := by
  unfold tagAfter
  cases kind : token.kind <;> simp [kind, TokenKind.bounds] at inner ⊢

/-- Behind every start tag whose body is not read as markup, that body and its end tag follow; `tag`
is the name of the start tag that is open before the tokens. -/
def RawBodies (source : Chars) : Option Chars → List Token → Prop
  | _, [] => True
  | tag, token :: rest =>
    (∀ name, tag = some name → token.kind = .tagClose → token.value = ['>'] →
      Tag.isOneOf Tag.rawTextNames name = true →
      StartsRaw source name token.stop.offset rest) ∧
    RawBodies source (token.tagAfter tag) rest

namespace RawBodies

variable {source : Chars} {tag : Option Chars} {tokens later : List Token}

/-- Tokens within a start tag, or outside of all. -/
theorem append (inner : ∀ token ∈ tokens, token.kind.bounds = false)
    (bodies : RawBodies source tag later) : RawBodies source tag (tokens ++ later) := by
  induction tokens with
  | nil => exact bodies
  | cons token rest ih =>
    rw [List.forall_mem_cons] at inner
    refine ⟨?_, ?_⟩
    · intro name _ closes
      rw [closes] at inner
      cases inner.1
    · rw [Token.tagAfter_of_inner inner.1]
      exact ih inner.2

theorem of_append (inner : ∀ token ∈ tokens, token.kind.bounds = false)
    (bodies : RawBodies source tag (tokens ++ later)) : RawBodies source tag later := by
  induction tokens with
  | nil => exact bodies
  | cons token rest ih =>
    rw [List.forall_mem_cons] at inner
    have behind := bodies.2
    rw [Token.tagAfter_of_inner inner.1] at behind
    exact ih inner.2 behind

/-- Whatever tokens are left out in front, the start tags further on are the same. -/
theorem of_split {opening closing : Token} {kind : TagKind} {before entries rest : List Token}
    (bodies : RawBodies source tag (before ++ opening :: (entries ++ closing :: rest)))
    (opens : opening.kind = .tagOpen kind)
    (inner : ∀ token ∈ entries, token.kind.bounds = false) (closes : closing.kind = .tagClose)
    (bracket : closing.value = ['>'])
    (raw : Tag.isOneOf Tag.rawTextNames (opening.value.drop 1) = true) :
    StartsRaw source (opening.value.drop 1) closing.stop.offset rest := by
  induction before generalizing tag with
  | nil =>
    have behind := bodies.2
    unfold Token.tagAfter at behind
    rw [opens] at behind
    exact (behind.of_append inner).1 _ rfl closes bracket raw
  | cons token before ih => exact ih bodies.2

end RawBodies

/-- The name of the start tag that is open in a stack of modes. -/
def openTag : List OpenMode → Option Chars
  | [] => none
  | ⟨.tag name, _⟩ :: _ => some name
  | _ :: outer => openTag outer

theorem openTag_cons {mode : Mode} (other : ∀ name, mode ≠ .tag name) (start : Position)
    (outer : List OpenMode) : openTag (⟨mode, start⟩ :: outer) = openTag outer := by
  cases mode with
  | tag name => exact absurd rfl (other name)
  | _ => rfl

/-! ## Steps outside of the bounds of start tags -/

/-- The step neither begins nor ends a start tag, and goes on where the given one is open. -/
structure Step.Inner (tag : Option Chars) (step : Step) : Prop where
  tokens : ∀ token ∈ step.tokens, token.kind.bounds = false
  next : ∀ next, step.next = .ok next → openTag next.modes = tag

namespace ScanState

variable {s : ScanState} {tag : Option Chars}

theorem inner_next {tokens : List Token} {next : ScanState}
    (inner : ∀ token ∈ tokens, token.kind.bounds = false) (open_ : openTag next.modes = tag)
    (diagnostics : List Diagnostic) (events : List Event) :
    Step.Inner tag { tokens, diagnostics, events, next := .ok next } :=
  ⟨inner, by rintro _ ⟨⟩; exact open_⟩

theorem inner_fault (tag : Option Chars) (fault : LexFault × Position) :
    Step.Inner tag { next := .error fault } :=
  ⟨by simp, by simp⟩

theorem inner_take (open_ : openTag s.modes = tag) {kind : TokenKind}
    (inner : kind.bounds = false) (length : Nat) : (s.take kind length).Inner tag :=
  inner_next (List.forall_mem_singleton.2 inner) (by simpa using open_) _ _

theorem inner_enter (open_ : openTag s.modes = tag) {mode : Mode}
    (other : ∀ name, mode ≠ .tag name) : (s.enter mode).Inner tag :=
  inner_next (by simp) ((openTag_cons other _ _).trans open_) _ _

theorem inner_takeThrough (open_ : openTag s.modes = tag) {kind : TokenKind}
    (inner : kind.bounds = false) (lead : Nat) (closer : Chars) (fault : LexFault) :
    (s.takeThrough kind lead closer fault).Inner tag := by
  unfold takeThrough
  split
  · exact inner_take open_ inner _
  · exact inner_fault tag _

theorem inner_stepBang (open_ : openTag s.modes = tag) : s.stepBang.Inner tag := by
  unfold stepBang
  split
  · exact inner_takeThrough open_ rfl _ _ _
  split
  · exact inner_takeThrough open_ rfl _ _ _
  split
  · exact inner_takeThrough open_ rfl _ _ _
  split
  · exact inner_enter open_ (by simp)
  · have one : (s.take .text 1).Inner tag := inner_take open_ rfl 1
    exact ⟨one.tokens, one.next⟩

theorem inner_stepConstruct (open_ : openTag s.modes = tag) : s.stepConstruct.Inner tag := by
  unfold stepConstruct
  split
  · exact inner_enter open_ (by simp)
  split
  · exact inner_enter open_ (by simp)
  split
  · exact inner_enter open_ (by simp)
  split
  · exact inner_takeThrough open_ rfl _ _ _
  split
  · exact inner_stepBang open_
  · exact inner_enter open_ (by simp)

theorem inner_stepText (open_ : openTag s.modes = tag) : s.stepText.Inner tag := by
  unfold stepText
  simp only
  split
  · exact inner_stepConstruct open_
  split
  · exact inner_take open_ rfl _
  · have construct := @inner_stepConstruct (s.skip (textRunLength s.previous s.rest)) tag open_
    exact ⟨List.forall_mem_cons.2 ⟨rfl, construct.tokens⟩, construct.next⟩

theorem inner_takeTriple (open_ : openTag s.modes.tail = tag)
    {opening content closing : TokenKind}
    (inner : ∀ kind ∈ [opening, content, closing], kind.bounds = false) (width length : Nat) :
    (s.takeTriple opening content closing width length).Inner tag :=
  inner_next (by simpa [token] using inner) open_ _ _

theorem inner_takeBody (open_ : openTag s.modes.tail = tag) {kind : TokenKind}
    (inner : kind.bounds = false) (lead : Nat) (closer : Chars) (fault : LexFault)
    (start : Position) : (s.takeBody kind lead closer fault start).Inner tag := by
  unfold takeBody
  split
  · exact inner_fault tag _
  · exact inner_next (List.forall_mem_singleton.2 inner) open_ _ _

theorem inner_stepRawCode (open_ : openTag s.modes.tail = tag) (start : Position) :
    (s.stepRawCode start).Inner tag := by
  unfold stepRawCode
  split
  · exact inner_next (List.forall_mem_singleton.2 rfl) open_ _ _
  · exact inner_takeBody open_ rfl _ _ _ _

theorem inner_stepDirectiveHead (dialect : Dialect) {start : Position} {outer : List OpenMode}
    (top : s.modes = ⟨.directiveHead, start⟩ :: outer) :
    (s.stepDirectiveHead dialect).Inner (openTag outer) := by
  unfold stepDirectiveHead
  simp only
  split
  · refine inner_next (by simp) ?_ _ _
    simp only [become, top]
    split <;> rfl
  · refine ⟨List.forall_mem_singleton.2 rfl, ?_⟩
    intro next moves
    simp only at moves
    split at moves
    · cases moves
      simp [top]
    · cases moves
      simp [become, top, openTag]

/-- Inside a construct other than a start tag. -/
theorem inner_step (dialect : Dialect) {mode : Mode} {start : Position} {outer : List OpenMode}
    (top : s.modes = ⟨mode, start⟩ :: outer) (begins : mode ≠ .tagStart)
    (inside : ∀ name, mode ≠ .tag name) : (s.step dialect).Inner (openTag outer) := by
  have popped : openTag s.modes.tail = openTag outer := by rw [top, List.tail_cons]
  unfold step
  rw [top]
  cases mode with
  | tagStart => exact absurd rfl begins
  | tag name => exact absurd rfl (inside name)
  | directiveHead => exact inner_stepDirectiveHead dialect top
  | arguments =>
    simp only [stepArguments]
    split
    · exact inner_fault _ _
    · refine inner_next ?_ (by simpa using popped) _ _
      rw [List.cons_append, List.forall_mem_cons, List.forall_mem_append]
      refine ⟨rfl, ?_, List.forall_mem_singleton.2 rfl⟩
      split <;> simp [token, TokenKind.bounds]
  | echo =>
    simp only [stepEcho]
    split
    · exact inner_fault _ _
    · exact inner_takeTriple popped (by simp [TokenKind.bounds]) _ _
  | comment =>
    simp only [stepComment]
    split
    · exact inner_fault _ _
    · exact inner_takeTriple popped (by simp [TokenKind.bounds]) _ _
  | attributeValue entry =>
    simp only [stepValue]
    split
    · exact inner_fault _ _
    · exact inner_next (List.forall_mem_singleton.2 rfl) popped _ _
  | verbatim => exact inner_takeBody popped rfl _ _ _ _
  | rawCode => exact inner_stepRawCode popped start
  | rawText name =>
    simp only [stepRawText]
    split
    · exact inner_fault _ _
    · refine inner_next ?_ popped _ _
      split <;> simp [token, TokenKind.bounds]

/-! ## Steps at the bounds of start tags -/

variable {source : Chars} {dialect : Dialect} {next : ScanState} {later : List Token}

/-- What a step within the bounds of a start tag leaves to be shown. -/
theorem rawBodies_of_inner {step : Step} (inner : step.Inner tag) (moves : step.next = .ok next)
    (bodies : RawBodies source (openTag next.modes) later) :
    RawBodies source tag (step.tokens ++ later) := by
  rw [inner.next next moves] at bodies
  exact bodies.append inner.tokens

theorem rawBodies_stepTagStart {start : Position} (top : s.modes = [⟨.tagStart, start⟩])
    (moves : s.stepTagStart.next = .ok next)
    (bodies : RawBodies source (openTag next.modes) later) :
    RawBodies source none (s.stepTagStart.tokens ++ later) := by
  unfold stepTagStart at moves ⊢
  cases moves
  -- The name in the new mode is the one in the token.
  have named : (s.rest.take (1 + Tag.nameLength (s.rest.drop 1))).drop 1 =
      (s.rest.drop 1).take (Tag.nameLength (s.rest.drop 1)) := by
    rw [List.drop_take, Nat.add_sub_cancel_left]
  have became : openTag ((s.skip (1 + Tag.nameLength (s.rest.drop 1))).become
      (.tag ((s.rest.drop 1).take (Tag.nameLength (s.rest.drop 1))))).modes =
      some ((s.rest.drop 1).take (Tag.nameLength (s.rest.drop 1))) := by
    simp [become, top, openTag]
  rw [became, ← named] at bodies
  exact ⟨by simp, bodies⟩

theorem inner_stepAttribute (dialect : Dialect) {name : Chars} {start : Position}
    {outer : List OpenMode} (top : s.modes = ⟨.tag name, start⟩ :: outer) :
    (s.stepAttribute dialect).Inner (some name) := by
  unfold stepAttribute
  refine ⟨List.forall_mem_singleton.2 rfl, ?_⟩
  intro next moves
  simp only at moves
  split at moves
  · cases moves
    simp [top, openTag]
  · cases moves
    simp [top, openTag]

/-- The end of a start tag opens the body of the element, if it is not read as markup. -/
theorem rawBodies_stepTag {name : Chars} {start : Position} (top : s.modes = [⟨.tag name, start⟩])
    (moves : (s.stepTag dialect name).next = .ok next)
    (bodies : RawBodies source (openTag next.modes) later)
    (starts : ∀ element opened, next.modes = [⟨.rawText element, opened⟩] →
      StartsRaw source element next.offset later) :
    RawBodies source (some name) ((s.stepTag dialect name).tokens ++ later) := by
  have topPast : (s.skip (countWhile isTagSpace s.rest)).modes = [⟨.tag name, start⟩] := top
  unfold stepTag at moves ⊢
  simp only at moves ⊢
  generalize s.skip (countWhile isTagSpace s.rest) = past at *
  have around : openTag past.modes = some name := by rw [topPast]; rfl
  split
  · next ended =>
    rw [if_pos ended] at moves
    cases moves
    rwa [around] at bodies
  next notEnded =>
  rw [if_neg notEnded] at moves
  split
  · next slash =>
    rw [if_pos slash] at moves
    cases moves
    obtain ⟨rest, ahead⟩ := startsWith_iff.1 slash
    refine ⟨?_, ?_⟩
    · intro _ _ _ bracket
      have value : (past.token .tagClose 2).value = ['/', '>'] := value_token ahead .tagClose rfl
      rw [value] at bracket
      cases bracket
    · simpa [Token.tagAfter, token, topPast, openTag] using bodies
  next notSlash =>
  rw [if_neg notSlash] at moves
  split
  · next bracket =>
    rw [if_pos bracket] at moves
    cases moves
    refine ⟨?_, ?_⟩
    · rintro _ ⟨⟩ _ _ raw
      simp only [raw, if_true] at starts
      exact starts name (past.skip 1).position (by simp [topPast]; rfl)
    · show RawBodies source none later
      split at bodies
      · simpa [topPast, openTag] using bodies
      · simpa [topPast, openTag] using bodies
  next notBracket =>
  rw [if_neg notBracket] at moves
  split
  · next comment =>
    rw [if_pos comment] at moves
    exact rawBodies_of_inner (inner_enter around (by simp)) moves bodies
  next notComment =>
  rw [if_neg notComment] at moves
  split
  · next echo =>
    rw [if_pos echo] at moves
    exact rawBodies_of_inner (inner_enter around (by simp)) moves bodies
  next notEcho =>
  rw [if_neg notEcho] at moves
  exact rawBodies_of_inner (inner_stepAttribute dialect topPast) moves bodies

/-- Every step keeps bodies that are not read as markup behind their start tags. -/
theorem rawBodies_step {place : Place} (stands : s.Stands place)
    (moves : (s.step dialect).next = .ok next)
    (bodies : RawBodies source (openTag next.modes) later)
    (starts : ∀ element opened, next.modes = [⟨.rawText element, opened⟩] →
      StartsRaw source element next.offset later) :
    RawBodies source (openTag s.modes) ((s.step dialect).tokens ++ later) := by
  cases stands with
  | text top | rawEnd top =>
    unfold step at moves ⊢
    rw [top] at moves ⊢
    exact rawBodies_of_inner (inner_stepText (by rw [top])) moves bodies
  | tagStart top =>
    unfold step at moves ⊢
    rw [top] at moves ⊢
    exact rawBodies_stepTagStart top moves bodies
  | tag top =>
    unfold step at moves ⊢
    rw [top] at moves ⊢
    exact rawBodies_stepTag top moves bodies starts
  | directiveHead top | arguments top | echo top | comment top | verbatim top | rawCode top
  | rawText top | tagEcho top | tagComment top | value top =>
    have inner := inner_step dialect top (by simp) (by simp)
    rw [top, openTag_cons (by simp)]
    exact rawBodies_of_inner inner moves bodies

/-! ## Runs -/

/-- Where the body of an element begins that is not read as markup, it is read up to the end tag
that the search finds, and then that end tag. -/
theorem startsRaw_run (on : s.On source) {name : Chars} {start : Position}
    (top : s.modes = [⟨.rawText name, start⟩]) (named : startsAlpha name = true)
    (whole : (s.run dialect).fault = none) :
    StartsRaw source name s.offset (s.run dialect).tokens := by
  by_cases ended : s.rest = []
  · rw [run_of_ended ended, finish, top] at whole
    cases whole
  have stepped : s.step dialect = s.stepRawText name start := by
    unfold step
    rw [top]
  cases moves : (s.step dialect).next with
  | error fault =>
    rw [run_of_failed ended moves] at whole
    cases whole
  | ok next =>
    rw [run_of_stepped ended moves] at whole ⊢
    have wholeNext : (next.run dialect).fault = none := whole
    rw [stepped] at moves
    unfold stepRawText at moves
    split at moves
    · cases moves
    next length found =>
    cases moves
    obtain ⟨bound, ends⟩ := rawTextLength_spec found
    obtain ⟨c, rest, atEnd, letter⟩ := endsRawText_spec named ends
    have stands : (s.skip length).pop.Stands .rawEnd :=
      .rawEnd (by rw [modes_pop, modes_skip, top]; rfl) atEnd letter
    have reads := reads_run dialect _ .rawEnd (on.skip length).pop stands
    rw [wholeNext] at reads
    have moved : (s.skip length).pop.offset = s.offset + length := offset_skip_of_le bound
    have tokens : (s.step dialect).tokens =
        if length = 0 then [] else [s.token (.rawText (lower name)) length] := by
      rw [stepped]
      unfold stepRawText
      rw [found]
    show StartsRaw source name s.offset ((s.step dialect).tokens ++ _)
    rw [tokens]
    generalize ((s.skip length).pop.run dialect).tokens = behind at *
    cases reads with
    | stop cut => cases cut
    | @rawEnd _ m last kind later inside isEnd placed value notInside _ =>
      have at_ : last.start.offset = s.offset + length := placed.start.trans moved
      refine ⟨_, last, later, rfl, ⟨length, ?_, at_⟩, ?_, kind, isEnd⟩
      · rw [← on.rest]
        exact found
      · split
        · next none => exact .inl ⟨rfl, by rw [at_, none, Nat.add_zero]⟩
        · refine .inr ⟨_, rfl, rfl, ?_⟩
          rw [at_, ← moved]
          exact on.token_at _ length

theorem rawBodies_run (dialect : Dialect) (s : ScanState) : ∀ place, s.On source →
    s.Stands place → (s.run dialect).fault = none →
    RawBodies source (openTag s.modes) (s.run dialect).tokens := by
  induction s using run_induction dialect with
  | ended s atEnd =>
    intro _ _ _ _
    unfold finish
    split
    · refine ⟨?_, trivial⟩
      intro _ _ closes
      cases closes
    · trivial
  | failed s fault ahead h =>
    intro _ _ _ whole
    cases whole
  | stepped s next ahead h ih =>
    intro place on stands whole
    have wholeNext : (next.run dialect).fault = none := whole
    obtain ⟨onNext, after, standsNext, _⟩ := (leads_step dialect on ahead stands).goesOn next h
    refine rawBodies_step stands h (ih after onNext standsNext wholeNext) ?_
    intro element opened top
    have named : startsAlpha element = true := by
      cases standsNext <;> simp_all
    exact startsRaw_run onNext top named wholeNext

end ScanState

/-! ## Templates -/

/-- In a template that reads without fault, bodies that are not read as markup stand behind their
start tags. -/
theorem rawBodies_scan (dialect : Dialect) (source : Chars)
    (read : (scan dialect source).fault = none) :
    RawBodies source none (scan dialect source).tokens := by
  have on := ScanState.on_start source
  unfold scan at read ⊢
  cases front : if dialect.frontMatter then frontMatterLength source else none with
  | some length =>
    rw [front] at read
    have later := ScanState.rawBodies_run dialect _ .content (on.skip length) (.text rfl) read
    exact ⟨by simp, later⟩
  | none =>
    rw [front] at read
    exact ScanState.rawBodies_run dialect _ .content on (.text rfl) read

end BladeTemplate
