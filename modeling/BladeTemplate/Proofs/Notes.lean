import BladeTemplate.Proofs.Severity
import BladeTemplate.Proofs.Tiling

/-!
# What is noted while reading

Two things about a template are seen twice: the directives, and the attribute names that a directive
also has. The reader sees them among the tokens and reports them there; the items have them as data.
Both see the same ones, in the same order.

* `Note` is one such thing, with where it stands;
* `Note.ofTokens` and `Item.notes` are the two views, and `notes_ofTokens` that they agree;
* `notices_scan` says that the reader reports what its notes call for, and nothing else.
-/

namespace BladeTemplate

open Text

/-! ## Notices and notes -/

/-- What a diagnostic is about and where, apart from its wording. -/
structure Notice where
  code : DiagnosticCode
  severity : Severity
  line : Int
  column : Int
  deriving DecidableEq, Repr

/-- A diagnostic apart from its wording. -/
def Diagnostic.notice (diagnostic : Diagnostic) : Notice :=
  ⟨diagnostic.code, diagnostic.severity, diagnostic.line, diagnostic.column⟩

/-- A notice at the start of a location. -/
def Notice.placed (location : Location) (severity : Severity) (code : DiagnosticCode) : Notice :=
  ⟨code, severity, location.line, location.column⟩

/-- A directive by its name and the text between its parentheses, or an attribute name that a
directive also has, with the line and column where it starts. -/
inductive Note where
  | directive (line column : Int) (name arguments : Chars)
  | ambiguous (line column : Int)
  deriving DecidableEq, Repr

namespace Note

/-- What is reported about a note while reading. -/
def report (dialect : Dialect) : Note → List Notice
  | .directive line column name _ =>
    if !dialect.registry.has name && dialect.reportUnknown then
      [⟨.unknownDirective, .info, line, column⟩]
    else []
  | .ambiguous line column => [⟨.ambiguousAttribute, .info, line, column⟩]

/-- The notes of the first of some tokens. -/
def ofToken (registry : Registry) (token : Token) (rest : List Token) : List Note :=
  match token.kind with
  | .directiveName =>
    let inside := ((Item.readArguments rest).map (·.1)).getD []
    [.directive token.start.line token.start.column (token.value.drop 1) inside]
  | .attributeName _ =>
    if (classifyAttribute registry token.value (Item.nextIs .attributeValue rest).isSome).2 then
      [.ambiguous token.start.line token.start.column]
    else []
  | _ => []

/-- The notes of a list of tokens. -/
def ofTokens (registry : Registry) : List Token → List Note
  | [] => []
  | token :: rest => ofToken registry token rest ++ ofTokens registry rest

end Note

/-- The notes of an entry of a start tag. -/
def Attribute.notes (entry : Attribute) : List Note :=
  if entry.ambiguous then [.ambiguous entry.location.line entry.location.column] else []

/-- The notes of an item. -/
def Item.notes : Item → List Note
  | .directive read =>
    [.directive read.location.line read.location.column read.writtenName (read.arguments.getD [])]
  | .startTag _ markup => markup.attributes.flatMap Attribute.notes
  | _ => []

/-- Whether tokens of a kind are never noted. -/
def TokenKind.isSilent : TokenKind → Bool
  | .directiveName | .attributeName _ => false
  | _ => true

theorem Note.ofToken_silent {token : Token} (silent : token.kind.isSilent = true)
    (registry : Registry) (rest : List Token) : ofToken registry token rest = [] := by
  unfold ofToken
  split
  · next kind => simp [kind, TokenKind.isSilent] at silent
  · next kind => simp [kind, TokenKind.isSilent] at silent
  · rfl

theorem Note.ofTokens_silent {tokens : List Token}
    (silent : ∀ token ∈ tokens, token.kind.isSilent = true) (registry : Registry)
    (later : List Token) : ofTokens registry (tokens ++ later) = ofTokens registry later := by
  induction tokens with
  | nil => rfl
  | cons token rest ih =>
    rw [List.forall_mem_cons] at silent
    rw [List.cons_append, ofTokens, ofToken_silent silent.1, List.nil_append, ih silent.2]

theorem Note.ofTokens_cons_silent {token : Token} {kind : TokenKind} (of : token.kind = kind)
    (silent : kind.isSilent = true) (registry : Registry) (later : List Token) :
    ofTokens registry (token :: later) = ofTokens registry later := by
  rw [ofTokens, ofToken_silent (of ▸ silent), List.nil_append]

/-- Nothing is noted in an echo. -/
theorem Note.ofTokens_echo {source : Chars} {style : EchoStyle} {opening content closing : Token}
    {a b : Nat} (read : EchoAt source style opening content closing a b) (registry : Registry)
    (later : List Token) :
    ofTokens registry (opening :: content :: closing :: later) = ofTokens registry later := by
  rw [ofTokens_cons_silent read.openingKind rfl, ofTokens_cons_silent read.contentKind rfl,
    ofTokens_cons_silent read.closingKind rfl]

/-- Nothing is noted in a comment. -/
theorem Note.ofTokens_comment {source : Chars} {opening content closing : Token} {a b : Nat}
    (read : CommentAt source opening content closing a b) (registry : Registry)
    (later : List Token) :
    ofTokens registry (opening :: content :: closing :: later) = ofTokens registry later := by
  rw [ofTokens_cons_silent read.openingKind rfl, ofTokens_cons_silent read.contentKind rfl,
    ofTokens_cons_silent read.closingKind rfl]

/-! ## Items have the notes of their tokens -/

namespace Item

variable {origin : Origin}

/-- The items of the tokens have their notes. -/
def NotesAgree (origin : Origin) (tokens : List Token) : Prop :=
  Note.ofTokens origin.registry tokens = (ofTokens origin tokens).flatMap notes

/-- So do the entries of a start tag and the items after it. -/
def TagNotesAgree (origin : Origin) (tokens : List Token) : Prop :=
  Note.ofTokens origin.registry tokens =
    (readEntries origin tokens).1.flatMap Attribute.notes ++
      (ofTokens origin (tokens.drop (readEntries origin tokens).2.2)).flatMap notes

/-- How the notes of the tokens at each place of the grammar are put together. -/
def Noted (origin : Origin) (tokens : List Token) : Place → Prop
  | .start | .content | .rawBody _ | .rawEnd => NotesAgree origin tokens
  | .arguments => ∃ inside last count, readArguments tokens = some (inside, last, count) ∧
      Note.ofTokens origin.registry tokens =
        (ofTokens origin (tokens.drop count)).flatMap notes
  | .tag _ => TagNotesAgree origin tokens
  | .value _ => ∃ token rest, tokens = token :: rest ∧ token.kind = .attributeValue ∧
      TagNotesAgree origin rest

/-- A token that is a construct by itself. -/
theorem notesAgree_single {token : Token} {rest : List Token}
    (single : token.kind = .text ∨ (regionKind? token.kind).isSome = true)
    (later : NotesAgree origin rest) : NotesAgree origin (token :: rest) := by
  unfold NotesAgree at later ⊢
  rcases single with text | region
  · rw [ofTokens_text origin rest text, Note.ofTokens_cons_silent text rfl, List.flatMap_cons, later]
    rfl
  · obtain ⟨held, kind⟩ := Option.isSome_iff_exists.1 region
    have silent : token.kind.isSilent = true := by
      cases found : token.kind with
      | directiveName | attributeName => simp [found, regionKind?] at kind
      | _ => rfl
    rw [ofTokens_region origin rest kind, Note.ofTokens_cons_silent rfl silent, List.flatMap_cons,
      later]
    rfl

theorem notesAgree_endTag {token : Token} {tag : TagKind} {rest : List Token}
    (kind : token.kind = .endTag tag) (later : NotesAgree origin rest) :
    NotesAgree origin (token :: rest) := by
  unfold NotesAgree at later ⊢
  rw [ofTokens_endTag origin rest kind, Note.ofTokens_cons_silent kind rfl, List.flatMap_cons, later]
  rfl

/-- A directive without argument list. -/
theorem note_bare {name : Token} {rest : List Token} (kind : name.kind = .directiveName)
    (alone : nextIs .argumentsOpen rest = none) :
    Note.ofToken origin.registry name rest =
      (Item.directive (directiveOf origin name name none)).notes := by
  simp only [Note.ofToken, kind, readArguments_none rest alone, notes]
  rfl

/-- A directive with an argument list: the text between its parentheses is that of its tokens. -/
theorem note_called {name last : Token} {rest : List Token} {inside : Chars} {count : Nat}
    (kind : name.kind = .directiveName) (read : readArguments rest = some (inside, last, count)) :
    Note.ofToken origin.registry name rest =
      (Item.directive (directiveOf origin name last (some inside))).notes := by
  simp only [Note.ofToken, kind, read, notes]
  rfl

/-- A part of a start tag, and the rest of the tag after it. -/
theorem TagNotesAgree.cons {entry : Attribute} {used : Nat} {tokens rest : List Token}
    (read : ReadsEntry origin tokens entry used rest)
    (noted : Note.ofTokens origin.registry tokens =
      entry.notes ++ Note.ofTokens origin.registry rest)
    (later : TagNotesAgree origin rest) : TagNotesAgree origin tokens := by
  unfold TagNotesAgree at later ⊢
  rw [noted, later, read.entries, ← List.drop_drop, read.behind, List.flatMap_cons,
    List.append_assoc]

/-- The tokens of the grammar and the items put together from them have the same notes. -/
theorem noted_of_reads {place : Place} {n : Nat} {tokens : List Token}
    (reads : Reads origin.source false place n tokens) : Noted origin tokens place := by
  induction reads with
  | @eof _ token _ kind =>
    show Note.ofTokens _ _ = _
    rw [ofTokens_eof origin _ kind, Note.ofTokens_cons_silent kind rfl]
    rfl
  | stop cut => cases cut
  | front kind _ _ _ ih => exact notesAgree_single (.inr (by rw [kind]; rfl)) ih
  | noFront _ ih => exact ih
  | leaf leaf _ _ _ ih => exact notesAgree_single (single_of_leaf leaf) ih
  | rawText kind _ _ _ ih => exact notesAgree_single (.inr (by rw [kind]; rfl)) ih
  | noRawText _ ih => exact ih
  | endTag _ kind _ _ _ _ ih | rawEnd _ kind _ _ _ _ ih => exact notesAgree_endTag kind ih
  | echo read _ ih =>
    show Note.ofTokens _ _ = _
    rw [ofTokens_echoTokens origin _ read.openingKind read.contentKind read.closingKind,
      List.flatMap_cons, Note.ofTokens_echo read]
    exact ih
  | comment read _ ih =>
    show Note.ofTokens _ _ = _
    rw [ofTokens_commentTokens origin _ read.openingKind read.contentKind read.closingKind,
      List.flatMap_cons, Note.ofTokens_comment read]
    exact ih
  | directive kind _ _ reads ih =>
    have alone := nextIs_argumentsOpen reads
    show Note.ofTokens _ _ = _
    rw [ofTokens_bare origin _ kind alone, Note.ofTokens, note_bare kind alone, List.flatMap_cons]
    exact congrArg _ ih
  | directiveWith kind _ _ _ _ ih =>
    obtain ⟨inside, last, count, read, later⟩ := ih
    show Note.ofTokens _ _ = _
    rw [ofTokens_called origin _ kind read, Note.ofTokens, note_called kind read, List.flatMap_cons,
      later]
  | noArguments openKind _ _ closeKind _ _ _ ih =>
    refine ⟨_, _, _, readArguments_empty _ openKind closeKind, ?_⟩
    rw [Note.ofTokens_cons_silent openKind rfl, Note.ofTokens_cons_silent closeKind rfl]
    exact ih
  | arguments openKind _ _ insideKind _ closeKind _ _ _ ih =>
    refine ⟨_, _, _, readArguments_inside _ openKind insideKind closeKind, ?_⟩
    rw [Note.ofTokens_cons_silent openKind rfl, Note.ofTokens_cons_silent insideKind rfl,
      Note.ofTokens_cons_silent closeKind rfl]
    exact ih
  | tagOpen kind _ _ _ _ _ ih =>
    show Note.ofTokens _ _ = _
    rw [ofTokens_startTag origin _ kind, Note.ofTokens_cons_silent kind rfl, List.flatMap_cons]
    exact ih
  | tagClose _ kind _ _ _ ih | rawOpen _ kind _ _ _ _ ih =>
    show Note.ofTokens _ _ = _
    rw [readEntries_close origin _ kind, Note.ofTokens_cons_silent kind rfl]
    exact ih
  -- The parts of start tags: only attribute names are noted.
  | tagEcho _ read _ ih =>
    refine .cons (readsEntry_echo origin _ read.openingKind read.contentKind read.closingKind) ?_ ih
    rw [Note.ofTokens_echo read]
    rfl
  | tagComment _ read _ ih =>
    refine .cons
      (readsEntry_comment origin _ read.openingKind read.contentKind read.closingKind) ?_ ih
    rw [Note.ofTokens_comment read]
    rfl
  | entry _ nameKind _ reads ih =>
    have alone := nextIs_attributeValue reads
    refine .cons (readsEntry_bare origin _ nameKind alone) ?_ ih
    simp only [Note.ofTokens, Note.ofToken, nameKind, alone]
    rfl
  | entryWith _ nameKind _ _ _ ih =>
    obtain ⟨value, later, rfl, valueKind, agree⟩ := ih
    have found : nextIs .attributeValue (value :: later) = some value := if_pos valueKind
    refine .cons (readsEntry_valued origin _ nameKind valueKind) ?_ agree
    rw [Note.ofTokens, Note.ofTokens_cons_silent valueKind rfl]
    simp only [Note.ofToken, nameKind, found]
    rfl
  | @value _ _ _ token rest kind _ _ ih => exact ⟨token, rest, rfl, kind, ih⟩

end Item

/-- The items of a template that reads without fault have the notes of its tokens. -/
theorem notes_ofTokens (dialect : Dialect) (file : Option String) (source : Chars)
    (read : (scan dialect source).fault = none) :
    (Item.ofTokens ⟨dialect.registry, file, source⟩ (scan dialect source).tokens).flatMap
        Item.notes =
      Note.ofTokens dialect.registry (scan dialect source).tokens := by
  have reads := reads_scan dialect source
  rw [read] at reads
  exact (@Item.noted_of_reads ⟨dialect.registry, file, source⟩ _ _ _ reads).symm

/-! ## The reader reports what is noted -/

/-- The step reports nothing, and none of its tokens is noted. -/
structure Step.Quiet (step : Step) : Prop where
  diagnostics : step.diagnostics = []
  tokens : ∀ token ∈ step.tokens, token.kind.isSilent = true

namespace ScanState

variable {source : Chars} {s : ScanState}

theorem quiet_take (s : ScanState) {kind : TokenKind} (silent : kind.isSilent = true)
    (length : Nat) : (s.take kind length).Quiet :=
  ⟨rfl, by simpa [take, token] using silent⟩

theorem quiet_enter (s : ScanState) (mode : Mode) : (s.enter mode).Quiet :=
  ⟨rfl, by simp [enter]⟩

theorem quiet_takeThrough (s : ScanState) {kind : TokenKind} (silent : kind.isSilent = true)
    (lead : Nat) (closer : Chars) (fault : LexFault) :
    (s.takeThrough kind lead closer fault).Quiet := by
  unfold takeThrough
  split
  · exact quiet_take s silent _
  · exact ⟨rfl, by simp [failHere]⟩

theorem quiet_stepBang (s : ScanState) : s.stepBang.Quiet := by
  unfold stepBang
  split
  · exact quiet_takeThrough s rfl _ _ _
  split
  · exact quiet_takeThrough s rfl _ _ _
  split
  · exact quiet_takeThrough s rfl _ _ _
  split
  · exact quiet_enter s _
  · exact ⟨rfl, (quiet_take s rfl 1).tokens⟩

theorem quiet_stepConstruct (s : ScanState) : s.stepConstruct.Quiet := by
  unfold stepConstruct
  split
  · exact quiet_enter s _
  split
  · exact quiet_enter s _
  split
  · exact quiet_enter s _
  split
  · exact quiet_takeThrough s rfl _ _ _
  split
  · exact quiet_stepBang s
  · exact quiet_enter s _

theorem quiet_stepText (s : ScanState) : s.stepText.Quiet := by
  unfold stepText
  simp only
  split
  · exact quiet_stepConstruct s
  · split
    · exact quiet_take s rfl _
    · obtain ⟨diagnostics, tokens⟩ :=
        quiet_stepConstruct (s.skip (Lookahead.textRunLength s.previous s.rest))
      exact ⟨diagnostics, List.forall_mem_cons.2 ⟨rfl, tokens⟩⟩

theorem quiet_takeTriple (s : ScanState) {opening content closing : TokenKind}
    (silent : ∀ kind ∈ [opening, content, closing], kind.isSilent = true) (width length : Nat) :
    (s.takeTriple opening content closing width length).Quiet :=
  ⟨rfl, by simpa [takeTriple, token] using silent⟩

theorem quiet_takeBody (s : ScanState) {kind : TokenKind} (silent : kind.isSilent = true)
    (lead : Nat) (closer : Chars) (fault : LexFault) (start : Position) :
    (s.takeBody kind lead closer fault start).Quiet := by
  unfold takeBody
  split
  · exact ⟨rfl, by simp⟩
  · exact ⟨rfl, by simpa [token] using silent⟩

theorem quiet_stepRawCode (s : ScanState) (start : Position) : (s.stepRawCode start).Quiet := by
  unfold stepRawCode
  split
  · exact ⟨rfl, by simp [token, TokenKind.isSilent]⟩
  · exact quiet_takeBody s rfl _ _ _ _

/-- Outside of directives and start tags nothing is reported. -/
theorem quiet_step (dialect : Dialect) {start : Position} {mode : Mode} {outer : List OpenMode}
    (top : s.modes = ⟨mode, start⟩ :: outer) (head : mode ≠ .directiveHead)
    (inside : ∀ name, mode ≠ .tag name) : (s.step dialect).Quiet := by
  unfold step
  rw [top]
  cases mode with
  | directiveHead => exact absurd rfl head
  | tag name => exact absurd rfl (inside name)
  | arguments =>
    simp only [stepArguments]
    split
    · exact ⟨rfl, by simp⟩
    · refine ⟨rfl, ?_⟩
      split <;> simp [token, TokenKind.isSilent]
  | echo =>
    simp only [stepEcho]
    split
    · exact ⟨rfl, by simp⟩
    · exact quiet_takeTriple s (by simp [TokenKind.isSilent]) _ _
  | comment =>
    simp only [stepComment]
    split
    · exact ⟨rfl, by simp⟩
    · exact quiet_takeTriple s (by simp [TokenKind.isSilent]) _ _
  | tagStart => exact ⟨rfl, by simp [stepTagStart, token, TokenKind.isSilent]⟩
  | attributeValue name =>
    simp only [stepValue]
    split
    · exact ⟨rfl, by simp⟩
    · exact ⟨rfl, by simp [token, TokenKind.isSilent]⟩
  | verbatim => exact quiet_takeBody s rfl _ _ _ _
  | rawCode => exact quiet_stepRawCode s start
  | rawText tag =>
    simp only [stepRawText]
    split
    · exact ⟨rfl, by simp⟩
    · refine ⟨rfl, ?_⟩
      split <;> simp [token, TokenKind.isSilent]

/-- What a step reports, followed by what the notes of later tokens call for, is what the notes of
all these tokens call for. -/
def Reports (dialect : Dialect) (step : Step) (later : List Token) : Prop :=
  step.diagnostics.map Diagnostic.notice ++
      (Note.ofTokens dialect.registry later).flatMap (Note.report dialect) =
    (Note.ofTokens dialect.registry (step.tokens ++ later)).flatMap (Note.report dialect)

theorem reports_of_quiet (dialect : Dialect) {step : Step} (quiet : step.Quiet)
    (later : List Token) : Reports dialect step later := by
  unfold Reports
  rw [quiet.diagnostics, Note.ofTokens_silent quiet.tokens]
  rfl

theorem reports_stepDirectiveHead (dialect : Dialect) (s : ScanState) (later : List Token) :
    Reports dialect (s.stepDirectiveHead dialect) later := by
  unfold stepDirectiveHead
  simp only
  split
  · exact reports_of_quiet dialect ⟨rfl, by simp⟩ later
  · have name (length : Nat) : (s.rest.take (1 + length)).drop 1 = (s.rest.drop 1).take length := by
      rw [List.drop_take, Nat.add_sub_cancel_left]
    unfold Reports
    simp only [List.cons_append, List.nil_append, Note.ofTokens, Note.ofToken, token, name,
      List.flatMap_cons, Note.report, Registry.has, Option.not_isSome]
    split <;> rfl

theorem value_of_stands {after : Place} (stands : s.Stands after) {entry : Chars} {start : Position}
    {outer : List OpenMode} (top : s.modes = ⟨.attributeValue entry, start⟩ :: outer) :
    ∃ name, after = .value name := by
  cases stands <;> simp_all

theorem tag_of_stands {after : Place} (stands : s.Stands after) {name : Chars} {start : Position}
    {outer : List OpenMode} (top : s.modes = ⟨.tag name, start⟩ :: outer) :
    ∃ name, after = .tag name := by
  cases stands <;> simp_all

theorem nextIs_of_value {name : Chars} {n : Nat} {tokens : List Token}
    (reads : Reads source false (.value name) n tokens) :
    (Item.nextIs .attributeValue tokens).isSome = true := by
  cases reads with
  | stop cut => cases cut
  | value kind => simp [Item.nextIs, kind]

/-- The reader and the items agree on which attributes have a value. -/
theorem reports_stepAttribute (dialect : Dialect) {start : Position} {name : Chars}
    {outer : List OpenMode} (top : s.modes = ⟨.tag name, start⟩ :: outer) {next : ScanState}
    (moves : (s.stepAttribute dialect).next = .ok next) {after : Place} (stands : next.Stands after)
    {later : List Token} (reads : Reads source false after next.offset later) :
    Reports dialect (s.stepAttribute dialect) later := by
  unfold stepAttribute at moves ⊢
  simp only at moves ⊢
  generalize Lookahead.attributeNameLength dialect.registry s.rest = length at *
  have valued : (Item.nextIs .attributeValue later).isSome =
      decide (((s.skip length).rest.drop
        (Lookahead.countWhile isTagSpace (s.skip length).rest)).head? = some '=') := by
    split at moves
    · next equals =>
      cases moves
      obtain ⟨_, rfl⟩ := value_of_stands stands rfl
      rw [nextIs_of_value reads, decide_eq_true equals]
    · next none =>
      cases moves
      obtain ⟨_, rfl⟩ := tag_of_stands stands top
      rw [Item.nextIs_attributeValue reads, decide_eq_false none]
      rfl
  unfold Reports
  simp only [List.cons_append, List.nil_append, Note.ofTokens, Note.ofToken, token, valued]
  split
  · rfl
  · rfl

theorem reports_stepTag (dialect : Dialect) {start : Position} {name : Chars}
    {outer : List OpenMode} (top : s.modes = ⟨.tag name, start⟩ :: outer) {next : ScanState}
    (moves : (s.stepTag dialect name).next = .ok next) {after : Place} (stands : next.Stands after)
    {later : List Token} (reads : Reads source false after next.offset later) :
    Reports dialect (s.stepTag dialect name) later := by
  unfold stepTag at moves ⊢
  simp only at moves ⊢
  split
  · exact reports_of_quiet dialect ⟨rfl, by simp⟩ later
  split
  · exact reports_of_quiet dialect ⟨rfl, by simp [token, TokenKind.isSilent]⟩ later
  split
  · exact reports_of_quiet dialect ⟨rfl, by simp [token, TokenKind.isSilent]⟩ later
  split
  · exact reports_of_quiet dialect (quiet_enter _ _) later
  split
  · exact reports_of_quiet dialect (quiet_enter _ _) later
  · next spaces closes ends comment echo =>
    simp only [spaces, closes, ends, comment, echo, if_false, Bool.false_eq_true] at moves
    exact reports_stepAttribute dialect (by simpa using top) moves stands reads

theorem reports_step (dialect : Dialect) {place : Place} (stands : s.Stands place)
    {next : ScanState} (moves : (s.step dialect).next = .ok next) {after : Place}
    (standsNext : next.Stands after) {later : List Token}
    (reads : Reads source false after next.offset later) :
    Reports dialect (s.step dialect) later := by
  cases stands with
  | text top | rawEnd top =>
    unfold step
    rw [top]
    exact reports_of_quiet dialect (quiet_stepText s) later
  | directiveHead top =>
    unfold step
    rw [top]
    exact reports_stepDirectiveHead dialect s later
  | tag top =>
    unfold step at moves ⊢
    rw [top] at moves ⊢
    exact reports_stepTag dialect top moves standsNext reads
  | arguments top | echo top | comment top | tagStart top | verbatim top | rawCode top | rawText top
  | tagEcho top | tagComment top | value top =>
    exact reports_of_quiet dialect (quiet_step dialect top (by simp) (by simp)) later

/-- A run that ends without fault reports what its notes call for. -/
theorem notices_run (dialect : Dialect) (s : ScanState) : ∀ place, s.On source → s.Stands place →
    (s.run dialect).fault = none →
    (s.run dialect).diagnostics.map Diagnostic.notice =
      (Note.ofTokens dialect.registry (s.run dialect).tokens).flatMap (Note.report dialect) := by
  induction s using run_induction dialect with
  | ended s atEnd =>
    intro _ _ _ _
    unfold finish
    split <;> rfl
  | failed s fault ahead h =>
    intro _ _ _ whole
    cases whole
  | stepped s next ahead h ih =>
    intro place on stands whole
    have fault : (next.run dialect).fault = none := whole
    obtain ⟨onNext, after, standsNext, _⟩ := (leads_step dialect on ahead stands).goesOn next h
    have reads := reads_run dialect next after onNext standsNext
    rw [fault] at reads
    have reports := reports_step dialect stands h standsNext reads
    unfold Reports at reports
    show (_ ++ _ : List Diagnostic).map _ = _
    rw [List.map_append, ih after onNext standsNext fault, reports]
    rfl

end ScanState

/-- What the reader reports about a template without fault is what its notes call for. -/
theorem notices_scan (dialect : Dialect) (source : Chars)
    (read : (scan dialect source).fault = none) :
    (scan dialect source).diagnostics.map Diagnostic.notice =
      (Note.ofTokens dialect.registry (scan dialect source).tokens).flatMap
        (Note.report dialect) := by
  have on := ScanState.on_start source
  unfold scan at read ⊢
  simp only at read ⊢
  split
  · next length front =>
    simp only [front] at read
    have later := ScanState.notices_run dialect _ .content (on.skip length) (.text rfl) read
    show ([] ++ _ : List Diagnostic).map _ = _
    rw [List.nil_append, later]
    exact congrArg _ (Note.ofTokens_cons_silent rfl rfl dialect.registry _).symm
  · next front =>
    simp only [front] at read
    exact ScanState.notices_run dialect _ .content on (.text rfl) read

end BladeTemplate
