import BladeTemplate.Proofs.Coverage
import BladeTemplate.Proofs.Positions

/-!
# Constructs that are left open

A fault names a construct that the template leaves open. Its position is where that construct
begins: everything before it has been read, the construct is there, and its end is not.

* `LeftOpen` says for each kind of fault what stands at its position;
* `ScanState.Begun` is the invariant of reading: every open mode keeps where its construct begins;
* `leftOpen_scan` is what follows for whole templates.
-/

namespace BladeTemplate

open Text Lookahead

/-- The position is the one of an offset of the text. -/
def Position.Within (source : Chars) (position : Position) : Prop :=
  ∃ n ≤ source.length, position = .ofOffset source n

/-! ## What has been read -/

/-- The offset where the tokens end. -/
def readTo (tokens : List Token) : Nat :=
  (tokens.getLast?.map (·.stop.offset)).getD 0

/-- The tokens end in a start tag of the given name, which begins at `start` and is still open. -/
structure InTag (source : Chars) (start : Position) (name : Chars) (tokens : List Token) :
    Prop where
  parts : ∃ before opening inside kind m, tokens = before ++ opening :: inside ∧
    opening.kind = .tagOpen kind ∧ opening.start = start ∧ opening.At source start.offset m ∧
    opening.value = '<' :: name ∧ ∀ token ∈ inside, token.kind ≠ .tagClose

/-- The tokens end at offset `n`, or in a start tag with nothing but white space up to there. -/
inductive ReadUpTo (source : Chars) (tokens : List Token) (n : Nat) : Prop
  | text : readTo tokens = n → ReadUpTo source tokens n
  | tag {start : Position} {name : Chars} : InTag source start name tokens →
      TagGap source (readTo tokens) n → ReadUpTo source tokens n

/-- What a fault says about the template: after the tokens read, the construct that it names begins
at the position and is left open.

An argument list belongs to the directive before it; a value stands behind an attribute name and its
equals sign, and the body of an element behind the end of its start tag. -/
inductive LeftOpen (source : Chars) (tokens : List Token) : LexFault → Position → Prop
  | argumentList {before : List Token} {name : Token} {written : Chars} {m n : Nat} {rest : Chars}
      {start : Position} : tokens = before ++ [name] → name.kind = .directiveName →
      name.start = start → name.At source start.offset m → name.value = '@' :: written →
      InlineGap source m n → source.drop n = '(' :: rest → groupLength ('(' :: rest) = none →
      LeftOpen source tokens .argumentList start
  | echo {style : EchoStyle} {rest : Chars} {start : Position} :
      ReadUpTo source tokens start.offset → source.drop start.offset = style.opener ++ rest →
      findDelimiter style.closer rest = none → LeftOpen source tokens (.echo style) start
  | comment {rest : Chars} {start : Position} :
      ReadUpTo source tokens start.offset → source.drop start.offset = commentOpener ++ rest →
      indexOf commentCloser rest = none → LeftOpen source tokens .comment start
  | startTag {name : Chars} {start : Position} : InTag source start name tokens →
      TagGap source (readTo tokens) source.length → LeftOpen source tokens .startTag start
  | attributeValue {before : List Token} {name : Token} {kind : AttributeKind} {start : Position} :
      tokens = before ++ [name] → name.kind = .attributeName kind →
      EqualsGap source name.stop.offset start.offset →
      valueLength (source.drop start.offset) = none →
      LeftOpen source tokens .attributeValue start
  | missingValue {before : List Token} {name : Token} {kind : AttributeKind} {start : Position} :
      tokens = before ++ [name] → name.kind = .attributeName kind →
      EqualsGap source name.stop.offset start.offset → start.offset = source.length →
      LeftOpen source tokens (.missingValue name.value) start
  | verbatim {rest : Chars} {start : Position} : readTo tokens = start.offset →
      source.drop start.offset = '@' :: rest → indexOf "@endverbatim".toList (rest.drop 8) = none →
      LeftOpen source tokens .verbatim start
  | rawCode {rest : Chars} {start : Position} : readTo tokens = start.offset →
      source.drop start.offset = '@' :: rest → indexOf "@endphp".toList (rest.drop 3) = none →
      LeftOpen source tokens .rawCode start
  | rawText {before : List Token} {closing : Token} {name : Chars} {opened start : Position} :
      tokens = before ++ [closing] → InTag source opened name before →
      Tag.isOneOf Tag.rawTextNames name = true → closing.kind = .tagClose →
      closing.value = ['>'] → closing.stop.offset = start.offset →
      rawTextLength name (source.drop start.offset) = none →
      LeftOpen source tokens (.rawText name) start
  | missingRawText {before : List Token} {closing : Token} {name : Chars}
      {opened start : Position} : tokens = before ++ [closing] → InTag source opened name before →
      Tag.isOneOf Tag.rawTextNames name = true → closing.kind = .tagClose →
      closing.value = ['>'] → closing.stop.offset = start.offset → start.offset = source.length →
      LeftOpen source tokens (.missingRawText name) start
  | endTag {rest : Chars} {start : Position} : readTo tokens = start.offset →
      source.drop start.offset = '<' :: '/' :: rest → '>' ∉ rest →
      LeftOpen source tokens .endTag start
  | markupComment {rest : Chars} {start : Position} : readTo tokens = start.offset →
      source.drop start.offset = "<!--".toList ++ rest → indexOf "-->".toList rest = none →
      LeftOpen source tokens .markupComment start
  | characterData {rest : Chars} {start : Position} : readTo tokens = start.offset →
      source.drop start.offset = "<![CDATA[".toList ++ rest → indexOf "]]>".toList rest = none →
      LeftOpen source tokens .characterData start
  | declaration {rest : Chars} {start : Position} : readTo tokens = start.offset →
      source.drop start.offset = "<!".toList ++ rest → '>' ∉ rest →
      LeftOpen source tokens .declaration start

section read

variable {source : Chars} {start : Position} {name : Chars} {before tokens : List Token}
  {last : Token}

theorem readTo_append (ends : tokens.getLast? = some last) :
    readTo (before ++ tokens) = last.stop.offset := by
  simp [readTo, List.getLast?_append, ends]

theorem readTo_concat (before : List Token) (token : Token) :
    readTo (before ++ [token]) = token.stop.offset :=
  readTo_append rfl

theorem InTag.append (inTag : InTag source start name before)
    (within : ∀ token ∈ tokens, token.kind ≠ .tagClose) :
    InTag source start name (before ++ tokens) := by
  obtain ⟨earlier, opening, inside, kind, m, rfl, opens, begins, placed, value, still⟩ :=
    inTag.parts
  refine ⟨earlier, opening, inside ++ tokens, kind, m, ?_, opens, begins, placed, value, ?_⟩
  · rw [List.append_assoc, List.cons_append]
  · rw [List.forall_mem_append]
    exact ⟨still, within⟩

/-- A part of a text that is not empty begins before the end of the text. -/
theorem lt_length_of_cut {text : Chars} {a b : Nat} (some : cut text a b ≠ []) :
    a < text.length := by
  rw [← Nat.not_le]
  intro past
  exact some (by rw [cut, List.drop_eq_nil_of_le past, List.take_nil])

/-- Where a character is not found, it does not occur. -/
theorem not_mem_of_indexOf {needle : Char} {text : Chars} (none : indexOf [needle] text = none) :
    needle ∉ text := by
  induction text with
  | nil => simp
  | cons c text ih =>
    unfold indexOf at none
    split at none
    · cases none
    · next other =>
      rw [List.mem_cons, not_or]
      refine ⟨?_, ih (Option.map_eq_none_iff.1 none)⟩
      rintro rfl
      exact other (by simp [startsWith])

end read

/-! ## Open modes -/

namespace ScanState

variable {source : Chars} {s : ScanState} {before : List Token}

/-- Around a construct that starts at an offset there is plain text, or a start tag that is still
open. -/
inductive Around (source : Chars) (before : List Token) (n : Nat) : List OpenMode → Prop
  | text : readTo before = n → Around source before n []
  | tag {start : Position} {name : Chars} : InTag source start name before →
      TagGap source (readTo before) n → Around source before n [⟨.tag name, start⟩]

/-- What has been read of the innermost construct, and where it begins. A mode is opened where its
construct begins; only an argument list and the entries of a start tag come after something of their
construct that has been read. -/
inductive Begun (source : Chars) (before : List Token) (s : ScanState) : Prop
  | between : Around source before s.offset s.modes → Begun source before s
  | construct {mode : Mode} {outer : List OpenMode} : s.modes = ⟨mode, s.position⟩ :: outer →
      mode ∈ [.directiveHead, .echo, .comment, .tagStart] →
      Around source before s.offset outer → Begun source before s
  | verbatim {rest : Chars} : s.modes = [⟨.verbatim, s.position⟩] → s.rest = '@' :: rest →
      readTo before = s.offset → Begun source before s
  | rawCode : s.modes = [⟨.rawCode, s.position⟩] →
      startsWith "<?".toList s.rest = true ∨ s.rest.head? = some '@' →
      readTo before = s.offset → Begun source before s
  | arguments {earlier : List Token} {name : Token} {written rest : Chars} {m : Nat} :
      s.modes = [⟨.arguments, name.start⟩] → before = earlier ++ [name] →
      name.kind = .directiveName → name.At source name.start.offset m →
      name.value = '@' :: written → InlineGap source m s.offset → s.rest = '(' :: rest →
      Begun source before s
  | value {earlier : List Token} {name : Token} {kind : AttributeKind} {start : Position}
      {tag : Chars} : s.modes = [⟨.attributeValue name.value, s.position⟩, ⟨.tag tag, start⟩] →
      InTag source start tag before → before = earlier ++ [name] →
      name.kind = .attributeName kind → EqualsGap source name.stop.offset s.offset →
      Begun source before s
  | rawText {earlier : List Token} {closing : Token} {start : Position} {name : Chars} :
      s.modes = [⟨.rawText name, s.position⟩] → before = earlier ++ [closing] →
      InTag source start name earlier → Tag.isOneOf Tag.rawTextNames name = true →
      closing.kind = .tagClose → closing.value = ['>'] → closing.stop.offset = s.offset →
      Begun source before s

/-- What one step does: it goes on where a construct begins, or fails at one that is left open. -/
structure Proceeds (source : Chars) (before : List Token) (step : Step) : Prop where
  goesOn : ∀ next, step.next = .ok next → next.Begun source (before ++ step.tokens)
  fails : ∀ fault position, step.next = .error (fault, position) →
    position.Within source ∧ LeftOpen source (before ++ step.tokens) fault position

theorem Sited.within (sited : s.Sited source) : s.position.Within source :=
  ⟨s.offset, sited.on.bound, sited.position⟩

theorem Around.readUpTo {n : Nat} {outer : List OpenMode} (around : Around source before n outer) :
    ReadUpTo source before n := by
  cases around with
  | text upTo => exact .text upTo
  | tag inTag gap => exact .tag inTag gap

/-- Tokens of a construct have been read; around it nothing changes. -/
theorem Around.append {n m : Nat} {outer : List OpenMode} (around : Around source before n outer)
    {tokens : List Token} {last : Token} (ends : tokens.getLast? = some last)
    (stop : last.stop.offset = m) (within : ∀ token ∈ tokens, token.kind ≠ .tagClose) :
    Around source (before ++ tokens) m outer := by
  have upTo : readTo (before ++ tokens) = m := (readTo_append ends).trans stop
  cases around with
  | text => exact .text upTo
  | tag inTag =>
    refine .tag (inTag.append within) ?_
    rw [upTo]
    exact .refl source m

theorem proceeds_next {step : Step} {next : ScanState} (moves : step.next = .ok next)
    (begun : next.Begun source (before ++ step.tokens)) : Proceeds source before step := by
  refine ⟨?_, ?_⟩
  · intro other same
    rw [moves] at same
    cases same
    exact begun
  · intro fault position same
    rw [moves] at same
    cases same

theorem proceeds_fault {step : Step} {fault : LexFault} {position : Position}
    (silent : step.tokens = []) (failed : step.next = .error (fault, position))
    (within : position.Within source) (leftOpen : LeftOpen source before fault position) :
    Proceeds source before step := by
  refine ⟨?_, ?_⟩
  · intro next same
    rw [failed] at same
    cases same
  · intro _ _ same
    rw [failed] at same
    cases same
    rw [silent, List.append_nil]
    exact ⟨within, leftOpen⟩

/-- Reports do not matter to what has been read. -/
theorem Proceeds.reported {tokens : List Token}
    {next : Except (LexFault × Position) ScanState} (diagnostics : List Diagnostic)
    (events : List Event) (proceeds : Proceeds source before { tokens, next }) :
    Proceeds source before { tokens, diagnostics, events, next } :=
  ⟨proceeds.goesOn, proceeds.fails⟩

/-! ## Steps in plain text -/

theorem proceeds_take (inText : s.modes = []) (kind : TokenKind) (length : Nat) :
    Proceeds source before (s.take kind length) := by
  refine proceeds_next rfl (.between ?_)
  rw [show (s.skip length).modes = [] from inText]
  exact .text (readTo_concat before (s.token kind length))

theorem proceeds_takeThrough (sited : s.Sited source) (inText : s.modes = []) (kind : TokenKind)
    (lead : Nat) (closer : Chars) {fault : LexFault}
    (leftOpen : indexOf closer (s.rest.drop lead) = none → LeftOpen source before fault s.position) :
    Proceeds source before (s.takeThrough kind lead closer fault) := by
  unfold takeThrough
  split
  · exact proceeds_take inText kind _
  · next none => exact proceeds_fault rfl rfl sited.within (leftOpen none)

theorem proceeds_stepEndTag (sited : s.Sited source) (inText : s.modes = [])
    (upTo : readTo before = s.offset) {rest : Chars} (ahead : s.rest = '<' :: '/' :: rest) :
    Proceeds source before s.stepEndTag := by
  refine proceeds_takeThrough sited inText _ _ _ ?_
  intro none
  have text : source.drop s.offset = '<' :: '/' :: rest := by rw [← sited.on.rest, ahead]
  refine .endTag upTo text ?_
  -- The name has no angle bracket, so the search misses none.
  rw [ahead, Nat.add_comm 2] at none
  simp only [List.drop_succ_cons, List.drop_zero] at none
  rw [← List.take_append_drop (Tag.nameLength rest) rest, List.mem_append, not_or]
  refine ⟨?_, not_mem_of_indexOf none⟩
  intro member
  exact absurd (take_countWhile Tag.isNameChar rest _ member) (by decide)

theorem begun_push (inText : s.modes = []) (upTo : readTo before = s.offset) {mode : Mode}
    (plain : mode ∈ [.directiveHead, .echo, .comment, .tagStart]) :
    (s.push mode).Begun source before := by
  refine .construct rfl plain ?_
  rw [inText]
  exact .text upTo

theorem proceeds_enter (inText : s.modes = []) (upTo : readTo before = s.offset) {mode : Mode}
    (plain : mode ∈ [.directiveHead, .echo, .comment, .tagStart]) :
    Proceeds source before (s.enter mode) := by
  refine proceeds_next rfl ?_
  rw [show (s.enter mode).tokens = [] from rfl, List.append_nil]
  exact begun_push inText upTo plain

theorem proceeds_stepBang (sited : s.Sited source) (inText : s.modes = [])
    (upTo : readTo before = s.offset) : Proceeds source before s.stepBang := by
  have text {lead rest : Chars} (ahead : s.rest = lead ++ rest) :
      source.drop s.offset = lead ++ rest := by rw [← sited.on.rest, ahead]
  unfold stepBang
  split
  · next starts =>
    obtain ⟨rest, ahead⟩ := startsWith_iff.1 starts
    refine proceeds_takeThrough sited inText _ _ _ ?_
    intro none
    rw [ahead] at none
    exact .markupComment upTo (text ahead) none
  split
  · next starts =>
    obtain ⟨rest, ahead⟩ := startsWith_iff.1 starts
    refine proceeds_takeThrough sited inText _ _ _ ?_
    intro none
    rw [ahead] at none
    exact .characterData upTo (text ahead) none
  split
  · next starts =>
    obtain ⟨rest, ahead⟩ := startsWith_iff.1 (Bool.and_eq_true_iff.1 starts).1
    refine proceeds_takeThrough sited inText _ _ _ ?_
    intro none
    rw [ahead] at none
    exact .declaration upTo (text ahead) (not_mem_of_indexOf none)
  split
  · next starts =>
    refine proceeds_next rfl ?_
    rw [show (s.enter .rawCode).tokens = [] from rfl, List.append_nil]
    exact .rawCode (by rw [modes_push, inText]; rfl) (.inl starts) upTo
  · exact .reported _ _ (proceeds_take inText .text 1)

theorem proceeds_stepConstruct (sited : s.Sited source) (inText : s.modes = [])
    (upTo : readTo before = s.offset) : Proceeds source before s.stepConstruct := by
  unfold stepConstruct
  split
  · exact proceeds_enter inText upTo (by simp)
  split
  · exact proceeds_enter inText upTo (by simp)
  split
  · exact proceeds_enter inText upTo (by simp)
  split
  · next starts =>
    obtain ⟨rest, ahead⟩ := startsWith_iff.1 starts
    exact proceeds_stepEndTag sited inText upTo ahead
  split
  · exact proceeds_stepBang sited inText upTo
  · exact proceeds_enter inText upTo (by simp)

theorem proceeds_stepText (sited : s.Sited source) (inText : s.modes = [])
    (upTo : readTo before = s.offset) : Proceeds source before s.stepText := by
  unfold stepText
  simp only
  split
  · exact proceeds_stepConstruct sited inText upTo
  split
  · exact proceeds_take inText .text _
  · -- The construct begins where the text before it ends.
    have construct := @proceeds_stepConstruct source (s.skip (textRunLength s.previous s.rest))
      (before ++ [s.token .text (textRunLength s.previous s.rest)]) (sited.skip _) inText
      (readTo_concat before (s.token .text _))
    refine ⟨?_, ?_⟩
    · intro next moves
      have begun := construct.goesOn next moves
      rwa [List.append_assoc] at begun
    · intro fault position failed
      have fails := construct.fails fault position failed
      rwa [List.append_assoc] at fails

/-! ## Steps inside a construct -/

/-- The construct that began as one mode goes on as another. -/
theorem become_of_top {mode : Mode} {start : Position} {outer : List OpenMode}
    (top : s.modes = ⟨mode, start⟩ :: outer) (after : Mode) :
    s.become after = { s with modes := ⟨after, start⟩ :: outer } := by
  simp [become, top]

theorem proceeds_stepDirectiveHead (dialect : Dialect) {rest : Chars} (on : s.On source)
    (top : s.modes = [⟨.directiveHead, s.position⟩]) (upTo : readTo before = s.offset)
    (ahead : s.rest = '@' :: rest) : Proceeds source before (s.stepDirectiveHead dialect) := by
  unfold stepDirectiveHead
  simp only
  split
  · -- A body that is kept begins where its directive does.
    refine proceeds_next rfl ?_
    rw [become_of_top top, List.append_nil]
    split
    · exact .verbatim rfl ahead upTo
    · exact .rawCode rfl (.inr (by simp [ahead])) upTo
  · have written := value_directiveName ahead (directiveNameLength (s.rest.drop 1))
    refine .reported _ _ ?_
    split
    · refine proceeds_next rfl (.between ?_)
      rw [modes_pop, modes_skip, top]
      exact .text (readTo_concat before (s.token .directiveName _))
    · next offset found =>
      obtain ⟨gap, tail, atOpen⟩ := gap_of_argumentsOffset on found
      refine proceeds_next rfl ?_
      rw [become_of_top (s := (s.skip _).skip _) top]
      exact .arguments rfl rfl rfl (on.token_at _ _) written gap atOpen

/-- A construct that ends here, whose tokens are followed by what stands around it. -/
theorem proceeds_pop {outer : List OpenMode} {past : ScanState} {tokens : List Token}
    {last : Token} (modes : past.modes.tail = outer) {n : Nat}
    (around : Around source before n outer) (ends : tokens.getLast? = some last)
    (stop : last.stop = past.position) (within : ∀ token ∈ tokens, token.kind ≠ .tagClose) :
    Proceeds source before { tokens, next := .ok past.pop } := by
  refine proceeds_next rfl (.between ?_)
  rw [modes_pop, modes]
  exact around.append ends (congrArg Position.offset stop) within

theorem proceeds_stepArguments (on : s.On source) {earlier : List Token} {name : Token}
    {written rest : Chars} {m : Nat} (top : s.modes = [⟨.arguments, name.start⟩])
    (split : before = earlier ++ [name]) (kind : name.kind = .directiveName)
    (sited : name.Sited source) (placed : name.At source name.start.offset m)
    (value : name.value = '@' :: written) (gap : InlineGap source m s.offset)
    (ahead : s.rest = '(' :: rest) : Proceeds source before (s.stepArguments name.start) := by
  unfold stepArguments
  split
  · next none =>
    have bound : name.start.offset ≤ source.length :=
      Nat.le_trans placed.ordered (Nat.le_trans gap.ordered on.bound)
    refine proceeds_fault rfl rfl ⟨_, bound, sited.start⟩ ?_
    rw [ahead] at none
    exact .argumentList split kind rfl placed value gap (by rw [← on.rest, ahead]) none
  · exact proceeds_pop (by rw [modes_skip, modes_skip, modes_skip, top]; rfl) (.text rfl)
      List.getLast?_concat rfl (by split <;> simp [token])

theorem proceeds_takeTriple {outer : List OpenMode} (modes : s.modes.tail = outer)
    (around : Around source before s.offset outer) {opening content closing : TokenKind}
    (within : ∀ kind ∈ [opening, content, closing], kind ≠ .tagClose) (width length : Nat) :
    Proceeds source before (s.takeTriple opening content closing width length) :=
  proceeds_pop modes around rfl rfl (by simpa [token] using within)

theorem proceeds_stepEcho (sited : s.Sited source) {outer : List OpenMode}
    (modes : s.modes.tail = outer) (around : Around source before s.offset outer)
    {style : EchoStyle} (starts : EchoStyle.startOf s.rest = some style) :
    Proceeds source before (s.stepEcho s.position) := by
  unfold stepEcho
  simp only [starts, Option.getD_some]
  split
  · next none =>
    obtain ⟨rest, ahead⟩ := startOf_spec starts
    rw [ahead, ← style.length_opener, List.drop_left] at none
    have text : source.drop s.offset = style.opener ++ rest := by rw [← sited.on.rest, ahead]
    exact proceeds_fault rfl rfl sited.within (.echo around.readUpTo text none)
  · exact proceeds_takeTriple modes around (by simp) _ _

theorem proceeds_stepComment (sited : s.Sited source) {outer : List OpenMode}
    (modes : s.modes.tail = outer) (around : Around source before s.offset outer) {rest : Chars}
    (ahead : s.rest = commentOpener ++ rest) :
    Proceeds source before (s.stepComment s.position) := by
  unfold stepComment
  split
  · next none =>
    rw [ahead] at none
    have text : source.drop s.offset = commentOpener ++ rest := by rw [← sited.on.rest, ahead]
    exact proceeds_fault rfl rfl sited.within (.comment around.readUpTo text none)
  · exact proceeds_takeTriple modes around (by simp) _ _

/-! ## Steps of start tags -/

theorem proceeds_stepTagStart (on : s.On source) (top : s.modes = [⟨.tagStart, s.position⟩])
    {rest : Chars} (ahead : s.rest = '<' :: rest) : Proceeds source before s.stepTagStart := by
  unfold stepTagStart
  simp only
  have written : (s.token (.tagOpen (Tag.kindOf ((s.rest.drop 1).take
      (Tag.nameLength (s.rest.drop 1))))) (1 + Tag.nameLength (s.rest.drop 1))).value =
      '<' :: (s.rest.drop 1).take (Tag.nameLength (s.rest.drop 1)) := by
    unfold token
    simp only
    rw [ahead, Nat.add_comm 1, List.take_succ_cons]
    rfl
  refine proceeds_next rfl (.between ?_)
  rw [become_of_top (s := s.skip _) top]
  refine .tag ⟨before, _, [], _, _, rfl, rfl, rfl, on.token_at _ _, written, by simp⟩ ?_
  rw [readTo_concat]
  exact .refl source _

theorem proceeds_stepAttribute (dialect : Dialect) (on : s.On source) {start : Position}
    {name : Chars} (top : s.modes = [⟨.tag name, start⟩]) (inTag : InTag source start name before) :
    Proceeds source before (s.stepAttribute dialect) := by
  have onName := on.skip (attributeNameLength dialect.registry s.rest)
  unfold stepAttribute
  refine .reported _ _ ?_
  split
  · next sign =>
    refine proceeds_next rfl (.value ?_ (inTag.append (by simp [token])) rfl rfl
      (equalsGap_skip onName sign))
    rw [modes_push, modes_skip, modes_skip, modes_skip, top]
    rfl
  · refine proceeds_next rfl (.between ?_)
    rw [modes_skip, top]
    refine .tag (inTag.append (by simp [token])) ?_
    rw [readTo_concat]
    exact .refl source _

theorem proceeds_stepTag (dialect : Dialect) (on : s.On source) {start : Position} {name : Chars}
    (top : s.modes = [⟨.tag name, start⟩]) (inTag : InTag source start name before)
    (gap : TagGap source (readTo before) s.offset) :
    Proceeds source before (s.stepTag dialect name) := by
  have pastGap := gap.trans on.tagGap
  have onPast := on.skip (countWhile isTagSpace s.rest)
  have topPast : (s.skip (countWhile isTagSpace s.rest)).modes = [⟨.tag name, start⟩] := top
  unfold stepTag
  simp only
  generalize s.skip (countWhile isTagSpace s.rest) = past at *
  have around : Around source before past.offset past.modes := by
    rw [topPast]
    exact .tag inTag pastGap
  have entered (mode : Mode) (plain : mode ∈ [.directiveHead, .echo, .comment, .tagStart]) :
      Proceeds source before (past.enter mode) := by
    refine proceeds_next rfl (.construct rfl plain ?_)
    rw [show (past.enter mode).tokens = [] from rfl, List.append_nil]
    exact around
  split
  · refine proceeds_next rfl (.between ?_)
    rw [List.append_nil]
    exact around
  split
  · refine proceeds_next rfl (.between ?_)
    rw [modes_pop, modes_skip, topPast]
    exact .text (readTo_concat before (past.token .tagClose 2))
  split
  · next ends =>
    obtain ⟨tail, ahead⟩ := List.head?_eq_some_iff.1 ends
    refine proceeds_next rfl ?_
    split
    · next raw =>
      have angle : past.rest = ['>'] ++ tail := ahead
      refine .rawText ?_ rfl inTag raw rfl (value_token angle _ rfl) rfl
      rw [modes_push, modes_pop, modes_skip, topPast]
      rfl
    · refine .between ?_
      rw [modes_pop, modes_skip, topPast]
      exact .text (readTo_concat before (past.token .tagClose 1))
  split
  · exact entered .comment (by simp)
  split
  · exact entered .echo (by simp)
  · exact proceeds_stepAttribute dialect onPast topPast inTag

theorem proceeds_stepValue (sited : s.Sited source) {start : Position} {tag : Chars}
    {earlier : List Token} {name : Token} {kind : AttributeKind}
    (top : s.modes = [⟨.attributeValue name.value, s.position⟩, ⟨.tag tag, start⟩])
    (inTag : InTag source start tag before) (split : before = earlier ++ [name])
    (named : name.kind = .attributeName kind)
    (gap : EqualsGap source name.stop.offset s.offset) :
    Proceeds source before (s.stepValue s.position) := by
  unfold stepValue
  split
  · next none =>
    rw [sited.on.rest] at none
    exact proceeds_fault rfl rfl sited.within (.attributeValue split named gap none)
  · refine proceeds_next rfl (.between ?_)
    rw [modes_pop, modes_skip, top]
    refine .tag (inTag.append (by simp [token])) ?_
    rw [readTo_concat]
    exact .refl source _

/-! ## Steps of bodies that are kept -/

theorem proceeds_body {mode : OpenMode} (top : s.modes = [mode]) (kind : TokenKind)
    (length : Nat) :
    Proceeds source before { tokens := [s.token kind length], next := .ok (s.skip length).pop } := by
  refine proceeds_next rfl (.between ?_)
  rw [modes_pop, modes_skip, top]
  exact .text (readTo_concat before (s.token kind length))

theorem proceeds_takeBody (sited : s.Sited source) {mode : OpenMode} (top : s.modes = [mode])
    (kind : TokenKind) (lead : Nat) (closer : Chars) {fault : LexFault}
    (leftOpen : indexOf closer (s.rest.drop lead) = none → LeftOpen source before fault s.position) :
    Proceeds source before (s.takeBody kind lead closer fault s.position) := by
  unfold takeBody
  split
  · next none => exact proceeds_fault rfl rfl sited.within (leftOpen none)
  · exact proceeds_body top kind _

theorem proceeds_stepRawCode (sited : s.Sited source) {mode : OpenMode} (top : s.modes = [mode])
    (upTo : readTo before = s.offset)
    (ahead : startsWith "<?".toList s.rest = true ∨ s.rest.head? = some '@') :
    Proceeds source before (s.stepRawCode s.position) := by
  unfold stepRawCode
  split
  · exact proceeds_body top .rawCode _
  · next directive =>
    obtain ⟨rest, head⟩ := List.head?_eq_some_iff.1 (ahead.resolve_left directive)
    refine proceeds_takeBody sited top .rawCode 4 _ ?_
    intro none
    rw [head] at none
    exact .rawCode upTo (by rw [← head]; exact sited.on.rest.symm) none

theorem proceeds_stepRawText (sited : s.Sited source) {earlier : List Token} {closing : Token}
    {start : Position} {name : Chars} (top : s.modes = [⟨.rawText name, s.position⟩])
    (split : before = earlier ++ [closing]) (inTag : InTag source start name earlier)
    (raw : Tag.isOneOf Tag.rawTextNames name = true) (closes : closing.kind = .tagClose)
    (value : closing.value = ['>']) (stop : closing.stop.offset = s.offset) :
    Proceeds source before (s.stepRawText name s.position) := by
  unfold stepRawText
  split
  · next none =>
    rw [sited.on.rest] at none
    exact proceeds_fault rfl rfl sited.within (.rawText split inTag raw closes value stop none)
  · next length _ =>
    refine proceeds_next rfl (.between ?_)
    rw [modes_pop, modes_skip, top]
    refine .text ?_
    simp only
    split
    · next empty =>
      rw [List.append_nil, split, readTo_concat, stop, empty]
      rfl
    · exact readTo_concat before (s.token (.rawText (lower name)) length)

/-! ## Runs -/

section stands

variable {place : Place} {start : Position} {outer : List OpenMode}

theorem Stands.at_sign (stands : s.Stands place)
    (top : s.modes = ⟨.directiveHead, start⟩ :: outer) : outer = [] ∧ ∃ rest, s.rest = '@' :: rest := by
  cases stands <;> simp_all

theorem Stands.angle (stands : s.Stands place) (top : s.modes = ⟨.tagStart, start⟩ :: outer) :
    outer = [] ∧ ∃ rest, s.rest = '<' :: rest := by
  cases stands <;> simp_all

theorem Stands.echoOpener (stands : s.Stands place) (top : s.modes = ⟨.echo, start⟩ :: outer) :
    ∃ style, EchoStyle.startOf s.rest = some style := by
  cases stands <;> simp_all

theorem Stands.commentOpener (stands : s.Stands place)
    (top : s.modes = ⟨.comment, start⟩ :: outer) : ∃ rest, s.rest = commentOpener ++ rest := by
  cases stands <;> simp_all

end stands

/-- Every step goes on where a construct begins, or fails at one that is left open. -/
theorem proceeds_step (dialect : Dialect) (sited : s.Sited source) {place : Place}
    (stands : s.Stands place) (known : ∀ token ∈ before, token.Sited source)
    (begun : s.Begun source before) : Proceeds source before (s.step dialect) := by
  unfold step
  cases begun with
  | between around =>
    generalize top : s.modes = modes at around ⊢
    cases around with
    | text upTo => exact proceeds_stepText sited top upTo
    | tag inTag gap => exact proceeds_stepTag dialect sited.on top inTag gap
  | @construct mode outer top plain around =>
    rw [top]
    simp only [List.mem_cons, List.not_mem_nil, or_false] at plain
    rcases plain with rfl | rfl | rfl | rfl
    · obtain ⟨rfl, rest, ahead⟩ := stands.at_sign top
      cases around with
      | text upTo => exact proceeds_stepDirectiveHead dialect sited.on top upTo ahead
    · obtain ⟨style, starts⟩ := stands.echoOpener top
      exact proceeds_stepEcho sited (by rw [top]; rfl) around starts
    · obtain ⟨rest, ahead⟩ := stands.commentOpener top
      exact proceeds_stepComment sited (by rw [top]; rfl) around ahead
    · obtain ⟨rfl, rest, ahead⟩ := stands.angle top
      exact proceeds_stepTagStart sited.on top ahead
  | verbatim top ahead upTo =>
    rw [top]
    refine proceeds_takeBody sited top .verbatim 9 _ ?_
    intro none
    rw [ahead] at none
    exact .verbatim upTo (by rw [← ahead]; exact sited.on.rest.symm) none
  | rawCode top ahead upTo =>
    rw [top]
    exact proceeds_stepRawCode sited top upTo ahead
  | @arguments earlier name written rest m top split kind placed value gap ahead =>
    rw [top]
    have member : name ∈ before := by
      rw [split]
      exact List.mem_append_right _ List.mem_cons_self
    exact proceeds_stepArguments sited.on top split kind (known name member) placed value gap ahead
  | value top inTag split named gap =>
    rw [top]
    exact proceeds_stepValue sited top inTag split named gap
  | rawText top split inTag raw closes value stop =>
    rw [top]
    exact proceeds_stepRawText sited top split inTag raw closes value stop

/-- What is still open at the end of the text is a start tag, or a value or a body that is
missing. -/
theorem leftOpen_finish (sited : s.Sited source) {place : Place} (stands : s.Stands place)
    (known : ∀ token ∈ before, token.Sited source) (begun : s.Begun source before)
    (ended : s.rest = []) {fault : LexFault} {position : Position}
    (failed : s.finish.fault = some (fault, position)) :
    position.Within source ∧ LeftOpen source (before ++ s.finish.tokens) fault position := by
  have atEnd := sited.on.offset_of_ended ended
  unfold finish at failed ⊢
  cases begun with
  | between around =>
    generalize top : s.modes = modes at around failed ⊢
    cases around with
    | text => cases failed
    | tag inTag gap =>
      cases failed
      rw [List.append_nil]
      obtain ⟨_, opening, _, _, m, split, _, begins, placed, value, _⟩ := inTag.parts
      have member : opening ∈ before := by simp [split]
      have bound : position.offset < source.length :=
        lt_length_of_cut (by rw [← placed.value, value]; exact List.cons_ne_nil _ _)
      rw [atEnd] at gap
      refine ⟨⟨_, Nat.le_of_lt bound, ?_⟩, .startTag inTag gap⟩
      rw [← begins]
      exact (known opening member).start
  | @construct mode outer top plain around =>
    simp only [List.mem_cons, List.not_mem_nil, or_false] at plain
    rcases plain with rfl | rfl | rfl | rfl
    · obtain ⟨_, _, ahead⟩ := stands.at_sign top
      simp [ended] at ahead
    · obtain ⟨style, starts⟩ := stands.echoOpener top
      rw [ended] at starts
      cases starts
    · obtain ⟨_, ahead⟩ := stands.commentOpener top
      simp [ended, Text.commentOpener] at ahead
    · obtain ⟨_, _, ahead⟩ := stands.angle top
      simp [ended] at ahead
  | verbatim _ ahead => simp [ended] at ahead
  | rawCode _ ahead => simp [ended, startsWith] at ahead
  | arguments _ _ _ _ _ _ ahead => simp [ended] at ahead
  | value top _ split named gap =>
    simp only [top] at failed ⊢
    cases failed
    rw [List.append_nil]
    exact ⟨sited.within, .missingValue split named gap atEnd⟩
  | rawText top split inTag raw closes value stop =>
    simp only [top] at failed ⊢
    cases failed
    rw [List.append_nil]
    exact ⟨sited.within, .missingRawText split inTag raw closes value stop atEnd⟩

/-- A run that fails does so at a construct that is left open. -/
theorem leftOpen_run (dialect : Dialect) (s : ScanState) : ∀ place before, s.Sited source →
    s.Stands place → (∀ token ∈ before, token.Sited source) → s.Begun source before →
    ∀ fault position, (s.run dialect).fault = some (fault, position) →
      position.Within source ∧
        LeftOpen source (before ++ (s.run dialect).tokens) fault position := by
  induction s using run_induction dialect with
  | ended s atEnd =>
    intro place before sited stands known begun fault position failed
    exact leftOpen_finish sited stands known begun atEnd failed
  | failed s found ahead stopped =>
    intro place before sited stands known begun fault position failed
    cases failed
    exact (proceeds_step dialect sited stands known begun).fails fault position stopped
  | stepped s next ahead moves ih =>
    intro place before sited stands known begun fault position failed
    obtain ⟨_, after, standsNext, _⟩ := (leads_step dialect sited.on ahead stands).goesOn next moves
    have step := stepSited_step dialect sited
    have later := ih after (before ++ (s.step dialect).tokens) (step.next next moves) standsNext
      (List.forall_mem_append.2 ⟨known, step.tokens⟩)
      ((proceeds_step dialect sited stands known begun).goesOn next moves) fault position failed
    rwa [List.append_assoc] at later

end ScanState

/-- The fault of a template is at the position of an offset, where the construct begins that it
names and that is left open. -/
theorem leftOpen_scan (dialect : Dialect) (source : Chars) {fault : LexFault} {position : Position}
    (failed : (scan dialect source).fault = some (fault, position)) :
    position.Within source ∧ LeftOpen source (scan dialect source).tokens fault position := by
  have sited := ScanState.sited_start source
  unfold scan at failed ⊢
  simp only at failed ⊢
  split
  · next length front =>
    simp only [front] at failed
    exact ScanState.leftOpen_run dialect _ .content [_] (sited.skip length) (.text rfl)
      (List.forall_mem_singleton.2 (sited.token .frontMatter length))
      (.between (.text (readTo_concat [] _))) fault position failed
  · next front =>
    simp only [front] at failed
    exact ScanState.leftOpen_run dialect _ .content [] sited (.text rfl) (by simp)
      (.between (.text rfl)) fault position failed

end BladeTemplate
