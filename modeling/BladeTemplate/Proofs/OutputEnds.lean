import BladeTemplate.Proofs.EntriesApart
import BladeTemplate.Proofs.OneLine

/-!
# Where the output starts and ends

The output of a template starts in ink and ends with one line feed, and there is none for a template
of white space. Only code that was left open is copied with the line feeds at its end.

* `LineCall.Starts` and `LineCall.Ends` say of the texts that are asked for that the first one
  starts in ink, and that the last one ends in its line;
* `Page.starts_calls` shows the one for every node, and `Page.Closes` with `Page.closes_calls` the
  other: where a node ends in a body that is not read as markup, there is ink ahead of it;
* `render_starts_and_ends` is the result for whole templates.
-/

namespace BladeTemplate

open Text

/-! ## Requests that write nothing -/

namespace LineCall

/-- Whether a request asks for white space only, at the same level. -/
def isGap : LineCall → Bool
  | .space | .newline | .blank _ => true
  | .append _ | .raw _ | .indent | .dedent => false

/-- The text that a request is to write. -/
def text? : LineCall → Option Chars
  | .append text | .raw text => some text
  | .space | .newline | .blank _ | .indent | .dedent => none

/-- The requests ask for white space only. -/
def Gaps (calls : List LineCall) : Prop :=
  ∀ call ∈ calls, call.isGap = true

/-- The first text that the requests write starts in ink, and stands at the level they start at. -/
def Starts (calls : List LineCall) : Prop :=
  ∃ gaps call text rest, calls = gaps ++ call :: rest ∧ Gaps gaps ∧ call.text? = some text ∧
    StartsInked text

/-- The last text that the requests write ends in its line. -/
def Ends (calls : List LineCall) : Prop :=
  ∃ front call text gaps, calls = front ++ call :: gaps ∧ call.text? = some text ∧ text ≠ [] ∧
    EndsInLine text ∧ Gaps gaps

/-- The requests write something, from a start in ink to an end within its line. -/
structure Writes (calls : List LineCall) : Prop where
  starts : Starts calls
  ends : Ends calls

variable {call : LineCall} {calls more : List LineCall} {text : Chars}

theorem gaps_nil : Gaps [] := by
  intro call member
  cases member

theorem Gaps.append (first : Gaps calls) (second : Gaps more) : Gaps (calls ++ more) :=
  List.forall_mem_append.2 ⟨first, second⟩

theorem Gaps.flatMap {α : Type} {xs : List α} {ask : α → List LineCall}
    (each : ∀ x ∈ xs, Gaps (ask x)) : Gaps (xs.flatMap ask) := by
  intro call member
  obtain ⟨x, inside, asked⟩ := List.mem_flatMap.1 member
  exact each x inside call asked

theorem starts_cons (asks : call.text? = some text) (inked : StartsInked text)
    (rest : List LineCall) : Starts (call :: rest) :=
  ⟨[], call, text, rest, rfl, gaps_nil, asks, inked⟩

theorem Starts.before (starts : Starts calls) (rest : List LineCall) : Starts (calls ++ rest) := by
  obtain ⟨gaps, call, text, later, rfl, gap, asks, inked⟩ := starts
  exact ⟨gaps, call, text, later ++ rest, by simp, gap, asks, inked⟩

theorem Starts.after (starts : Starts calls) {gaps : List LineCall} (gap : Gaps gaps) :
    Starts (gaps ++ calls) := by
  obtain ⟨inner, call, text, later, rfl, innerGap, asks, inked⟩ := starts
  exact ⟨gaps ++ inner, call, text, later, by simp, gap.append innerGap, asks, inked⟩

theorem ends_concat (asks : call.text? = some text) (some_ : text ≠ []) (inLine : EndsInLine text)
    (front : List LineCall) : Ends (front ++ [call]) :=
  ⟨front, call, text, [], rfl, asks, some_, inLine, gaps_nil⟩

theorem Ends.before (ends : Ends calls) {gaps : List LineCall} (gap : Gaps gaps) :
    Ends (calls ++ gaps) := by
  obtain ⟨front, call, text, inner, rfl, asks, some_, inLine, innerGap⟩ := ends
  exact ⟨front, call, text, inner ++ gaps, by simp, asks, some_, inLine, innerGap.append gap⟩

theorem Ends.after (ends : Ends calls) (front : List LineCall) : Ends (front ++ calls) := by
  obtain ⟨inner, call, text, gaps, rfl, asks, some_, inLine, gap⟩ := ends
  exact ⟨front ++ inner, call, text, gaps, by simp, asks, some_, inLine, gap⟩

end LineCall

/-! ## What the requests make of the output -/

namespace Lines

variable {start out next : Lines} {call : LineCall} {calls : List LineCall} {text : Chars}

theorem build_eq (out : Lines) : out.build = out.newline.written := by
  rw [written, current_newline, List.append_nil]
  rfl

/-- A request for white space leaves the text as it would be if the output ended here. -/
theorem build_gap (gap : call.isGap = true) (performed : call.perform? out = some next) :
    next.build = out.build := by
  rw [build_eq, build_eq]
  cases call with
  | space =>
    cases performed
    show out.space.newline.written = out.newline.written
    rw [newline_space]
  | blank count =>
    cases performed
    show (out.blank count).newline.written = out.newline.written
    unfold blank
    split
    · unfold newline atLineStart
      split <;> rfl
    · rfl
  | newline =>
    cases performed
    show out.newline.newline.written = out.newline.written
    have ended : out.newline.atLineStart = true := by
      rw [atLineStart, current_newline]
      rfl
    rw [newline, if_pos ended]
    rfl
  | append | raw | indent | dedent => cases gap

theorem build_gaps (gaps : LineCall.Gaps calls)
    (performed : LineCall.performAll? calls start = some out) : out.build = start.build := by
  induction calls generalizing start with
  | nil =>
    cases performed
    rfl
  | cons call rest ih =>
    obtain ⟨next, first, later⟩ := LineCall.performAll?_cons_iff.1 performed
    obtain ⟨gap, gaps⟩ := List.forall_mem_cons.1 gaps
    exact (ih gaps later).trans (build_gap gap first)

/-- Nothing has been written, and the level is 0. -/
structure Fresh (out : Lines) : Prop where
  written : out.written = []
  level : out.level = 0

theorem Fresh.done_current (fresh : out.Fresh) : out.done = [] ∧ out.current = [] := by
  obtain ⟨none, empty⟩ := List.append_eq_nil_iff.1 fresh.written
  refine ⟨?_, empty⟩
  cases finished : out.done with
  | nil => rfl
  | cons line older =>
    rw [finished, List.reverse_cons, joinLines_append] at none
    simp [joinLines] at none

theorem Fresh.perform (fresh : out.Fresh) (gap : call.isGap = true)
    (performed : call.perform? out = some next) : next.Fresh := by
  obtain ⟨_, empty⟩ := fresh.done_current
  have start : out.atLineStart = true := by rw [atLineStart, empty]; rfl
  cases call with
  | space =>
    cases performed
    show out.space.Fresh
    rwa [space, if_pos start]
  | newline =>
    cases performed
    show out.newline.Fresh
    rw [newline, if_pos start]
    exact ⟨fresh.written, fresh.level⟩
  | blank count =>
    cases performed
    show (out.blank count).Fresh
    unfold blank
    split
    · exact ⟨fresh.written, fresh.level⟩
    · exact fresh
  | append | raw | indent | dedent => cases gap

/-- The first text stands at the very start. -/
theorem Fresh.startsInked_append (fresh : out.Fresh) (inked : StartsInked text) :
    StartsInked (out.append text).written := by
  obtain ⟨none, empty⟩ := fresh.done_current
  obtain ⟨c, rest, rfl, ink⟩ := inked
  refine ⟨c, rest, ?_, ink⟩
  simp [append, atLineStart, dueBlanks, none, empty, fresh.level, Text.replicate, joinLines,
    Lines.written]

theorem Fresh.startsInked_raw (fresh : out.Fresh) (inked : StartsInked text) :
    StartsInked (out.raw text).written := by
  unfold raw
  split
  · next none => exact absurd none (splitLines_ne_nil text)
  · next first one =>
    have same : text = first := by simpa using eq_of_splitLines one
    rw [← same]
    exact fresh.startsInked_append inked
  · next first second rest several =>
    have whole := eq_of_splitLines several
    -- The first line is not empty, for it starts in ink.
    have inFirst : StartsInked first := by
      obtain ⟨c, tail, split, ink⟩ := inked
      cases first with
      | nil =>
        rw [split] at whole
        obtain ⟨rfl, _⟩ := List.cons.inj whole
        cases ink
      | cons d more =>
        rw [split] at whole
        obtain ⟨rfl, _⟩ := List.cons.inj whole
        exact ⟨c, more, rfl, ink⟩
    have notEmpty : ¬(first.isEmpty && out.atLineStart) = true := by
      obtain ⟨c, more, rfl, _⟩ := inFirst
      simp
    simp only
    rw [if_neg notEmpty, written_breaks, written_breakTo, List.append_assoc]
    exact (fresh.startsInked_append inFirst).before _

theorem Fresh.performAll (fresh : start.Fresh) (gaps : LineCall.Gaps calls)
    (performed : LineCall.performAll? calls start = some out) : out.Fresh := by
  induction calls generalizing start with
  | nil =>
    cases performed
    exact fresh
  | cons call rest ih =>
    obtain ⟨next, first, later⟩ := LineCall.performAll?_cons_iff.1 performed
    obtain ⟨gap, gaps⟩ := List.forall_mem_cons.1 gaps
    exact ih (fresh.perform gap first) gaps later

theorem Fresh.startsInked (fresh : start.Fresh) (starts : LineCall.Starts calls)
    (performed : LineCall.performAll? calls start = some out) : StartsInked out.build := by
  obtain ⟨gaps, call, text, rest, rfl, gap, asks, inked⟩ := starts
  obtain ⟨before, led, performed⟩ := LineCall.performAll?_append_iff.1 performed
  obtain ⟨next, writes, later⟩ := LineCall.performAll?_cons_iff.1 performed
  have stillFresh := fresh.performAll gap led
  have begun : StartsInked next.written := by
    cases call with
    | append fragment =>
      cases asks
      cases writes
      exact stillFresh.startsInked_append inked
    | raw fragment =>
      cases asks
      cases writes
      exact stillFresh.startsInked_raw inked
    | space | newline | blank | indent | dedent => cases asks
  obtain ⟨more, grown⟩ := (GoesOn.performAll later).grows
  obtain ⟨gap, ended⟩ := out.written_newline
  rw [build_eq, ended, ← grown, List.append_assoc]
  exact begun.before _

/-- What is written last ends as its text does. -/
theorem written_ends (asks : call.text? = some text) {head : Chars} {c : Char}
    (split : text = head ++ [c]) (other : c ≠ '\n') (performed : call.perform? out = some next) :
    ∃ front, next.written = front ++ [c] := by
  cases call with
  | append fragment =>
    cases asks
    cases performed
    obtain ⟨gap, same⟩ := out.written_append text
    refine ⟨out.written ++ gap ++ head, ?_⟩
    show (out.append text).written = _
    rw [same, split, List.append_assoc, List.append_assoc, List.append_assoc]
  | raw fragment =>
    cases asks
    cases performed
    show ∃ front, (out.raw text).written = front ++ [c]
    by_cases starts : text.head? ≠ some '\n' ∨ out.current ≠ []
    · obtain ⟨gap, same⟩ := written_raw starts
      refine ⟨out.written ++ gap ++ head, ?_⟩
      rw [same, split, List.append_assoc, List.append_assoc, List.append_assoc]
    · rw [not_or, Decidable.not_not, Decidable.not_not] at starts
      obtain ⟨tail, feed⟩ := List.head?_eq_some_iff.1 starts.1
      cases head with
      | nil =>
        rw [split] at feed
        exact absurd (List.cons.inj feed).1 other
      | cons d more =>
        rw [split] at feed
        obtain ⟨rfl, rfl⟩ := List.cons.inj feed
        rw [split, List.cons_append, written_raw_feed starts.2]
        exact ⟨out.written ++ more, (List.append_assoc _ _ _).symm⟩
  | space | newline | blank | indent | dedent => cases asks

theorem build_ends (ends : LineCall.Ends calls)
    (performed : LineCall.performAll? calls start = some out) :
    ∃ head c, out.build = head ++ [c, '\n'] ∧ c ≠ '\n' := by
  obtain ⟨front, call, text, gaps, rfl, asks, some_, inLine, gap⟩ := ends
  obtain ⟨before, _, performed⟩ := LineCall.performAll?_append_iff.1 performed
  obtain ⟨next, writes, later⟩ := LineCall.performAll?_cons_iff.1 performed
  have split := (List.dropLast_concat_getLast some_).symm
  have other : text.getLast some_ ≠ '\n' := by
    intro feed
    exact inLine (by rw [List.getLast?_eq_some_getLast some_, feed])
  obtain ⟨head, written⟩ := written_ends asks split other writes
  have started := current_ne_nil_of_written written other
  refine ⟨head, _, ?_, other⟩
  rw [build_gaps gap later, build_eq, written_newline_started started, written, List.append_assoc]
  rfl

end Lines

/-! ## Texts -/

namespace Text

/-- What is left of a text without the white space at its ends starts and ends in ink. -/
theorem firm_trim {text : Chars} (some_ : trim text ≠ []) : Firm (trim text) := by
  obtain ⟨blank, split, ends⟩ := trimRight_cases (trimLeft text)
  refine ⟨?_, ends.resolve_left some_⟩
  obtain ⟨c, rest, trimmed⟩ := List.exists_cons_of_ne_nil some_
  refine ⟨c, rest, trimmed, ?_⟩
  have stops := List.head?_dropWhile_not isBlank text
  have first : (text.dropWhile isBlank).head? = some c := by
    have starts := congrArg List.head? split
    rwa [show trimRight (trimLeft text) = c :: rest from trimmed] at starts
  rw [first] at stops
  simpa using stops

theorem trim_eq_nil_iff {text : Chars} : trim text = [] ↔ isBlankText text = true := by
  rw [← squeeze_eq_nil_iff, ← squeeze_trim]
  refine ⟨fun none => by rw [none]; rfl, fun inkless => ?_⟩
  by_contra some_
  obtain ⟨c, rest, trimmed, ink⟩ := (firm_trim some_).starts
  rw [trimmed, squeeze_cons_of_inked ink] at inkless
  cases inkless

end Text

namespace Page

open LineCall

theorem gaps_edge (edge : Option Char) : Gaps (edgeCalls edge) := by
  unfold edgeCalls
  split
  · exact List.forall_mem_singleton.2 rfl
  · exact gaps_nil

theorem gaps_segment {segment : Chars} (blank : isBlankText segment = true) :
    Gaps (segmentCalls segment) := by
  unfold segmentCalls
  simp only
  rw [trim_eq_nil_iff.2 blank, List.isEmpty_nil, if_pos rfl]
  split
  · exact gaps_nil
  · exact List.forall_mem_singleton.2 rfl

theorem writes_segment {segment : Chars} (inked : isBlankText segment = false) :
    Writes (segmentCalls segment) := by
  have some_ : trim segment ≠ [] := by
    intro none
    rw [trim_eq_nil_iff.1 none] at inked
    cases inked
  have firm := firm_trim some_
  unfold segmentCalls
  simp only
  rw [if_neg (by simpa using some_)]
  refine ⟨?_, ?_⟩
  · exact ((starts_cons rfl firm.starts []).after (gaps_edge _)).before _
  · exact (ends_concat rfl some_ firm.ends.inLine _).before (gaps_edge _)

theorem gaps_break (count : Nat) : Gaps [.newline, .blank count] := by
  intro call member
  rcases List.mem_cons.1 member with rfl | last
  · rfl
  · rw [List.mem_singleton.1 last]
    rfl

theorem gaps_segments {segments : List Chars} (breaks : Nat)
    (blank : ∀ segment ∈ segments, isBlankText segment = true) :
    Gaps (segmentsCalls breaks segments) := by
  induction segments generalizing breaks with
  | nil =>
    unfold segmentsCalls
    split
    · exact gaps_nil
    · exact gaps_break _
  | cons segment rest ih =>
    obtain ⟨first, later⟩ := List.forall_mem_cons.1 blank
    unfold segmentsCalls
    rw [if_pos first]
    exact ih (breaks + 1) later

/-- Behind a segment in ink, the others cannot undo how the text ends. -/
theorem ends_segments {segments : List Chars} {calls : List LineCall} (ends : Ends calls)
    (breaks : Nat) : Ends (calls ++ segmentsCalls breaks segments) := by
  induction segments generalizing breaks calls with
  | nil => exact ends.before (gaps_segments breaks (by simp))
  | cons segment rest ih =>
    unfold segmentsCalls
    split
    · exact ih ends (breaks + 1)
    · next some_ =>
      have last := (writes_segment (eq_false_of_ne_true some_)).ends
      rw [← List.append_assoc]
      exact ih ((last.after _).after calls) 0

theorem writes_segments {segments : List Chars} (breaks : Nat)
    (inked : ¬∀ segment ∈ segments, isBlankText segment = true) :
    Writes (segmentsCalls breaks segments) := by
  induction segments generalizing breaks with
  | nil => exact absurd (by simp) inked
  | cons segment rest ih =>
    unfold segmentsCalls
    split
    · next blank =>
      refine ih (breaks + 1) fun later => inked ?_
      exact List.forall_mem_cons.2 ⟨blank, later⟩
    · next some_ =>
      obtain ⟨starts, ends⟩ := writes_segment (eq_false_of_ne_true some_)
      exact ⟨(starts.after (gaps_break breaks)).before _, ends_segments (ends.after _) 0⟩

/-- A text is white space just when all its lines are. -/
theorem isBlankText_lines {content first : Chars} {rest : List Chars}
    (lines : splitLines content = first :: rest) :
    isBlankText content = true ↔
      isBlankText first = true ∧ ∀ line ∈ rest, isBlankText line = true := by
  simp only [← squeeze_eq_nil_iff]
  rw [← squeeze_splitLines, lines, List.flatMap_cons, List.append_eq_nil_iff,
    List.flatMap_eq_nil_iff]

theorem gaps_text {content : Chars} (blank : isBlankText content = true) :
    Gaps (textCalls content) := by
  unfold textCalls
  split
  · exact gaps_nil
  · next first rest lines =>
    obtain ⟨inFirst, inRest⟩ := (isBlankText_lines lines).1 blank
    exact (gaps_segment inFirst).append (gaps_segments 0 inRest)

theorem writes_text {content : Chars} (inked : isBlankText content = false) :
    Writes (textCalls content) := by
  unfold textCalls
  split
  · next none => exact absurd none (splitLines_ne_nil content)
  · next first rest lines =>
    cases inFirst : isBlankText first with
    | false =>
      obtain ⟨starts, ends⟩ := writes_segment inFirst
      exact ⟨starts.before _, ends_segments ends 0⟩
    | true =>
      have inRest : ¬∀ line ∈ rest, isBlankText line = true := by
        intro blank
        rw [(isBlankText_lines lines).2 ⟨inFirst, blank⟩] at inked
        cases inked
      obtain ⟨starts, ends⟩ := writes_segments 0 inRest
      exact ⟨starts.after (gaps_segment inFirst), ends.after _⟩

/-! ## Constructs -/

section constructs

variable {page : Page} {registry : Registry} {a b : Nat}

/-- A directive starts with its sign, and ends with its name or its arguments. -/
theorem edges_directiveText {directive : Directive}
    (placed : directive.Placed registry page.source a b) (edged : directive.Edged) :
    StartsInked (page.directiveText directive) ∧ EndsInLine (page.directiveText directive) := by
  have named : '\n' ∉ directive.writtenName := fun member => absurd (edged _ member) (by decide)
  have copied : StartsInked directive.source ∧ EndsInLine directive.source := by
    rw [placed.written.text]
    refine ⟨?_, (placed.written.endsInked edged).inLine⟩
    rcases placed.written.shape with ⟨_, shape⟩ | ⟨gap, inside, _, _, shape⟩ <;> rw [shape]
    · exact ⟨'@', _, rfl, by decide⟩
    · exact ⟨'@', _, rfl, by decide⟩
  unfold directiveText
  split
  · exact copied
  next canonical =>
  split
  · exact copied
  simp only [Bool.or_eq_true, Bool.not_eq_true', not_or, Bool.not_eq_false] at canonical
  split
  · refine ⟨⟨'@', _, rfl, by decide⟩, ?_⟩
    intro feed
    rcases List.mem_cons.1 (List.mem_of_mem_getLast? feed) with sign | inName
    · cases sign
    · exact placed.single_name canonical.2 named inName
  · refine ⟨⟨'@', _, rfl, by decide⟩, ?_⟩
    exact (endsInLine_singleton (by decide)).after (List.cons_ne_nil _ _) _

theorem edges_echo (style : EchoStyle) (expression : Chars) :
    Firm (formatEcho style expression) := by
  rw [formatEcho_eq]
  refine ⟨?_, (endsInked_closer style).after _⟩
  rw [List.append_assoc]
  exact (startsInked_opener style).before _

theorem edges_endTagText (markup : Markup) : Firm (endTagText markup) :=
  ⟨⟨'<', _, rfl, by decide⟩, .after _ ⟨[], '>', rfl, by decide⟩⟩

theorem edges_startTagText (page : Page) (markup : Markup) : Firm (page.startTagText markup) := by
  refine ⟨⟨'<', _, rfl, by decide⟩, ?_⟩
  obtain ⟨head, ends⟩ := page.startTagText_ends markup
  exact ⟨head, '>', ends, by decide⟩

theorem edges_tagEnd (markup : Markup) : Firm (tagEnd markup) := by
  unfold tagEnd
  split
  · exact ⟨⟨'/', _, rfl, by decide⟩, ⟨['/'], '>', rfl, by decide⟩⟩
  · exact ⟨⟨'>', _, rfl, by decide⟩, ⟨[], '>', rfl, by decide⟩⟩

theorem starts_firm {call : LineCall} {text : Chars} (asks : call.text? = some text)
    (firm : Firm text) (rest : List LineCall) : Starts (call :: rest) :=
  starts_cons asks firm.starts rest

theorem ends_firm {call : LineCall} {text : Chars} (asks : call.text? = some text)
    (firm : Firm text) (front : List LineCall) : Ends (front ++ [call]) :=
  ends_concat asks firm.ends.nonempty firm.ends.inLine front

theorem gaps_newline : Gaps [.newline] :=
  List.forall_mem_singleton.2 rfl

/-- A directive on a line of its own. -/
theorem writes_line {directive : Directive} (placed : directive.Placed registry page.source a b)
    (edged : directive.Edged) :
    Writes (page.lineCalls directive) := by
  obtain ⟨starts, inLine⟩ := edges_directiveText placed edged
  refine ⟨?_, ?_⟩
  · exact (starts_cons rfl starts [.newline]).after gaps_newline
  · exact (ends_concat rfl starts.nonempty inLine [.newline]).before gaps_newline

/-- A closed block starts with its opener, and ends with its closer. -/
theorem writes_block {opener closer : Directive} {m n : Nat}
    (opens : opener.Placed registry page.source a m) (openEdged : opener.Edged)
    (closes : closer.Placed registry page.source n b) (closeEdged : closer.Edged)
    (inline indentsMiddles : Bool) (scripts : List Script) (level : Nat) :
    Writes (page.blockCalls inline opener closer indentsMiddles scripts level) := by
  unfold blockCalls
  split
  · obtain ⟨first, _⟩ := edges_directiveText opens openEdged
    obtain ⟨last, inLine⟩ := edges_directiveText closes closeEdged
    refine ⟨?_, ?_⟩
    · rw [List.append_assoc]
      exact (starts_cons rfl first []).before _
    · exact ends_concat rfl last.nonempty inLine _
  · simp only [List.append_assoc]
    refine ⟨(writes_line opens openEdged).starts.before _, ?_⟩
    simp only [← List.append_assoc]
    exact (writes_line closes closeEdged).ends.after _

/-! ## Markup -/

theorem starts_wrapped (page : Page) (markup : Markup) (closing : Chars) :
    Starts (page.wrappedCalls markup closing) := by
  unfold wrappedCalls
  simp only [List.append_assoc]
  exact starts_cons rfl ⟨'<', _, rfl, by decide⟩ _

theorem starts_startTag (page : Page) (markup : Markup) (wrapped : Bool) :
    Starts (page.startTagCalls markup wrapped) := by
  unfold startTagCalls
  split
  · exact starts_wrapped page markup _
  · exact starts_firm rfl (edges_startTagText page markup) []

theorem writes_loneTag (page : Page) (markup : Markup) {closing : Chars} (firm : Firm closing) :
    Writes (page.loneTagCalls markup closing) := by
  unfold loneTagCalls
  refine ⟨?_, ?_⟩
  · rw [List.append_assoc]
    exact ((starts_wrapped page markup closing).before _).after gaps_newline
  · refine Ends.before ?_ gaps_newline
    have last : Ends [.dedent, .append closing] := ends_firm rfl firm [.dedent]
    exact (last.after _).after _

/-- An element whose body is copied ends with its end tag. -/
theorem writes_rawText (page : Page) (markup : Markup) (children : List Node) (level : Nat) :
    Writes (page.rawTextCalls markup children level) := by
  unfold rawTextCalls
  simp only
  generalize (if Tag.isOneOf Tag.reindentedNames markup.tag then
    withoutLastIndent (bodyText page.source children) else bodyText page.source children) = body
  have broken : Gaps (if isMultiline body then [.newline] else []) := by
    split
    · exact gaps_newline
    · exact gaps_nil
  refine ⟨?_, ?_⟩
  · simp only [List.append_assoc]
    exact ((starts_startTag page markup _).before _).after broken
  · refine Ends.before (Ends.after ?_ _) broken
    have closes := (edges_endTagText markup).ends
    split
    · exact ends_firm rfl (edges_endTagText markup) [.raw body]
    · exact ends_concat rfl (closes.after body).nonempty (closes.after body).inLine []

/-- Closed markup, in whatever layout. -/
theorem writes_closed (page : Page) (markup : Markup) (void : Bool) (slots children : List Script)
    (childrenInline : Bool) (level : Nat) :
    Writes (page.closedCalls markup void slots children childrenInline level) := by
  have opening := edges_startTagText page markup
  have ending := edges_endTagText markup
  unfold closedCalls
  simp only
  split
  · split
    · exact writes_loneTag page markup (edges_tagEnd markup)
    · exact ⟨starts_firm rfl opening [], ends_firm rfl opening []⟩
  split
  · split
    · refine writes_loneTag page markup ⟨⟨'>', _, rfl, by decide⟩, ?_⟩
      exact ending.ends.after ['>']
    · have whole : Firm (page.startTagText markup ++ endTagText markup) :=
        ⟨opening.starts.before _, ending.ends.after _⟩
      exact ⟨starts_firm rfl whole [], ends_firm rfl whole []⟩
  split
  · refine ⟨?_, ends_firm rfl ending _⟩
    rw [List.append_assoc]
    exact starts_firm rfl opening _
  · refine ⟨?_, ?_⟩
    · simp only [List.append_assoc]
      exact ((starts_startTag page markup _).before _).after gaps_newline
    · have last : Ends [.dedent, .newline, .append (endTagText markup), .newline] :=
        (ends_firm rfl ending [.dedent, .newline]).before gaps_newline
      exact last.after _

theorem starts_markup (page : Page) (markup : Markup) (void : Bool) (slots children : List Script)
    (level : Nat) : Starts (page.markupCalls markup void slots children level) := by
  unfold markupCalls
  split
  · unfold unclosedCalls
    exact starts_firm rfl (edges_startTagText page markup) _
  · exact (writes_closed page markup void slots children _ level).starts

end constructs

/-! ## How nodes start -/

end Page

section starts

variable {registry : Registry} {source : Chars} {a m b : Nat}

/-- A text starts as its first part does. -/
theorem Text.startsInked_cut (starts : StartsInked (cut source a m)) (mb : m ≤ b) :
    StartsInked (cut source a b) := by
  have am := lt_of_cut_ne_nil starts.nonempty
  rw [← cut_append source (Nat.le_of_lt am) mb]
  exact starts.before _

theorem Directive.Written.startsInked {directive : Directive}
    (written : directive.Written source a b) : StartsInked (cut source a b) := by
  rcases written.shape with ⟨_, shape⟩ | ⟨gap, inside, _, _, shape⟩
  · rw [shape]
    exact ⟨'@', _, rfl, by decide⟩
  · rw [shape]
    exact ⟨'@', _, rfl, by decide⟩

theorem Markup.Opens.startsInked {markup : Markup} (opens : markup.Opens source a b) :
    StartsInked (cut source a b) := by
  obtain ⟨name, entries, close, _, bracket, spaced, gap, last, _⟩ := opens.parts
  have middle := spaced.ordered
  have space := gap.ordered
  refine startsInked_cut (m := name) ?_ (by omega)
  rw [bracket]
  exact ⟨'<', _, rfl, by decide⟩

theorem Markup.Shaped.startsInked {markup : Markup} {void : Bool} {children : List Node}
    (shaped : markup.Shaped source void children a b) : StartsInked (cut source a b) := by
  cases shaped with
  | single opens => exact opens.startsInked
  | closed _ opens _ _ laid ordered =>
    exact startsInked_cut opens.startsInked (Nat.le_trans laid.ordered ordered)
  | unclosed opens _ _ laid => exact startsInked_cut opens.startsInked laid.ordered

/-- Everything but texts, and bodies that are not read as markup, starts in ink. -/
theorem Node.Whole.startsInked {node : Node} (whole : node.Whole registry source)
    (edged : node.Edged source) (notText : node.isText = false) (other : node.isRawText = false)
    (spans : node.location.Spans a b) : StartsInked (cut source a b) := by
  cases whole with
  | text => cases notText
  | comment found | endTag found =>
    obtain ⟨rfl, rfl⟩ := spans.unique found
    exact Firm.starts edged
  | @region _ kind _ _ found _ =>
    obtain ⟨rfl, rfl⟩ := spans.unique found
    have edges : kind.Edged _ (cut source a b) := edged
    cases kind with
    | verbatim | markupComment | declaration => exact edges.starts
    | rawCode | frontMatter => exact edges.1
    | rawText => cases other
  | echo written =>
    obtain ⟨rfl, rfl⟩ := spans.unique written.spans
    rw [written.shape, List.append_assoc]
    exact (startsInked_opener _).before _
  | directive placed =>
    obtain ⟨rfl, rfl⟩ := spans.unique placed.written.spans
    exact placed.written.startsInked
  | openBlock found opens laid =>
    obtain ⟨rfl, rfl⟩ := spans.unique found
    exact startsInked_cut opens.written.startsInked laid.ordered
  | block found opens laid _ closes =>
    obtain ⟨rfl, rfl⟩ := spans.unique found
    exact startsInked_cut opens.written.startsInked
      (Nat.le_trans laid.ordered closes.written.spans.ordered)
  | element found shaped | slot found shaped | component found shaped =>
    obtain ⟨rfl, rfl⟩ := spans.unique found
    exact shaped.startsInked

/-- Of the nodes of a template, a blank one is what stands for white space. -/
theorem Node.Whole.isBlank_eq {node : Node} (whole : node.Whole registry source)
    (edged : node.Edged source) (other : node.isRawText = false)
    (spans : node.location.Spans a b) : node.isBlank = isBlankText (cut source a b) := by
  cases isText : node.isText with
  | true =>
    cases whole with
    | text found =>
      obtain ⟨rfl, rfl⟩ := spans.unique found
      rfl
    | _ => cases isText
  | false =>
    obtain ⟨c, rest, text, ink⟩ := whole.startsInked edged isText other spans
    have notBlank : node.isBlank = false := by
      cases node with
      | text => cases isText
      | _ => rfl
    rw [notBlank, text, isBlankText, List.all_cons, ink, Bool.false_and]

end starts

theorem Text.firm_trimRight {text : Chars} (starts : StartsInked text) : Firm (trimRight text) := by
  obtain ⟨c, rest, rfl, ink⟩ := starts
  obtain ⟨blank, split, nothing | ends⟩ := trimRight_cases (c :: rest)
  · have inked := squeeze_trimRight (c :: rest)
    rw [nothing, squeeze_cons_of_inked ink] at inked
    cases inked
  · refine ⟨?_, ends⟩
    obtain ⟨d, more, trimmed⟩ := List.exists_cons_of_ne_nil ends.nonempty
    rw [trimmed] at split ⊢
    obtain ⟨rfl, _⟩ := List.cons.inj split
    exact ⟨c, more, rfl, ink⟩

namespace Page

open LineCall

section nodes

variable {page : Page} {registry : Registry} {node : Node}

/-- A block that was never closed is copied, without the white space at its end. -/
theorem writes_openBlock {location : Location} {opener : Directive} {family : Chars}
    {children : List Node} {indentsMiddles : Bool}
    (whole : (Node.block location opener family children none indentsMiddles).Whole registry
      page.source) (level : Nat) :
    Writes (page.calls (.block location opener family children none indentsMiddles) level) := by
  cases whole with
  | openBlock spans opens laid =>
    have firm : Firm (trimRight (location.slice page.source)) := by
      rw [spans.slice]
      exact firm_trimRight (startsInked_cut opens.written.startsInked laid.ordered)
    rw [calls]
    exact ⟨starts_firm rfl firm [], ends_firm rfl firm []⟩

theorem writes_closedBlock {location : Location} {opener closer : Directive} {family : Chars}
    {children : List Node} {indentsMiddles : Bool}
    (whole : (Node.block location opener family children (some closer) indentsMiddles).Whole
      registry page.source)
    (edged : ∀ part ∈ (Node.block location opener family children (some closer)
      indentsMiddles).walk, part.Edged page.source) (level : Nat) :
    Writes (page.calls (.block location opener family children (some closer) indentsMiddles)
      level) := by
  have openEdged : opener.Edged := edged (.directive opener) (by simp [Node.walk])
  have closeEdged : closer.Edged := edged (.directive closer) (by simp [Node.walk])
  cases whole with
  | block _ opens _ _ closes =>
    rw [calls]
    exact writes_block opens openEdged closes closeEdged _ _ _ level

theorem starts_element (page : Page) (markup : Markup) (void : Bool) (children : List Node)
    (level : Nat) : Starts (page.calls (.element markup void children) level) := by
  cases copied : markup.copiesBody with
  | true =>
    rw [calls_of_copied page void children level copied]
    exact (writes_rawText page markup children level).starts
  | false =>
    rw [calls_of_markup page void children level copied]
    exact starts_markup page markup void [] _ level

theorem gaps_calls (blank : node.isBlank = true) (level : Nat) : Gaps (page.calls node level) := by
  cases node with
  | text location content =>
    rw [calls]
    exact gaps_text blank
  | _ => cases blank

/-- Everything but white space, and bodies that are not read as markup, is printed with ink
first. -/
theorem starts_calls (whole : node.Whole registry page.source)
    (edged : ∀ part ∈ node.walk, part.Edged page.source) (inked : node.isBlank = false)
    (other : node.isRawText = false) (level : Nat) : Starts (page.calls node level) := by
  have self : node.Edged page.source := edged node node.mem_walk_self
  cases node with
  | text _ content =>
    rw [calls]
    exact (writes_text inked).starts
  | echo read =>
    rw [calls]
    exact starts_firm rfl (edges_echo _ _) []
  | comment _ content | endTag _ _ content =>
    rw [calls]
    exact starts_firm rfl self []
  | region location kind content =>
    have edges : kind.Edged location content := self
    rw [calls]
    refine starts_cons rfl ?_ []
    cases kind with
    | verbatim | markupComment | declaration => exact edges.starts
    | rawCode | frontMatter => exact edges.1
    | rawText => cases other
  | directive found =>
    cases whole with
    | directive placed =>
      rw [calls]
      exact starts_cons rfl (edges_directiveText placed self).1 []
  | block location opener family children closer indentsMiddles =>
    cases closer with
    | none => exact (writes_openBlock whole level).starts
    | some last => exact (writes_closedBlock whole edged level).starts
  | element markup void children => exact starts_element page markup void children level
  | component markup slots children =>
    rw [calls]
    exact starts_markup page markup false _ _ level
  | slot _ markup children =>
    rw [calls]
    exact starts_markup page markup false [] _ level
  | attr | document => cases whole

end nodes

end Page

/-! ## How nodes end -/

/-- Whether a node is code that was left open. -/
def Node.isOpenCode : Node → Bool
  | .region _ .rawCode content => Text.isOpenCode content
  | _ => false

/-- The requests for what stands from one offset to another end in a line with something on it, if
they write anything; where they do not, there is ink ahead. -/
inductive LineCall.Closes (source : Chars) (a b : Nat) (calls : List LineCall) : Prop
  | gaps : LineCall.Gaps calls → isBlankText (cut source a b) = true → Closes source a b calls
  | ends : LineCall.Ends calls → Closes source a b calls
  | ahead : isBlankText (source.drop b) = false → Closes source a b calls

theorem Text.drop_eq_cut (text : Chars) {m b : Nat} (mb : m ≤ b) :
    text.drop m = cut text m b ++ text.drop b := by
  have rest : text.drop b = (text.drop m).drop (b - m) := by
    rw [List.drop_drop, Nat.add_sub_of_le mb]
  rw [rest, cut, List.take_append_drop]

namespace LineCall.Closes

variable {source : Chars} {a m b : Nat} {calls more : List LineCall}

theorem append (first : Closes source a m calls) (second : Closes source m b more)
    (am : a ≤ m) (mb : m ≤ b) : Closes source a b (calls ++ more) := by
  cases second with
  | ends last => exact .ends (last.after calls)
  | ahead ink => exact .ahead ink
  | gaps last blank =>
    cases first with
    | ends inFirst => exact .ends (inFirst.before last)
    | gaps inFirst before =>
      refine .gaps (inFirst.append last) ?_
      rw [← cut_append source am mb, isBlankText, List.all_append, Bool.and_eq_true]
      exact ⟨before, blank⟩
    | ahead ink =>
      -- None of the ink ahead is in the white space that follows.
      have whole : (cut source m b).all isBlank = true := blank
      rw [drop_eq_cut source mb, isBlankText, List.all_append, whole, Bool.true_and] at ink
      exact .ahead ink

end LineCall.Closes

namespace Page

open LineCall

/-- The requests for the node end in a line with something on it, unless the node is blank, or there
is ink ahead. -/
def Closes (page : Page) (node : Node) : Prop :=
  ∀ level a b, node.location.Spans a b → LineCall.Closes page.source a b (page.calls node level)

section lists

variable {page : Page} {registry : Registry} {nodes : List Node} {m b : Nat}

theorem closes_all (level : Nat) (closes : ∀ node ∈ nodes, page.Closes node)
    (laid : Node.Laid nodes m b) :
    LineCall.Closes page.source m b (allCalls (page.scripts nodes) level) := by
  unfold allCalls
  rw [scripts_eq, List.flatMap_map]
  induction laid with
  | nil n => exact .gaps gaps_nil (by rw [cut_self]; rfl)
  | @cons node rest a m b spans laid ih =>
    have later : Node.Laid rest m b := laid
    obtain ⟨first, others⟩ := List.forall_mem_cons.1 closes
    exact (first level a m spans).append (ih others) spans.ordered later.ordered

/-- The body of an element that is not read as markup has the end tag ahead. -/
theorem closes_raw {tag : Option Chars} (rawFirst : Node.RawFirst page.source tag nodes) :
    ∀ node ∈ nodes, node.isRawText = true → page.Closes node := by
  intro node member raw level a b spans
  have first : nodes.head? = some node := by
    cases nodes with
    | nil => cases member
    | cons head tail =>
      rcases List.mem_cons.1 member with rfl | later
      · rfl
      · rw [rawFirst.rest node later] at raw
        cases raw
  obtain ⟨_, n, _, _, ends, _, _, endTag, _⟩ := rawFirst.first node first raw
  have same : b = n := Int.ofNat.inj (spans.endOffset.symm.trans ends)
  refine .ahead ?_
  rw [same, endTag]
  rfl

/-- Markup that was never closed ends with its content, or with its start tag. -/
theorem closes_unclosed {markup : Markup} {a : Nat} (level : Nat)
    (closes : ∀ node ∈ nodes, page.Closes node) (laid : Node.Laid nodes m b) :
    LineCall.Closes page.source a b
      ([.raw (page.startTagText markup)] ++ allCalls (page.scripts nodes) level) := by
  have opening : Ends [.raw (page.startTagText markup)] :=
    ends_firm rfl (edges_startTagText page markup) []
  cases closes_all level closes laid with
  | gaps inContent _ => exact .ends (opening.before inContent)
  | ends inContent => exact .ends (inContent.after _)
  | ahead ink => exact .ahead ink

/-- Markup of any shape. The nodes of its content are given in the order of the template. -/
theorem closes_markup {markup : Markup} {void : Bool} {slots children : List Node} {a : Nat}
    (level : Nat) (sorted : Node.byOffset (slots ++ children) = nodes)
    (shaped : markup.Shaped page.source void nodes a b)
    (closes : ∀ node ∈ nodes, page.Closes node) :
    LineCall.Closes page.source a b
      (page.markupCalls markup void (page.scripts slots) (page.scripts children) level) := by
  unfold markupCalls
  split
  · next unclosed =>
    cases shaped with
    | single _ _ _ _ closed | closed _ _ _ _ _ _ _ _ closed =>
      rw [closed] at unclosed
      cases unclosed
    | unclosed _ _ _ laid =>
      unfold unclosedCalls
      rw [← scripts_append, mergeSort_scripts]
      show LineCall.Closes _ _ _ (_ ++ allCalls (page.scripts (Node.byOffset _)) level)
      rw [sorted]
      exact closes_unclosed level closes laid
  · exact .ends (writes_closed page markup void _ _ _ level).ends

end lists

/-- What is known about a part of a tree without code that was left open. -/
structure Known (page : Page) (part : Node) : Prop where
  edged : part.Edged page.source
  closed : part.isOpenCode = false

section trees

variable {page : Page} {registry : Registry}

/-- A text that is copied, or put together, as it is. -/
theorem closes_text {source text : Chars} {a b : Nat} (some_ : text ≠ [])
    (inLine : EndsInLine text) : LineCall.Closes source a b [.raw text] :=
  .ends (ends_concat rfl some_ inLine [])

theorem closes_firm {source text : Chars} {a b : Nat} (firm : Firm text) :
    LineCall.Closes source a b [.raw text] :=
  closes_text firm.ends.nonempty firm.ends.inLine

theorem closes_region {location : Location} {kind : RegionKind} {content : Chars}
    (known : page.Known (.region location kind content)) (other : kind ≠ .rawText) {a b : Nat} :
    LineCall.Closes page.source a b [.raw content] := by
  have edges : kind.Edged location content := known.edged
  cases kind with
  | verbatim | markupComment | declaration => exact closes_firm edges
  | frontMatter => exact closes_text edges.1.nonempty edges.2.1
  | rawCode =>
    have closed : isOpenCode content = false := known.closed
    refine closes_text edges.1.nonempty (EndsInked.inLine ?_)
    rcases edges.2 with ends | isOpen
    · exact ends
    · rw [closed] at isOpen
      cases isOpen
  | rawText => exact absurd rfl other

/-- Among the children of a node, a body that is not read as markup has its end tag ahead. -/
theorem closes_children {nodes : List Node} {tag : Option Chars}
    (rawFirst : Node.RawFirst page.source tag nodes)
    (others : ∀ node ∈ nodes, node.isRawText = false → page.Closes node) :
    ∀ node ∈ nodes, page.Closes node := by
  intro node member
  cases raw : node.isRawText with
  | true => exact closes_raw rawFirst node member raw
  | false => exact others node member raw

/-- Every node but a body that is not read as markup. -/
theorem closes_calls {node : Node} (whole : node.Whole registry page.source) :
    (∀ part ∈ node.walk, page.Known part) → node.isRawText = false → page.Closes node := by
  induction whole with
  | @text location m n found =>
    intro _ _ level a b spans
    obtain ⟨rfl, rfl⟩ := spans.unique found
    rw [calls]
    cases blank : isBlankText (cut page.source a b) with
    | true => exact .gaps (gaps_text blank) blank
    | false => exact .ends (writes_text blank).ends
  | echo =>
    intro _ _ level a b _
    rw [calls]
    exact closes_firm (edges_echo _ _)
  | @comment location m n =>
    intro known _ level a b _
    have firm : Firm (cut page.source m n) := (known _ (Node.mem_walk_self _)).edged
    rw [calls]
    exact closes_firm firm
  | @endTag location name m n =>
    intro known _ level a b _
    have firm : Firm (cut page.source m n) := (known _ (Node.mem_walk_self _)).edged
    rw [calls]
    exact closes_firm firm
  | region =>
    intro known other level a b _
    rw [calls]
    refine closes_region (known _ (Node.mem_walk_self _)) ?_
    rintro rfl
    cases other
  | @directive found _ _ placed =>
    intro known _ level a b _
    have edged : found.Edged := (known _ (Node.mem_walk_self _)).edged
    obtain ⟨starts, inLine⟩ := edges_directiveText placed edged
    rw [calls]
    exact closes_text starts.nonempty inLine
  | openBlock spans opens laid wholes =>
    intro _ _ level a b _
    exact .ends (writes_openBlock (.openBlock spans opens laid wholes) level).ends
  | block spans opens laid wholes closes =>
    intro known _ level a b _
    exact .ends (writes_closedBlock (.block spans opens laid wholes closes)
      (fun part member => (known part member).edged) level).ends
  | @element markup void children _ _ found shaped wholes ih =>
    intro known _ level a b spans
    cases copied : markup.copiesBody with
    | true =>
      rw [calls_of_copied page void children level copied]
      exact .ends (writes_rawText page markup children level).ends
    | false =>
      have self : Node.Edged page.source (.element markup void children) :=
        (known _ (Node.mem_walk_self _)).edged
      obtain ⟨rfl, rfl⟩ := spans.unique found
      obtain ⟨m, n, laid⟩ := shaped.laid
      have inside := closes_children self.2.2 fun node member => ih node member fun part below =>
        known part (Node.mem_walk_of_child member below)
      have sorted : Node.byOffset ([] ++ children) = children := laid.byOffset_eq wholes
      rw [calls_of_markup page void children level copied]
      exact closes_markup level sorted shaped inside
  | @slot name markup children _ _ found shaped wholes ih =>
    intro known _ level a b spans
    have self : Node.Edged page.source (.slot name markup children) :=
      (known _ (Node.mem_walk_self _)).edged
    obtain ⟨rfl, rfl⟩ := spans.unique found
    obtain ⟨m, n, laid⟩ := shaped.laid
    have inside := closes_children self.2 fun node member => ih node member fun part below =>
      known part (Node.mem_walk_of_child member below)
    have sorted : Node.byOffset ([] ++ children) = children := laid.byOffset_eq wholes
    rw [calls]
    exact closes_markup level sorted shaped inside
  | @component markup children _ _ found shaped wholes ih =>
    intro known _ level a b spans
    have self : Node.Edged page.source (.component markup (children.filter Builder.isSlotChild)
        (children.filter (!Builder.isSlotChild ·))) := (known _ (Node.mem_walk_self _)).edged
    obtain ⟨rfl, rfl⟩ := spans.unique found
    obtain ⟨m, n, laid⟩ := shaped.laid
    have perm := List.filter_append_perm Builder.isSlotChild children
    rw [calls]
    refine closes_markup level (laid.byOffset_filter wholes _) shaped fun node member => ?_
    refine ih node member (fun part below =>
      known part (Node.mem_walk_of_child (perm.mem_iff.2 member) below)) ?_
    exact List.forall_mem_append.2 ⟨self.2.1.none_of_noTag, self.2.2.none_of_noTag⟩ node
      (perm.mem_iff.2 member)

end trees

end Page

/-! ## Whole templates -/

section template

variable {page : Page} {registry : Registry} {nodes : List Node}

/-- Of nodes some of which are not blank, the first of these starts the output. -/
theorem Page.starts_all (wholes : ∀ node ∈ nodes, node.Whole registry page.source)
    (edged : ∀ part ∈ Node.walkAll nodes, part.Edged page.source)
    (others : ∀ node ∈ nodes, node.isRawText = false) (inked : nodes.all Node.isBlank = false)
    (level : Nat) : LineCall.Starts (allCalls (page.scripts nodes) level) := by
  unfold allCalls
  rw [scripts_eq, List.flatMap_map]
  induction nodes with
  | nil => cases inked
  | cons node rest ih =>
    rw [Node.walkAll] at edged
    rw [List.forall_mem_cons] at wholes others
    rw [List.flatMap_cons]
    cases blank : node.isBlank with
    | false =>
      refine (starts_calls wholes.1 ?_ blank others.1 level).before _
      exact fun part member => edged part (List.mem_append_left _ member)
    | true =>
      rw [List.all_cons, blank, Bool.true_and] at inked
      have later := ih wholes.2 (fun part member => edged part (List.mem_append_right _ member))
        others.2 inked
      exact later.after (gaps_calls blank level)

/-- Blank nodes are printed as gaps. -/
theorem Page.gaps_all (page : Page) (blanks : nodes.all Node.isBlank = true) (level : Nat) :
    LineCall.Gaps (allCalls (page.scripts nodes) level) := by
  unfold allCalls
  rw [scripts_eq, List.flatMap_map]
  exact .flatMap fun node member => gaps_calls (List.all_eq_true.1 blanks node member) level

/-- The template is white space just when all its nodes are. -/
theorem Node.all_isBlank_eq {source : Chars} {a b : Nat} (laid : Node.Laid nodes a b)
    (wholes : ∀ node ∈ nodes, node.Whole registry source)
    (edged : ∀ part ∈ Node.walkAll nodes, part.Edged source)
    (others : ∀ node ∈ nodes, node.isRawText = false) :
    nodes.all Node.isBlank = isBlankText (cut source a b) := by
  induction laid with
  | nil n => rw [cut_self]; rfl
  | @cons node rest a m b spans laid ih =>
    have later : Node.Laid rest m b := laid
    rw [Node.walkAll] at edged
    rw [List.forall_mem_cons] at wholes others
    have self := edged node (List.mem_append_left _ node.mem_walk_self)
    have inRest := ih wholes.2 (fun part member => edged part (List.mem_append_right _ member))
      others.2
    rw [List.all_cons, inRest, wholes.1.isBlank_eq self others.1 spans,
      ← cut_append source spans.ordered later.ordered]
    exact List.all_append.symm

end template

/-- **Where the output starts and ends.** Under whatever configuration, there is output for every
template that can be read but one of white space. It starts in ink, and if no code was left open, it
ends with one line feed. -/
theorem render_starts_and_ends (config : Config) (dialect : Dialect) (file : Option String)
    (source : Chars) (read : (scan dialect source).fault = none) :
    ∃ document, (parse dialect file source).outcome = .ok document ∧
      (render config document = [] ↔ isBlankText source = true) ∧
      (isBlankText source = false → StartsInked (render config document)) ∧
      ((∀ node ∈ document.toNode.walk, node.isOpenCode = false) → isBlankText source = false →
        ∃ head c, render config document = head ++ [c, '\n'] ∧ c ≠ '\n') := by
  obtain ⟨document, parsed⟩ := parse_of_read file read
  refine ⟨document, parsed, ?_⟩
  obtain ⟨laid, wholes⟩ := whole_of_parse parsed
  obtain ⟨rawFirst, edged⟩ := edged_of_parse parsed
  have same := source_of_parse parsed
  let page : Page := ⟨config, source⟩
  have others := rawFirst.none_of_noTag
  have blanks : document.children.all Node.isBlank = isBlankText source := by
    rw [Node.all_isBlank_eq laid wholes edged others, cut_all]
  let start : Lines := .new config.indentUnit config.preserveBlankLines
  have fresh : start.Fresh := ⟨rfl, rfl⟩
  have leads : start.Leads (Page.allCalls (page.scripts document.children) 0)
      (Page.printAll (page.pieces document.children) start) 0 :=
    Page.leads_printAll (fun node _ => page.leads_print node) rfl
  have built : render config document =
      (Page.printAll (page.pieces document.children) start).build := by
    rw [render, same]
  have starts (inked : isBlankText source = false) : StartsInked (render config document) := by
    rw [built]
    exact fresh.startsInked (Page.starts_all wholes edged others (blanks.trans inked) 0)
      leads.performed
  refine ⟨⟨?_, ?_⟩, starts, ?_⟩
  · intro none
    by_contra inked
    exact (starts (eq_false_of_ne_true inked)).nonempty none
  · intro blank
    rw [built, Lines.build_gaps (page.gaps_all (blanks.trans blank) 0) leads.performed]
    rfl
  · intro closed inked
    have known : ∀ part ∈ Node.walkAll document.children, page.Known part := by
      intro part member
      exact ⟨edged part member, closed part (List.mem_cons_of_mem _ member)⟩
    rw [built]
    have closes := Page.closes_children rawFirst fun node member =>
      Page.closes_calls (wholes node member) (Node.forall_mem_walk known member)
    cases Page.closes_all 0 closes laid with
    | ends last => exact Lines.build_ends last leads.performed
    | gaps _ blank =>
      rw [show cut page.source 0 source.length = source from cut_all source, inked] at blank
      cases blank
    | ahead ink =>
      -- Behind the whole template there is nothing.
      rw [show page.source.drop source.length = [] from List.drop_length] at ink
      cases ink

/-- White space first, an element and a script that are never closed, the one with an end tag of its
own ahead of it, closed code, and a block left open over blank lines. -/
theorem render_starts_and_ends_unclosed :
    let source := ("\u00a0\n <section>\n<?php $a ?><script>\n\n</script/> \n" ++
      "<b\nid=c>@if($d)\n  e \n\n").toList
    (scan (Config.dialect {}) source).fault = none ∧ isBlankText source = false ∧
    ∃ document, (parse (Config.dialect {}) none source).outcome = .ok document ∧
      (∀ node ∈ document.toNode.walk, node.isOpenCode = false) ∧
      StartsInked (render {} document) ∧
      ∃ head c, render {} document = head ++ [c, '\n'] ∧ c ≠ '\n' := by
  intro source
  have read : (scan (Config.dialect {}) source).fault = none := by decide +kernel
  have inked : isBlankText source = false := by decide +kernel
  have closed : (parse (Config.dialect {}) none source).outcome.toOption.all (fun document =>
      document.toNode.walk.all fun node => !node.isOpenCode) = true := by
    decide +kernel
  obtain ⟨document, parsed, -, starts, ends⟩ :=
    render_starts_and_ends {} (Config.dialect {}) none source read
  rw [parsed] at closed
  have closed : ∀ node ∈ document.toNode.walk, node.isOpenCode = false := by
    simpa [Except.toOption] using closed
  exact ⟨read, inked, document, parsed, closed, starts inked, ends closed inked⟩

/-- Code that was left open is copied with the blank line behind it. -/
example : let source := "<?php f();\n\n".toList
    (parse (Config.dialect {}) none source).outcome.toOption.map (render {}) = some source := by
  decide +kernel

end BladeTemplate
