import BladeTemplate.Proofs.OutputEnds

/-!
# What is lost at the margins of lines

The white space of HTML is layout's to change. Every other character is written as often as it
stands in the template's nodes, but for the wider white space at both ends of the lines of a text:
a no-break space there is lost.

* `Lines.Tallies` counts how often a character has been written, and `Lines.Tallies.performAll` how
  often requests write it;
* `Node.margins` is the white space that printing a node drops, `Page.ownText` the text of the node
  with it, and `Page.Tallies` says that requests write the one without the other;
* `format_keeps_all_but_margins` is the result for every template that is formatted.
-/

namespace BladeTemplate

open Text

/-! ## Margins -/

namespace Text

/-- The white space at the end of a text. -/
def trailing (text : Chars) : Chars :=
  (text.reverse.takeWhile isBlank).reverse

/-- The white space at both ends of a line. -/
def margins (line : Chars) : Chars :=
  line.takeWhile isBlank ++ trailing (trimLeft line)

/-- The blank last line of a body that is not read as markup, if the end tag gets a new one. -/
def lastIndent (body : Chars) : Chars :=
  body.drop (dropBlankLine body).length

theorem trimRight_append_trailing (text : Chars) : trimRight text ++ trailing text = text := by
  rw [trimRight, trailing, ← List.reverse_append, List.takeWhile_append_dropWhile,
    List.reverse_reverse]

theorem dropBlankLine_append_lastIndent (body : Chars) :
    dropBlankLine body ++ lastIndent body = body := by
  have lead : dropBlankLine body <+: body := RegionKind.keptText_isPrefix true .rawText body
  exact (List.prefix_iff_eq_append.1 lead)

theorem isBlank_of_mem_trailing {text : Chars} {c : Char} (member : c ∈ trailing text) :
    isBlank c = true :=
  List.all_eq_true.1 List.all_takeWhile c (List.mem_reverse.1 member)

theorem isBlank_of_mem_margins {line : Chars} {c : Char} (member : c ∈ margins line) :
    isBlank c = true := by
  rcases List.mem_append.1 member with lead | trail
  · exact List.all_eq_true.1 List.all_takeWhile c lead
  · exact isBlank_of_mem_trailing trail

theorem isBlank_of_mem_lastIndent {body : Chars} {c : Char} (member : c ∈ lastIndent body) :
    isBlank c = true := by
  unfold lastIndent at member
  rcases dropBlankLine_cases body with ⟨same, _⟩ | ⟨head, last, rfl, dropped, blank⟩
  · rw [same, List.drop_length] at member
    cases member
  · rw [dropped, List.append_cons head '\n' last, List.drop_left] at member
    exact (blank c member).1

/-- A line is what is left of it and its margins. -/
theorem count_trim (line : Chars) (c : Char) :
    (trim line).count c + (margins line).count c = line.count c := by
  have left : line.takeWhile isBlank ++ trimLeft line = line := List.takeWhile_append_dropWhile ..
  have right : trim line ++ trailing (trimLeft line) = trimLeft line :=
    trimRight_append_trailing (trimLeft line)
  calc (trim line).count c + (margins line).count c
      = (line.takeWhile isBlank).count c + (trim line ++ trailing (trimLeft line)).count c := by
        rw [margins, List.count_append, List.count_append]
        omega
    _ = line.count c := by rw [right, ← List.count_append, left]

variable {c : Char}

/-- But for line feeds, a text is its lines. -/
theorem count_splitLines (other : c ≠ '\n') (text : Chars) :
    ((splitLines text).flatten).count c = text.count c := by
  cases lines : splitLines text with
  | nil => exact absurd lines (splitLines_ne_nil text)
  | cons first rest =>
    rw [eq_of_splitLines lines, List.flatten_cons, List.count_append, List.count_append]
    congr 1
    clear lines
    induction rest with
    | nil => rfl
    | cons line rest ih =>
      rw [List.flatten_cons, List.flatMap_cons, List.count_append, List.count_append, ih,
        List.count_cons_of_ne other.symm]

end Text

/-! ## Counting what is written -/

theorem ne_of_visible {c d : Char} (visible : isTagSpace c = false) (space : isTagSpace d = true) :
    c ≠ d := by
  rintro rfl
  rw [visible] at space
  cases space

namespace LineCall

/-- What a request writes. -/
def text (call : LineCall) : Chars :=
  call.text?.getD []

/-- What requests write. -/
def texts (calls : List LineCall) : Chars :=
  calls.flatMap text

@[simp]
theorem texts_nil : texts [] = [] := rfl

@[simp]
theorem texts_cons (call : LineCall) (rest : List LineCall) :
    texts (call :: rest) = call.text ++ texts rest := rfl

@[simp]
theorem texts_append (calls more : List LineCall) :
    texts (calls ++ more) = texts calls ++ texts more :=
  List.flatMap_append

@[simp]
theorem text_append (fragment : Chars) : text (.append fragment) = fragment := rfl

@[simp]
theorem text_raw (text : Chars) : (LineCall.raw text).text = text := rfl

@[simp]
theorem text_newline : text .newline = [] := rfl

@[simp]
theorem text_indent : text .indent = [] := rfl

@[simp]
theorem text_dedent : text .dedent = [] := rfl

theorem texts_of_gaps {calls : List LineCall} (gaps : Gaps calls) : texts calls = [] := by
  refine List.flatMap_eq_nil_iff.2 fun call member => ?_
  have gap := gaps call member
  cases call with
  | append | raw => cases gap
  | space | newline | blank | indent | dedent => rfl

end LineCall

namespace Lines

/-- The character has been written so many times, and lines are not indented with it. -/
structure Tallies (out : Lines) (c : Char) (n : Nat) : Prop where
  unit : c ∉ out.unit
  count : out.written.count c = n

namespace Tallies

variable {start out next : Lines} {c : Char} {n : Nat} {call : LineCall} {calls : List LineCall}

theorem count_replicate (tallies : out.Tallies c n) (level : Nat) :
    (Text.replicate level out.unit).count c = 0 := by
  rw [List.count_eq_zero]
  intro member
  obtain ⟨piece, copied, inside⟩ := List.mem_flatten.1 member
  rw [List.eq_of_mem_replicate copied] at inside
  exact tallies.unit inside

theorem count_dueBlanks (other : c ≠ '\n') (out : Lines) :
    (joinLines out.dueBlanks.reverse).count c = 0 := by
  rw [List.count_eq_zero]
  intro member
  obtain ⟨line, due, inside⟩ := List.mem_flatMap.1 member
  have empty : line = [] := by
    unfold dueBlanks at due
    split at due
    · cases due
    · exact List.eq_of_mem_replicate (List.mem_reverse.1 due)
  rw [empty, List.nil_append] at inside
  exact other (List.mem_singleton.1 inside)

theorem newline (visible : isTagSpace c = false) (tallies : out.Tallies c n) :
    out.newline.Tallies c n := by
  have feed : c ≠ '\n' := ne_of_visible visible (by decide)
  unfold Lines.newline
  split
  · exact ⟨tallies.unit, tallies.count⟩
  · refine ⟨tallies.unit, ?_⟩
    rw [← tallies.count]
    simp [written, joinLines, feed.symm]

/-- A fragment adds its characters. Indentation, blank lines and a space in front of it are of
other characters. -/
theorem append (visible : isTagSpace c = false) (tallies : out.Tallies c n) (fragment : Chars) :
    (out.append fragment).Tallies c (n + fragment.count c) := by
  have space : c ≠ ' ' := ne_of_visible visible (by decide)
  have feed : c ≠ '\n' := ne_of_visible visible (by decide)
  unfold Lines.append
  split
  · next empty =>
    rw [List.isEmpty_iff.1 empty]
    exact tallies
  rw [← tallies.count]
  split
  · next start =>
    have fresh : out.current = [] := List.isEmpty_iff.1 start
    refine ⟨tallies.unit, ?_⟩
    simp [written, fresh, joinLines_append, count_dueBlanks feed out, tallies.count_replicate]
  · refine ⟨tallies.unit, ?_⟩
    have spaced : (if out.pendingSpace then [' '] else []).count c = 0 := by
      split <;> simp [space.symm]
    simp [written, spaced, Nat.add_assoc]

theorem breaks (feed : c ≠ '\n') (tallies : out.Tallies c n) (lines : List Chars) :
    (lines.foldl breakTo out).Tallies c (n + lines.flatten.count c) := by
  induction lines generalizing out n with
  | nil => exact tallies
  | cons line rest ih =>
    have broken : (out.breakTo line).Tallies c (n + line.count c) := by
      refine ⟨tallies.unit, ?_⟩
      rw [written_breakTo, List.count_append, List.count_cons_of_ne feed.symm, tallies.count]
    rw [List.flatten_cons, List.count_append, ← Nat.add_assoc]
    exact ih broken

/-- A text of several lines adds its characters; line feeds do not count. -/
theorem raw (visible : isTagSpace c = false) (tallies : out.Tallies c n) (text : Chars) :
    (out.raw text).Tallies c (n + text.count c) := by
  have feed : c ≠ '\n' := ne_of_visible visible (by decide)
  rw [← count_splitLines feed]
  unfold Lines.raw
  split
  · next none => exact absurd none (splitLines_ne_nil text)
  · next first one =>
    rw [one, List.flatten_singleton]
    exact tallies.append visible first
  · next first second rest several =>
    rw [several, List.flatten_cons, List.count_append, ← Nat.add_assoc]
    simp only
    split
    · next fresh =>
      rw [Bool.and_eq_true, List.isEmpty_iff] at fresh
      have current : out.current = [] := List.isEmpty_iff.1 fresh.2
      have restarted : (out.restart second).Tallies c (n + second.count c) := by
        refine ⟨tallies.unit, ?_⟩
        rw [← tallies.count]
        simp [written, restart, current]
      rw [fresh.1, List.count_nil, Nat.add_zero, List.flatten_cons, List.count_append,
        ← Nat.add_assoc]
      exact restarted.breaks feed rest
    · exact (tallies.append visible first).breaks feed (second :: rest)

/-- What a request writes is added; nothing else is of the character. -/
theorem perform (visible : isTagSpace c = false) (tallies : out.Tallies c n)
    (performed : call.perform? out = some next) : next.Tallies c (n + call.text.count c) := by
  cases call with
  | append fragment =>
    cases performed
    exact tallies.append visible fragment
  | raw text =>
    cases performed
    exact tallies.raw visible text
  | space =>
    cases performed
    show out.space.Tallies c n
    unfold Lines.space
    split <;> exact ⟨tallies.unit, tallies.count⟩
  | newline =>
    cases performed
    exact tallies.newline visible
  | blank count =>
    cases performed
    show (out.blank count).Tallies c n
    unfold Lines.blank
    split <;> exact ⟨tallies.unit, tallies.count⟩
  | indent =>
    cases performed
    exact ⟨tallies.unit, tallies.count⟩
  | dedent =>
    rw [LineCall.perform?] at performed
    split at performed
    · cases performed
    · cases performed
      exact ⟨tallies.unit, tallies.count⟩

theorem performAll (visible : isTagSpace c = false) (tallies : start.Tallies c n)
    (performed : LineCall.performAll? calls start = some out) :
    out.Tallies c (n + (LineCall.texts calls).count c) := by
  induction calls generalizing start n with
  | nil =>
    cases performed
    exact tallies
  | cons call rest ih =>
    obtain ⟨next, first, later⟩ := LineCall.performAll?_cons_iff.1 performed
    rw [LineCall.texts_cons, List.count_append, ← Nat.add_assoc]
    exact ih (tallies.perform visible first) later

end Tallies

end Lines

/-! ## Nodes -/

/-- The white space that is dropped when a node itself is printed: at both ends of the lines of a
text, at the end of a block that was never closed, and where an end tag was indented. -/
def Node.margins (source : Chars) : Node → Chars
  | .text _ content => (splitLines content).flatMap Text.margins
  | .block location _ _ _ none _ => trailing (location.slice source)
  | .element markup _ children =>
    if markup.copiesBody && Tag.isOneOf Tag.reindentedNames markup.tag then
      lastIndent (Page.bodyText source children)
    else []
  | _ => []

namespace Page

/-- The tags of markup that is printed from its parts. -/
def tagTexts (page : Page) (markup : Markup) (void : Bool) : Chars :=
  page.startTagText markup ++
    if markup.closed && !(markup.selfClosing || void) then endTagText markup else []

/-- The text of a node itself, without the nodes below it that are printed from their parts. Texts
and copies are there in full, everything else is there as it is printed. -/
def ownText (page : Page) : Node → Chars
  | .text _ content | .comment _ content | .region _ _ content | .endTag _ _ content => content
  | .echo echo => formatEcho echo.style echo.expression
  | .directive directive => page.directiveText directive
  | .block location _ _ _ none _ => location.slice page.source
  | .block _ _ _ _ (some _) _ => []
  | .element markup void children =>
    if markup.copiesBody then
      page.startTagText markup ++ bodyText page.source children ++ endTagText markup
    else page.tagTexts markup void
  | .component markup _ _ | .slot _ markup _ => page.tagTexts markup false
  | .attr entry => entry.location.slice page.source
  | .document location _ _ _ => location.slice page.source

open LineCall

/-- The requests write the character as often as it is in the nodes, but for their margins. -/
def Tallies (page : Page) (c : Char) (nodes : List Node) (calls : List LineCall) : Prop :=
  (texts calls).count c + (nodes.flatMap (Node.margins page.source)).count c =
    (nodes.flatMap page.ownText).count c

variable {page : Page} {c : Char} {nodes more : List Node} {calls later : List LineCall}
  {level : Nat}

namespace Tallies

theorem none (page : Page) (c : Char) : page.Tallies c [] [] := rfl

theorem append (first : page.Tallies c nodes calls) (second : page.Tallies c more later) :
    page.Tallies c (nodes ++ more) (calls ++ later) := by
  unfold Tallies at first second ⊢
  simp only [texts_append, List.flatMap_append, List.count_append]
  omega

theorem perm (tallies : page.Tallies c nodes calls) (same : nodes.Perm more) :
    page.Tallies c more calls := by
  unfold Tallies at tallies ⊢
  rwa [← (same.flatMap_right _).count_eq c, ← (same.flatMap_right page.ownText).count_eq c]

/-- Only what the requests write matters. -/
theorem congr (tallies : page.Tallies c nodes calls) (same : texts later = texts calls) :
    page.Tallies c nodes later := by
  unfold Tallies at tallies ⊢
  rwa [same]

/-- A node that has no margins, around others. -/
theorem around {self : Node} (before after : List LineCall)
    (snug : self.margins page.source = [])
    (own : (texts before).count c + (texts after).count c = (page.ownText self).count c)
    (inner : page.Tallies c nodes calls) :
    page.Tallies c (self :: nodes) (before ++ calls ++ after) := by
  unfold Tallies at inner ⊢
  simp only [texts_append, List.flatMap_cons, List.count_append, snug, List.count_nil]
  omega

/-- A node that has no margins and is printed in one piece. -/
theorem single {self : Node} (snug : self.margins page.source = [])
    (own : (texts calls).count c = (page.ownText self).count c) : page.Tallies c [self] calls := by
  have alone : page.Tallies c [self] (calls ++ [] ++ []) :=
    around calls [] snug (by simpa using own) (none page c)
  simpa using alone

/-- Requests for one node after another. -/
theorem flatMap {ask : Node → List LineCall}
    (each : ∀ node ∈ nodes, page.Tallies c node.built (ask node)) :
    page.Tallies c (nodes.flatMap Node.built) (nodes.flatMap ask) := by
  induction nodes with
  | nil => exact none page c
  | cons node rest ih =>
    exact (each node List.mem_cons_self).append
      (ih fun other member => each other (List.mem_cons_of_mem node member))

end Tallies

/-! ## Texts -/

theorem texts_edgeCalls (edge : Option Char) : texts (edgeCalls edge) = [] :=
  texts_of_gaps (gaps_edge edge)

theorem texts_segmentCalls (segment : Chars) : texts (segmentCalls segment) = trim segment := by
  unfold segmentCalls
  simp only
  split
  · next empty =>
    rw [List.isEmpty_iff.1 empty]
    split <;> rfl
  · simp [texts_edgeCalls]

theorem texts_segmentsCalls (breaks : Nat) (segments : List Chars) :
    texts (segmentsCalls breaks segments) = segments.flatMap trim := by
  induction segments generalizing breaks with
  | nil =>
    unfold segmentsCalls
    split <;> rfl
  | cons segment rest ih =>
    unfold segmentsCalls
    rw [List.flatMap_cons]
    split
    · next blank =>
      rw [ih, trim_eq_nil_iff.2 blank, List.nil_append]
    · rw [texts_append, texts_append, texts_segmentCalls, ih]
      rfl

/-- A text writes what is left of its lines. -/
theorem texts_textCalls (content : Chars) :
    texts (textCalls content) = (splitLines content).flatMap trim := by
  unfold textCalls
  split
  · next none => exact absurd none (splitLines_ne_nil content)
  · next first rest lines =>
    rw [texts_append, texts_segmentCalls, texts_segmentsCalls, lines, List.flatMap_cons]

theorem tallies_text (feed : c ≠ '\n') (location : Location) (content : Chars) :
    page.Tallies c [.text location content] (textCalls content) := by
  have lines : ∀ lines : List Chars, (lines.flatMap trim).count c +
      (lines.flatMap Text.margins).count c = lines.flatten.count c := by
    intro lines
    induction lines with
    | nil => rfl
    | cons line rest ih =>
      have first := count_trim line c
      simp only [List.flatMap_cons, List.flatten_cons, List.count_append]
      omega
  unfold Tallies
  rw [List.flatMap_singleton, List.flatMap_singleton, texts_textCalls, Node.margins, ownText, lines,
    count_splitLines feed]

/-! ## Tags -/

section tags

variable (visible : isTagSpace c = false)

include visible

/-- Whether a start tag is on one line or not, it has the same characters. -/
theorem count_wrappedCalls (page : Page) (markup : Markup) (rest : Chars) :
    (texts (page.wrappedCalls markup (tagEnd markup ++ rest))).count c =
      (page.startTagText markup ++ rest).count c := by
  have space : c ≠ ' ' := ne_of_visible visible (by decide)
  have entries : ∀ run : List Attribute,
      (texts (run.flatMap fun entry => [.raw (attributeText entry), .newline])).count c =
        (run.flatMap fun entry => ' ' :: attributeText entry).count c := by
    intro run
    induction run with
    | nil => rfl
    | cons entry rest ih =>
      simp [List.flatMap_cons, ih, space.symm]
  have ended : (tagEnd markup).count c =
      (if markup.selfClosing then [' ', '/', '>'] else ['>']).count c := by
    unfold tagEnd
    split <;> simp [space.symm]
  simp [wrappedCalls, startTagText, entries, ended, List.count_cons]

theorem count_startTagCalls (page : Page) (markup : Markup) (wrapped : Bool) :
    (texts (page.startTagCalls markup wrapped)).count c = (page.startTagText markup).count c := by
  unfold startTagCalls
  split
  · have bare := count_wrappedCalls visible page markup []
    rwa [List.append_nil, List.append_nil] at bare
  · simp

theorem count_loneTagCalls (page : Page) (markup : Markup) (rest : Chars) :
    (texts (page.loneTagCalls markup (tagEnd markup ++ rest))).count c =
      (page.startTagText markup ++ rest).count c := by
  have tag := count_wrappedCalls visible page markup rest
  simpa [loneTagCalls] using tag

end tags

/-! ## Content -/

/-- At whatever level a node is printed, the requests for it write what it has. -/
def Counted (page : Page) (c : Char) (node : Node) : Prop :=
  ∀ level, page.Tallies c node.built (page.calls node level)

theorem tallies_directive (directive : Directive) :
    page.Tallies c [.directive directive] [.raw (page.directiveText directive)] :=
  .single rfl (by simp [ownText])

theorem tallies_line (directive : Directive) :
    page.Tallies c [.directive directive] (page.lineCalls directive) :=
  (tallies_directive directive).congr (by simp [lineCalls])

section content

variable (counted : ∀ node ∈ nodes, page.Counted c node)

include counted

theorem tallies_allCalls :
    page.Tallies c (nodes.flatMap Node.built) (allCalls (page.scripts nodes) level) := by
  rw [allCalls, scripts_eq, List.flatMap_map]
  exact .flatMap fun node member => counted node member level

theorem tallies_contentCalls :
    page.Tallies c (nodes.flatMap Node.built)
      ((page.scripts nodes).flatMap (contentCalls level)) := by
  rw [scripts_eq, List.flatMap_map]
  refine .flatMap fun node member => (counted node member level).congr ?_
  unfold contentCalls
  split <;> simp

theorem tallies_branchCalls :
    page.Tallies c (nodes.flatMap Node.built) (page.branchCalls (page.scripts nodes) level) := by
  rw [branchCalls, scripts_eq, List.flatMap_map]
  refine .flatMap fun node member => ?_
  simp only
  split
  · next middle found =>
    obtain rfl := Node.eq_of_middle found
    exact (tallies_line middle).congr (by simp)
  · exact counted node member level

theorem tallies_labelCalls (inBranch : Bool) :
    page.Tallies c (nodes.flatMap Node.built)
      (page.labelCalls level inBranch (page.scripts nodes)) := by
  have ended (inBranch : Bool) : texts (branchEnd inBranch) = [] := by
    cases inBranch <;> rfl
  induction nodes generalizing inBranch with
  | nil => exact (Tallies.none page c).congr (ended inBranch)
  | cons node rest ih =>
    have later := ih fun other member => counted other (List.mem_cons_of_mem node member)
    rw [scripts, labelCalls, List.flatMap_cons]
    simp only
    split
    · next middle found =>
      obtain rfl := Node.eq_of_middle found
      refine ((tallies_line middle).append (later true)).congr ?_
      split <;> simp [ended]
    · exact (counted node List.mem_cons_self _).append (later inBranch)

/-- A closed block has its directives, and nothing of its own. -/
theorem tallies_blockCalls (inline : Bool) (opener closer : Directive) (indentsMiddles : Bool) :
    page.Tallies c (.directive opener :: nodes.flatMap Node.built ++ [.directive closer])
      (page.blockCalls inline opener closer indentsMiddles (page.scripts nodes) level) := by
  unfold blockCalls
  split
  · exact ((tallies_directive opener).append (tallies_allCalls counted)).append
      (tallies_directive closer)
  · have content : page.Tallies c (nodes.flatMap Node.built)
        (if indentsMiddles then page.labelCalls (level + 1) false (page.scripts nodes)
          else page.branchCalls (page.scripts nodes) (level + 1)) := by
      split
      · exact tallies_labelCalls counted false
      · exact tallies_branchCalls counted
    exact (((tallies_line opener).append content).append (tallies_line closer)).congr (by simp)

end content

/-! ## Markup -/

/-- White space has no characters that are not at a margin. -/
theorem tallies_hollow (feed : c ≠ '\n') {slots children : List Node}
    (hollow : isHollow slots children = true) :
    page.Tallies c ((slots ++ children).flatMap Node.built) [] := by
  simp only [isHollow, Bool.and_eq_true, List.isEmpty_iff, List.all_eq_true] at hollow
  rw [hollow.1, List.nil_append]
  have each : ∀ node ∈ children, page.Tallies c node.built [] := by
    intro node member
    have blank := hollow.2 node member
    cases node with
    | text location content =>
      refine (tallies_text feed location content).congr ?_
      rw [texts_of_gaps (gaps_text blank), texts_nil]
    | _ => cases blank
  have whole : page.Tallies c (children.flatMap Node.built) (children.flatMap fun _ => []) :=
    .flatMap each
  rwa [List.flatMap_eq_nil_iff.2 fun _ _ => rfl] at whole

section markup

variable (visible : isTagSpace c = false) {self : Node} (markup : Markup) (void : Bool)
  {slots children : List Node} (snug : self.margins page.source = [])
  (own : page.ownText self = page.tagTexts markup void)
  (alone : (markup.selfClosing || void) = true → slots ++ children = [])
  (counted : ∀ node ∈ slots ++ children, page.Counted c node)

include visible snug own alone counted

theorem tallies_closedCalls (closed : markup.closed = true) (childrenInline : Bool) :
    page.Tallies c (self :: (slots ++ children).flatMap Node.built)
      (page.closedCalls markup void (page.scripts slots) (page.scripts children) childrenInline
        level) := by
  have feed : c ≠ '\n' := ne_of_visible visible (by decide)
  unfold closedCalls
  simp only [map_node_scripts]
  split
  · next single =>
    have tags : page.ownText self = page.startTagText markup := by
      simp [own, tagTexts, single]
    rw [alone single]
    refine .single snug ?_
    rw [tags]
    split
    · have lone := count_loneTagCalls visible page markup []
      rwa [List.append_nil, List.append_nil] at lone
    · simp
  next double =>
  have tags : page.ownText self = page.startTagText markup ++ endTagText markup := by
    rw [Bool.not_eq_true] at double
    simp [own, tagTexts, closed, double]
  split
  · next hollow =>
    have notSelf : markup.selfClosing = false := by
      cases found : markup.selfClosing with
      | false => rfl
      | true => simp [found] at double
    have ended : '>' :: endTagText markup = tagEnd markup ++ endTagText markup := by
      simp [tagEnd, notSelf]
    have tag : (texts (if page.wraps markup level then
        page.loneTagCalls markup ('>' :: endTagText markup)
        else [.raw (page.startTagText markup ++ endTagText markup)])).count c =
        (page.ownText self).count c := by
      rw [tags]
      split
      · rw [ended, count_loneTagCalls visible]
      · simp
    exact ((Tallies.single snug tag).append (tallies_hollow feed hollow)).congr (by simp)
  split
  · next flows =>
    -- Slots always break the line, so an element on one line has none.
    have noSlots : slots = [] := by
      simp [breaks] at flows
      exact flows.1.1.2
    rw [noSlots, List.nil_append] at counted ⊢
    exact .around _ _ snug (by simp [tags]) (tallies_allCalls counted)
  · rw [← scripts_append]
    refine .around _ _ snug ?_ (tallies_contentCalls counted)
    have tag := count_startTagCalls visible page markup (page.wraps markup level)
    simp [tags, tag]

theorem tallies_markupCalls :
    page.Tallies c (self :: (slots ++ children).flatMap Node.built)
      (page.markupCalls markup void (page.scripts slots) (page.scripts children) level) := by
  unfold markupCalls
  split
  · next notClosed =>
    have tags : page.ownText self = page.startTagText markup := by
      rw [Bool.not_eq_true'] at notClosed
      simp [own, tagTexts, notClosed]
    rw [← scripts_append, unclosedCalls, mergeSort_scripts]
    have sorted := List.mergeSort_perm (slots ++ children) fun a b =>
      a.location.offset ≤ b.location.offset
    have content := @tallies_allCalls page c _ level fun node member =>
      counted node (sorted.mem_iff.1 member)
    have whole := Tallies.around [.raw (page.startTagText markup)] [] snug (by simp [tags]) content
    rw [List.append_nil] at whole
    exact whole.perm ((sorted.flatMap_right _).cons self)
  · next closed =>
    exact tallies_closedCalls visible markup void snug own alone counted (by simpa using closed) _

end markup

/-! ## Trees -/

theorem tallies_rawTextCalls (visible : isTagSpace c = false) (markup : Markup) (void : Bool)
    (children : List Node) (copied : markup.copiesBody = true) :
    page.Tallies c [.element markup void children] (page.rawTextCalls markup children level) := by
  have break_ (body : Chars) : texts (if isMultiline body then [.newline] else []) = [] := by
    split <;> rfl
  have tag (wrapped : Bool) := count_startTagCalls visible page markup wrapped
  have body := congrArg (List.count c)
    (dropBlankLine_append_lastIndent (bodyText page.source children))
  rw [List.count_append] at body
  unfold Tallies rawTextCalls
  simp only [List.flatMap_singleton, Node.margins, ownText, copied, if_true, Bool.true_and]
  cases Tag.isOneOf Tag.reindentedNames markup.tag with
  | true =>
    simp [break_, tag, withoutLastIndent_eq]
    omega
  | false => simp [break_, tag]

variable {registry : Registry}

/-- The requests for a node write what the node has and what is below it. -/
theorem counted_calls (visible : isTagSpace c = false) {node : Node}
    (whole : node.Whole registry page.source) : page.Counted c node := by
  induction whole with
  | @text location =>
    intro level
    rw [calls]
    exact tallies_text (ne_of_visible visible (by decide)) location _
  | echo | comment | region | directive | endTag =>
    intro level
    rw [calls]
    exact .single rfl (by simp [ownText])
  | @openBlock location =>
    intro level
    rw [calls]
    have whole := congrArg (List.count c)
      (trimRight_append_trailing (location.slice page.source))
    simpa [Tallies, Node.built, Node.margins, ownText] using whole
  | @block location opener closer family children indentsMiddles _ _ _ _ _ _ _ _ _ ih =>
    intro level
    rw [calls, Node.built, Node.builtAll_eq]
    let self : Node := .block location opener family children (some closer) indentsMiddles
    have bare : page.Tallies c [self] [] := .single rfl rfl
    exact bare.append (tallies_blockCalls ih _ opener closer indentsMiddles)
  | @element markup void children _ _ _ shaped _ ih =>
    intro level
    cases copied : markup.copiesBody with
    | true =>
      rw [page.calls_of_copied void children level copied, Node.built_copied void children copied]
      exact tallies_rawTextCalls visible markup void children copied
    | false =>
      rw [page.calls_of_markup void children level copied,
        Node.built_element void children copied, Node.builtAll_eq]
      exact @tallies_markupCalls page c level visible (.element markup void children) markup void
        [] children (by simp [Node.margins, copied]) (by simp [ownText, copied])
        (content_of_single shaped) ih
  | @slot name markup children _ _ _ shaped _ ih =>
    intro level
    rw [calls, Node.built, Node.builtAll_eq]
    exact @tallies_markupCalls page c level visible (.slot name markup children) markup false
      [] children rfl rfl (content_of_single shaped) ih
  | @component markup children _ _ spans shaped wholes ih =>
    intro level
    rw [calls, Node.built, Node.builtAll_eq, Node.builtAll_eq, List.cons_append,
      ← List.flatMap_append]
    refine tallies_markupCalls visible markup false rfl rfl
      (content_of_single_component (.component spans shaped wholes)) fun node member => ?_
    exact ih node ((List.filter_append_perm _ _).mem_iff.1 member)

end Page

/-! ## Whole templates -/

/-- The white space at the margins of a template's nodes. -/
def Document.margins (document : Document) : Chars :=
  (Node.builtAll document.children).flatMap (Node.margins document.source)

/-- The text of a template's nodes, as it is printed under a configuration, with the margins. -/
def Document.fullText (config : Config) (document : Document) : Chars :=
  (Node.builtAll document.children).flatMap (Page.ownText ⟨config, document.source⟩)

theorem Node.isBlank_of_mem_margins {source : Chars} {node : Node} {c : Char}
    (member : c ∈ node.margins source) : Text.isBlank c = true := by
  unfold margins at member
  split at member
  · obtain ⟨line, _, inside⟩ := List.mem_flatMap.1 member
    exact Text.isBlank_of_mem_margins inside
  · exact isBlank_of_mem_trailing member
  · split at member
    · exact isBlank_of_mem_lastIndent member
    · cases member
  · cases member

/-- The output of a template has as many of a character as the nodes have, but for their margins. -/
theorem count_render (config : Config) {dialect : Dialect} {file : Option String} {source : Chars}
    {document : Document} (parsed : (parse dialect file source).outcome = .ok document) {c : Char}
    (visible : isTagSpace c = false) :
    (render config document).count c + document.margins.count c =
      (document.fullText config).count c := by
  obtain ⟨_, wholes⟩ := whole_of_parse parsed
  let page : Page := ⟨config, document.source⟩
  rw [← source_of_parse parsed] at wholes
  let start : Lines := .new config.indentUnit config.preserveBlankLines
  have leads : start.Leads (Page.allCalls (page.scripts document.children) 0)
      (Page.printAll (page.pieces document.children) start) 0 :=
    Page.leads_printAll (fun node _ => page.leads_print node) rfl
  have unit : c ∉ config.indentUnit := by
    intro member
    rcases config.eq_of_mem_indentUnit member with rfl | rfl <;> cases visible
  have fresh : start.Tallies c 0 := ⟨unit, rfl⟩
  have written := ((fresh.performAll visible leads.performed).newline visible).count
  rw [← Lines.build_eq, Nat.zero_add] at written
  have counted : page.Tallies c _ (Page.allCalls (page.scripts document.children) 0) :=
    Page.tallies_allCalls fun node member => Page.counted_calls visible (wholes node member)
  unfold Page.Tallies at counted
  rw [← written, ← Node.builtAll_eq] at counted
  exact counted

/-- **What is lost at the margins of lines.** Of every template that is formatted, under whatever
configuration, the result has each character that is not white space to HTML as often as the nodes
have it, but for the white space at their margins; so it has all of them exactly when none is there.
What is lost that way is white space in the wider sense, such as a no-break space. -/
theorem format_keeps_all_but_margins (config : Config) (file : Option String) (source : Chars)
    (passed : (format config file source).failed = false) :
    ∃ document, (parse config.dialect file source).outcome = .ok document ∧
      (∀ c ∈ document.margins, isBlank c = true) ∧
      ∀ c, isTagSpace c = false →
        (format config file source).text.count c + document.margins.count c =
          (document.fullText config).count c ∧
        ((format config file source).text.count c = (document.fullText config).count c ↔
          c ∉ document.margins) := by
  rcases format_cases config file source with ⟨error, _, outcome⟩ |
    ⟨document, violation, _, _, _, outcome⟩ | ⟨document, parsed, checked, outcome⟩
  · rw [outcome, failed_fallback] at passed
    cases passed
  · rw [outcome, failed_fallback] at passed
    cases passed
  have printed : (format config file source).text = render config document := by rw [outcome]
  rw [printed]
  refine ⟨document, parsed, ?_, ?_⟩
  · intro c member
    obtain ⟨node, _, inside⟩ := List.mem_flatMap.1 member
    exact Node.isBlank_of_mem_margins inside
  · intro c visible
    have counts := count_render config parsed visible
    refine ⟨counts, ?_⟩
    rw [← List.count_eq_zero]
    omega

/-- Of four no-break spaces the one between two letters stays, and the result passes. -/
theorem format_keeps_all_but_margins_noBreak :
    let noBreak := Char.ofNat 0xA0
    let source := "<td>\u00a0</td>\n<p>\u00a0a\u00a0b\u00a0\n</p>\n".toList
    (format {} none source).failed = false ∧ isTagSpace noBreak = false ∧
    ∃ document, (parse (Config.dialect {}) none source).outcome = .ok document ∧
      document.margins.count noBreak = 3 ∧ (document.fullText {}).count noBreak = 4 ∧
      (format {} none source).text.count noBreak = 1 := by
  intro noBreak source
  have passed : (format {} none source).failed = false := by decide +kernel
  have visible : isTagSpace noBreak = false := by decide
  have margins : (parse (Config.dialect {}) none source).outcome.toOption.map (fun document =>
      (document.margins.count noBreak, (document.fullText {}).count noBreak)) = some (3, 4) := by
    decide +kernel
  obtain ⟨document, parsed, -, counts⟩ := format_keeps_all_but_margins {} none source passed
  rw [parsed] at margins
  obtain ⟨lost, full⟩ := Prod.mk.inj (Option.some.inj margins)
  refine ⟨passed, visible, document, parsed, lost, full, ?_⟩
  have count := (counts noBreak visible).1
  rw [lost, full] at count
  omega

end BladeTemplate
