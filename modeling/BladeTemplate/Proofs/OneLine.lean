import BladeTemplate.Proofs.Balance
import BladeTemplate.Proofs.EchoSpacing
import BladeTemplate.Proofs.Matching
import BladeTemplate.Proofs.Registration
import BladeTemplate.Proofs.Requests
import BladeTemplate.Proofs.Slices
import BladeTemplate.Proofs.Typeset
import BladeTemplate.Proofs.Verbatim

/-!
# Layout decisions agree with printing

Whether a node is written without line break is decided before it is printed, by a recursion of its
own. The two agree: printing such a node behind something on a line finishes no line. There is one
exception. Markup inside a body that is copied is judged by its start tag in canonical form, but
copied as it stands, line breaks included.

* `Lines.Extends` says that output went on on its line, and `LineCall.staysOnLine` which requests
  make it do so;
* `Node.copiesOneLine` rules the exception out;
* `Page.stay_calls` goes through the decision and the requests case by case;
* `print_agrees_with_layout` is the result for every node of a template.
-/

namespace BladeTemplate

open Text

/-! ## Staying on a line -/

/-- Whether a request leaves a line that has been started unfinished. -/
def LineCall.staysOnLine : LineCall → Bool
  | .append _ | .space => true
  | .raw text => !isMultiline text
  | .newline | .blank _ | .indent | .dedent => false

namespace Lines

/-- The output went on on its line: no line was finished, and the level is as it was. -/
structure Extends (start out : Lines) : Prop where
  done : out.done = start.done
  level : out.level = start.level
  current : start.current <+: out.current

variable {start out next : Lines}

theorem Extends.refl (out : Lines) : out.Extends out := ⟨rfl, rfl, List.prefix_refl _⟩

theorem Extends.trans (first : start.Extends out) (second : out.Extends next) :
    start.Extends next :=
  ⟨second.done.trans first.done, second.level.trans first.level,
    first.current.trans second.current⟩

theorem Extends.started (extended : start.Extends out) (started : start.current ≠ []) :
    out.current ≠ [] :=
  fun empty => started (List.prefix_nil.1 (empty ▸ extended.current))

theorem extends_append (started : out.current ≠ []) (fragment : Chars) :
    out.Extends (out.append fragment) := by
  have notStart : ¬ out.atLineStart = true := by simpa [atLineStart] using started
  unfold append
  rw [if_neg notStart]
  split
  · exact .refl out
  · exact ⟨rfl, rfl, (List.prefix_append _ _).trans (List.prefix_append _ _)⟩

/-- One request. -/
theorem extends_perform {call : LineCall} (stays : call.staysOnLine = true)
    (started : out.current ≠ []) (performed : call.perform? out = some next) :
    out.Extends next := by
  cases call with
  | append fragment =>
    cases performed
    exact extends_append started fragment
  | raw text =>
    cases performed
    have single : '\n' ∉ text := by simpa [LineCall.staysOnLine, isMultiline] using stays
    show out.Extends (out.raw text)
    rw [raw_of_single single]
    exact extends_append started text
  | space =>
    cases performed
    show out.Extends out.space
    unfold space
    split
    · exact .refl out
    · exact ⟨rfl, rfl, List.prefix_refl _⟩
  | newline | blank _ | indent | dedent => cases stays

/-- Several requests: once a line has been started, it stays started. -/
theorem extends_performAll {calls : List LineCall}
    (stay : ∀ call ∈ calls, call.staysOnLine = true) (started : start.current ≠ [])
    (performed : LineCall.performAll? calls start = some out) : start.Extends out := by
  induction calls generalizing start with
  | nil =>
    cases performed
    exact .refl out
  | cons call rest ih =>
    obtain ⟨next, first, later⟩ := LineCall.performAll?_cons_iff.1 performed
    have begun := extends_perform (stay call List.mem_cons_self) started first
    exact begun.trans (ih (fun other member => stay other (List.mem_cons_of_mem call member))
      (begun.started started) later)

theorem finished_append (out : Lines) (fragment : Chars) :
    out.done <:+ (out.append fragment).done := by
  unfold append
  split
  · exact List.suffix_refl _
  split
  · exact List.suffix_append _ _
  · exact List.suffix_refl _

theorem finished_breaks (lines : List Chars) (out : Lines) :
    out.done <:+ (lines.foldl breakTo out).done := by
  induction lines generalizing out with
  | nil => exact List.suffix_refl _
  | cons line rest ih => exact (List.suffix_cons _ _).trans (ih (out.breakTo line))

theorem finished_raw (out : Lines) (text : Chars) : out.done <:+ (out.raw text).done := by
  unfold raw
  split
  · exact List.suffix_refl _
  · exact finished_append out _
  · next first second rest _ =>
    refine List.IsSuffix.trans ?_ (finished_breaks rest _)
    split
    · exact List.suffix_refl _
    · exact (finished_append out first).trans (List.suffix_cons _ _)

/-- Finished lines stay as they are, whatever is asked for. -/
theorem finished_perform {call : LineCall} (performed : call.perform? out = some next) :
    out.done <:+ next.done := by
  cases call with
  | append fragment =>
    cases performed
    exact finished_append out fragment
  | raw text =>
    cases performed
    exact finished_raw out text
  | newline =>
    cases performed
    show out.done <:+ out.newline.done
    unfold newline
    split
    · exact List.suffix_refl _
    · exact List.suffix_cons _ _
  | space =>
    cases performed
    show out.done <:+ out.space.done
    unfold space
    split <;> exact List.suffix_refl _
  | blank count =>
    cases performed
    show out.done <:+ (out.blank count).done
    unfold blank
    split <;> exact List.suffix_refl _
  | indent =>
    cases performed
    exact List.suffix_refl _
  | dedent =>
    have back : (if out.level = 0 then none else some out.dedent) = some next := performed
    split at back
    · cases back
    · cases back
      exact List.suffix_refl _

theorem finished_performAll {calls : List LineCall}
    (performed : LineCall.performAll? calls start = some out) : start.done <:+ out.done := by
  induction calls generalizing start with
  | nil =>
    cases performed
    exact List.suffix_refl _
  | cons call rest ih =>
    obtain ⟨next, first, later⟩ := LineCall.performAll?_cons_iff.1 performed
    exact (finished_perform first).trans (ih later)

end Lines

/-! ## Texts without line feed -/

section single

variable {page : Page} {registry : Registry} {source : Chars} {a b : Nat}

theorem Text.single_trimRight {text : Chars} (single : '\n' ∉ text) : '\n' ∉ trimRight text := by
  unfold trimRight
  rw [List.mem_reverse]
  intro member
  exact single (List.mem_reverse.1 ((List.dropWhile_suffix _).subset member))

theorem Text.single_formatEcho (style : EchoStyle) {expression : Chars}
    (single : '\n' ∉ expression) : '\n' ∉ formatEcho style expression := by
  have oneLine : isMultiline expression = false := by simpa [isMultiline] using single
  have trimmed := not_isMultiline_trim oneLine
  have opener : '\n' ∉ style.opener := by cases style <;> decide
  have closer : '\n' ∉ style.closer := by cases style <;> decide
  rw [formatEcho_eq, echoBody, if_neg (by simp [oneLine])]
  split <;> simp [opener, closer, trimmed]

/-- The spelling of the registry has no line break where the name as written has none. -/
theorem Directive.Placed.single_name {directive : Directive}
    (placed : directive.Placed registry source a b) (registered : directive.registered = true)
    (written : '\n' ∉ directive.writtenName) : '\n' ∉ directive.name := by
  obtain ⟨descriptor, found, named⟩ := placed.known registered
  rw [named, ← List.count_eq_zero, Registry.count_of_lookup found (by decide),
    List.count_eq_zero]
  exact written

theorem Directive.Placed.single_directiveText {directive : Directive}
    (placed : directive.Placed registry source a b) (single : '\n' ∉ directive.source) :
    '\n' ∉ page.directiveText directive := by
  unfold Page.directiveText
  split
  · exact single
  · next canonical =>
    split
    · exact single
    simp only [Bool.or_eq_true, Bool.not_eq_true', not_or, Bool.not_eq_false] at canonical
    have spelled := placed.single_name canonical.2
    rw [placed.written.text] at single
    rcases placed.written.shape with ⟨bare, shape⟩ | ⟨gap, inside, given, _, shape⟩
    · simp only [shape, List.mem_cons, not_or] at single
      simp [bare, spelled single.2]
    · simp only [shape, List.cons_append, List.mem_cons, List.mem_append, not_or] at single
      rw [given]
      simp only
      split <;> simp [spelled single.2.1.1.1.1, single.2.1.2]

theorem Markup.Shaped.single_endTagText {markup : Markup} {void : Bool} {children : List Node}
    (shaped : markup.Shaped source void children a b) : '\n' ∉ Page.endTagText markup := by
  have blank : isBlank '\n' = true := by decide
  have tag {m : Nat} (opens : markup.Opens source a m) : '\n' ∉ markup.tag := by
    intro member
    rw [isBlank_of_nameChar (opens.nameChars _ member)] at blank
    cases blank
  have word (text : Chars) : '\n' ∉ firstWord text := by
    intro member
    have inked := List.all_eq_true.1 List.all_takeWhile '\n' member
    rw [blank] at inked
    cases inked
  unfold Page.endTagText
  cases shaped with
  | single opens _ _ _ _ none | unclosed opens _ _ _ _ none => simp [none, tag opens]
  | closed inside opens _ _ _ _ _ _ _ some_ same => simp [same, word, some_]

end single

namespace Node

variable {registry : Registry} {source : Chars}

/-- Whether all markup that is copied with the body of the node stands on one line. -/
def copiesOneLine (source : Chars) : Node → Bool
  | .element markup _ children =>
    !markup.copiesBody ||
      children.all fun child => child.markup?.isNone || !isMultiline (child.location.slice source)
  | _ => true

/-- The shape of a node that is markup. -/
theorem Whole.shaped {node : Node} {markup : Markup} (whole : node.Whole registry source)
    (found : node.markup? = some markup) :
    ∃ void children a b, markup.Shaped source void children a b := by
  cases whole with
  | element _ shaped _ | slot _ shaped _ | component _ shaped _ =>
    cases found
    exact ⟨_, _, _, _, shaped⟩
  | _ => cases found

/-- A node that needs no line break stands on one line of the template, unless it is markup. -/
theorem Whole.single_slice {page : Page} {level : Nat} {node : Node}
    (whole : node.Whole registry page.source) (inline : page.isInline level node = true)
    (markup : node.markup?.isSome = true → '\n' ∉ node.location.slice page.source) :
    '\n' ∉ node.location.slice page.source := by
  cases node with
  | text location content | comment location content =>
    have same : content = location.slice page.source := whole.lossless
    show '\n' ∉ location.slice page.source
    rw [← same]
    simpa [Page.isInline, isMultiline] using inline
  | region location _ content | endTag location _ content =>
    have same : content = location.slice page.source := whole.lossless
    show '\n' ∉ location.slice page.source
    rw [← same]
    simpa [Page.isInline, isMultiline] using inline
  | directive found =>
    have same : found.source = found.location.slice page.source := whole.lossless
    show '\n' ∉ found.location.slice page.source
    rw [← same]
    simpa [Page.isInline, isMultiline] using inline
  | echo read =>
    have parts : read.location.slice page.source = _ := whole.lossless
    have expression : '\n' ∉ read.expression := by
      simpa [Page.isInline, isMultiline] using inline
    show '\n' ∉ read.location.slice page.source
    rw [parts]
    cases read.style <;> simp [EchoStyle.opener, EchoStyle.closer, expression]
  | block location _ _ _ _ _ =>
    rw [Page.isInline, Bool.and_eq_true] at inline
    show '\n' ∉ location.slice page.source
    simpa [isMultiline] using inline.1
  | element | slot | component => exact markup rfl
  | attr | document => cases whole

end Node

/-! ## Requests for inline nodes -/

namespace Page

/-- No request of the list finishes a line. -/
def Stay (calls : List LineCall) : Prop :=
  ∀ call ∈ calls, call.staysOnLine = true

/-- What is known about a node of a template that is printed on one line. -/
structure Fits (page : Page) (registry : Registry) (node : Node) : Prop where
  whole : node.Whole registry page.source
  copies : node.copiesOneLine page.source = true

variable {page : Page} {registry : Registry} {level : Nat}

theorem Stay.append {calls more : List LineCall} (first : Stay calls) (second : Stay more) :
    Stay (calls ++ more) :=
  List.forall_mem_append.2 ⟨first, second⟩

theorem stay_raw {text : Chars} (single : '\n' ∉ text) : Stay [.raw text] := by
  intro call member
  rw [List.mem_singleton.1 member]
  simpa [LineCall.staysOnLine, isMultiline] using single

theorem stay_fragment (fragment : Chars) : Stay [.append fragment] := by
  simp [Stay, LineCall.staysOnLine]

theorem stay_space : Stay [.space] := by
  simp [Stay, LineCall.staysOnLine]

theorem stay_text {content : Chars} (single : '\n' ∉ content) : Stay (textCalls content) := by
  have edge (edge : Option Char) : Stay (edgeCalls edge) := by
    unfold edgeCalls
    split
    · exact stay_space
    · nofun
  unfold textCalls
  rw [splitLines_of_single single]
  refine Stay.append ?_ nofun
  unfold segmentCalls
  simp only
  split
  · split
    · nofun
    · exact stay_space
  · exact ((edge _).append (stay_fragment _)).append (edge _)

section content

variable {nodes : List Node} (stay : ∀ node ∈ nodes, Stay (page.calls node level))

include stay

theorem stay_all : Stay (allCalls (page.scripts nodes) level) := by
  unfold allCalls
  rw [scripts_eq, List.flatMap_map]
  intro call member
  obtain ⟨node, inNodes, asked⟩ := List.mem_flatMap.1 member
  exact stay node inNodes call asked

theorem stay_unclosed {markup : Markup} (single : '\n' ∉ page.startTagText markup) :
    Stay (page.unclosedCalls markup (page.scripts nodes) level) := by
  unfold unclosedCalls
  rw [mergeSort_scripts]
  exact (stay_raw single).append (stay_all fun node member =>
    stay node (List.mem_mergeSort.1 member))

end content

/-- Closed markup whose start tag, end tag and content stay on one line. -/
theorem stay_closed {markup : Markup} {void childrenInline : Bool} {slots children : List Node}
    (startTag : '\n' ∉ page.startTagText markup) (endTag : '\n' ∉ endTagText markup)
    (notWrapped : page.wraps markup level = false)
    (flows : markup.selfClosing = true ∨ isHollow slots children = true ∨
      page.breaks level markup slots children childrenInline = false ∧
        ∀ node ∈ children, Stay (page.calls node level)) :
    Stay (page.closedCalls markup void (page.scripts slots) (page.scripts children) childrenInline
      level) := by
  unfold closedCalls
  simp only [map_node_scripts, notWrapped, Bool.false_eq_true, if_false]
  split
  · exact stay_raw startTag
  split
  · exact stay_raw (by simp [startTag, endTag])
  next notAlone notHollow =>
  rcases flows with selfClosing | hollow | ⟨unbroken, stay⟩
  · simp [selfClosing] at notAlone
  · exact absurd hollow notHollow
  · rw [unbroken]
    exact ((stay_raw startTag).append (stay_all stay)).append (stay_fragment _)

theorem isInline_of_mem {nodes : List Node} (inline : page.allInline level nodes = true) :
    ∀ node ∈ nodes, page.isInline level node = true := by
  induction nodes with
  | nil => nofun
  | cons first rest ih =>
    rw [allInline, Bool.and_eq_true] at inline
    exact List.forall_mem_cons.2 ⟨inline.1, ih inline.2⟩

/-- A body that is copied stands on one line if nothing in it needs a line break. -/
theorem Fits.single_bodyText {markup : Markup} {void : Bool} {children : List Node}
    (fits : page.Fits registry (.element markup void children)) (copied : markup.copiesBody = true)
    (inline : page.allInline level children = true) : '\n' ∉ bodyText page.source children := by
  have copies := fits.copies
  rw [Node.copiesOneLine, copied, Bool.not_true, Bool.false_or, List.all_eq_true] at copies
  cases fits.whole with
  | element _ _ wholes =>
    rw [bodyText_eq wholes, List.mem_flatMap]
    rintro ⟨child, member, inside⟩
    refine (wholes child member).single_slice (isInline_of_mem inline child member) ?_ inside
    intro markup
    rcases Bool.or_eq_true_iff.1 (copies child member) with none | single
    · rw [Option.isNone_iff_eq_none.1 none] at markup
      cases markup
    · simpa [isMultiline] using single

theorem withoutLastIndent_of_single {body : Chars} (single : isMultiline body = false) :
    withoutLastIndent body = body := by
  simp [withoutLastIndent, splitLastLine, single]

/-- A closed element whose start tag, body and end tag stay on one line. -/
theorem stay_rawText {markup : Markup} {children : List Node}
    (startTag : '\n' ∉ page.startTagText markup) (endTag : '\n' ∉ endTagText markup)
    (notWrapped : page.wraps markup level = false)
    (body : '\n' ∉ bodyText page.source children) :
    Stay (page.rawTextCalls markup children level) := by
  have oneLine : isMultiline (bodyText page.source children) = false := by
    simpa [isMultiline] using body
  have kept := withoutLastIndent_of_single oneLine
  unfold rawTextCalls startTagCalls
  simp only [kept, ite_self, oneLine, notWrapped, Bool.false_eq_true, if_false, List.nil_append,
    List.append_nil]
  refine (stay_raw startTag).append ?_
  split
  · exact (stay_raw body).append (stay_fragment _)
  · exact stay_raw (by simp [body, endTag])

theorem calls_of_copied (page : Page) {markup : Markup} (void : Bool) (children : List Node)
    (level : Nat) (copied : markup.copiesBody = true) :
    page.calls (.element markup void children) level =
      page.rawTextCalls markup children level := by
  rw [calls]
  exact if_pos copied

theorem calls_of_markup (page : Page) {markup : Markup} (void : Bool) (children : List Node)
    (level : Nat) (notCopied : markup.copiesBody = false) :
    page.calls (.element markup void children) level =
      page.markupCalls markup void [] (page.scripts children) level := by
  rw [calls]
  exact if_neg (Bool.eq_false_iff.1 notCopied)

/-- An element whose body is copied, judged to need no line break. -/
theorem stay_copied {markup : Markup} {void : Bool} {children : List Node}
    (fits : page.Fits registry (.element markup void children)) (copied : markup.copiesBody = true)
    (inline : page.isInline level (.element markup void children) = true) :
    Stay (page.calls (.element markup void children) level) := by
  obtain ⟨_, _, _, _, shaped⟩ := fits.whole.shaped rfl
  have parts := copied
  rw [Markup.copiesBody, Bool.and_eq_true] at parts
  rw [isInline] at inline
  simp only [markupInline, parts.1, parts.2, Bool.not_true, Bool.false_eq_true, if_false,
    if_true] at inline
  split at inline
  · cases inline
  next single =>
  split at inline
  · cases inline
  next short =>
  rw [page.calls_of_copied void children level copied]
  exact stay_rawText (by simpa [isMultiline] using single) shaped.single_endTagText
    (by simpa using short) (fits.single_bodyText copied inline)

/-- A body on several lines starts on a line of its own. -/
theorem exists_rawTextCalls (markup : Markup) (level : Nat) {children : List Node}
    (several : isMultiline (bodyText page.source children) = true) :
    ∃ rest, page.rawTextCalls markup children level = .newline :: rest := by
  have kept : isMultiline (withoutLastIndent (bodyText page.source children)) = true := by
    unfold withoutLastIndent
    split
    · split
      · simp [isMultiline]
      · exact several
    · exact several
  unfold rawTextCalls
  simp only
  have starts : isMultiline (if Tag.isOneOf Tag.reindentedNames markup.tag then
      withoutLastIndent (bodyText page.source children) else bodyText page.source children) =
      true := by
    split
    · exact kept
    · exact several
  rw [if_pos starts]
  exact ⟨_, rfl⟩

/-- Markup that is judged to need no line break, unless its body is copied. -/
theorem stay_markup {markup : Markup} {void rawBody : Bool} {slots children : List Node}
    (endTag : '\n' ∉ endTagText markup) (notCopied : markup.closed = true → rawBody = false)
    (inline : page.markupInline level markup rawBody slots children (page.allInline level slots)
      (page.allInline level children) = true)
    (staySlots : page.allInline level slots = true → ∀ node ∈ slots, Stay (page.calls node level))
    (stayChildren : page.allInline level children = true →
      ∀ node ∈ children, Stay (page.calls node level)) :
    Stay (page.markupCalls markup void (page.scripts slots) (page.scripts children) level) := by
  unfold markupInline at inline
  split at inline
  · cases inline
  next single =>
  have startTag : '\n' ∉ page.startTagText markup := by simpa [isMultiline] using single
  unfold markupCalls
  rw [map_node_scripts]
  split
  · next unclosed =>
    rw [if_pos unclosed, Bool.and_eq_true] at inline
    rw [← scripts_append]
    exact stay_unclosed
      (List.forall_mem_append.2 ⟨staySlots inline.1, stayChildren inline.2⟩) startTag
  · next closed =>
    rw [if_neg closed, notCopied (by simpa using closed)] at inline
    split at inline
    · cases inline
    next fits =>
    refine stay_closed startTag endTag (by simpa using fits) ?_
    simp only [Bool.false_eq_true, if_false] at inline
    split at inline
    · next short =>
      rw [Bool.or_eq_true] at short
      exact short.imp_right .inl
    · rw [Bool.not_eq_true'] at inline
      have childrenInline : page.allInline level children = true := by
        simp [breaks] at inline
        exact inline.2
      exact .inr (.inr ⟨inline, stayChildren childrenInline⟩)

mutual

/-- The requests for a node that is judged to need no line break make none. -/
theorem stay_calls : (node : Node) → (∀ part ∈ node.walk, page.Fits registry part) →
    page.isInline level node = true → Stay (page.calls node level)
  | .text _ content, _, inline => by
    rw [calls]
    exact stay_text (by simpa [isInline, isMultiline] using inline)
  | .echo read, _, inline => by
    rw [calls]
    exact stay_raw (single_formatEcho _ (by simpa [isInline, isMultiline] using inline))
  | .comment _ content, _, inline | .region _ _ content, _, inline
  | .endTag _ _ content, _, inline => by
    rw [calls]
    exact stay_raw (by simpa [isInline, isMultiline] using inline)
  | .directive found, fits, inline => by
    rw [calls]
    cases (fits (.directive found) (by simp [Node.walk])).whole with
    | directive placed =>
      exact stay_raw (placed.single_directiveText (by simpa [isInline, isMultiline] using inline))
  | .block location opener family children none indentsMiddles, _, inline => by
    rw [isInline, Bool.and_eq_true] at inline
    rw [calls]
    exact stay_raw (single_trimRight (by simpa [isMultiline] using inline.1))
  | .block location opener family children (some closer) indentsMiddles, fits, inline => by
    have text : location.slice page.source = _ :=
      (fits (.block location opener family children (some closer) indentsMiddles)
        (by simp [Node.walk])).whole.lossless
    rw [calls]
    simp only [inline]
    rw [isInline, Bool.and_eq_true] at inline
    have single : '\n' ∉ location.slice page.source := by simpa [isMultiline] using inline.1
    simp only [text, Option.map_some, Option.getD_some, List.mem_append, not_or] at single
    have stay := stay_nodes children (fun part member => fits part (by simp [Node.walk, member]))
      (by simpa using inline.2)
    unfold blockCalls
    cases (fits (.directive opener) (by simp [Node.walk])).whole with
    | directive opens =>
      cases (fits (.directive closer) (by simp [Node.walk])).whole with
      | directive closes =>
        exact ((stay_raw (opens.single_directiveText single.1.1)).append (stay_all stay)).append
          (stay_raw (closes.single_directiveText single.2))
  | .element markup void children, fits, inline => by
    have self := fits (.element markup void children) (by simp [Node.walk])
    cases copied : markup.copiesBody with
    | true => exact stay_copied self copied inline
    | false =>
      obtain ⟨_, _, _, _, shaped⟩ := self.whole.shaped rfl
      rw [isInline] at inline
      rw [page.calls_of_markup void children level copied]
      refine stay_markup shaped.single_endTagText ?_ inline nofun
        (stay_nodes children fun part member => fits part (by simp [Node.walk, member]))
      intro closed
      rwa [Markup.copiesBody, closed, Bool.true_and] at copied
  | .component markup slots children, fits, inline => by
    have self := fits (.component markup slots children) (by simp [Node.walk])
    obtain ⟨_, _, _, _, shaped⟩ := self.whole.shaped rfl
    rw [isInline] at inline
    rw [calls]
    exact stay_markup shaped.single_endTagText (fun _ => rfl) inline
      (stay_nodes slots fun part member => fits part (by simp [Node.walk, member]))
      (stay_nodes children fun part member => fits part (by simp [Node.walk, member]))
  | .slot name markup children, fits, inline => by
    have self := fits (.slot name markup children) (by simp [Node.walk])
    obtain ⟨_, _, _, _, shaped⟩ := self.whole.shaped rfl
    rw [isInline] at inline
    rw [calls]
    exact stay_markup shaped.single_endTagText (fun _ => rfl) inline nofun
      (stay_nodes children fun part member => fits part (by simp [Node.walk, member]))
  | .attr entry, _, inline => by
    rw [calls]
    exact stay_raw (by simpa [isInline, isMultiline] using inline)
  | .document location _ _ _, _, inline => by
    rw [calls]
    exact stay_raw (by simpa [isInline, isMultiline] using inline)

theorem stay_nodes : (nodes : List Node) → (∀ part ∈ Node.walkAll nodes, page.Fits registry part) →
    page.allInline level nodes = true → ∀ node ∈ nodes, Stay (page.calls node level)
  | [], _, _ => nofun
  | first :: rest, fits, inline => fun node member => by
    rw [allInline, Bool.and_eq_true] at inline
    rw [Node.walkAll] at fits
    rcases List.mem_cons.1 member with same | later
    · rw [same]
      exact stay_calls first (fun part inside => fits part (List.mem_append_left _ inside)) inline.1
    · exact stay_nodes rest (fun part inside => fits part (List.mem_append_right _ inside)) inline.2
        node later

end

/-! ## The exception -/

section exception

variable {markup : Markup} {void : Bool} {children : List Node} {out : Lines}

/-- In front of a body on several lines, the line that has been started is finished. -/
theorem finishes_copied (void : Bool) (copied : markup.copiesBody = true)
    (several : isMultiline (bodyText page.source children) = true) (started : out.current ≠ []) :
    out.current :: out.done <:+ (page.print (.element markup void children) out).done := by
  have performed := (page.leads_print (.element markup void children) out out.level rfl).performed
  obtain ⟨rest, asked⟩ := exists_rawTextCalls markup out.level several
  rw [page.calls_of_copied void children out.level copied, asked] at performed
  obtain ⟨next, first, later⟩ := LineCall.performAll?_cons_iff.1 performed
  cases first
  have notStart : ¬ out.atLineStart = true := by simpa [Lines.atLineStart] using started
  have finished : out.newline.done = out.current :: out.done := by
    rw [Lines.newline, if_neg notStart]
  rw [← finished]
  exact Lines.finished_performAll later

theorem isMultiline_bodyText
    (whole : (Node.element markup void children).Whole registry page.source)
    (broken : (Node.element markup void children).copiesOneLine page.source = false) :
    isMultiline (bodyText page.source children) = true := by
  rw [Node.copiesOneLine, Bool.or_eq_false_iff, List.all_eq_false] at broken
  obtain ⟨child, member, breaks⟩ := broken.2
  rw [Bool.or_eq_true, not_or, Bool.not_eq_true', Bool.not_eq_false] at breaks
  have several := breaks.2
  cases whole with
  | element _ _ wholes =>
    rw [bodyText_eq wholes]
    simp only [isMultiline, List.contains_iff_mem] at several ⊢
    exact List.mem_flatMap.2 ⟨child, member, several⟩

/-- The exception is exact: an element whose body is copied, and that is judged to need no line
break, stays on its line just when the markup in its body stands on one line. -/
theorem stays_iff_copiesOneLine
    (whole : (Node.element markup void children).Whole registry page.source)
    (copied : markup.copiesBody = true) (started : out.current ≠ [])
    (inline : page.isInline out.level (.element markup void children) = true) :
    (page.print (.element markup void children) out).done = out.done ↔
      (Node.element markup void children).copiesOneLine page.source = true := by
  constructor
  · intro stays
    cases copies : (Node.element markup void children).copiesOneLine page.source with
    | true => rfl
    | false =>
      have finished := finishes_copied void copied (isMultiline_bodyText whole copies) started
      rw [stays] at finished
      have shorter := finished.length_le
      rw [List.length_cons] at shorter
      omega
  · intro copies
    have stay := stay_copied ⟨whole, copies⟩ copied inline
    have leads := page.leads_print (.element markup void children) out out.level rfl
    exact (Lines.extends_performAll stay started leads.performed).done

end exception

end Page

/-! ## Whole templates -/

/-- A node together with the entries of its start tag. -/
def Node.withEntries (node : Node) : List Node :=
  node :: node.attributes.map .attr

/-- The decision about the layout of a node agrees with how it is printed, for every node of every
template, every configuration and every output that a line has been started in.

Printing a node carries out the requests for it, goes back from no level 0, and leaves the level as
it was. If the node is judged to need no line break, and markup that is copied inside it stands on
one line, then no line is finished and the current one stays started. -/
theorem print_agrees_with_layout (config : Config) {dialect : Dialect} {file : Option String}
    {source : Chars} {document : Document}
    (parsed : (parse dialect file source).outcome = .ok document) :
    let page : Page := ⟨config, document.source⟩
    ∀ node ∈ document.toNode.walk.flatMap Node.withEntries, ∀ out : Lines,
      LineCall.performAll? (page.calls node out.level) out = some (page.print node out) ∧
      (page.print node out).level = out.level ∧
      (out.current ≠ [] → page.isInline out.level node = true →
        (∀ part ∈ node.walk, part.copiesOneLine document.source = true) →
        (page.print node out).done = out.done ∧ (page.print node out).current ≠ []) := by
  intro page node member out
  have leads := page.leads_print node out out.level rfl
  refine ⟨leads.performed, leads.level_eq, ?_⟩
  intro started inline copies
  suffices stay : Page.Stay (page.calls node out.level) by
    have extended := Lines.extends_performAll stay started leads.performed
    exact ⟨extended.done, extended.started started⟩
  have same : document.source = source := source_of_parse parsed
  obtain ⟨_, wholes⟩ := whole_of_parse parsed
  obtain ⟨part, inTree, found⟩ := List.mem_flatMap.1 member
  rw [Node.withEntries, List.mem_cons, List.mem_map] at found
  rcases found with rfl | ⟨entry, _, rfl⟩
  · rw [Document.toNode, Node.walk, List.mem_cons] at inTree
    rcases inTree with rfl | below
    · rw [Page.calls]
      exact Page.stay_raw (by simpa [Page.isInline, isMultiline] using inline)
    · have whole := Node.whole_of_mem_walkAll document.children wholes node below
      have fits (part : Node) (inside : part ∈ node.walk) : page.Fits dialect.registry part := by
        refine ⟨?_, copies part inside⟩
        show part.Whole dialect.registry document.source
        rw [same]
        exact Node.whole_of_mem_walk node whole part inside
      exact Page.stay_calls node fits inline
  · rw [Page.calls]
    exact Page.stay_raw (by simpa [Page.isInline, isMultiline] using inline)

/-- An element with a start tag on two lines, an echo, a block and a body that is copied, printed
behind a word at level 1. -/
theorem print_agrees_with_layout_span :
    let source :=
      "<span>a <b\nid=c>\x7b\x7b$d\x7d\x7d</b>@if($e) f @endif <pre> g</pre></span>".toList
    let page : Page := ⟨{}, source⟩
    let out : Lines := { unit := [' '], maxBlank := 1, current := ['x'], level := 1 }
    ∃ document, (parse (Config.dialect {}) none source).outcome = .ok document ∧
      ∃ node ∈ document.children, page.isInline 1 node = true ∧
        LineCall.performAll? (page.calls node 1) out = some (page.print node out) ∧
        (page.print node out).level = 1 ∧ (page.print node out).done = [] ∧
        (page.print node out).current ≠ [] := by
  intro source page out
  have read : (scan (Config.dialect {}) source).fault = none := by decide +kernel
  obtain ⟨document, parsed⟩ := parse_of_read none read
  have found : (parse (Config.dialect {}) none source).outcome.toOption.any (fun document =>
      document.children.any fun node => page.isInline 1 node &&
        node.walk.all (Node.copiesOneLine source)) = true := by
    decide +kernel
  rw [parsed] at found
  simp only [Except.toOption, Option.any_some, List.any_eq_true, Bool.and_eq_true,
    List.all_eq_true] at found
  obtain ⟨node, member, inline, copies⟩ := found
  have same : document.source = source := source_of_parse parsed
  have inTree : node ∈ document.toNode.walk.flatMap Node.withEntries := by
    have self := node.mem_walk_self
    have below : node ∈ Node.walkAll document.children := by
      rw [Node.walkAll_eq]
      exact List.mem_flatMap.2 ⟨node, member, self⟩
    exact List.mem_flatMap.2 ⟨node, List.mem_cons_of_mem _ below, List.mem_cons_self⟩
  obtain ⟨performed, level, stays⟩ := print_agrees_with_layout {} parsed node inTree out
  rw [same] at performed level stays
  obtain ⟨done, current⟩ := stays (by decide) inline copies
  exact ⟨document, parsed, node, member, inline, performed, level, done, current⟩

end BladeTemplate
