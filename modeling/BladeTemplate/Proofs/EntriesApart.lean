import BladeTemplate.Proofs.KeptInk
import BladeTemplate.Proofs.TagCalls
import Mathlib.Data.List.Perm.Basic

/-!
# Entries of start tags are set apart

A start tag is printed entry by entry, with white space in front of each. Where entries stood in
the template has no say in it: two of them that touched there, such as an echo and the rest of the
name it belongs to, are parted.

* `Lines.GoesOn` says that requests only add to the output;
* `Attribute.SetApart` is the text of entries with white space before each of them, and
  `Page.OpeningText` that of a start tag with such entries;
* `entries_set_apart` finds such a text in the output for every start tag that is printed from its
  parts, each in a place of its own.
-/

namespace BladeTemplate

open Text

/-! ## Output grows at its end -/

namespace Lines

variable {out next : Lines} {gap text : Chars}

/-- What stands between two texts is white space, if the texts are all the ink there is. -/
theorem blank_of_holds (same : next.written = out.written ++ gap ++ text)
    (holds : next.Holds (out.ink ++ squeeze text)) : isBlankText gap = true := by
  have written (out : Lines) : out.ink = squeeze out.written := by
    rw [Lines.written, squeeze_append, squeeze_joinLines, ink]
  have inked := holds.inked
  rw [written, written, same, squeeze_append, squeeze_append] at inked
  exact squeeze_eq_nil_iff.1 (by simpa using inked)

theorem written_append_blank (blank : isBlankText out.unit = true) (fragment : Chars) :
    ∃ gap, isBlankText gap = true ∧
      (out.append fragment).written = out.written ++ gap ++ fragment := by
  obtain ⟨gap, same⟩ := out.written_append fragment
  have holds : out.Holds out.ink := ⟨blank, rfl⟩
  exact ⟨gap, blank_of_holds same (holds.append fragment), same⟩

theorem written_raw_blank (blank : isBlankText out.unit = true)
    (starts : text.head? ≠ some '\n' ∨ out.current ≠ []) :
    ∃ gap, isBlankText gap = true ∧ (out.raw text).written = out.written ++ gap ++ text := by
  obtain ⟨gap, same⟩ := written_raw starts
  have holds : out.Holds out.ink := ⟨blank, rfl⟩
  exact ⟨gap, blank_of_holds same (holds.raw text), same⟩

theorem written_newline_started (started : out.current ≠ []) :
    out.newline.written = out.written ++ ['\n'] := by
  unfold newline
  rw [if_neg (by simpa [atLineStart] using started)]
  simp [written, joinLines]

end Lines

namespace LineCall

theorem performAll?_append_iff {calls more : List LineCall} {start out : Lines} :
    performAll? (calls ++ more) start = some out ↔
      ∃ next, performAll? calls start = some next ∧ performAll? more next = some out := by
  rw [performAll?, List.foldlM_append]
  exact Option.bind_eq_some_iff

end LineCall

/-- The output goes on from some state of it. -/
structure Lines.GoesOn (start out : Lines) : Prop where
  grows : start.written <+: out.written
  blank : isBlankText start.unit = true → isBlankText out.unit = true

namespace Lines.GoesOn

variable {start out next : Lines} {calls : List LineCall}

theorem refl (out : Lines) : out.GoesOn out := ⟨List.prefix_refl _, id⟩

theorem trans (first : start.GoesOn out) (second : out.GoesOn next) : start.GoesOn next :=
  ⟨first.grows.trans second.grows, fun blank => second.blank (first.blank blank)⟩

theorem perform {call : LineCall} (performed : call.perform? out = some next) :
    out.GoesOn next := by
  have holds (blank : isBlankText out.unit = true) : out.Holds out.ink := ⟨blank, rfl⟩
  cases call with
  | append fragment =>
    cases performed
    obtain ⟨gap, same⟩ := out.written_append fragment
    rw [List.append_assoc] at same
    exact ⟨⟨gap ++ fragment, same.symm⟩, fun blank => ((holds blank).append fragment).blank⟩
  | raw text =>
    cases performed
    obtain ⟨more, same⟩ := out.written_raw_grows text
    exact ⟨⟨more, same.symm⟩, fun blank => ((holds blank).raw text).blank⟩
  | space =>
    cases performed
    refine ⟨?_, fun blank => (holds blank).space.blank⟩
    show out.written <+: out.space.written
    unfold space
    split <;> exact List.prefix_refl _
  | newline =>
    cases performed
    obtain ⟨gap, same⟩ := out.written_newline
    exact ⟨⟨gap, same.symm⟩, fun blank => (holds blank).newline.blank⟩
  | blank count =>
    cases performed
    refine ⟨?_, fun blank => ((holds blank).askBlank count).blank⟩
    show out.written <+: (out.blank count).written
    unfold Lines.blank
    split <;> exact List.prefix_refl _
  | indent =>
    cases performed
    exact ⟨List.prefix_refl _, fun blank => (holds blank).indent.blank⟩
  | dedent =>
    rw [LineCall.perform?] at performed
    split at performed
    · cases performed
    · cases performed
      exact ⟨List.prefix_refl _, fun blank => (holds blank).dedent.blank⟩

theorem performAll (performed : LineCall.performAll? calls start = some out) :
    start.GoesOn out := by
  induction calls generalizing start with
  | nil =>
    cases performed
    exact .refl out
  | cons call rest ih =>
    obtain ⟨next, first, later⟩ := LineCall.performAll?_cons_iff.1 performed
    exact (perform first).trans (ih later)

end Lines.GoesOn

/-! ## Start tags in the output -/

/-- Entries one after the other, with white space before each of them. -/
inductive Attribute.SetApart : List Attribute → Chars → Prop
  | nil : SetApart [] []
  | cons {gap rest : Chars} {entry : Attribute} {entries : List Attribute} : gap ≠ [] →
      isBlankText gap = true → SetApart entries rest →
      SetApart (entry :: entries) (gap ++ Page.attributeText entry ++ rest)

namespace Page

/-- The text of a start tag whose entries are set apart: an angle bracket and the name, the entries,
and the end of the tag. -/
inductive OpeningText (page : Page) (markup : Markup) : Chars → Prop
  | intro {entries gap : Chars} : Attribute.SetApart (page.orderedAttributes markup) entries →
      isBlankText gap = true →
      OpeningText page markup ('<' :: markup.tag ++ entries ++ gap ++ tagEnd markup)

variable {page : Page} {markup : Markup} {out next : Lines}

theorem setApart_oneLine (entries : List Attribute) :
    Attribute.SetApart entries (entries.flatMap fun entry => ' ' :: attributeText entry) := by
  induction entries with
  | nil => exact .nil
  | cons entry rest ih => exact .cons (List.cons_ne_nil ' ' []) (by decide) ih

/-- A start tag on one line has a space before each entry. -/
theorem openingText_startTagText (page : Page) (markup : Markup) :
    page.OpeningText markup (page.startTagText markup) := by
  have entries := setApart_oneLine (page.orderedAttributes markup)
  unfold startTagText
  cases self : markup.selfClosing with
  | true =>
    have text := @OpeningText.intro page markup _ [' '] entries (by decide)
    rw [tagEnd, self] at text
    simpa [self] using text
  | false =>
    have text := @OpeningText.intro page markup _ [] entries rfl
    rw [tagEnd, self] at text
    simpa [self] using text

/-- Entries that have a line each, from the line break in front of the first to the one behind the
last. -/
theorem setApart_lines {entries : List Attribute} (edged : ∀ entry ∈ entries, entry.Edged)
    (blank : isBlankText out.unit = true) (fresh : out.current = []) :
    let last := entries.foldl (fun out entry => (out.raw (attributeText entry)).newline) out
    isBlankText last.unit = true ∧ ∃ lines text, last.written = out.written ++ lines ∧
      '\n' :: lines = text ++ ['\n'] ∧ Attribute.SetApart entries text := by
  induction entries generalizing out with
  | nil => exact ⟨blank, [], [], by simp, rfl, .nil⟩
  | cons entry rest ih =>
    have snug := (edged entry List.mem_cons_self).snug_text
    obtain ⟨gap, white, same⟩ := Lines.written_raw_blank blank (.inl snug.starts)
    have started : (out.raw (attributeText entry)).current ≠ [] := by
      have ends := (List.dropLast_concat_getLast snug.nonempty).symm
      refine Lines.current_raw (.inl snug.starts) ends ?_
      intro feed
      exact snug.ends (by rw [List.getLast?_eq_some_getLast snug.nonempty, feed])
    have broken := Lines.written_newline_started started
    have holds : out.Holds out.ink := ⟨blank, rfl⟩
    obtain ⟨still, lines, text, wrote, shifted, apart⟩ :=
      ih (fun other member => edged other (List.mem_cons_of_mem entry member))
        (holds.raw (attributeText entry)).newline.blank (Lines.current_newline _)
    refine ⟨still, gap ++ attributeText entry ++ ['\n'] ++ lines,
      '\n' :: gap ++ attributeText entry ++ text, ?_, ?_, .cons (List.cons_ne_nil _ _) ?_ apart⟩
    · rw [List.foldl_cons, wrote, broken, same]
      simp
    · rw [List.append_assoc _ text, ← shifted]
      simp
    · exact white

/-- A start tag with a line for each entry. -/
theorem written_printWrapped (page : Page) (edged : ∀ entry ∈ markup.attributes, entry.Edged)
    (blank : isBlankText out.unit = true) (rest : Chars) :
    ∃ gap text, page.OpeningText markup text ∧
      (page.printWrapped markup (tagEnd markup ++ rest) out).written =
        out.written ++ gap ++ text ++ rest := by
  unfold printWrapped
  simp only
  obtain ⟨gap, first⟩ := out.written_append ('<' :: markup.tag)
  have started : (out.append ('<' :: markup.tag)).current ≠ [] :=
    Lines.current_append (List.cons_ne_nil _ _)
  have broken := Lines.written_newline_started started
  have holds : out.Holds out.ink := ⟨blank, rfl⟩
  have opened := (holds.append ('<' :: markup.tag)).newline.indent
  obtain ⟨still, lines, text, wrote, shifted, apart⟩ :=
    setApart_lines (@edged_ordered page markup edged) opened.blank (Lines.current_newline _)
  generalize (page.orderedAttributes markup).foldl _ _ = entries at still wrote ⊢
  obtain ⟨trail, white, closed⟩ := @Lines.written_append_blank entries.dedent still
    (tagEnd markup ++ rest)
  refine ⟨gap, _, @OpeningText.intro page markup text ('\n' :: trail) apart white, ?_⟩
  rw [closed]
  show entries.written ++ _ ++ _ = _
  rw [wrote]
  show (out.append _).newline.written ++ _ ++ _ ++ _ = _
  rw [broken, first]
  -- The line break behind the last entry belongs to the gap in front of the end.
  have moved (after : Chars) : '\n' :: (lines ++ after) = text ++ '\n' :: after := by
    rw [← List.cons_append, shifted, List.append_assoc, List.singleton_append]
  simp only [List.append_assoc, List.cons_append, List.nil_append, moved]

theorem TagCalls.written {calls : List LineCall} (tag : page.TagCalls markup calls)
    (edged : ∀ entry ∈ markup.attributes, entry.Edged) (blank : isBlankText out.unit = true)
    (performed : LineCall.performAll? calls out = some next) :
    ∃ gap text rest, page.OpeningText markup text ∧
      next.written = out.written ++ gap ++ text ++ rest := by
  cases tag with
  | oneLine rest =>
    cases performed
    have starts : (page.startTagText markup ++ rest).head? ≠ some '\n' := by simp [startTagText]
    obtain ⟨gap, same⟩ := @Lines.written_raw out _ (.inl starts)
    refine ⟨gap, _, rest, page.openingText_startTagText markup, ?_⟩
    rw [List.append_assoc _ _ rest]
    exact same
  | wrapped rest =>
    have leads := page.leads_printWrapped markup (tagEnd markup ++ rest) (Eq.refl out.level)
    obtain rfl := Option.some.inj (performed.symm.trans leads.performed)
    obtain ⟨gap, text, opening, same⟩ := page.written_printWrapped edged blank rest
    exact ⟨gap, text, rest, opening, same⟩

/-- The start tags that are asked for are written one after the other. -/
theorem TagOrder.written {markups : List Markup} {calls : List LineCall}
    (tags : page.TagOrder markups calls)
    (edged : ∀ markup ∈ markups, ∀ entry ∈ markup.attributes, entry.Edged)
    (blank : isBlankText out.unit = true) (performed : LineCall.performAll? calls out = some next) :
    ∃ texts more, List.Forall₂ page.OpeningText markups texts ∧ InOrder texts more ∧
      next.written = out.written ++ more := by
  induction tags generalizing out with
  | nil calls =>
    obtain ⟨more, same⟩ := (Lines.GoesOn.performAll performed).grows
    exact ⟨[], more, .nil, .nil more, same.symm⟩
  | @cons others markup tag calls markups calls_ _ ih =>
    obtain ⟨opened, first, later⟩ := LineCall.performAll?_append_iff.1 performed
    obtain ⟨begun, before, tagged⟩ := LineCall.performAll?_append_iff.1 first
    have reached := Lines.GoesOn.performAll before
    obtain ⟨lead, grown⟩ := reached.grows
    obtain ⟨gap, text, rest, opening, same⟩ :=
      calls_.written (edged markup List.mem_cons_self) (reached.blank blank) tagged
    obtain ⟨texts, more, openings, inOrder, whole⟩ :=
      ih (fun other member => edged other (List.mem_cons_of_mem markup member))
        ((reached.trans (.performAll tagged)).blank blank) later
    refine ⟨text :: texts, lead ++ gap ++ text ++ (rest ++ more), .cons opening openings,
      .cons (lead ++ gap) (inOrder.after rest), ?_⟩
    rw [whole, same, ← grown]
    simp only [List.append_assoc]

end Page

/-- What is known of the entries of the start tags that are printed from their parts. -/
theorem openings_of_parse {dialect : Dialect} {file : Option String} {source : Chars}
    {document : Document} (parsed : (parse dialect file source).outcome = .ok document) :
    ∀ markup ∈ Node.openingsAll document.children, (∃ a b, markup.Opens source a b) ∧
      ∀ entry ∈ markup.attributes, entry.Edged := by
  intro markup member
  rw [← Node.filterMap_builtAll, List.mem_filterMap] at member
  obtain ⟨node, built, found⟩ := member
  have whole := Node.whole_of_mem_builtAll (whole_of_parse parsed).2 node built
  have edged := (edged_of_parse parsed).2 node (Node.mem_walkAll_of_mem_builtAll _ node built)
  constructor
  · obtain ⟨void, children, a, b, shaped⟩ := whole.shaped found
    cases shaped with
    | single opens | closed _ opens | unclosed opens => exact ⟨_, _, opens⟩
  · cases node with
    | element | component | slot =>
      cases found
      exact edged.1
    | _ => cases found

/-- In every start tag that is printed from its parts, white space stands in front of each entry:
entries that touch in the template, as an echo and the rest of a name do, are parted, on one line
and with a line for each. Only within an entry do a name, its equals sign and its value stay
together. -/
theorem entries_set_apart (config : Config) {dialect : Dialect} {file : Option String}
    {source : Chars} {document : Document}
    (parsed : (parse dialect file source).outcome = .ok document) :
    let page : Page := ⟨config, document.source⟩
    let markups := (Node.builtAll document.children).filterMap Node.markup?
    (∀ markup ∈ markups, ∃ a b, markup.Opens source a b) ∧
      ∃ texts, List.Forall₂ page.OpeningText markups texts ∧
        Standing texts (render config document) := by
  intro page markups
  have known := openings_of_parse parsed
  have same : markups = Node.openingsAll document.children :=
    Node.filterMap_builtAll document.children
  rw [same]
  refine ⟨fun markup member => (known markup member).1, ?_⟩
  let empty : Lines := .new config.indentUnit config.preserveBlankLines
  have source_ : document.source = source := source_of_parse parsed
  have wholes : ∀ node ∈ document.children, node.Whole dialect.registry page.source := by
    show ∀ node ∈ document.children, node.Whole dialect.registry document.source
    rw [source_]
    exact (whole_of_parse parsed).2
  obtain ⟨order, perm, tags⟩ := @Page.tags_allCalls page 0 _ fun node member =>
    Page.tags_calls (wholes node member)
  have leads := Page.leads_printAll (page.leads_pieces document.children) (rfl : empty.level = 0)
  have blank : isBlankText empty.unit = true :=
    List.all_eq_true.2 fun c member => (config.blank_indentUnit c member).1
  obtain ⟨texts, more, openings, inOrder, written⟩ := tags.written
    (fun markup member => (known markup (perm.mem_iff.1 member)).2) blank leads.performed
  -- The texts are in the order of the output, the start tags in that of the tree.
  obtain ⟨placed, forall_, reordered⟩ := List.perm_comp_forall₂ perm.symm openings
  refine ⟨placed, forall_, ?_⟩
  have shows_ : (Page.printAll (page.pieces document.children) empty).Shows texts :=
    ⟨texts, .refl _, by rw [written]; exact inOrder.after _⟩
  exact shows_.standing.perm reordered.symm

/-- Whether the second entry starts where the first ends. -/
def Attribute.touches (first second : Attribute) : Bool :=
  first.location.endOffset = second.location.offset

/-- In `<div {{ $p }}-id="x">` the two entries touch, and are printed with a space between them. -/
theorem entries_set_apart_of_touching :
    let source := "<div \x7b\x7b $p \x7d\x7d-id=\"x\">a</div>\n".toList
    (format {} none source).text = "<div \x7b\x7b $p \x7d\x7d -id=\"x\">a</div>\n".toList ∧
    ∃ document, (parse (Config.dialect {}) none source).outcome = .ok document ∧
      let markups := (Node.builtAll document.children).filterMap Node.markup?
      (∃ markup ∈ markups,
        (markup.attributes.zipWith Attribute.touches markup.attributes.tail).any id = true) ∧
      (∀ markup ∈ markups, ∃ a b, markup.Opens source a b) ∧
      ∃ texts, List.Forall₂ (Page.OpeningText ⟨{}, document.source⟩) markups texts ∧
        Standing texts (render {} document) := by
  intro source
  have read : (scan (Config.dialect {}) source).fault = none := by decide +kernel
  obtain ⟨document, parsed⟩ := parse_of_read none read
  have touching : (parse (Config.dialect {}) none source).outcome.toOption.any (fun document =>
      ((Node.builtAll document.children).filterMap Node.markup?).any fun markup =>
        (markup.attributes.zipWith Attribute.touches markup.attributes.tail).any id) = true := by
    decide +kernel
  rw [parsed, Except.toOption, Option.any_some, List.any_eq_true] at touching
  exact ⟨by decide +kernel, document, parsed, touching, entries_set_apart {} parsed⟩

end BladeTemplate
