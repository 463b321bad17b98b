import BladeTemplate.Proofs.EntryOrder
import BladeTemplate.Proofs.ItemEdges
import BladeTemplate.Proofs.PlainTags
import BladeTemplate.Proofs.Typeset
import BladeTemplate.Proofs.Verdict

/-!
# Formatting tags that close themselves

A tag that closes itself comes out as itself, on one line or with one entry per line, unless its
element is one whose body is not read as markup. Then an end tag is added, which closes nothing.

* `parse_selfClosing_alone` is the tree of a template with one such tag, and
  `parse_selfClosing_stray` the tree when an end tag follows it;
* `render_selfClosing` is what such a tree is printed as;
* `format_selfClosing` is the result.
-/

namespace BladeTemplate

open Text Lookahead

/-! ## The tree of such a tag -/

namespace Markup.ReadFrom

variable {markup : Markup} {registry : Registry} {tag : MarkupName} {entries : List PlainEntry}

theorem free (read : markup.ReadFrom registry tag entries) :
    ∀ entry ∈ markup.attributes, entry.isFence = false := by
  intro entry member
  have inside : entry.unplaced ∈ entries.map (·.parsed registry) := by
    rw [← read.attributes]
    exact List.mem_map_of_mem member
  obtain ⟨plain, _, same⟩ := List.mem_map.1 inside
  have same : entry.unplaced.isFence = false := by
    rw [← same]
    exact plain.isFence_parsed registry
  exact same

/-- The entries in order are those of the text in order. -/
theorem ordered (read : markup.ReadFrom registry tag entries) (sort : Bool) :
    (Attribute.order markup.attributes sort).map Attribute.unplaced =
      Attribute.order (entries.map (·.parsed registry)) sort := by
  rw [← Attribute.order_map (f := Attribute.unplaced) (fun _ => rfl) (fun _ _ => rfl),
    read.attributes]

end Markup.ReadFrom

theorem PlainEntry.exists_of_parsed {registry : Registry} {attributes : List Attribute}
    (each : ∀ entry ∈ attributes, ∃ plain : PlainEntry, plain.parsed registry = entry) :
    ∃ entries : List PlainEntry, entries.map (·.parsed registry) = attributes := by
  induction attributes with
  | nil => exact ⟨[], rfl⟩
  | cons entry rest ih =>
    obtain ⟨⟨plain, same⟩, later⟩ := List.forall_mem_cons.1 each
    obtain ⟨entries, others⟩ := ih later
    exact ⟨plain :: entries, by rw [List.map_cons, same, others]⟩

/-- Entries in order are again those of a text. -/
theorem PlainEntry.exists_ordered (registry : Registry) (entries : List PlainEntry)
    (sort : Bool) : ∃ ordered : List PlainEntry,
      ordered.map (·.parsed registry) = Attribute.order (entries.map (·.parsed registry)) sort := by
  refine exists_of_parsed fun entry member => ?_
  obtain ⟨plain, _, same⟩ := List.mem_map.1 ((Attribute.perm_order _ _).mem_iff.1 member)
  exact ⟨plain, same⟩

/-! ## Reading -/

namespace ScanState

variable {dialect : Dialect} {origin : Origin}

/-- What ends a template behind its only tag: nothing, or the end of the line. -/
structure EndsTemplate (later : Chars) : Prop where
  plain : ∀ c ∈ later, isPlain c = true
  blank : ∀ c ∈ later, isBlank c = true

theorem endsTemplate_nil : EndsTemplate [] := ⟨by simp, by simp⟩

theorem endsTemplate_feed : EndsTemplate ['\n'] :=
  ⟨forall_of_all (by decide), forall_of_all (by decide)⟩

theorem after_end {later : Chars} (ends : EndsTemplate later) :
    After dialect origin later (Flow.Texts later) := by
  intro s inText ahead
  have fits : Flow.Fits false (!([] : Chars).isEmpty) later :=
    ⟨ends.plain, fun _ c first => ends.blank c (List.mem_of_mem_head? first), by simp, by simp⟩
  rw [← List.append_nil later] at ahead
  refine (ready_nil s later false inText ahead fits (by simp)).mono ?_
  rintro items ⟨before, more, rfl, texts, rfl⟩
  rwa [List.append_nil]

/-- A template that ends with the line of an end tag. -/
theorem after_endTag (tag : MarkupName) :
    After dialect origin (tag.closing ++ ['\n']) fun items =>
      ∃ location more, items = .endTag location tag.closing :: more ∧ Flow.Texts ['\n'] more := by
  intro s inText ahead
  have after := @after_end dialect origin _ endsTemplate_feed
  refine (ends_endTag tag after s [] inText ahead (by simp)).mono ?_
  rintro items ⟨before, location, more, rfl, texts, rest⟩
  cases texts with
  | none => exact ⟨location, more, rfl, rest⟩
  | some none => exact absurd rfl none

end ScanState

/-! ## Trees -/

/-- A template that is read to its end is parsed into what its items are built into. -/
theorem parse_of_ends {dialect : Dialect} {file : Option String} {source : Chars}
    {told : List Item → Prop} (noFrontMatter : frontMatterLength source = none)
    (ends : ScanState.Ends dialect ⟨dialect.registry, file, source⟩ (.start source) told) :
    ∃ items document, told items ∧ (parse dialect file source).outcome = .ok document ∧
      document.children = (Builder.build dialect.registry items).stack.root.children ∧
      document.diagnostics =
        Diagnostic.sort (Builder.build dialect.registry items).diagnostics := by
  have whole : scan dialect source = (ScanState.start source).run dialect := by
    unfold scan
    simp only [noFrontMatter, ite_self]
  have read : (scan dialect source).fault = none := by
    rw [whole]
    exact ends.fault
  obtain ⟨document, parsed⟩ := parse_of_read file read
  have told := ends.items
  rw [← whole] at told
  refine ⟨_, document, told, parsed, ?_⟩
  unfold parse at parsed
  simp only [read] at parsed
  cases parsed
  have quiet : (scan dialect source).diagnostics = [] := by
    rw [whole]
    exact ends.diagnostics
  rw [quiet, List.append_nil]
  exact ⟨rfl, rfl⟩

/-- The node of a start tag that has nothing in it. -/
def Markup.leaf (markup : Markup) : Node :=
  Builder.markupNode (Tag.kindOf markup.tag) markup
    (Tag.kindOf markup.tag = .element && Tag.isOneOf Tag.voidNames markup.tag) []

/-- A start tag that closes itself is a node. -/
theorem Builder.build_selfClosing (registry : Registry) {markup : Markup}
    (selfClosing : markup.selfClosing = true) (items : List Item) :
    build registry (.startTag (Tag.kindOf markup.tag) markup :: items) =
      (items.foldl (add registry) (append {} markup.leaf)).finish := by
  simp only [build, List.foldl_cons, add, addStartTag, selfClosing, Bool.true_or, if_true]
  rfl

/-- A template that starts with a tag that closes itself, and goes on with the items as told. -/
theorem parse_selfClosing {dialect : Dialect} {file : Option String} {gap close later : Chars}
    {told : List Item → Prop} (some_ : gap ≠ []) (spaces : ∀ c ∈ gap, isTagSpace c = true)
    (ends : ∀ c ∈ close, isTagSpace c = true) (tag : MarkupName) (entries : List PlainEntry)
    (after : ∀ origin, ScanState.After dialect origin later told) :
    ∃ (markup : Markup) (items : List Item) (document : Document),
      markup.ReadFrom dialect.registry tag entries ∧ told items ∧
      (parse dialect file (tag.selfClosing gap close entries ++ later)).outcome = .ok document ∧
      ∃ built, built = (items.foldl (Builder.add dialect.registry)
          (Builder.append {} markup.leaf)).finish ∧
        document.children = built.stack.root.children ∧
        document.diagnostics = Diagnostic.sort built.diagnostics := by
  obtain ⟨source, isSource⟩ : ∃ source, source = tag.selfClosing gap close entries ++ later :=
    ⟨_, rfl⟩
  have noFrontMatter : frontMatterLength source = none := by
    rw [isSource]
    unfold frontMatterLength
    rw [if_neg (by simp [startsWith, dashes, MarkupName.selfClosing])]
  have fits : Flow.Fits true (!source.isEmpty) [] := ⟨by simp, by simp, by simp, by simp⟩
  have ready := @ScanState.ready_closed dialect gap close later
    ⟨dialect.registry, file, source⟩ told some_ spaces ends tag entries (after _)
  rw [← isSource] at ready ⊢
  obtain ⟨_, document, ⟨before, more, rfl, texts, markup, items, read, rfl, rest⟩, parsed,
    children, diagnostics⟩ := parse_of_ends noFrontMatter
      (ready (.start source) [] true rfl rfl fits (fun _ => rfl))
  cases texts with
  | some none => exact absurd rfl none
  | none =>
    have built := Builder.build_selfClosing dialect.registry read.selfClosing items
    rw [read.tag] at built
    rw [List.nil_append, built] at children diagnostics
    exact ⟨markup, items, document, read, rest, parsed, _, rfl, children, diagnostics⟩

theorem Markup.leaf_cases (markup : Markup) :
    (∃ void, markup.leaf = .element markup void []) ∨ markup.leaf = .component markup [] [] ∨
      ∃ name, markup.leaf = .slot name markup [] := by
  unfold leaf Builder.markupNode
  cases Tag.kindOf markup.tag with
  | element => exact .inl ⟨_, rfl⟩
  | component => exact .inr (.inl rfl)
  | slot => exact .inr (.inr ⟨_, rfl⟩)

theorem Markup.leaf_ne_text (markup : Markup) (location : Location) (content : Chars) :
    markup.leaf ≠ .text location content := by
  rcases markup.leaf_cases with ⟨_, same⟩ | same | ⟨_, same⟩ <;> simp [same]

/-- A template with nothing but a tag that closes itself. -/
theorem parse_selfClosing_alone (dialect : Dialect) (file : Option String)
    {gap close later : Chars} (some_ : gap ≠ []) (spaces : ∀ c ∈ gap, isTagSpace c = true)
    (ends : ∀ c ∈ close, isTagSpace c = true) (tag : MarkupName) (entries : List PlainEntry)
    (last : ScanState.EndsTemplate later) :
    ∃ (markup : Markup) (document : Document) (rest : List Node),
      markup.ReadFrom dialect.registry tag entries ∧
      (parse dialect file (tag.selfClosing gap close entries ++ later)).outcome = .ok document ∧
      document.children = markup.leaf :: rest ∧ Flow.Leaves later rest ∧
      document.diagnostics = [] := by
  obtain ⟨markup, items, document, read, texts, parsed, built, same, children, diagnostics⟩ :=
    @parse_selfClosing dialect file gap close later _ some_ spaces ends tag entries
      fun _ => ScanState.after_end last
  obtain ⟨rest, leaves, added⟩ := @Builder.exists_leaves dialect.registry later items texts
  have apart : (Body.append {} markup.leaf).endsInText = false :=
    Body.endsInText_append {} markup.leaf_ne_text
  have whole : (Body.append {} markup.leaf).children = [markup.leaf] := Body.children_append rfl _
  have final : built =
      { stack := { root := rest.foldl Body.append (Body.append {} markup.leaf) } } := by
    rw [same, added, Builder.foldl_append_root rest rfl]
    rfl
  refine ⟨markup, document, rest, read, parsed, ?_, leaves, ?_⟩
  · rw [children, final, leaves.children apart, whole]
    rfl
  · rw [diagnostics, final]
    simp [Diagnostic.sort]

/-- A template with such a tag and an end tag behind it: the end tag closes nothing. -/
theorem parse_selfClosing_stray (dialect : Dialect) (file : Option String) {gap close : Chars}
    (some_ : gap ≠ []) (spaces : ∀ c ∈ gap, isTagSpace c = true)
    (ends : ∀ c ∈ close, isTagSpace c = true) (tag : MarkupName) (entries : List PlainEntry) :
    ∃ (markup : Markup) (document : Document) (location : Location) (name : Chars)
      (rest : List Node),
      (parse dialect file
        (tag.selfClosing gap close entries ++ (tag.closing ++ ['\n']))).outcome = .ok document ∧
      document.children = markup.leaf :: .endTag location name tag.closing :: rest ∧
      document.diagnostics ≠ [] := by
  obtain ⟨markup, _, document, read, ⟨location, items, rfl, texts⟩, parsed, built, same, children,
    diagnostics⟩ := @parse_selfClosing dialect file gap close _ _ some_ spaces ends tag entries
      fun _ => ScanState.after_endTag tag
  obtain ⟨rest, leaves, added⟩ := @Builder.exists_leaves dialect.registry ['\n'] items texts
  -- No element is open behind the tag.
  obtain ⟨diagnostic, stray⟩ : ∃ diagnostic,
      Builder.add dialect.registry (Builder.append {} markup.leaf) (.endTag location tag.closing) =
        ((Builder.append {} markup.leaf).report diagnostic).append
          (.endTag location (Tag.endTagName tag.closing) tag.closing) := ⟨_, rfl⟩
  let before := (Body.append {} markup.leaf).append
    (.endTag location (Tag.endTagName tag.closing) tag.closing)
  have leafFirst : (Body.append {} markup.leaf).children = [markup.leaf] :=
    Body.children_append rfl _
  have apart : before.endsInText = false := Body.endsInText_append _ (by simp)
  have whole : before.children =
      [markup.leaf, .endTag location (Tag.endTagName tag.closing) tag.closing] := by
    rw [Body.children_append (Body.endsInText_append {} markup.leaf_ne_text), leafFirst]
    rfl
  have final : built =
      { stack := { root := rest.foldl Body.append before }, diagnostics := [diagnostic] } := by
    rw [same, List.foldl_cons, stray, added, Builder.foldl_append_root rest rfl]
    rfl
  refine ⟨markup, document, location, Tag.endTagName tag.closing, rest, parsed, ?_, ?_⟩
  · rw [children, final, leaves.children apart, whole]
    rfl
  · rw [diagnostics, final]
    simp [Diagnostic.sort]

/-! ## Printing -/

namespace Lines

variable {config : Config} {rows : List Chars} {line fragment : Chars} {level : Nat}
  {opened : Bool}

theorem newline_newline (out : Lines) : out.newline.newline = out.newline := by
  unfold newline
  split
  · next ended => simpa [atLineStart] using ended
  · rfl

/-- Output within a line at the outermost level. -/
def within (config : Config) (rows : List Chars) (line : Chars) : Lines :=
  { between config rows 0 true 0 with current := line }

theorem append_between (some_ : fragment ≠ []) :
    (between config rows 0 false 0).append fragment = within config rows fragment := by
  unfold append
  simp [some_, between, within, atLineStart, dueBlanks, Text.replicate]

theorem append_within (some_ : fragment ≠ []) (started : line ≠ []) :
    (within config rows line).append fragment = within config rows (line ++ fragment) := by
  unfold append
  simp [some_, started, between, within, atLineStart]

theorem newline_within (started : line ≠ []) :
    (within config rows line).newline = between config (rows ++ [line]) 0 true 0 := by
  unfold newline
  simp [started, between, within, atLineStart]

theorem text_between :
    (between config rows level opened 0).text = joinLines rows := by
  simp [text, between]

/-- Fragments that have a line each. -/
theorem foldl_fragments {fragments : List Chars} (single : ∀ text ∈ fragments, '\n' ∉ text)
    (nonempty : ∀ text ∈ fragments, text ≠ []) (written : opened = true → rows ≠ []) :
    ∃ after, fragments.foldl (fun out text => (out.raw text).newline)
        (between config rows level opened 0) =
      between config (rows ++ fragments.map (config.margin level).around) level after 0 := by
  induction fragments generalizing rows opened with
  | nil => exact ⟨opened, by simp⟩
  | cons fragment fragments ih =>
    have none : config.kept opened 0 = 0 := by
      unfold Config.kept
      split <;> simp
    have line := @newline_append_between config rows level opened 0 fragment
      (nonempty fragment List.mem_cons_self) written
    rw [none, List.replicate_zero, List.nil_append] at line
    obtain ⟨after, rest⟩ := @ih (rows ++ [(config.margin level).around fragment]) true
      (fun text member => single text (List.mem_cons_of_mem fragment member))
      (fun text member => nonempty text (List.mem_cons_of_mem fragment member)) (by simp)
    refine ⟨after, ?_⟩
    rw [List.foldl_cons, raw_of_single (single fragment List.mem_cons_self), line, rest,
      List.append_assoc, List.map_cons, List.singleton_append]

end Lines

namespace MarkupName

variable (tag : MarkupName) (config : Config) (entries : List PlainEntry)

/-- Whether the tag is written with one entry per line. -/
def wraps : Bool :=
  2 ≤ entries.length && config.maxLineLength < (tag.selfClosing [' '] [' '] entries).length

/-- What is written in front of every entry. -/
def gap : Chars :=
  if tag.wraps config entries then '\n' :: config.indentUnit else [' ']

/-- What is written in front of the end of the tag. -/
def lead : Chars :=
  if tag.wraps config entries then ['\n'] else [' ']

/-- The tag as it is written. -/
def formatted : Chars :=
  tag.selfClosing (tag.gap config entries) (tag.lead config entries) entries

theorem gap_ne_nil : tag.gap config entries ≠ [] := by
  unfold gap
  split <;> simp

theorem spaces_gap : ∀ c ∈ tag.gap config entries, isTagSpace c = true := by
  intro c member
  unfold gap at member
  split at member
  · rcases List.mem_cons.1 member with rfl | inUnit
    · decide
    · rcases config.eq_of_mem_indentUnit inUnit with rfl | rfl <;> decide
  · rw [List.mem_singleton.1 member]
    decide

theorem spaces_lead : ∀ c ∈ tag.lead config entries, isTagSpace c = true := by
  intro c member
  unfold lead at member
  split at member <;> rw [List.mem_singleton.1 member] <;> decide

theorem inLine_text : '\n' ∉ tag.text := fun member => absurd (tag.named _ member) (by decide)

/-- On one line there is no line feed. -/
theorem inLine_selfClosing : '\n' ∉ tag.selfClosing [' '] [' '] entries := by
  have inSpread : '\n' ∉ PlainEntry.spread [' '] entries := by
    unfold PlainEntry.spread
    rw [List.mem_flatMap]
    rintro ⟨entry, _, member⟩
    simp [entry.inLine] at member
  unfold selfClosing
  simp [tag.inLine_text, inSpread]

/-- With one entry per line, the text is made of lines. -/
theorem selfClosing_lines (unit : Chars) :
    tag.selfClosing ('\n' :: unit) ['\n'] entries =
      joinLines (('<' :: tag.text) :: entries.map (unit ++ ·.text)) ++ ['/', '>'] := by
  have shifted : PlainEntry.spread ('\n' :: unit) entries ++ ['\n'] =
      '\n' :: joinLines (entries.map (unit ++ ·.text)) := by
    induction entries with
    | nil => rfl
    | cons entry entries ih =>
      simp only [PlainEntry.spread, List.flatMap_cons, List.append_assoc] at ih ⊢
      rw [ih]
      simp [joinLines]
  have front : tag.selfClosing ('\n' :: unit) ['\n'] entries =
      '<' :: (tag.text ++ (PlainEntry.spread ('\n' :: unit) entries ++ ['\n'] ++ ['/', '>'])) := by
    simp [selfClosing]
  rw [front, shifted]
  simp [joinLines]

end MarkupName

namespace Page

variable {page : Page} {markup : Markup} {registry : Registry} {tag : MarkupName}
  {entries ordered : List PlainEntry}

section printed

variable (read : markup.ReadFrom registry tag entries)
  (sorted : ordered.map (·.parsed registry) =
    Attribute.order (entries.map (·.parsed registry)) page.config.sortAttributes)

include read sorted

/-- The entries are written as they were read. -/
theorem texts_ordered :
    (page.orderedAttributes markup).map attributeText = ordered.map (·.text) := by
  have unplaced : (page.orderedAttributes markup).map attributeText =
      ((page.orderedAttributes markup).map Attribute.unplaced).map attributeText := by
    rw [List.map_map]
    rfl
  have same := (read.ordered page.config.sortAttributes).trans sorted.symm
  rw [unplaced, orderedAttributes, same, List.map_map]
  exact List.map_congr_left fun entry _ => entry.attributeText_parsed registry

theorem startTagText_selfClosing :
    page.startTagText markup = tag.selfClosing [' '] [' '] ordered := by
  have texts := texts_ordered read sorted
  have spread : (page.orderedAttributes markup).flatMap (fun entry => ' ' :: attributeText entry) =
      PlainEntry.spread [' '] ordered := by
    have outer := congrArg (List.flatMap (' ' :: ·)) texts
    rwa [List.flatMap_map, List.flatMap_map] at outer
  unfold startTagText MarkupName.selfClosing
  simp [spread, read.tag, read.selfClosing]

theorem wraps_selfClosing : page.wraps markup 0 = tag.wraps page.config ordered := by
  have size : markup.attributes.length = ordered.length := by
    have perm := (Attribute.perm_order (entries.map (·.parsed registry))
      page.config.sortAttributes).length_eq
    rw [← sorted, List.length_map, List.length_map] at perm
    rw [perm, ← List.length_map (f := Attribute.unplaced), read.attributes, List.length_map]
  have single := splitLines_of_single (tag.inLine_selfClosing ordered)
  unfold wraps MarkupName.wraps
  rw [startTagText_selfClosing read sorted, single, size]
  by_cases few : ordered.length < 2
  · have : ¬ 2 ≤ ordered.length := by omega
    simp [few, this]
  · have : 2 ≤ ordered.length := by omega
    simp [few, this]

/-- A start tag, on one line or with one entry per line. -/
theorem printStartTag_selfClosing {config : Config} (same : page.config = config) :
    ∃ rows line, page.printStartTag markup (page.wraps markup 0) (.between config [] 0 false 0) =
        .within config rows line ∧ line ≠ [] ∧
      joinLines rows ++ line = tag.formatted config ordered := by
  subst same
  have oneLine := startTagText_selfClosing read sorted
  have ends : tagEnd markup = ['/', '>'] := by simp [tagEnd, read.selfClosing]
  rw [wraps_selfClosing read sorted]
  unfold printStartTag MarkupName.formatted MarkupName.gap MarkupName.lead
  cases tag.wraps page.config ordered with
  | false =>
    have some_ : tag.selfClosing [' '] [' '] ordered ≠ [] := by simp [MarkupName.selfClosing]
    refine ⟨[], tag.selfClosing [' '] [' '] ordered, ?_, some_, rfl⟩
    rw [oneLine]
    simp only [Bool.false_eq_true, if_false]
    rw [Lines.raw_of_single (tag.inLine_selfClosing ordered), Lines.append_between some_]
  | true =>
    have opening : ((Lines.between page.config [] 0 false 0).append ('<' :: markup.tag)).newline =
        .between page.config ['<' :: tag.text] 0 true 0 := by
      rw [Lines.append_between (by simp), Lines.newline_within (by simp), read.tag]
      rfl
    have single : ∀ text ∈ ordered.map (·.text), '\n' ∉ text :=
      List.forall_mem_map.2 fun entry _ => entry.inLine
    have nonempty : ∀ text ∈ ordered.map (·.text), text ≠ [] :=
      List.forall_mem_map.2 fun entry _ => entry.nonempty_text
    obtain ⟨after, rows⟩ := @Lines.foldl_fragments page.config ['<' :: tag.text] 1 false
      (ordered.map (·.text)) single nonempty (by simp)
    rw [← texts_ordered read sorted, List.foldl_map, texts_ordered read sorted] at rows
    refine ⟨['<' :: tag.text] ++ (ordered.map (·.text)).map (page.config.margin 1).around,
      ['/', '>'], ?_, by simp, ?_⟩
    · simp only [if_true]
      unfold printWrapped
      simp only [opening, Lines.indent_between, rows, ends, Lines.dedent_between]
      exact Lines.append_between (by simp)
    · have margin (text : Chars) :
          (page.config.margin 1).around text = page.config.indentUnit ++ text := by
        simp [Config.margin, Config.indent, Margin.around, Space.none, Text.replicate]
      simp only [if_true]
      rw [tag.selfClosing_lines]
      simp [margin, Function.comp_def]

end printed

/-- Markup whose body is read as markup is printed as its start tag. -/
theorem newline_print_leaf {config : Config} {rows : List Chars} (closed : markup.closed = true)
    (selfClosing : markup.selfClosing = true)
    (notRaw : Tag.isOneOf Tag.rawTextNames markup.tag = false) :
    (page.print markup.leaf (.between config rows 0 false 0)).newline =
      (page.printStartTag markup (page.wraps markup 0)
        (.between config rows 0 false 0)).newline := by
  let out := Lines.between config rows 0 false 0
  have level : out.level = 0 := rfl
  have printed (void : Bool) (childrenInline : Bool) :
      (page.printClosed markup void [] [] childrenInline out).newline =
        (page.printStartTag markup (page.wraps markup 0) out).newline := by
    unfold printClosed printStartTag
    simp only [selfClosing, Bool.true_or, if_true, level, out, Lines.newline_between]
    split
    · exact Lines.newline_newline _
    · rfl
  rcases markup.leaf_cases with ⟨void, same⟩ | same | ⟨name, same⟩
  · rw [same]
    unfold print
    simp only [notRaw, Bool.and_false, Bool.false_eq_true, if_false, printMarkup, closed,
      Bool.not_true, pieces]
    exact printed _ _
  · rw [same]
    unfold print
    simp only [printMarkup, closed, Bool.not_true, Bool.false_eq_true, if_false, pieces]
    exact printed _ _
  · rw [same]
    unfold print
    simp only [printMarkup, closed, Bool.not_true, Bool.false_eq_true, if_false, pieces]
    exact printed _ _

/-- Markup whose body is not read as markup is printed with an end tag. -/
theorem print_leaf_raw {out : Lines} (closed : markup.closed = true) (endTag : markup.endTag = none)
    (inLine : '\n' ∉ markup.tag) (raw : Tag.isOneOf Tag.rawTextNames markup.tag = true) :
    page.print markup.leaf out =
      (page.printStartTag markup (page.wraps markup out.level) out).append
        (['<', '/'] ++ markup.tag ++ ['>']) := by
  have kind : Tag.kindOf markup.tag = .element := Item.kindOf_of_rawText raw
  have ended : endTagText markup = ['<', '/'] ++ markup.tag ++ ['>'] := by
    simp [endTagText, endTag]
  have single : '\n' ∉ ['<', '/'] ++ markup.tag ++ ['>'] := by simp [inLine]
  have body : (if Tag.isOneOf Tag.reindentedNames markup.tag then withoutLastIndent [] else []) =
      [] := ite_self _
  have noLines : isMultiline [] = false := rfl
  unfold Markup.leaf Builder.markupNode
  simp only [kind]
  unfold print
  simp only [closed, raw, Bool.and_self, if_true, printRawText, bodyText, List.flatMap_nil, ended,
    body, noLines, Bool.false_eq_true, if_false, List.nil_append]
  -- There is no body, whichever way it would be written.
  split
  · rfl
  · exact Lines.raw_of_single single

end Page

/-- The line feed behind the last construct of a template changes nothing. -/
theorem Lines.newline_printText_feed (out : Lines) :
    (Page.printText ['\n'] out).newline = out.newline := by
  have text : Page.printText ['\n'] out = out.newline := rfl
  rw [text, newline_newline]

/-- What a template with one tag that closes itself is printed as. -/
theorem render_selfClosing (config : Config) {document : Document} {markup : Markup}
    {registry : Registry} {tag : MarkupName} {entries ordered : List PlainEntry}
    (read : markup.ReadFrom registry tag entries)
    (sorted : ordered.map (·.parsed registry) =
      Attribute.order (entries.map (·.parsed registry)) config.sortAttributes)
    {later : Chars} {rest : List Node} (children : document.children = markup.leaf :: rest)
    (leaves : Flow.Leaves later rest) (last : later = [] ∨ later = ['\n']) :
    render config document = tag.formatted config ordered ++
      ((if Tag.isOneOf Tag.rawTextNames tag.text then tag.closing else []) ++ ['\n']) := by
  let page : Page := ⟨config, document.source⟩
  let start := Lines.between config [] 0 false 0
  obtain ⟨rows, line, printed, some_, text⟩ :=
    @Page.printStartTag_selfClosing page markup registry tag entries ordered read sorted config rfl
  -- Whatever stands behind the tag, the output is that of its node.
  have alone : (Page.printAll (page.pieces document.children) start).newline =
      (page.print markup.leaf start).newline := by
    rw [children]
    cases leaves with
    | none => rfl
    | some none =>
      obtain rfl := last.resolve_left none
      exact Lines.newline_printText_feed _
  have whole : render config document = (page.print markup.leaf start).newline.text := by
    rw [← alone]
    rfl
  have inLine : '\n' ∉ markup.tag := by
    rw [read.tag]
    exact tag.inLine_text
  rw [whole, ← text]
  cases raw : Tag.isOneOf Tag.rawTextNames tag.text with
  | false =>
    rw [← read.tag] at raw
    have same := @Page.newline_print_leaf page markup config [] read.closed read.selfClosing raw
    rw [same, printed, Lines.newline_within some_, Lines.text_between]
    simp [joinLines]
  | true =>
    rw [← read.tag] at raw
    have same := @Page.print_leaf_raw page markup start read.closed read.endTag inLine raw
    have level : start.level = 0 := rfl
    rw [same, level, printed, Lines.append_within (by simp) some_, Lines.newline_within (by simp),
      Lines.text_between, read.tag]
    simp [joinLines, MarkupName.closing]

/-! ## Fingerprints -/

namespace Markup.ReadFrom

variable {markup other : Markup} {registry : Registry} {tag : MarkupName}
  {entries ordered : List PlainEntry} {sort : Bool}

/-- The name of a slot is that of its first entry with a value that is called so. -/
theorem slotName_eq (read : markup.ReadFrom registry tag entries) :
    Builder.slotName markup.tag markup.attributes =
      Builder.slotName tag.text (entries.map (·.parsed registry)) := by
  rw [read.tag, ← read.attributes]
  unfold Builder.slotName
  rw [List.find?_map]
  simp only [Option.bind_map]
  rfl

/-- Sorting keeps the first entry of a name first. -/
theorem slotName_ordered (registry : Registry) (tag : Chars) (entries : List PlainEntry)
    (sort : Bool) :
    Builder.slotName tag (Attribute.order (entries.map (·.parsed registry)) sort) =
      Builder.slotName tag (entries.map (·.parsed registry)) := by
  let named (entry : Attribute) : Bool :=
    (entry.name = "name".toList || entry.name = ":name".toList) && entry.value.isSome
  have free : ∀ entry ∈ entries.map (·.parsed registry), entry.isFence = false :=
    List.forall_mem_map.2 fun entry _ => entry.isFence_parsed registry
  have alike : ∀ entry ∈ entries.map (·.parsed registry), named entry = true →
      entry.name = "name".toList := by
    refine List.forall_mem_map.2 fun entry _ isNamed => ?_
    simp only [named, Bool.and_eq_true, Bool.or_eq_true, decide_eq_true_eq] at isNamed
    refine isNamed.1.resolve_right fun bound => ?_
    have colon := entry.word ':' (by
      show ':' ∈ (entry.parsed registry).name
      rw [bound]
      decide)
    exact absurd colon (by decide)
  have first : (Attribute.order (entries.map (·.parsed registry)) sort).find? named =
      (entries.map (·.parsed registry)).find? named := by
    rw [← List.head?_filter, ← List.head?_filter, Attribute.filter_order free alike]
  unfold Builder.slotName
  rw [first]

/-- Two tags with the same entries in order have the same fingerprint. -/
theorem fingerprint_eq (read : markup.ReadFrom registry tag entries)
    (again : other.ReadFrom registry tag ordered)
    (sorted : ordered.map (·.parsed registry) =
      Attribute.order (entries.map (·.parsed registry)) sort) :
    markup.leaf.fingerprint sort = other.leaf.fingerprint sort := by
  have marks (found : Markup) : Mark.ofEntries sort found =
      ((Attribute.order found.attributes sort).map Attribute.unplaced).map Mark.ofEntry := by
    rw [List.map_map]
    rfl
  have entriesSame : Mark.ofEntries sort markup = Mark.ofEntries sort other := by
    rw [marks, marks, read.ordered, again.ordered, sorted, Attribute.order_order]
  have names : Builder.slotName markup.tag markup.attributes =
      Builder.slotName other.tag other.attributes := by
    rw [read.slotName_eq, again.slotName_eq, sorted, slotName_ordered]
  have tags : markup.tag = other.tag := read.tag.trans again.tag.symm
  unfold Node.fingerprint Markup.leaf Builder.markupNode
  rw [names, tags]
  cases Tag.kindOf other.tag with
  | element =>
    simp only [Node.marks, Node.marksAll, tags, read.closed, again.closed, read.selfClosing,
      again.selfClosing, entriesSame]
  | component =>
    simp only [List.filter_nil, Node.marks, Node.marksAll, tags, read.closed, again.closed,
      read.selfClosing, again.selfClosing, entriesSame]
  | slot =>
    simp only [Node.marks, Node.marksAll, read.closed, again.closed, entriesSame]

end Markup.ReadFrom

/-! ## The result -/

/-- An entry as it is written: its name, and its value in quotes if it has one. -/
def Attribute.written (entry : Attribute) : Chars × Option Chars :=
  (entry.name, entry.value)

/-- A plain entry as it is written. -/
def PlainEntry.written (entry : PlainEntry) : Chars × Option Chars :=
  (entry.name, entry.quoted)

/-- Where an entry stands is not written. -/
theorem Attribute.map_written {entries unplaced : List Attribute}
    (same : entries.map Attribute.unplaced = unplaced) :
    entries.map Attribute.written = unplaced.map Attribute.written := by
  rw [← same, List.map_map]
  rfl

/-- The tree holds nothing but the given tag, which closes itself, and nothing was reported. -/
structure Document.HoldsTag (document : Document) (markup : Markup) : Prop where
  quiet : document.diagnostics = []
  alone : ∃ node, document.children.filter (!·.isBlank) = [node] ∧ node.markup? = some markup ∧
    node.childNodes = []
  selfClosing : markup.selfClosing = true

theorem Markup.isBlank_leaf (markup : Markup) : markup.leaf.isBlank = false := by
  rcases markup.leaf_cases with ⟨_, same⟩ | same | ⟨_, same⟩ <;> rw [same] <;> rfl

theorem filter_leaf (markup : Markup) {later : Chars} {rest : List Node}
    (leaves : Flow.Leaves later rest) (last : ScanState.EndsTemplate later) :
    (markup.leaf :: rest).filter (!·.isBlank) = [markup.leaf] := by
  have blank : ∀ node ∈ rest, node.isBlank = true := by
    cases leaves with
    | none => simp
    | some _ =>
      refine List.forall_mem_singleton.2 ?_
      exact List.all_eq_true.2 last.blank
  rw [List.filter_cons_of_pos (by simp [markup.isBlank_leaf]), List.filter_eq_nil_iff.2]
  intro node member
  simp [blank node member]

theorem Markup.ReadFrom.holdsTag {document : Document} {markup : Markup} {registry : Registry}
    {tag : MarkupName} {entries : List PlainEntry} (read : markup.ReadFrom registry tag entries)
    {later : Chars} {rest : List Node} (children : document.children = markup.leaf :: rest)
    (leaves : Flow.Leaves later rest) (last : ScanState.EndsTemplate later)
    (quiet : document.diagnostics = []) : document.HoldsTag markup := by
  refine ⟨quiet, ⟨markup.leaf, ?_, ?_, ?_⟩, read.selfClosing⟩
  · rw [children, filter_leaf markup leaves last]
  · rcases markup.leaf_cases with ⟨_, same⟩ | same | ⟨_, same⟩ <;> rw [same] <;> rfl
  · rcases markup.leaf_cases with ⟨_, same⟩ | same | ⟨_, same⟩ <;> rw [same] <;> rfl

theorem Markup.ReadFrom.written {markup : Markup} {registry : Registry} {tag : MarkupName}
    {entries : List PlainEntry} (read : markup.ReadFrom registry tag entries) :
    markup.attributes.map Attribute.written = entries.map (·.written) := by
  rw [Attribute.map_written read.attributes, List.map_map]
  rfl

/-- What is written for a tag reads back as that tag. -/
theorem parse_formatted (config : Config) (file : Option String) (tag : MarkupName)
    (ordered : List PlainEntry) :
    ∃ (other : Markup) (again : Document) (rest : List Node),
      other.ReadFrom config.dialect.registry tag ordered ∧
      (parse config.dialect file (tag.formatted config ordered ++ ['\n'])).outcome = .ok again ∧
      again.children = other.leaf :: rest ∧ Flow.Leaves ['\n'] rest ∧ again.diagnostics = [] :=
  parse_selfClosing_alone config.dialect file (tag.gap_ne_nil config ordered)
    (tag.spaces_gap config ordered) (tag.spaces_lead config ordered) tag ordered
    ScanState.endsTemplate_feed

section result

variable {config : Config} {file : Option String} {source : Chars} {document again : Document}
  {markup other : Markup} {tag : MarkupName} {entries ordered : List PlainEntry}

/-- A result with the tag of its template is accepted. -/
theorem accepted_of_readFrom (read : markup.ReadFrom config.dialect.registry tag entries)
    (reread : other.ReadFrom config.dialect.registry tag ordered)
    (sorted : ordered.map (·.parsed config.dialect.registry) =
      Attribute.order (entries.map (·.parsed config.dialect.registry)) config.sortAttributes)
    (before : document.children.filter (!·.isBlank) = [markup.leaf])
    (after : again.children.filter (!·.isBlank) = [other.leaf])
    (repeated : render config again = render config document)
    (parsed : (parse config.dialect file (render config document)).outcome = .ok again) :
    (Stability.check config config document file (render config document)).verdict = .ok () := by
  rw [Stability.check_accepts_iff]
  refine ⟨again, parsed, ?_, repeated⟩
  unfold Document.fingerprints
  rw [before, after]
  simp only [List.map_cons, List.map_nil, read.fingerprint_eq reread sorted]

/-- A result with a stray end tag behind the tag of its template is refused. -/
theorem refused_of_stray {location : Location} {name content : Chars} {rest : List Node}
    (before : document.children.filter (!·.isBlank) = [markup.leaf])
    (after : again.children = other.leaf :: .endTag location name content :: rest)
    (parsed : (parse config.dialect file (render config document)).outcome = .ok again) :
    (Stability.check config config document file (render config document)).verdict ≠ .ok () := by
  rw [ne_eq, Stability.check_accepts_iff]
  rintro ⟨_, found, same, _⟩
  rw [parsed] at found
  cases found
  have two : 2 ≤ (again.fingerprints config.sortAttributes).length := by
    unfold Document.fingerprints
    rw [after, List.filter_cons_of_pos (by simp [other.isBlank_leaf]),
      List.filter_cons_of_pos (by simp [Node.isBlank])]
    simp
  have one : (document.fingerprints config.sortAttributes).length = 1 := by
    unfold Document.fingerprints
    rw [before]
    rfl
  have sizes := congrArg List.length same
  rw [List.length_map, List.length_map] at sizes
  omega

/-- Unless the check refuses it, the result is returned, and nothing is reported. -/
theorem format_of_quiet (parsed : (parse config.dialect file source).outcome = .ok document)
    (quiet : document.diagnostics = []) :
    ((format config file source).failed = true ∧ config.checkIdempotence = true ∧
      (Stability.check config config document file (render config document)).verdict ≠ .ok ()) ∨
    ((format config file source).failed = false ∧
      (format config file source).text = render config document ∧
      (config.checkIdempotence = true →
        (Stability.check config config document file (render config document)).verdict =
          .ok ())) := by
  rcases format_cases config file source with
    ⟨error, failed, _⟩ | ⟨found, violation, same, guarded, refused, result⟩ |
      ⟨found, same, accepted, result⟩
  · rw [parsed] at failed
    cases failed
  · rw [parsed] at same
    cases same
    refine .inl ⟨?_, guarded, by rw [refused]; simp⟩
    rw [result]
    exact failed_fallback _ _ _ _ _ _
  · rw [parsed] at same
    cases same
    refine .inr ⟨?_, congrArg Outcome.text result, accepted⟩
    rw [result, quiet]
    rfl

/-- An element that is read as markup comes out as its tag, with the entries in order. -/
theorem format_reads_back (parsed : (parse config.dialect file source).outcome = .ok document)
    (quiet : document.diagnostics = [])
    (read : markup.ReadFrom config.dialect.registry tag entries) {later : Chars} {rest : List Node}
    (children : document.children = markup.leaf :: rest) (leaves : Flow.Leaves later rest)
    (last : later = []) (notRaw : Tag.isOneOf Tag.rawTextNames tag.text = false) :
    (format config file source).failed = false ∧ ∃ again other,
      (parse config.dialect file (format config file source).text).outcome = .ok again ∧
      again.HoldsTag other ∧ other.tag = tag.text ∧ other.attributes.map Attribute.written =
        (Attribute.order markup.attributes config.sortAttributes).map Attribute.written := by
  obtain ⟨ordered, sorted⟩ :=
    PlainEntry.exists_ordered config.dialect.registry entries config.sortAttributes
  have rendered := render_selfClosing config read sorted children leaves (.inl last)
  simp only [notRaw, Bool.false_eq_true, if_false, List.nil_append] at rendered
  obtain ⟨other, again, more, reread, reparsed, kept, feed, silent⟩ :=
    parse_formatted config file tag ordered
  have feedLast := ScanState.endsTemplate_feed
  have before : document.children.filter (!·.isBlank) = [markup.leaf] := by
    rw [children, filter_leaf markup leaves (last ▸ ScanState.endsTemplate_nil)]
  have after : again.children.filter (!·.isBlank) = [other.leaf] := by
    rw [kept, filter_leaf other feed feedLast]
  -- Entries in order stay in that order when the result is printed once more.
  have settled : ordered.map (·.parsed config.dialect.registry) =
      Attribute.order (ordered.map (·.parsed config.dialect.registry)) config.sortAttributes := by
    rw [sorted, Attribute.order_order]
  have repeated := render_selfClosing config reread settled kept feed (.inr rfl)
  simp only [notRaw, Bool.false_eq_true, if_false, List.nil_append] at repeated
  rw [← rendered] at reparsed repeated
  have accepted := accepted_of_readFrom read reread sorted before after repeated reparsed
  obtain ⟨_, _, refused⟩ | ⟨calm, text, _⟩ := format_of_quiet parsed quiet
  · exact absurd accepted refused
  · have written : other.attributes.map Attribute.written =
        (Attribute.order markup.attributes config.sortAttributes).map Attribute.written := by
      rw [Attribute.map_written reread.attributes, sorted,
        Attribute.map_written (read.ordered config.sortAttributes)]
    rw [← text] at reparsed
    exact ⟨calm, again, other, reparsed, reread.holdsTag kept feed feedLast silent, reread.tag,
      written⟩

/-- An element that is not read as markup comes out with an end tag that closes nothing, and a check
refuses it. -/
theorem format_strays (parsed : (parse config.dialect file source).outcome = .ok document)
    (quiet : document.diagnostics = [])
    (read : markup.ReadFrom config.dialect.registry tag entries) {later : Chars} {rest : List Node}
    (children : document.children = markup.leaf :: rest) (leaves : Flow.Leaves later rest)
    (last : later = []) (raw : Tag.isOneOf Tag.rawTextNames tag.text = true) :
    (config.checkIdempotence = true → (format config file source).failed = true) ∧
      ((format config file source).failed = false → ∃ again,
        (parse config.dialect file (format config file source).text).outcome = .ok again ∧
        again.diagnostics ≠ []) := by
  obtain ⟨ordered, sorted⟩ :=
    PlainEntry.exists_ordered config.dialect.registry entries config.sortAttributes
  have rendered := render_selfClosing config read sorted children leaves (.inl last)
  simp only [raw, if_true] at rendered
  have before : document.children.filter (!·.isBlank) = [markup.leaf] := by
    rw [children, filter_leaf markup leaves (last ▸ ScanState.endsTemplate_nil)]
  obtain ⟨other, again, location, name, more, reparsed, kept, loud⟩ :=
    parse_selfClosing_stray config.dialect file (tag.gap_ne_nil config ordered)
      (tag.spaces_gap config ordered) (tag.spaces_lead config ordered) tag ordered
  rw [show tag.selfClosing _ _ _ ++ _ = render config document from rendered.symm] at reparsed
  have refused := refused_of_stray before kept reparsed
  obtain ⟨failed, _⟩ | ⟨calm, text, accepted⟩ := format_of_quiet parsed quiet
  · refine ⟨fun _ => failed, fun calm => ?_⟩
    rw [failed] at calm
    cases calm
  · refine ⟨fun guarded => absurd (accepted guarded) refused, fun _ => ⟨again, ?_, loud⟩⟩
    rw [text]
    exact reparsed

end result

/-- A tag that closes itself, with plain entries on one line, reads back from the result of
formatting as itself, with its entries in order, under every configuration and in either layout, if
and only if its element is not one whose body is kept. The check refuses just the others. -/
theorem format_selfClosing (config : Config) (file : Option String) (tag : MarkupName)
    (entries : List PlainEntry) :
    let source := tag.selfClosing [' '] [] entries
    let result := format config file source
    ∃ document markup, (parse config.dialect file source).outcome = .ok document ∧
      document.HoldsTag markup ∧ markup.tag = tag.text ∧
      markup.attributes.map Attribute.written = entries.map (·.written) ∧
      ((result.failed = false ∧ ∃ again other,
          (parse config.dialect file result.text).outcome = .ok again ∧ again.HoldsTag other ∧
          other.tag = tag.text ∧ other.attributes.map Attribute.written =
            (Attribute.order markup.attributes config.sortAttributes).map Attribute.written) ↔
        Tag.isOneOf Tag.rawTextNames tag.text = false) ∧
      (config.checkIdempotence = true →
        (result.failed = true ↔ Tag.isOneOf Tag.rawTextNames tag.text = true)) := by
  intro source result
  obtain ⟨markup, document, rest, read, parsed, children, leaves, quiet⟩ :=
    @parse_selfClosing_alone config.dialect file [' '] [] [] (by simp)
      (List.forall_mem_singleton.2 (by decide)) (by simp) tag entries ScanState.endsTemplate_nil
  rw [List.append_nil] at parsed
  refine ⟨document, markup, parsed,
    read.holdsTag children leaves ScanState.endsTemplate_nil quiet, read.tag, read.written, ?_⟩
  cases raw : Tag.isOneOf Tag.rawTextNames tag.text with
  | false =>
    have back := format_reads_back parsed quiet read children leaves rfl raw
    refine ⟨iff_of_true back rfl, fun _ => iff_of_false ?_ (by decide)⟩
    rw [show result.failed = false from back.1]
    decide
  | true =>
    obtain ⟨refused, strays⟩ := format_strays parsed quiet read children leaves rfl raw
    refine ⟨iff_of_false ?_ (by decide), fun guarded => iff_of_true (refused guarded) rfl⟩
    rintro ⟨calm, found, _, returned, holds, _⟩
    obtain ⟨again, reparsed, loud⟩ := strays calm
    rw [show (parse config.dialect file result.text).outcome = .ok again from reparsed] at returned
    cases returned
    exact loud holds.quiet

/-- A component for which the line has no room: its tag is wrapped, and reads back with the value
that has a space and the entry that has none. -/
theorem format_selfClosing_wrapped :
    let config : Config := { maxLineLength := 10, indentSize := 2 }
    let tag : MarkupName :=
      ⟨"x-card".toList, by decide +kernel, List.all_eq_true.1 (by decide +kernel)⟩
    let wide : PlainEntry := ⟨"wide".toList, some "a b".toList, by simp,
      List.all_eq_true.1 (by decide +kernel), by
        rintro _ ⟨⟩
        simp [doubleQuote]⟩
    let bare : PlainEntry :=
      ⟨"open".toList, none, by simp, List.all_eq_true.1 (by decide +kernel), nofun⟩
    let result := format config none (tag.selfClosing [' '] [] [wide, bare])
    result.text = "<x-card\n  wide=\"a b\"\n  open\n/>\n".toList ∧ result.failed = false ∧
      ∃ again other, (parse config.dialect none result.text).outcome = .ok again ∧
        again.HoldsTag other ∧ other.tag = "x-card".toList ∧
        other.attributes.map Attribute.written =
          [("wide".toList, some "\"a b\"".toList), ("open".toList, none)] := by
  intro config tag wide bare
  obtain ⟨document, markup, _, _, _, entries, kept, _⟩ :=
    format_selfClosing config none tag [wide, bare]
  obtain ⟨calm, again, other, reread, holds, sameTag, written⟩ := kept.2 (by decide)
  exact ⟨by decide +kernel, calm, again, other, reread, holds, sameTag, written.trans entries⟩

end BladeTemplate
