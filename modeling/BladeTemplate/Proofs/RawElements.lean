import BladeTemplate.Config
import BladeTemplate.Proofs.Growth
import BladeTemplate.Proofs.NodeEdges
import BladeTemplate.Proofs.PlainEnds
import BladeTemplate.Proofs.RawItems
import BladeTemplate.Proofs.Recoveries

/-!
# Elements that are not read as markup

Reading and matching look for the end of such an element on their own. They agree wherever the end
tag is written plainly: then the element holds the body that was read and nothing else, and ends at
the end tag at which reading stopped. At any other end tag they come apart, and the end tag is left
without an element.

* `ReadRaw.stopped` says what stands in the end tag at which reading stopped;
* `Builder.build_closed` and `Builder.build_stray` say what matching makes of the items;
* `Item.apart` keeps the places of different items apart;
* `closed_iff_plain` is the result for whole templates.
-/

namespace BladeTemplate

open Text Lookahead

/-! ## The end tag -/

theorem ReadRaw.stopped {source tag : Chars} {n b : Nat} {body : List Token} {last : Token}
    {inside : Chars} (readRaw : ReadRaw source tag n body last) (some : tag ≠ [])
    (letters : ∀ c ∈ tag, c.isAlpha = true)
    (shape : cut source last.start.offset b = ['<', '/'] ++ inside ++ ['>'])
    (notInside : '>' ∉ inside) :
    ∃ written more, inside = written ++ more ∧ Tag.Stopped tag written more := by
  obtain ⟨length, found, at_⟩ := readRaw.found
  have ends := (rawTextLength_spec found).2
  have ahead : source.drop last.start.offset = '<' :: '/' :: (inside ++
      '>' :: (source.drop last.start.offset).drop (b - last.start.offset)) := by
    conv_lhs => rw [← List.take_append_drop (b - last.start.offset) (source.drop _)]
    show cut source _ b ++ _ = _
    simp [shape]
  rw [List.drop_drop, ← at_, ahead] at ends
  exact Tag.stopped_of_ends some letters notInside ends

/-- If the end tag is written plainly it closes the element, else it closes nothing that has the
name of a tag. -/
theorem ReadRaw.closes_cases {source tag inside : Chars} {n b : Nat} {body : List Token}
    {last : Token} (readRaw : ReadRaw source tag n body last) (some : tag ≠ [])
    (letters : ∀ c ∈ tag, c.isAlpha = true) (value : last.value = cut source last.start.offset b)
    (shape : last.value = ['<', '/'] ++ inside ++ ['>']) (notInside : '>' ∉ inside) :
    (Tag.endsPlainly tag last.value = true ∧
      Tag.closes (Tag.endTagName last.value) tag = true) ∨
    (Tag.endsPlainly tag last.value = false ∧
      ∀ other, (∀ c ∈ other, Tag.isNameChar c = true) →
        Tag.closes (Tag.endTagName last.value) other = false) := by
  obtain ⟨written, more, rfl, stopped⟩ :=
    readRaw.stopped some letters (value.symm.trans shape) notInside
  rw [shape, Builder.endTagName_eq notInside]
  cases plain : Tag.endsPlainly tag (['<', '/'] ++ (written ++ more) ++ ['>']) with
  | true => exact .inl ⟨rfl, stopped.closes plain⟩
  | false => exact .inr ⟨rfl, fun other named => stopped.not_closes letters plain named⟩

namespace FrameStack

theorem Lies.nameChars {registry : Registry} {source : Chars} {stack : FrameStack} {n : Nat}
    (lies : stack.Lies registry source n) :
    ∀ kind markup, .element kind markup ∈ stack.openings → ∀ c ∈ markup.tag,
      Tag.isNameChar c = true := by
  obtain ⟨frames, root⟩ := stack
  unfold openings
  unfold Lies at lies
  simp only at lies ⊢
  induction lies with
  | root => simp
  | @frame frame outer a m n around start begins body ih =>
    intro kind markup member
    rcases List.mem_cons.1 member with same | later
    · rw [show frame.opened = .element kind markup from same.symm] at begins
      exact begins.1.nameChars
    · exact ih kind markup later

end FrameStack

/-! ## Matching -/

/-- The node of a body that is not read as markup. -/
def Node.ofRawText (file : Option String) (token : Token) : Node :=
  .region (token.location file) .rawText token.value

namespace Builder

variable {registry : Registry} {builder : Builder} {markup : Markup}

theorem add_rawStart (registry : Registry) (builder : Builder)
    (notSelf : markup.selfClosing = false)
    (raw : Tag.isOneOf Tag.rawTextNames markup.tag = true) :
    builder.add registry (.startTag .element markup) =
      builder.within (⟨.element .element markup, markup.location, {}⟩ :: builder.stack.frames) := by
  simp [add, addStartTag, notSelf, not_void_of_rawText raw, FrameStack.push, within]

/-- A body that is read behind a start tag becomes all that the open frame holds. -/
theorem foldl_rawBody {source name : Chars} {n : Nat} {body : List Token} {last : Token}
    (readRaw : ReadRaw source name n body last) (registry : Registry) (file : Option String)
    (builder : Builder) (opened : Opened) (start : Location) (outer : List Frame) :
    ∃ held : Body, held.children = body.map (Node.ofRawText file) ∧
      (body.map (Item.ofRawText file)).foldl (add registry)
        (builder.within (⟨opened, start, {}⟩ :: outer)) =
          builder.within (⟨opened, start, held⟩ :: outer) := by
  rcases readRaw.body with ⟨rfl, _⟩ | ⟨token, rfl, _⟩
  · exact ⟨{}, rfl, rfl⟩
  · refine ⟨Body.append {} (Node.ofRawText file token), rfl, rfl⟩

/-- An end tag that closes the innermost element. -/
theorem addEndTag_innermost {kind : TagKind} {start location : Location} {body : Body}
    {outer : List Frame} {content : Chars}
    (closes : Tag.closes (Tag.endTagName content) markup.tag = true) :
    (builder.within (⟨.element kind markup, start, body⟩ :: outer)).addEndTag location content =
      (builder.within outer).append (markupNode kind
        { markup with
          location := start.spanTo location, endTag := some (Tag.endTagName content) } false
        body.children) := by
  have found : (builder.within (⟨.element kind markup, start, body⟩ :: outer)).stack.findElement
      (Tag.endTagName content) = some 0 := by
    simp [FrameStack.findElement, FrameStack.findElementIn, within, closes]
  simp only [addEndTag, found]
  rfl

/-- An end tag that closes no open element is reported. -/
theorem addEndTag_stray {location : Location} {content : Chars}
    (none : ∀ kind markup, .element kind markup ∈ builder.stack.openings →
      Tag.closes (Tag.endTagName content) markup.tag = false) :
    ∃ diagnostic ∈ (builder.addEndTag location content).diagnostics,
      diagnostic.code = .strayEndTag ∧ diagnostic.StandsAt location := by
  have missed : builder.stack.findElement (Tag.endTagName content) = .none := by
    rw [Option.eq_none_iff_forall_ne_some]
    intro above found
    obtain ⟨kind, markup, outer, top, closes⟩ := openings_of_findElement found
    have member : Opened.element kind markup ∈ builder.stack.openings := by
      refine List.mem_of_mem_drop (i := above) ?_
      rw [FrameStack.openings, top]
      exact List.mem_cons_self
    rw [none kind markup member] at closes
    cases closes
  simp only [addEndTag, missed]
  exact ⟨_, List.mem_append_right _ (List.mem_singleton_self _), rfl, rfl, rfl⟩

section build

variable {source : Chars} {n : Nat} {body : List Token} {last : Token} {file : Option String}
  {location : Location} {content : Chars}

/-- Reading the items up to an end tag, and then the rest. -/
theorem build_split (registry : Registry) (earlier later : List Item) (item : Item) :
    build registry (earlier ++ item :: later) =
      (later.foldl (add registry)
        ((earlier.foldl (add registry) {}).add registry item)).finish := by
  rw [build, List.foldl_append, List.foldl_cons]

/-- Up to its end tag, an element that is not read as markup is the innermost one, with its body as
all that it holds. -/
theorem foldl_rawStart (readRaw : ReadRaw source markup.tag n body last) (registry : Registry)
    (file : Option String) (earlier : List Item) (notSelf : markup.selfClosing = false)
    (raw : Tag.isOneOf Tag.rawTextNames markup.tag = true) :
    ∃ held : Body, held.children = body.map (Node.ofRawText file) ∧
      (earlier ++ .startTag .element markup :: body.map (Item.ofRawText file)).foldl (add registry)
        {} = (earlier.foldl (add registry) {}).within
          (⟨.element .element markup, markup.location, held⟩ ::
            (earlier.foldl (add registry) {}).stack.frames) := by
  rw [List.foldl_append, List.foldl_cons, add_rawStart registry _ notSelf raw]
  exact foldl_rawBody readRaw registry file _ _ _ _

/-- An end tag that closes the element makes it a node, and nothing is reported about it. -/
theorem build_closed (markup : Markup) (readRaw : ReadRaw source markup.tag n body last)
    (registry : Registry) (file : Option String) (earlier later : List Item) (location : Location)
    (notSelf : markup.selfClosing = false)
    (raw : Tag.isOneOf Tag.rawTextNames markup.tag = true)
    (closes : Tag.closes (Tag.endTagName content) markup.tag = true) :
    let built := build registry (earlier ++ .startTag .element markup ::
      (body.map (Item.ofRawText file) ++ .endTag location content :: later))
    markupNode .element
        { markup with
          location := markup.location.spanTo location
          endTag := some (Tag.endTagName content) } false (body.map (Node.ofRawText file)) ∈
      built.stack.finished ∧
    ∀ diagnostic ∈ built.diagnostics, diagnostic.isAboutEnds = true →
      ∃ item ∈ earlier ++ later, diagnostic.StandsAt item.location := by
  intro built
  obtain ⟨held, children, opened⟩ := foldl_rawStart readRaw registry file earlier notSelf raw
  have before := grows_foldl registry earlier {}
  have whole : built = (later.foldl (add registry) ((earlier.foldl (add registry) {}).append
      (markupNode .element
        { markup with
          location := markup.location.spanTo location
          endTag := some (Tag.endTagName content) } false held.children))).finish := by
    show build _ _ = _
    rw [← List.cons_append, ← List.append_assoc, build_split, opened]
    simp only [add, addEndTag_innermost closes]
    rfl
  generalize earlier.foldl (add registry) {} = outer at before whole
  rw [whole, ← children]
  have after := grows_finish registry later (outer.append (markupNode .element
    { markup with
      location := markup.location.spanTo location
      endTag := some (Tag.endTagName content) } false held.children))
  refine ⟨after.finished _ ?_, ?_⟩
  · refine (FrameStack.finished_append _ _).mem_iff.2 (List.mem_append_right _ ?_)
    exact (Node.parts_markupNode _ _ _ _).mem_iff.2 List.mem_cons_self
  · have closed {node : Node} : Grows [] outer (outer.append node) :=
      grows_append [] (by simp) rfl (List.append_nil _).symm
    obtain ⟨more, reported, about⟩ := (before.trans (closed.trans after)).diagnostics
    intro diagnostic member ends
    rw [reported] at member
    obtain ⟨place, inside, stands⟩ := about diagnostic member ends
    rw [show ({} : Builder).stack.starts = [] from rfl, List.nil_append, List.nil_append,
      ← List.map_append] at inside
    obtain ⟨item, among, rfl⟩ := List.mem_map.1 inside
    exact ⟨item, among, stands⟩

/-- An end tag that closes no element is reported. -/
theorem build_stray (registry : Registry) (earlier later : List Item) (location : Location)
    (none : ∀ kind markup, .element kind markup ∈
      (earlier.foldl (add registry) {}).stack.openings →
        Tag.closes (Tag.endTagName content) markup.tag = false) :
    ∃ diagnostic ∈ (build registry (earlier ++ .endTag location content :: later)).diagnostics,
      diagnostic.code = .strayEndTag ∧ diagnostic.StandsAt location := by
  obtain ⟨diagnostic, member, said⟩ := @addEndTag_stray _ location content none
  obtain ⟨more, reported, _⟩ := (grows_finish registry later
    ((earlier.foldl (add registry) {}).addEndTag location content)).diagnostics
  refine ⟨diagnostic, ?_, said⟩
  rw [build_split]
  show diagnostic ∈ (later.foldl (add registry) (addEndTag _ location content)).finish.diagnostics
  rw [reported]
  exact List.mem_append_left _ member

end build

end Builder

/-! ## Places -/

/-- Locations with the same line and column start at the same offset. -/
theorem Location.Sited.offset_eq {file : Option String} {source : Chars}
    {first second : Location} (one : first.Sited file source) (other : second.Sited file source)
    (line : first.line = second.line) (column : first.column = second.column) :
    first.offset = second.offset := by
  obtain ⟨a, _, boundA, _, rfl⟩ := one
  obtain ⟨b, _, boundB, _, rfl⟩ := other
  simp only [Location.between, ← Position.ofOffset_eq_counted boundA,
    ← Position.ofOffset_eq_counted boundB] at line column ⊢
  rcases Nat.lt_trichotomy a b with less | rfl | more
  · have before := Position.before_ofOffset less boundB
    unfold Position.Before at before
    omega
  · rfl
  · have before := Position.before_ofOffset more boundA
    unfold Position.Before at before
    omega

theorem Tiles.of_append {α : Type} {covers : α → Nat → Nat → Prop} {xs ys : List α} {a c : Nat}
    (tiles : Tiles covers (xs ++ ys) a c) : ∃ b, Tiles covers xs a b ∧ Tiles covers ys b c := by
  induction xs generalizing a with
  | nil => exact ⟨a, .nil a, tiles⟩
  | cons x xs ih =>
    cases tiles with
    | cons covered rest =>
      obtain ⟨b, first, second⟩ := ih rest
      exact ⟨b, .cons covered first, second⟩

namespace Item

variable {source : Chars}

theorem Covers.startTag_inv {kind : TagKind} {markup : Markup} {a b : Nat}
    (covers : (Item.startTag kind markup).Covers source a b) :
    markup.location.Spans a b ∧ markup.Opens source a b ∧ kind = Tag.kindOf markup.tag := by
  cases covers with
  | startTag kindOf spans opens => exact ⟨spans, opens, kindOf⟩

theorem Covers.endTag_inv {location : Location} {content : Chars} {a b : Nat}
    (covers : (Item.endTag location content).Covers source a b) :
    location.Spans a b ∧ content = cut source a b ∧
      ∃ inside, content = ['<', '/'] ++ inside ++ ['>'] ∧ '>' ∉ inside := by
  cases covers with
  | endTag inside spans shape notInside => exact ⟨spans, rfl, inside, shape, notInside⟩

theorem within_of_tiles {items : List Item} {a b : Nat}
    (tiles : Tiles (Covers source) items a b) :
    ∀ item ∈ items, (a : Int) ≤ item.location.offset ∧ item.location.offset < b := by
  induction tiles with
  | nil => simp
  | cons covers later ih =>
    obtain ⟨spans, some⟩ := covers.spans
    have starts := spans.offset
    have after := later.ordered
    refine List.forall_mem_cons.2 ⟨by omega, ?_⟩
    intro item member
    have := ih item member
    omega

/-- Nothing stands at the places of two items of a template. -/
theorem apart {file : Option String} {before after : List Item} {item : Item} {a b : Nat}
    (tiles : Tiles (Covers source) (before ++ item :: after) a b)
    (sited : ∀ one ∈ before ++ item :: after, one.Sited file source) {diagnostic : Diagnostic}
    (here : diagnostic.StandsAt item.location) :
    ∀ other ∈ before ++ after, ¬ diagnostic.StandsAt other.location := by
  intro other member there
  have among : other ∈ before ++ item :: after := by
    rw [List.mem_append, List.mem_cons]
    rcases List.mem_append.1 member with first | last
    · exact .inl first
    · exact .inr (.inr last)
  have same : other.location.offset = item.location.offset :=
    (sited other among).place.sited.offset_eq (sited item (by simp)).place.sited
      (there.1.symm.trans here.1) (there.2.symm.trans here.2)
  obtain ⟨m, first, rest⟩ := tiles.of_append
  cases rest with
  | cons covers last =>
    obtain ⟨spans, some⟩ := covers.spans
    have starts := spans.offset
    rcases List.mem_append.1 member with inFirst | inLast
    · have := within_of_tiles first other inFirst
      omega
    · have := within_of_tiles last other inLast
      omega

end Item

/-! ## Whole templates -/

/-- Whether there is a report with the code at the start of a token. -/
def Document.Reports (document : Document) (code : DiagnosticCode) (token : Token) : Prop :=
  ∃ diagnostic ∈ document.diagnostics, diagnostic.code = code ∧
    diagnostic.line = token.start.line ∧ diagnostic.column = token.start.column

/-- If all reports about the ends of elements stand at other items, none stands at this one. -/
theorem Document.not_reports {document : Document} {file : Option String} {source : Chars}
    {earlier later : List Item} {item : Item} {a b : Nat}
    (tiles : Tiles (Item.Covers source) (earlier ++ item :: later) a b)
    (sited : ∀ one ∈ earlier ++ item :: later, one.Sited file source)
    {others : List Item} (fewer : others.Sublist (earlier ++ later))
    (about : ∀ diagnostic ∈ document.diagnostics, diagnostic.isAboutEnds = true →
      ∃ other ∈ others, diagnostic.StandsAt other.location)
    {code : DiagnosticCode} (ends : code = .unclosedElement ∨ code = .strayEndTag) {token : Token}
    (line : item.location.line = token.start.line)
    (column : item.location.column = token.start.column) : ¬ document.Reports code token := by
  rintro ⟨diagnostic, member, rfl, atLine, atColumn⟩
  have isAbout : diagnostic.isAboutEnds = true := by
    simpa [Diagnostic.isAboutEnds] using ends
  obtain ⟨other, among, stands⟩ := about diagnostic member isAbout
  exact Item.apart tiles sited ⟨atLine.trans line.symm, atColumn.trans column.symm⟩ other
    (fewer.subset among) stands

/-- The tree holds the element of a start tag, closed by the given end tag, with a body that is not
read as markup as all that it holds. -/
def Document.Encloses (document : Document) (opening : Token) (body : List Token) (last : Token) :
    Prop :=
  ∃ markup, .element markup false (body.map (Node.ofRawText document.location.file)) ∈
      Node.walkAll document.children ∧
    markup.tag = opening.value.drop 1 ∧ markup.closed = true ∧
    markup.endTag = some (Tag.endTagName last.value) ∧
    markup.location.Spans opening.start.offset last.stop.offset

/-- What matching the items gives is in the tree, and of the ends of elements just that is
reported. -/
structure Document.BuiltFrom (document : Document) (registry : Registry) (items : List Item) :
    Prop where
  kept : ∀ node ∈ (Builder.build registry items).stack.finished,
    node ∈ Node.walkAll document.children
  reported : ∀ diagnostic, diagnostic.isAboutEnds = true →
    (diagnostic ∈ document.diagnostics ↔ diagnostic ∈ (Builder.build registry items).diagnostics)

/-- The reader reports directives and entries only. -/
theorem not_isAboutEnds_of_scan {dialect : Dialect} {source : Chars}
    (read : (scan dialect source).fault = none) :
    ∀ diagnostic ∈ (scan dialect source).diagnostics, diagnostic.isAboutEnds = false := by
  intro diagnostic member
  have noticed : diagnostic.notice ∈ (scan dialect source).diagnostics.map Diagnostic.notice :=
    List.mem_map_of_mem member
  rw [notices_scan dialect source read, List.mem_flatMap] at noticed
  obtain ⟨note, _, reported⟩ := noticed
  have code : diagnostic.notice.code = .unknownDirective ∨
      diagnostic.notice.code = .ambiguousAttribute := by
    unfold Note.report at reported
    split at reported
    · split at reported
      · rw [List.mem_singleton.1 reported]
        exact .inl rfl
      · cases reported
    · rw [List.mem_singleton.1 reported]
      exact .inr rfl
  have same : diagnostic.notice.code = diagnostic.code := rfl
  rw [same] at code
  rcases code with code | code <;> simp [Diagnostic.isAboutEnds, code]

theorem builtFrom_of_parse {dialect : Dialect} {file : Option String} {source : Chars}
    {document : Document} (parsed : (parse dialect file source).outcome = .ok document) :
    (scan dialect source).fault = none ∧ document.location.file = file ∧
      document.BuiltFrom dialect.registry
        (Item.ofTokens ⟨dialect.registry, file, source⟩ (scan dialect source).tokens) := by
  unfold parse at parsed
  simp only at parsed
  split at parsed
  · cases parsed
  · next read =>
    cases parsed
    refine ⟨read, rfl, ?_, ?_⟩
    · intro node member
      have empty := Builder.frames_build dialect.registry
        (Item.ofTokens ⟨dialect.registry, file, source⟩ (scan dialect source).tokens)
      rw [FrameStack.finished, empty, List.flatMap_nil, List.append_nil] at member
      exact (Node.mem_parts.1 member).1
    · intro diagnostic ends
      refine (List.mergeSort_perm _ _).mem_iff.trans ?_
      rw [List.mem_append, or_iff_left]
      intro member
      rw [not_isAboutEnds_of_scan read diagnostic member] at ends
      cases ends

/-- In every template that reads without fault, behind a start tag that is not read as markup stand
its body and the end tag at which reading stopped. The tree holds the element with just that body,
closed by just that end tag, if and only if the end tag is written plainly. If it is, neither tag is
reported; if it is not, the end tag is reported as stray. -/
theorem closed_iff_plain {dialect : Dialect} {file : Option String} {source : Chars}
    {document : Document} (parsed : (parse dialect file source).outcome = .ok document)
    {before entries rest : List Token} {opening closing : Token}
    (split : (scan dialect source).tokens = before ++ opening :: (entries ++ closing :: rest))
    (start : RawStart opening entries closing) :
    ∃ body last later, rest = body ++ last :: later ∧
      ReadRaw source (opening.value.drop 1) closing.stop.offset body last ∧
      (document.Encloses opening body last ↔
        Tag.endsPlainly (opening.value.drop 1) last.value = true) ∧
      (document.Reports .strayEndTag last ↔
        Tag.endsPlainly (opening.value.drop 1) last.value = false) ∧
      (Tag.endsPlainly (opening.value.drop 1) last.value = true →
        ¬ document.Reports .unclosedElement opening) := by
  obtain ⟨read, rfl, built⟩ := builtFrom_of_parse parsed
  obtain ⟨earlier, kind, attributes, body, last, later, rfl, readRaw, items⟩ :=
    Item.ofTokens_rawStart document.location.file read split start
  have tiles := tiles_ofTokens dialect document.location.file source read
  have sited := sited_items dialect document.location.file source read
  rw [items] at tiles sited built
  have regrouped := tiles
  rw [← List.cons_append, ← List.append_assoc] at regrouped
  obtain ⟨a, earlierTiles, startTiles⟩ := tiles.of_append
  cases startTiles with
  | @cons _ _ _ m _ covers laterTiles =>
  obtain ⟨k, bodyTiles, endTiles⟩ := laterTiles.of_append
  cases endTiles with
  | @cons _ _ _ b _ ends _ =>
  refine ⟨body, last, later, rfl, readRaw, ?_⟩
  obtain ⟨spans, opens, element⟩ := covers.startTag_inv
  obtain ⟨endSpans, value, inside, shape, notInside⟩ := ends.endTag_inv
  obtain rfl : kind = .element := element.trans (Item.kindOf_of_rawText start.raw)
  obtain rfl : opening.start.offset = a := Int.ofNat_inj.1 spans.offset
  obtain rfl : last.start.offset = k := Int.ofNat_inj.1 endSpans.offset
  obtain rfl : last.stop.offset = b := Int.ofNat_inj.1 endSpans.endOffset
  have nameChars : ∀ c ∈ opening.value.drop 1, Tag.isNameChar c = true := opens.nameChars
  obtain ⟨some, letters⟩ := Tag.letters_of_rawText start.raw nameChars
  rcases readRaw.closes_cases some letters value shape notInside with
    ⟨plain, closes⟩ | ⟨odd, closesNone⟩
  · have notSelf : decide (closing.value = ['/', '>']) = false := by simp [start.bracket]
    obtain ⟨node, about⟩ := Builder.build_closed (Item.startMarkup _ opening closing attributes)
      readRaw dialect.registry document.location.file earlier
      (Item.ofTokens ⟨dialect.registry, document.location.file, source⟩ later)
      (last.location document.location.file) notSelf start.raw closes
    have ordered : opening.start.offset ≤ last.stop.offset :=
      Nat.le_trans covers.ordered (Nat.le_trans bodyTiles.ordered ends.ordered)
    have elsewhere : ∀ diagnostic ∈ document.diagnostics, diagnostic.isAboutEnds = true → _ :=
      fun diagnostic member ends => about diagnostic ((built.reported _ ends).1 member) ends
    refine ⟨iff_of_true ⟨_, built.kept _ node, rfl, rfl, rfl, spans.spanTo endSpans ordered⟩ plain,
      iff_of_false ?_ (ne_false_of_eq_true plain), fun _ => ?_⟩
    · rw [← List.cons_append, ← List.append_assoc] at sited
      refine Document.not_reports regrouped sited ?_ elsewhere (.inr rfl) rfl rfl
      exact (List.sublist_append_left earlier _).append_right _
    · refine Document.not_reports tiles sited ?_ elsewhere (.inl rfl) rfl rfl
      exact ((List.sublist_cons_self _ _).trans (List.sublist_append_right _ _)).append_left earlier
  · refine ⟨iff_of_false ?_ (ne_true_of_eq_false odd), iff_of_true ?_ odd,
      fun plain => absurd plain (ne_true_of_eq_false odd)⟩
    · rintro ⟨markup, member, sameTag, _, named, _⟩
      have edged := (edged_of_parse parsed).2 _ member
      have closes : Tag.closes (Tag.endTagName last.value) markup.tag = true :=
        edged.2.1 _ named
      rw [sameTag, closesNone _ nameChars] at closes
      cases closes
    · obtain ⟨_, prefixTiles, _⟩ := regrouped.of_append
      have start : ({} : Builder).stack.Lies dialect.registry source 0 :=
        .root (Body.lies_empty 0)
      have lies := Builder.lies_foldl start prefixTiles
      obtain ⟨diagnostic, member, code, line, column⟩ := Builder.build_stray dialect.registry _
        (Item.ofTokens ⟨dialect.registry, document.location.file, source⟩ later)
        (last.location document.location.file)
        fun kind markup member => closesNone _ (lies.nameChars kind markup member)
      rw [List.append_assoc, List.cons_append] at member
      have ends : diagnostic.isAboutEnds = true := by simp [Diagnostic.isAboutEnds, code]
      exact ⟨diagnostic, (built.reported _ ends).2 member, code, line, column⟩

/-- A start tag and an end tag in different cases, with an entry in the one and a line break in the
other. -/
theorem closed_iff_plain_of_mixed_case :
    let dialect := Config.dialect {}
    let source := "<Script defer>x</SCRIPT\n>".toList
    let opening : Token := ⟨.tagOpen .element, "<Script".toList, ⟨0, 1, 1⟩, ⟨7, 1, 8⟩⟩
    let entry : Token := ⟨.attributeName .plain, "defer".toList, ⟨8, 1, 9⟩, ⟨13, 1, 14⟩⟩
    let closing : Token := ⟨.tagClose, ['>'], ⟨13, 1, 14⟩, ⟨14, 1, 15⟩⟩
    let rest := (scan dialect source).tokens.drop 3
    ∃ document, (parse dialect none source).outcome = .ok document ∧
      (scan dialect source).tokens = [] ++ opening :: ([entry] ++ closing :: rest) ∧
      RawStart opening [entry] closing ∧
      ∃ body last later, rest = body ++ last :: later ∧
        ReadRaw source (opening.value.drop 1) closing.stop.offset body last ∧
        (document.Encloses opening body last ↔
          Tag.endsPlainly (opening.value.drop 1) last.value = true) ∧
        (document.Reports .strayEndTag last ↔
          Tag.endsPlainly (opening.value.drop 1) last.value = false) ∧
        (Tag.endsPlainly (opening.value.drop 1) last.value = true →
          ¬ document.Reports .unclosedElement opening) := by
  intro dialect source opening entry closing rest
  obtain ⟨document, parsed⟩ := parse_of_read none (show (scan dialect source).fault = none by
    decide +kernel)
  have split : (scan dialect source).tokens = [] ++ opening :: ([entry] ++ closing :: rest) := by
    decide +kernel
  have start : RawStart opening [entry] closing :=
    ⟨⟨.element, rfl⟩, by decide +kernel, by simp [entry], rfl, rfl⟩
  exact ⟨document, parsed, split, start, closed_iff_plain parsed split start⟩

end BladeTemplate
