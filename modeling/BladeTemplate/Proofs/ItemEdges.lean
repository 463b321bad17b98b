import BladeTemplate.Proofs.Edges
import BladeTemplate.Proofs.Tiling

/-!
# Where items start and end

The edges of tokens are those of the items made from them. The body of an element that is not read
as markup comes right behind the start tag, and stops at the end tag.

* `Item.Edged` is what is known about a single item;
* `Item.Sequence` is what is known about items one after the other, and `sequence_scan` says that
  the items of a template are such a sequence.
-/

namespace BladeTemplate

open Text

/-- The name and the value of the entry end in their lines; a comment is all there is of its entry,
and ends in ink. -/
structure Attribute.Edged (entry : Attribute) : Prop where
  name : Snug entry.name
  value : ∀ value, entry.value = some value → EndsInLine value
  comment : entry.comment = true → EndsInked entry.name ∧ entry.echo = none ∧ entry.value = none

/-- What the kind of a region tells about its edges. Front matter stands at the start of a template.
Code that was left open may end in anything, and nothing is known about a body that is not read as
markup. -/
def RegionKind.Edged (kind : RegionKind) (location : Location) (content : Chars) : Prop :=
  match kind with
  | .rawText => True
  | .rawCode => StartsInked content ∧ (EndsInked content ∨ isOpenCode content = true)
  | .frontMatter => StartsInked content ∧ EndsInLine content ∧ location.offset = 0
  | .verbatim | .markupComment | .declaration => Firm content

/-- The written name of the directive is ink. -/
def Directive.Edged (directive : Directive) : Prop :=
  ∀ c ∈ directive.writtenName, isBlank c = false

/-- The tag whose body follows its start tag and is not read as markup. -/
def Markup.rawTag? (kind : TagKind) (markup : Markup) : Option Chars :=
  if kind = .element && Tag.isOneOf Tag.rawTextNames markup.tag && !markup.selfClosing then
    some markup.tag
  else none

namespace Item

/-- What is known about the edges of an item. -/
def Edged : Item → Prop
  | .text .. | .echo .. => True
  | .comment _ content | .endTag _ content => Firm content
  | .region location kind content => kind.Edged location content
  | .directive found => found.Edged
  | .startTag _ markup => ∀ entry ∈ markup.attributes, entry.Edged

/-- Where a body that is not read as markup stands. -/
def rawText? : Item → Option Location
  | .region location .rawText _ => some location
  | _ => none

/-- The tag whose body follows the item. -/
def rawTag? : Item → Option Chars
  | .startTag kind markup => markup.rawTag? kind
  | _ => none

/-- Items that follow a start tag, if its body is not read as markup: such a body comes right behind
its start tag, and stops at its end tag. -/
def Sequence (source : Chars) : Option Chars → List Item → Prop
  | _, [] => True
  | tag, item :: rest => item.Edged ∧
      (∀ location, item.rawText? = some location → ∃ name n, tag = some name ∧
        location.endOffset = (n : Nat) ∧ EndTagAhead source (lower name) n) ∧
      Sequence source item.rawTag? rest

variable {origin : Origin}

/-- An item that is not such a body may follow anything. -/
theorem Sequence.cons {source : Chars} {item : Item} {rest : List Item} (edged : item.Edged)
    (other : item.rawText? = none) (later : Sequence source item.rawTag? rest)
    (tag : Option Chars) : Sequence source tag (item :: rest) := by
  refine ⟨edged, ?_, later⟩
  intro location found
  rw [other] at found
  cases found

/-- Tokens that are put together to items, whatever stands before them. -/
def Follows (origin : Origin) (tokens : List Token) : Prop :=
  ∀ tag, Sequence origin.source tag (ofTokens origin tokens)

/-- The rest of a start tag of the given name, and items. -/
def TagFollows (origin : Origin) (name : Chars) (tokens : List Token) : Prop :=
  ∃ entries closing count, readEntries origin tokens = (entries, some closing, count) ∧
    (∀ entry ∈ entries, entry.Edged) ∧
    ∀ markup : Markup, markup.tag = name → markup.selfClosing = decide (closing.value = ['/', '>']) →
      Sequence origin.source (markup.rawTag? (Tag.kindOf name)) (ofTokens origin (tokens.drop count))

/-- What the tokens at each place of the grammar are put together to. -/
def Sequenced (origin : Origin) (tokens : List Token) : Place → Prop
  | .start | .content | .rawEnd => Follows origin tokens
  | .rawBody name => Sequence origin.source (some name) (ofTokens origin tokens)
  | .arguments => ∃ inside last count, readArguments tokens = some (inside, last, count) ∧
      Follows origin (tokens.drop count)
  | .tag name => TagFollows origin name tokens
  | .value name => ∃ token rest, tokens = token :: rest ∧ token.kind = .attributeValue ∧
      TagFollows origin name rest

theorem kindOf_of_rawText {name : Chars} (raw : Tag.isOneOf Tag.rawTextNames name = true) :
    Tag.kindOf name = .element := by
  unfold Tag.isOneOf at raw
  obtain ⟨known, member, same⟩ := List.any_eq_true.1 raw
  unfold Tag.kindOf
  rw [← of_decide_eq_true same]
  simp only [Tag.rawTextNames, List.mem_cons, List.not_mem_nil, or_false] at member
  rcases member with rfl | rfl | rfl | rfl <;> decide

section parts

variable {opening content closing : Token} {rest : List Token} {a b : Nat}

/-- A comment is firm, with its delimiters. -/
theorem firm_comment {source : Chars} (read : CommentAt source opening content closing a b) :
    Firm (cut source a b) := by
  obtain ⟨m, n, first, second, third⟩ := read.placed
  have am := first.ordered
  have mn := second.ordered
  have nb := third.ordered
  have whole : cut source a b = commentOpener ++ cut source m n ++ commentCloser := by
    rw [← read.opener, ← read.closer, first.value, third.value, cut_append _ am mn,
      cut_append _ (Nat.le_trans am mn) nb]
  rw [whole]
  exact ⟨⟨'{', _, rfl, by decide⟩, .after _ ⟨['-', '-', '}'], '}', rfl, by decide⟩⟩

theorem edged_commentEntry {location : Location} (firm : Firm (location.slice origin.source)) :
    (commentEntry origin location).Edged :=
  ⟨firm.snug, by simp [commentEntry], fun _ => ⟨firm.ends, rfl, rfl⟩⟩

/-- A part of a start tag, and the rest of the tag after it. -/
theorem TagFollows.cons {name : Chars} {entry : Attribute} {used : Nat} {tokens rest : List Token}
    (edged : entry.Edged) (read : ReadsEntry origin tokens entry used rest)
    (later : TagFollows origin name rest) : TagFollows origin name tokens := by
  obtain ⟨entries, closing, count, found, each, follows⟩ := later
  obtain ⟨whole, behind⟩ := read.cons _ found
  exact ⟨entry :: entries, closing, used + count, whole, List.forall_mem_cons.2 ⟨edged, each⟩,
    behind ▸ follows⟩

/-- The end of a start tag. What follows depends on whether a body follows that is not read as
markup. -/
theorem TagFollows.close {name : Chars} (kind : closing.kind = .tagClose)
    (later : ∀ markup : Markup, markup.tag = name →
      markup.selfClosing = decide (closing.value = ['/', '>']) →
      Sequence origin.source (markup.rawTag? (Tag.kindOf name)) (ofTokens origin rest)) :
    TagFollows origin name (closing :: rest) :=
  ⟨[], closing, 1, readEntries_close origin rest kind, by simp, later⟩

/-- The entry of an echo is the ink of its delimiters, with anything between them. -/
theorem edged_echoEntry {style : EchoStyle}
    (read : EchoAt origin.source style opening content closing a b) :
    (echoEntry origin ⟨span origin opening closing, content.value, style = .raw⟩).Edged := by
  have written := written_echo read
  refine ⟨?_, by simp [echoEntry], by simp [echoEntry]⟩
  show Snug (Location.slice _ _)
  rw [written.spans.slice, written.shape]
  refine Firm.snug ⟨?_, (endsInked_closer _).after _⟩
  rw [List.append_assoc]
  exact (startsInked_opener _).before _

/-- A region other than such a body, and what follows it. -/
theorem follows_region {token : Token} (held : RegionKind)
    (kind : regionKind? token.kind = some held) (other : held ≠ .rawText)
    (edged : held.Edged (token.location origin.file) token.value) (later : Follows origin rest) :
    Follows origin (token :: rest) := by
  unfold Follows
  rw [ofTokens_region origin _ kind]
  refine Sequence.cons edged ?_ (later _)
  unfold rawText?
  split
  · next same =>
    cases same
    exact absurd rfl other
  · rfl

theorem follows_leaf {token : Token} (leaf : token.kind.isLeaf = true)
    (edged : token.Edged origin.source) (later : Follows origin rest) :
    Follows origin (token :: rest) := by
  unfold Token.Edged at edged
  cases kind : token.kind with
  | text =>
    unfold Follows
    rw [ofTokens_text origin _ kind]
    exact Sequence.cons trivial rfl (later _)
  | markupComment =>
    rw [kind] at edged
    exact follows_region .markupComment (by rw [kind]; rfl) (by simp) edged later
  | declaration =>
    rw [kind] at edged
    exact follows_region .declaration (by rw [kind]; rfl) (by simp) edged later
  | verbatim =>
    rw [kind] at edged
    exact follows_region .verbatim (by rw [kind]; rfl) (by simp) edged later
  | rawCode =>
    rw [kind] at edged
    exact follows_region .rawCode (by rw [kind]; rfl) (by simp) edged later
  | _ => simp [kind, TokenKind.isLeaf] at leaf

theorem follows_endTag {token : Token} {kind : TagKind} {inside : Chars}
    (ends : token.kind = .endTag kind) (value : token.value = ['<', '/'] ++ inside ++ ['>'])
    (later : Follows origin rest) : Follows origin (token :: rest) := by
  unfold Follows
  rw [ofTokens_endTag origin _ ends]
  refine Sequence.cons ?_ rfl (later _)
  show Firm token.value
  rw [value]
  exact ⟨⟨'<', _, rfl, by decide⟩, .after _ ⟨[], '>', rfl, by decide⟩⟩

/-- A directive, and what follows it. -/
theorem follows_directive {token last : Token} {inside : Option Chars} {items : List Item}
    (kind : token.kind = .directiveName) (edged : token.Edged origin.source)
    (later : ∀ tag, Sequence origin.source tag items) (tag : Option Chars) :
    Sequence origin.source tag (.directive (directiveOf origin token last inside) :: items) := by
  unfold Token.Edged at edged
  rw [kind] at edged
  refine Sequence.cons ?_ rfl (later _) tag
  exact fun c member => edged c (List.mem_of_mem_drop member)

/-- A start tag, and what follows it. -/
theorem follows_startTag {name : Chars} (kind : opening.kind = .tagOpen (Tag.kindOf name))
    (value : opening.value = '<' :: name) (later : TagFollows origin name rest) :
    Follows origin (opening :: rest) := by
  obtain ⟨entries, closing, count, read, each, follows⟩ := later
  intro tag
  rw [ofTokens_startMarkup origin rest kind read]
  refine Sequence.cons ?_ rfl (follows _ ?_ rfl) tag
  · exact each
  · show opening.value.drop 1 = name
    rw [value]
    rfl

/-- A body that is not read as markup, up to its end tag, and what follows it. -/
theorem sequence_rawText {name : Chars} {token : Token} (kind : token.kind = .rawText (lower name))
    (edged : token.Edged origin.source) (later : Follows origin rest) :
    Sequence origin.source (some name) (ofTokens origin (token :: rest)) := by
  unfold Token.Edged at edged
  rw [kind] at edged
  rw [ofTokens_region origin _ (by rw [kind]; rfl)]
  refine ⟨trivial, ?_, later _⟩
  rintro _ ⟨⟩
  exact ⟨name, token.stop.offset, rfl, rfl, edged⟩

/-- Such a body follows a start tag of such a name that does not close itself. -/
theorem rawTag?_of_raw {markup : Markup} (raw : Tag.isOneOf Tag.rawTextNames markup.tag = true)
    (plain : markup.selfClosing = false) :
    markup.rawTag? (Tag.kindOf markup.tag) = some markup.tag := by
  simp [Markup.rawTag?, kindOf_of_rawText raw, raw, plain]

end parts

/-- The tokens of the grammar are put together to a sequence of items. -/
theorem sequenced_of_reads {place : Place} {n : Nat} {tokens : List Token}
    (reads : Reads origin.source false place n tokens) :
    (∀ token ∈ tokens, token.Edged origin.source) → Sequenced origin tokens place := by
  induction reads with
  | eof _ kind =>
    intro _ tag
    rw [ofTokens_eof origin _ kind]
    trivial
  | stop cut => cases cut
  | @front n m token rest kind placed _ _ ih =>
    intro edged
    obtain ⟨first, later⟩ := List.forall_mem_cons.1 edged
    unfold Token.Edged at first
    rw [kind] at first
    exact follows_region .frontMatter (by rw [kind]; rfl) (by simp)
      ⟨first.1, first.2.1, congrArg Nat.cast first.2.2⟩ (ih later)
  | noFront _ ih => exact ih
  | leaf leaf _ _ _ ih =>
    intro edged
    obtain ⟨first, later⟩ := List.forall_mem_cons.1 edged
    exact follows_leaf leaf first (ih later)
  | endTag _ kind _ value _ _ ih | rawEnd _ kind _ value _ _ ih =>
    intro edged
    exact follows_endTag kind value (ih (List.forall_mem_cons.1 edged).2)
  | echo read _ ih =>
    intro edged tag
    simp only [List.forall_mem_cons] at edged
    rw [ofTokens_echoTokens origin _ read.openingKind read.contentKind read.closingKind]
    refine Sequence.cons ?_ rfl (ih edged.2.2.2 _) tag
    trivial
  | comment read _ ih =>
    intro edged tag
    simp only [List.forall_mem_cons] at edged
    rw [ofTokens_commentTokens origin _ read.openingKind read.contentKind read.closingKind,
      (spans_comment read).slice]
    refine Sequence.cons ?_ rfl (ih edged.2.2.2 _) tag
    exact firm_comment read
  | directive kind _ _ reads ih =>
    intro edged tag
    obtain ⟨first, later⟩ := List.forall_mem_cons.1 edged
    rw [ofTokens_bare origin _ kind (nextIs_argumentsOpen reads)]
    exact follows_directive kind first (ih later) tag
  | directiveWith kind _ _ _ _ ih =>
    intro edged tag
    obtain ⟨first, later⟩ := List.forall_mem_cons.1 edged
    obtain ⟨inside, last, count, found, follows⟩ := ih later
    rw [ofTokens_called origin _ kind found]
    exact follows_directive kind first follows tag
  | noArguments openKind _ _ closeKind _ _ _ ih =>
    intro edged
    simp only [List.forall_mem_cons] at edged
    exact ⟨_, _, _, readArguments_empty _ openKind closeKind, ih edged.2.2⟩
  | arguments openKind _ _ insideKind _ closeKind _ _ _ ih =>
    intro edged
    simp only [List.forall_mem_cons] at edged
    exact ⟨_, _, _, readArguments_inside _ openKind insideKind closeKind, ih edged.2.2.2⟩
  | tagOpen kind _ value _ _ _ ih =>
    intro edged
    exact follows_startTag kind value (ih (List.forall_mem_cons.1 edged).2)
  | tagClose _ kind _ _ _ ih =>
    intro edged
    exact .close kind fun _ _ _ => ih (List.forall_mem_cons.1 edged).2 _
  | rawOpen _ kind _ value raw _ ih =>
    intro edged
    refine .close kind ?_
    rintro markup rfl selfClosing
    rw [rawTag?_of_raw raw (by simp [selfClosing, value])]
    exact ih (List.forall_mem_cons.1 edged).2
  | rawText kind _ _ _ ih =>
    intro edged
    obtain ⟨first, later⟩ := List.forall_mem_cons.1 edged
    exact sequence_rawText kind first (ih later)
  | noRawText _ ih =>
    intro edged
    exact ih edged _
  -- The parts of start tags: each is one entry.
  | tagEcho _ read _ ih =>
    intro edged
    simp only [List.forall_mem_cons] at edged
    exact .cons (edged_echoEntry read)
      (readsEntry_echo origin _ read.openingKind read.contentKind read.closingKind)
      (ih edged.2.2.2)
  | tagComment _ read _ ih =>
    intro edged
    simp only [List.forall_mem_cons] at edged
    refine .cons (edged_commentEntry ?_)
      (readsEntry_comment origin _ read.openingKind read.contentKind read.closingKind)
      (ih edged.2.2.2)
    rw [(spans_comment read).slice]
    exact firm_comment read
  | entry _ nameKind _ reads ih =>
    intro edged
    obtain ⟨first, later⟩ := List.forall_mem_cons.1 edged
    unfold Token.Edged at first
    rw [nameKind] at first
    exact .cons ⟨first, by simp [readAttribute], by simp [readAttribute]⟩
      (readsEntry_bare origin _ nameKind (nextIs_attributeValue reads)) (ih later)
  | entryWith _ nameKind _ _ _ ih =>
    intro edged
    obtain ⟨first, later⟩ := List.forall_mem_cons.1 edged
    obtain ⟨value, more, rfl, valueKind, follows⟩ := ih later
    have ends := later value List.mem_cons_self
    unfold Token.Edged at first ends
    rw [nameKind] at first
    rw [valueKind] at ends
    exact .cons ⟨first, by rintro _ ⟨⟩; exact ends, by simp [readAttribute]⟩
      (readsEntry_valued origin _ nameKind valueKind) follows
  | value kind _ _ ih =>
    intro edged
    exact ⟨_, _, rfl, kind, ih (List.forall_mem_cons.1 edged).2⟩

end Item

/-- The items of a template that reads without fault are such a sequence. -/
theorem sequence_scan (dialect : Dialect) (file : Option String) (source : Chars)
    (read : (scan dialect source).fault = none) :
    Item.Sequence source none
      (Item.ofTokens ⟨dialect.registry, file, source⟩ (scan dialect source).tokens) := by
  have reads := reads_scan dialect source
  rw [read] at reads
  exact @Item.sequenced_of_reads ⟨dialect.registry, file, source⟩ _ _ _ reads
    (edged_scan dialect source) none

end BladeTemplate
