import BladeTemplate.Layout.Print
import BladeTemplate.Proofs.Ink
import BladeTemplate.Proofs.Reading
import BladeTemplate.Tree.Item

/-!
# Items tile the template

Put together, the tokens of a template are items without a gap between them: each starts where the
one before it ends, the first at the start of the template, the last at its end.

* `Tiles` is a list of things laid end to end;
* `Item.Covers` says what an item tells about the part of the template it stands for;
* `tiles_ofTokens` is the tiling.
-/

namespace BladeTemplate

open Text

/-- Things laid end to end from one offset to another. -/
inductive Tiles {α : Type} (covers : α → Nat → Nat → Prop) : List α → Nat → Nat → Prop
  | nil (n : Nat) : Tiles covers [] n n
  | cons {x : α} {xs : List α} {a b c : Nat} : covers x a b → Tiles covers xs b c →
      Tiles covers (x :: xs) a c

namespace Tiles

variable {α : Type} {covers : α → Nat → Nat → Prop}

theorem append {xs ys : List α} {a b c : Nat} (first : Tiles covers xs a b)
    (second : Tiles covers ys b c) : Tiles covers (xs ++ ys) a c := by
  induction first with
  | nil => exact second
  | cons covered _ ih => exact .cons covered (ih second)

theorem single {x : α} {a b : Nat} (covered : covers x a b) : Tiles covers [x] a b :=
  .cons covered (.nil b)

end Tiles

/-! ## What is known about an item -/

/-- The directive is what stands from one offset to another: its name, and its argument list with
spaces before it. -/
structure Directive.Written (source : Chars) (directive : Directive) (first last : Nat) : Prop where
  spans : directive.location.Spans first last
  text : directive.source = cut source first last
  shape :
    (directive.arguments = none ∧ cut source first last = '@' :: directive.writtenName) ∨
    ∃ gap inside, directive.arguments = some inside ∧ (∀ c ∈ gap, isInlineSpace c = true) ∧
      cut source first last = '@' :: directive.writtenName ++ gap ++ ['('] ++ inside ++ [')']

/-- The echo is what stands from one offset to another. -/
structure Echo.Written (source : Chars) (echo : Echo) (first last : Nat) : Prop where
  spans : echo.location.Spans first last
  shape : cut source first last = echo.style.opener ++ echo.expression ++ echo.style.closer

/-- The entry of a start tag is what stands from one offset to another: an echo, a name alone, or a
name, an equals sign and a value. -/
inductive Attribute.Written (source : Chars) (entry : Attribute) : Nat → Nat → Prop
  | echo {read : Echo} {a b : Nat} : entry.location.Spans a b → entry.echo = some read →
      read.Written source a b → entry.name = cut source a b → entry.value = none →
      Written source entry a b
  | bare {a b : Nat} : entry.location.Spans a b → entry.echo = none →
      entry.name = cut source a b → entry.value = none → Written source entry a b
  | valued {a m n b : Nat} : entry.location.Spans a b → entry.echo = none → a ≤ m →
      entry.name = cut source a m → EqualsGap source m n → n ≤ b →
      entry.value = some (cut source n b) → Written source entry a b

/-- Entries of a start tag one after the other, with white space before each of them. -/
inductive Attribute.Spaced (source : Chars) : List Attribute → Nat → Nat → Prop
  | nil (n : Nat) : Spaced source [] n n
  | cons {entry : Attribute} {entries : List Attribute} {a b c d : Nat} : TagGap source a b →
      entry.Written source b c → Spaced source entries c d →
      Spaced source (entry :: entries) a d

/-- The ink of a start tag. -/
def Markup.openingInk (markup : Markup) : Chars :=
  '<' :: markup.tag ++
    markup.attributes.flatMap (fun entry => squeeze (Page.attributeText entry)) ++
    Page.tagEnd markup

/-- The start tag is what stands from one offset to another: an angle bracket and the name, the
entries, and the end of the tag with white space before it. -/
structure Markup.Opens (source : Chars) (markup : Markup) (first last : Nat) : Prop where
  named : markup.tag ≠ []
  nameChars : ∀ c ∈ markup.tag, Tag.isNameChar c = true
  parts : ∃ name entries close, first ≤ name ∧ cut source first name = '<' :: markup.tag ∧
    Attribute.Spaced source markup.attributes name entries ∧ TagGap source entries close ∧
    close ≤ last ∧ cut source close last = Page.tagEnd markup

/-- The item is what stands from one offset to another. -/
inductive Item.Covers (source : Chars) : Item → Nat → Nat → Prop
  | text {location : Location} {a b : Nat} : location.Spans a b → a < b →
      Covers source (.text location (cut source a b)) a b
  | echo {read : Echo} {a b : Nat} : read.Written source a b → Covers source (.echo read) a b
  | comment {location : Location} {a b : Nat} : location.Spans a b → a < b →
      Covers source (.comment location (cut source a b)) a b
  | region {location : Location} {kind : RegionKind} {a b : Nat} : location.Spans a b → a < b →
      Covers source (.region location kind (cut source a b)) a b
  | directive {read : Directive} {a b : Nat} : read.Written source a b →
      read.registered = false → Covers source (.directive read) a b
  | startTag {kind : TagKind} {markup : Markup} {a b : Nat} : kind = Tag.kindOf markup.tag →
      markup.location.Spans a b → markup.Opens source a b → markup.closed = true →
      markup.endTag = none → Covers source (.startTag kind markup) a b
  | endTag {location : Location} {a b : Nat} (inside : Chars) : location.Spans a b →
      cut source a b = ['<', '/'] ++ inside ++ ['>'] → '>' ∉ inside →
      Covers source (.endTag location (cut source a b)) a b

/-! ## The parts of start tags -/

theorem Attribute.Written.ordered {source : Chars} {entry : Attribute} {a b : Nat}
    (written : entry.Written source a b) : a ≤ b := by
  cases written with
  | echo spans => exact spans.ordered
  | bare spans => exact spans.ordered
  | valued spans => exact spans.ordered

theorem Attribute.Spaced.ordered {source : Chars} {entries : List Attribute} {a b : Nat}
    (spaced : Attribute.Spaced source entries a b) : a ≤ b := by
  induction spaced with
  | nil => exact Nat.le_refl _
  | cons gap written _ ih =>
    have first := gap.ordered
    have second := written.ordered
    omega

theorem CommentAt.nonempty {source : Chars} {opening content closing : Token} {a b : Nat}
    (read : CommentAt source opening content closing a b) : a < b := by
  obtain ⟨m, n, first, second, third⟩ := read.placed
  have some : a < m := by
    apply lt_of_cut_ne_nil
    rw [← first.value, read.opener]
    exact List.cons_ne_nil _ _
  have mn := second.ordered
  have nb := third.ordered
  omega

theorem toNat_of_nameChar {c : Char} (named : Tag.isNameChar c = true) : c.toNat < 0x80 := by
  simp only [Tag.isNameChar, Bool.or_eq_true, decide_eq_true_eq] at named
  rcases named with (((alphanum | rfl) | rfl) | rfl) | rfl
  · exact toNat_of_isAlphanum alphanum
  all_goals decide

theorem isBlank_of_nameChar {c : Char} (named : Tag.isNameChar c = true) : isBlank c = false :=
  of_ascii (fun c => Tag.isNameChar c = true → isBlank c = false) (by decide)
    (toNat_of_nameChar named) named

theorem blank_of_tagSpace {c : Char} (space : isTagSpace c = true) : isBlank c = true := by
  simp only [isTagSpace, Bool.or_eq_true, decide_eq_true_eq] at space
  rcases space with (((rfl | rfl) | rfl) | rfl) | rfl <;> decide

theorem squeeze_tagGap {source : Chars} {m n : Nat} (gap : TagGap source m n) :
    squeeze (cut source m n) = [] := by
  refine squeeze_of_blank (List.all_eq_true.2 ?_)
  intro c member
  exact blank_of_tagSpace (gap.spaces c member)

theorem squeeze_equalsGap {source : Chars} {m n : Nat} (gap : EqualsGap source m n) :
    squeeze (cut source m n) = ['='] := by
  obtain ⟨sign, before, equals, after⟩ := gap.parts
  have first := before.ordered
  have last := after.ordered
  rw [← cut_append source first (by omega : sign ≤ n),
    ← cut_append source (by omega : sign ≤ sign + 1) last, squeeze_append, squeeze_append,
    squeeze_tagGap before, squeeze_tagGap after, equals]
  rfl

/-- White space around an equals sign leaves no ink. -/
theorem Attribute.Written.ink {source : Chars} {entry : Attribute} {a b : Nat}
    (written : entry.Written source a b) :
    squeeze (cut source a b) = squeeze (Page.attributeText entry) := by
  cases written with
  | echo _ found read => simp [Page.attributeText, found, read.shape]
  | bare _ plain name noValue => simp [Page.attributeText, plain, noValue, name]
  | @valued _ m n _ _ plain am name gap nb value =>
    have mn := gap.ordered
    rw [← cut_append _ am (by omega : m ≤ b), ← cut_append _ mn nb, ← name, squeeze_append,
      squeeze_append, squeeze_equalsGap gap]
    simp [Page.attributeText, plain, value,
      squeeze_cons_of_inked (by decide : isBlank '=' = false)]

theorem Attribute.Spaced.ink {source : Chars} {entries : List Attribute} {a b : Nat}
    (spaced : Attribute.Spaced source entries a b) :
    squeeze (cut source a b) =
      entries.flatMap fun entry => squeeze (Page.attributeText entry) := by
  induction spaced with
  | nil => simp
  | @cons entry entries a b c d gap written later ih =>
    have ab := gap.ordered
    have bc := written.ordered
    have cd := later.ordered
    rw [← cut_append _ ab (by omega : b ≤ d), ← cut_append _ bc cd, squeeze_append, squeeze_append,
      squeeze_tagGap gap, written.ink, ih]
    rfl

namespace Markup

variable {source : Chars} {markup : Markup} {a b : Nat}

theorem Opens.nonempty (opens : markup.Opens source a b) : a < b := by
  obtain ⟨name, entries, close, _, bracket, spaced, gap, last, _⟩ := opens.parts
  have first : a < name := by
    apply lt_of_cut_ne_nil
    rw [bracket]
    exact List.cons_ne_nil _ _
  have middle := spaced.ordered
  have space := gap.ordered
  omega

theorem Opens.ordered (opens : markup.Opens source a b) : a ≤ b :=
  Nat.le_of_lt opens.nonempty

/-- A start tag is the ink of its name, its entries and its end. -/
theorem Opens.ink (opens : markup.Opens source a b) :
    squeeze (cut source a b) = markup.openingInk := by
  obtain ⟨name, entries, close, first, bracket, spaced, gap, last, ends⟩ := opens.parts
  have middle := spaced.ordered
  have space := gap.ordered
  have inked : squeeze ('<' :: markup.tag) = '<' :: markup.tag := by
    refine squeeze_of_inked ?_
    intro c member
    rcases List.mem_cons.1 member with rfl | inName
    · decide
    · exact isBlank_of_nameChar (opens.nameChars c inName)
  have closing : squeeze (Page.tagEnd markup) = Page.tagEnd markup := by
    unfold Page.tagEnd
    split <;> decide
  rw [← cut_append _ first (by omega : name ≤ b), ← cut_append _ middle (by omega : entries ≤ b),
    ← cut_append _ space last, squeeze_append, squeeze_append, squeeze_append, squeeze_tagGap gap,
    bracket, inked, spaced.ink, ends, closing]
  unfold openingInk
  simp

end Markup

/-! ## Putting tokens together -/

namespace Item

section equations

variable (origin : Origin) {token : Token} (rest : List Token)

theorem ofTokens_eof (kind : token.kind = .eof) : ofTokens origin (token :: rest) = [] := by
  rw [ofTokens]
  simp only [kind]

theorem ofTokens_directive (kind : token.kind = .directiveName) :
    ofTokens origin (token :: rest) =
      .directive (readDirective origin token rest).1 ::
        ofTokens origin (rest.drop (readDirective origin token rest).2) := by
  rw [ofTokens]
  simp only [kind]

theorem ofTokens_echo {style : EchoStyle} (kind : token.kind = .echoOpen style) :
    ofTokens origin (token :: rest) =
      .echo (readEcho origin style token rest).1 ::
        ofTokens origin (rest.drop (readEcho origin style token rest).2) := by
  rw [ofTokens]
  simp only [kind]

theorem ofTokens_comment (kind : token.kind = .commentOpen) :
    ofTokens origin (token :: rest) =
      .comment (readComment origin token rest).1
        ((readComment origin token rest).1.slice origin.source) ::
        ofTokens origin (rest.drop (readComment origin token rest).2) := by
  rw [ofTokens]
  simp only [kind]

theorem ofTokens_startTag {tag : TagKind} (kind : token.kind = .tagOpen tag) :
    ofTokens origin (token :: rest) =
      .startTag tag (readStartTag origin token rest).1 ::
        ofTokens origin (rest.drop (readStartTag origin token rest).2) := by
  rw [ofTokens]
  simp only [kind]

theorem ofTokens_endTag {tag : TagKind} (kind : token.kind = .endTag tag) :
    ofTokens origin (token :: rest) =
      .endTag (token.location origin.file) token.value :: ofTokens origin rest := by
  rw [ofTokens]
  simp only [kind]

theorem ofTokens_region {held : RegionKind} (kind : regionKind? token.kind = some held) :
    ofTokens origin (token :: rest) =
      .region (token.location origin.file) held token.value :: ofTokens origin rest := by
  rw [ofTokens]
  cases found : token.kind <;> simp [found, regionKind?] at kind ⊢ <;> exact kind

theorem ofTokens_text (kind : token.kind = .text) :
    ofTokens origin (token :: rest) =
      .text (token.location origin.file) token.value :: ofTokens origin rest := by
  rw [ofTokens]
  simp only [kind, regionKind?]

end equations

section constructs

variable (origin : Origin) {opening content inside closing name : Token} (rest : List Token)

theorem readEcho_of_kinds {style : EchoStyle} (second : content.kind = .echoContent style)
    (third : closing.kind = .echoClose style) :
    readEcho origin style opening (content :: closing :: rest) =
      (⟨span origin opening closing, content.value, style = .raw⟩, 2) := by
  simp [readEcho, nextIs, second, third]

theorem readComment_of_kinds (second : content.kind = .commentContent)
    (third : closing.kind = .commentClose) :
    readComment origin opening (content :: closing :: rest) = (span origin opening closing, 2) := by
  simp [readComment, nextIs, second, third]

theorem ofTokens_echoTokens {style : EchoStyle} (first : opening.kind = .echoOpen style)
    (second : content.kind = .echoContent style) (third : closing.kind = .echoClose style) :
    ofTokens origin (opening :: content :: closing :: rest) =
      .echo ⟨span origin opening closing, content.value, style = .raw⟩ :: ofTokens origin rest := by
  rw [ofTokens_echo origin _ first, readEcho_of_kinds origin rest second third]
  rfl

theorem ofTokens_commentTokens (first : opening.kind = .commentOpen)
    (second : content.kind = .commentContent) (third : closing.kind = .commentClose) :
    ofTokens origin (opening :: content :: closing :: rest) =
      .comment (span origin opening closing) ((span origin opening closing).slice origin.source) ::
        ofTokens origin rest := by
  rw [ofTokens_comment origin _ first, readComment_of_kinds origin rest second third]
  rfl

/-! ### Directives -/

/-- The directive from its name to its last token, with what is inside its argument list if there is
one. -/
def directiveOf (origin : Origin) (name last : Token) (inside : Option Chars) : Directive where
  location := span origin name last
  name := name.value.drop 1
  writtenName := name.value.drop 1
  arguments := inside
  source := (span origin name last).slice origin.source

theorem readArguments_none (alone : nextIs .argumentsOpen rest = none) :
    readArguments rest = none := by
  simp [readArguments, alone]

theorem readArguments_empty (first : opening.kind = .argumentsOpen)
    (second : closing.kind = .argumentsClose) :
    readArguments (opening :: closing :: rest) = some ([], closing, 2) := by
  simp [readArguments, nextIs, first, second]

theorem readArguments_inside (first : opening.kind = .argumentsOpen)
    (second : inside.kind = .arguments) (third : closing.kind = .argumentsClose) :
    readArguments (opening :: inside :: closing :: rest) = some (inside.value, closing, 3) := by
  simp [readArguments, nextIs, first, second, third]

theorem readDirective_bare (alone : nextIs .argumentsOpen rest = none) :
    readDirective origin name rest = (directiveOf origin name name none, 0) := by
  simp [readDirective, readArguments_none rest alone, directiveOf]

theorem readDirective_called {text : Chars} {last : Token} {count : Nat}
    (read : readArguments rest = some (text, last, count)) :
    readDirective origin name rest = (directiveOf origin name last (some text), count) := by
  simp [readDirective, read, directiveOf]

theorem ofTokens_bare (kind : name.kind = .directiveName)
    (alone : nextIs .argumentsOpen rest = none) :
    ofTokens origin (name :: rest) =
      .directive (directiveOf origin name name none) :: ofTokens origin rest := by
  rw [ofTokens_directive origin _ kind, readDirective_bare origin rest alone]
  rfl

theorem ofTokens_called (kind : name.kind = .directiveName) {text : Chars} {last : Token}
    {count : Nat} (read : readArguments rest = some (text, last, count)) :
    ofTokens origin (name :: rest) =
      .directive (directiveOf origin name last (some text)) :: ofTokens origin (rest.drop count) := by
  rw [ofTokens_directive origin _ kind, readDirective_called origin rest read]

/-! ### Entries of start tags -/

theorem readEntries_close (kind : closing.kind = .tagClose) :
    readEntries origin (closing :: rest) = ([], some closing, 1) := by
  rw [readEntries]
  simp only [kind]

/-- The first tokens are an entry of a start tag, and the rest of the tag is behind them. -/
structure ReadsEntry (origin : Origin) (tokens : List Token) (entry : Attribute) (used : Nat)
    (rest : List Token) : Prop where
  behind : tokens.drop used = rest
  entries : readEntries origin tokens = (entry :: (readEntries origin rest).1,
    (readEntries origin rest).2.1, used + (readEntries origin rest).2.2)

/-- An entry comes in front of those that are read behind it. -/
theorem ReadsEntry.cons {tokens rest : List Token} {entry : Attribute} {used count : Nat}
    {entries : List Attribute} {last : Option Token}
    (read : ReadsEntry origin tokens entry used rest)
    (later : readEntries origin rest = (entries, last, count)) :
    readEntries origin tokens = (entry :: entries, last, used + count) ∧
      tokens.drop (used + count) = rest.drop count := by
  rw [read.entries, later, ← List.drop_drop, read.behind]
  exact ⟨rfl, rfl⟩

theorem readsEntry_attribute {kind : AttributeKind} {value : Option Token}
    (named : name.kind = .attributeName kind)
    (next : nextIs .attributeValue (value.toList ++ rest) = value) :
    ReadsEntry origin (name :: (value.toList ++ rest)) (readAttribute origin kind name value)
      (1 + value.toList.length) rest where
  behind := by rw [Nat.add_comm, List.drop_succ_cons, List.drop_left]
  entries := by
    rw [readEntries]
    simp only [named, next, List.drop_left]

theorem readsEntry_bare {kind : AttributeKind} (named : name.kind = .attributeName kind)
    (alone : nextIs .attributeValue rest = none) :
    ReadsEntry origin (name :: rest) (readAttribute origin kind name none) 1 rest :=
  @readsEntry_attribute origin name rest kind none named alone

theorem readsEntry_valued {kind : AttributeKind} {value : Token}
    (named : name.kind = .attributeName kind) (valued : value.kind = .attributeValue) :
    ReadsEntry origin (name :: value :: rest) (readAttribute origin kind name (some value)) 2 rest :=
  @readsEntry_attribute origin name rest kind (some value) named (if_pos valued)

theorem readsEntry_echo {style : EchoStyle} (first : opening.kind = .echoOpen style)
    (second : content.kind = .echoContent style) (third : closing.kind = .echoClose style) :
    ReadsEntry origin (opening :: content :: closing :: rest)
      (echoEntry origin ⟨span origin opening closing, content.value, style = .raw⟩) 3 rest where
  behind := rfl
  entries := by
    rw [readEntries]
    simp only [first, readEcho_of_kinds origin rest second third]
    rfl

theorem readsEntry_comment (first : opening.kind = .commentOpen)
    (second : content.kind = .commentContent) (third : closing.kind = .commentClose) :
    ReadsEntry origin (opening :: content :: closing :: rest)
      (commentEntry origin (span origin opening closing)) 3 rest where
  behind := rfl
  entries := by
    rw [readEntries]
    simp only [first, readComment_of_kinds origin rest second third]
    rfl

/-- The markup of a start tag between its first token and its last one. -/
def startMarkup (origin : Origin) (opening closing : Token) (attributes : List Attribute) :
    Markup where
  location := span origin opening closing
  tag := opening.value.drop 1
  attributes := attributes
  selfClosing := closing.value = ['/', '>']

theorem ofTokens_startMarkup {kind : TagKind} (opens : opening.kind = .tagOpen kind)
    {attributes : List Attribute} {count : Nat}
    (read : readEntries origin rest = (attributes, some closing, count)) :
    ofTokens origin (opening :: rest) =
      .startTag kind (startMarkup origin opening closing attributes) ::
        ofTokens origin (rest.drop count) := by
  rw [ofTokens_startTag origin _ opens]
  simp only [readStartTag, read, startMarkup, Option.getD_some, Option.map_some, Option.some.injEq]

end constructs

/-- Tokens that start with an argument list and go on with items. -/
def TilesArguments (origin : Origin) (n : Nat) (tokens : List Token) : Prop :=
  ∃ inside last count a m, readArguments tokens = some (inside, last, count) ∧
    last.At origin.source a m ∧ n ≤ m ∧ cut origin.source n m = ['('] ++ inside ++ [')'] ∧
    Tiles (Covers origin.source) (ofTokens origin (tokens.drop count)) m origin.source.length

/-- Tokens that start with the rest of a start tag and go on with items. -/
def TilesTag (origin : Origin) (n : Nat) (tokens : List Token) : Prop :=
  ∃ entries closing count a b m, readEntries origin tokens = (entries, some closing, count) ∧
    Attribute.Spaced origin.source entries n a ∧ TagGap origin.source a b ∧
    closing.At origin.source b m ∧ (closing.value = ['>'] ∨ closing.value = ['/', '>']) ∧
    Tiles (Covers origin.source) (ofTokens origin (tokens.drop count)) m origin.source.length

/-- What the tokens at each place of the grammar are put together to. -/
def Tiled (origin : Origin) (n : Nat) (tokens : List Token) : Place → Prop
  | .start | .content | .rawBody _ | .rawEnd =>
    Tiles (Covers origin.source) (ofTokens origin tokens) n origin.source.length
  | .arguments => TilesArguments origin n tokens
  | .tag _ => TilesTag origin n tokens
  | .value _ => ∃ token rest m, tokens = token :: rest ∧ token.kind = .attributeValue ∧
      token.At origin.source n m ∧ TilesTag origin m rest

theorem nextIs_argumentsOpen {source : Chars} {faulted : Bool} {n : Nat} {tokens : List Token}
    (reads : Reads source faulted .content n tokens) : nextIs .argumentsOpen tokens = none := by
  cases reads with
  | eof _ kind => simp [nextIs, kind]
  | stop => rfl
  | leaf kind =>
    refine if_neg ?_
    intro same
    rw [same] at kind
    cases kind
  | endTag _ kind => simp [nextIs, kind]
  | echo read => simp [nextIs, read.openingKind]
  | comment read => simp [nextIs, read.openingKind]
  | directive kind => simp [nextIs, kind]
  | directiveWith kind => simp [nextIs, kind]
  | tagOpen kind => simp [nextIs, kind]

theorem nextIs_attributeValue {source name : Chars} {faulted : Bool} {n : Nat}
    {tokens : List Token} (reads : Reads source faulted (.tag name) n tokens) :
    nextIs .attributeValue tokens = none := by
  cases reads with
  | stop => rfl
  | tagClose _ kind => simp [nextIs, kind]
  | rawOpen _ kind => simp [nextIs, kind]
  | tagEcho _ read => simp [nextIs, read.openingKind]
  | tagComment _ read => simp [nextIs, read.openingKind]
  | entry _ kind => simp [nextIs, kind]
  | entryWith _ kind => simp [nextIs, kind]

section parts

variable {origin : Origin} {opening content closing : Token} {rest : List Token} {a b : Nat}

theorem written_echo {style : EchoStyle}
    (read : EchoAt origin.source style opening content closing a b) :
    Echo.Written origin.source ⟨span origin opening closing, content.value, style = .raw⟩ a b := by
  obtain ⟨m, n, first, second, third⟩ := read.placed
  have same : Echo.style ⟨span origin opening closing, content.value, style = .raw⟩ = style := by
    cases style <;> rfl
  have am := first.ordered
  have mn := second.ordered
  have nb := third.ordered
  refine ⟨(first.spans _).spanTo (third.spans _) (by omega), ?_⟩
  rw [same, ← read.opener, ← read.closer, first.value, second.value, third.value,
    cut_append _ am mn, cut_append _ (by omega) nb]

theorem spans_comment (read : CommentAt origin.source opening content closing a b) :
    (span origin opening closing).Spans a b := by
  obtain ⟨m, n, first, second, third⟩ := read.placed
  have am := first.ordered
  have mn := second.ordered
  have nb := third.ordered
  exact (first.spans _).spanTo (third.spans _) (by omega)

/-- A part of a start tag, and the rest of the tag after it. -/
theorem TilesTag.cons {n m k : Nat} {entry : Attribute} {used : Nat} {tokens rest : List Token}
    (gap : TagGap origin.source n m) (written : entry.Written origin.source m k)
    (read : ReadsEntry origin tokens entry used rest) (later : TilesTag origin k rest) :
    TilesTag origin n tokens := by
  obtain ⟨entries, closing, count, a, b, l, found, spaced, last, placed, value, tiles⟩ := later
  obtain ⟨whole, behind⟩ := read.cons _ found
  exact ⟨entry :: entries, closing, used + count, a, b, l, whole, .cons gap written spaced, last,
    placed, value, behind ▸ tiles⟩

/-- The end of a start tag. -/
theorem TilesTag.close {n m k : Nat} (gap : TagGap origin.source n m)
    (kind : closing.kind = .tagClose) (placed : closing.At origin.source m k)
    (value : closing.value = ['>'] ∨ closing.value = ['/', '>'])
    (later : Tiles (Covers origin.source) (ofTokens origin rest) k origin.source.length) :
    TilesTag origin n (closing :: rest) :=
  ⟨[], closing, 1, n, m, k, readEntries_close origin rest kind, .nil n, gap, placed, value, later⟩

/-- A start tag, and what follows it. -/
theorem tiles_startTag {n m : Nat} {name : Chars} (kind : opening.kind = .tagOpen (Tag.kindOf name))
    (placed : opening.At origin.source n m) (value : opening.value = '<' :: name)
    (named : name ≠ []) (nameChars : ∀ c ∈ name, Tag.isNameChar c = true)
    (later : TilesTag origin m rest) :
    Tiles (Covers origin.source) (ofTokens origin (opening :: rest)) n origin.source.length := by
  obtain ⟨entries, closing, count, a, b, l, read, spaced, gap, closeAt, closeValue, tiles⟩ := later
  have nm := placed.ordered
  have ma := spaced.ordered
  have ab := gap.ordered
  have bl := closeAt.ordered
  have spans : (span origin opening closing).Spans n l :=
    (placed.spans _).spanTo (closeAt.spans _) (by omega)
  have tag : opening.value.drop 1 = name := by
    rw [value]
    rfl
  rw [ofTokens_startMarkup origin rest kind read]
  unfold startMarkup
  rw [tag]
  refine .cons (.startTag rfl spans
    ⟨named, nameChars, m, a, b, nm, ?_, spaced, gap, bl, ?_⟩ rfl rfl) tiles
  · rw [← placed.value, value]
  · rw [← closeAt.value]
    unfold Page.tagEnd
    rcases closeValue with plain | selfClosing
    · simp [plain]
    · simp [selfClosing]

/-- A token that is a construct by itself, and what follows it. -/
theorem tiles_single {token : Token} {n m : Nat}
    (single : token.kind = .text ∨ (regionKind? token.kind).isSome = true)
    (placed : token.At origin.source n m) (some : n < m)
    (later : Tiles (Covers origin.source) (ofTokens origin rest) m origin.source.length) :
    Tiles (Covers origin.source) (ofTokens origin (token :: rest)) n origin.source.length := by
  rcases single with text | region
  · rw [ofTokens_text origin _ text, placed.value]
    exact .cons (.text (placed.spans _) some) later
  · obtain ⟨held, kind⟩ := Option.isSome_iff_exists.1 region
    rw [ofTokens_region origin _ kind, placed.value]
    exact .cons (.region (placed.spans _) some) later

/-- An end tag, and what follows it. -/
theorem tiles_endTag {token : Token} {tag : TagKind} {inside : Chars} {n m : Nat}
    (kind : token.kind = .endTag tag) (placed : token.At origin.source n m)
    (value : token.value = ['<', '/'] ++ inside ++ ['>']) (notInside : '>' ∉ inside)
    (later : Tiles (Covers origin.source) (ofTokens origin rest) m origin.source.length) :
    Tiles (Covers origin.source) (ofTokens origin (token :: rest)) n origin.source.length := by
  rw [ofTokens_endTag origin _ kind, placed.value]
  exact .cons (.endTag inside (placed.spans _) (placed.value ▸ value) notInside) later

variable {name : Token} {written : Chars}

/-- A directive without argument list, and what follows it. -/
theorem tiles_bare {n m : Nat} (kind : name.kind = .directiveName)
    (placed : name.At origin.source n m) (value : name.value = '@' :: written)
    (alone : nextIs .argumentsOpen rest = none)
    (later : Tiles (Covers origin.source) (ofTokens origin rest) m origin.source.length) :
    Tiles (Covers origin.source) (ofTokens origin (name :: rest)) n origin.source.length := by
  have spans : (span origin name name).Spans n m :=
    (placed.spans _).spanTo (placed.spans _) placed.ordered
  rw [ofTokens_bare origin rest kind alone]
  refine .cons (.directive ⟨spans, spans.slice _, .inl ⟨rfl, ?_⟩⟩ rfl) later
  rw [← placed.value, value]
  simp [directiveOf, value]

/-- A directive with an argument list, and what follows it. -/
theorem tiles_called {n m k : Nat} (kind : name.kind = .directiveName)
    (placed : name.At origin.source n m) (value : name.value = '@' :: written)
    (gap : InlineGap origin.source m k) (later : TilesArguments origin k rest) :
    Tiles (Covers origin.source) (ofTokens origin (name :: rest)) n origin.source.length := by
  obtain ⟨inside, last, count, a, l, read, lastAt, kl, shape, tiles⟩ := later
  have nm := placed.ordered
  have mk := gap.ordered
  have spans : (span origin name last).Spans n l :=
    (placed.spans _).spanTo (lastAt.spans _) (by omega)
  rw [ofTokens_called origin rest kind read]
  refine .cons (.directive ⟨spans, spans.slice _, .inr ⟨_, inside, rfl, gap.spaces, ?_⟩⟩ rfl) tiles
  rw [← cut_append _ nm (by omega : m ≤ l), ← cut_append _ mk kl, shape, ← placed.value, value]
  simp [directiveOf, value]

end parts

theorem single_of_leaf {kind : TokenKind} (leaf : kind.isLeaf = true) :
    kind = .text ∨ (regionKind? kind).isSome = true := by
  cases kind <;> simp_all [TokenKind.isLeaf, regionKind?]

/-- The tokens of the grammar are put together to items that tile the template. -/
theorem tiled_of_reads {origin : Origin} {place : Place} {n : Nat} {tokens : List Token}
    (reads : Reads origin.source false place n tokens) : Tiled origin n tokens place := by
  induction reads with
  | eof _ kind placed end_ =>
    show Tiles _ _ _ _
    rw [ofTokens_eof origin _ kind, end_]
    exact .nil _
  | stop cut => cases cut
  | front kind placed some _ ih => exact tiles_single (.inr (by rw [kind]; rfl)) placed some ih
  | noFront _ ih => exact ih
  | leaf leaf placed some _ ih => exact tiles_single (single_of_leaf leaf) placed some ih
  | rawText kind placed some _ ih => exact tiles_single (.inr (by rw [kind]; rfl)) placed some ih
  | noRawText _ ih => exact ih
  | endTag inside kind placed value notInside _ ih
  | rawEnd inside kind placed value notInside _ ih =>
    exact tiles_endTag kind placed value notInside ih
  | echo read _ ih =>
    show Tiles _ _ _ _
    rw [ofTokens_echoTokens origin _ read.openingKind read.contentKind read.closingKind]
    exact .cons (.echo (written_echo read)) ih
  | comment read _ ih =>
    have spans := @spans_comment origin _ _ _ _ _ read
    show Tiles _ _ _ _
    rw [ofTokens_commentTokens origin _ read.openingKind read.contentKind read.closingKind,
      spans.slice]
    exact .cons (.comment spans read.nonempty) ih
  | directive kind placed value reads ih =>
    exact tiles_bare kind placed value (nextIs_argumentsOpen reads) ih
  | directiveWith kind placed value gap _ ih => exact tiles_called kind placed value gap ih
  | tagOpen kind placed value named nameChars _ ih =>
    exact tiles_startTag kind placed value named nameChars ih
  -- The parts of argument lists: what is between the parentheses may be missing.
  | @noArguments n m k opening closing rest openKind openAt openValue closeKind closeAt closeValue _
      ih =>
    refine ⟨[], closing, 2, m, k, readArguments_empty rest openKind closeKind, closeAt, ?_, ?_, ih⟩
    · exact Nat.le_trans openAt.ordered closeAt.ordered
    · rw [← cut_append _ openAt.ordered closeAt.ordered, ← openAt.value, ← closeAt.value, openValue,
        closeValue]
      rfl
  | @arguments n m k l opening inside closing rest openKind openAt openValue insideKind insideAt
      closeKind closeAt closeValue _ ih =>
    have nm := openAt.ordered
    have mk := insideAt.ordered
    have kl := closeAt.ordered
    refine ⟨inside.value, closing, 3, k, l, readArguments_inside rest openKind insideKind closeKind,
      closeAt, by omega, ?_, ih⟩
    rw [← cut_append _ nm (by omega : m ≤ l), ← cut_append _ mk kl, ← openAt.value,
      ← insideAt.value, ← closeAt.value, openValue, closeValue]
    simp
  -- The parts of start tags: each is one entry.
  | tagClose gap kind placed value _ ih =>
    exact .close gap kind placed (value.imp_left And.left) ih
  | rawOpen gap kind placed value _ _ ih => exact .close gap kind placed (.inl value) ih
  | tagEcho gap read _ ih =>
    have written := written_echo read
    exact .cons gap (.echo written.spans rfl written (written.spans.slice _) rfl)
      (readsEntry_echo origin _ read.openingKind read.contentKind read.closingKind) ih
  | tagComment gap read _ ih =>
    have spans := spans_comment read
    exact .cons gap (.bare spans rfl (spans.slice _) rfl)
      (readsEntry_comment origin _ read.openingKind read.contentKind read.closingKind) ih
  | entry gap nameKind placed reads ih =>
    have spans := (placed.spans origin.file).spanTo (placed.spans origin.file) placed.ordered
    exact .cons gap (.bare spans rfl placed.value rfl)
      (readsEntry_bare origin _ nameKind (nextIs_attributeValue reads)) ih
  | @entryWith n m k l _ _ _ _ gap nameKind placed equals _ ih =>
    obtain ⟨value, later, e, rfl, valueKind, valueAt, tiles⟩ := ih
    have mk := placed.ordered
    have kl := equals.ordered
    have le := valueAt.ordered
    have spans := (placed.spans origin.file).spanTo (valueAt.spans origin.file)
      (by omega : m ≤ e)
    exact .cons gap (.valued spans rfl mk placed.value equals le (congrArg some valueAt.value))
      (readsEntry_valued origin _ nameKind valueKind) tiles
  | @value n m name token rest kind placed _ ih => exact ⟨token, rest, m, rfl, kind, placed, ih⟩

end Item

/-- The items of a template that reads without fault tile it. -/
theorem tiles_ofTokens (dialect : Dialect) (file : Option String) (source : Chars)
    (read : (scan dialect source).fault = none) :
    Tiles (Item.Covers source)
      (Item.ofTokens ⟨dialect.registry, file, source⟩ (scan dialect source).tokens) 0
      source.length := by
  have reads := reads_scan dialect source
  rw [read] at reads
  exact @Item.tiled_of_reads ⟨dialect.registry, file, source⟩ _ _ _ reads

end BladeTemplate
