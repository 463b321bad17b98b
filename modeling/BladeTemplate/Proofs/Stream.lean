import BladeTemplate.Proofs.Coverage
import BladeTemplate.Proofs.Tiling

/-!
# Streams of tokens

Reading goes through few stacks of modes, and the tokens of a template that reads to its end are a
sequence of complete constructs. So a directive never stands in a start tag, and putting the tokens
together never meets one that is out of place.

* `StackShape` lists the stacks of modes, `ScanState.Reached` the states of reading a template;
* `ItemTokens` is the grammar of one construct, and `TokenStream` that of a whole template;
* `Item.tryOfTokens` puts tokens together and fails at one out of place;
* `scan_stream` ties them to the reader.
-/

namespace BladeTemplate

open Text Lookahead

/-! ## Stacks of modes -/

/-- The stacks of open modes, innermost first: none, one in plain text, or one in a start tag. -/
inductive StackShape : List Mode → Prop
  | text : StackShape []
  | construct {mode : Mode} : (∀ entry, mode ≠ .attributeValue entry) → StackShape [mode]
  | echo (name : Chars) : StackShape [.echo, .tag name]
  | comment (name : Chars) : StackShape [.comment, .tag name]
  | value (entry name : Chars) : StackShape [.attributeValue entry, .tag name]

namespace ScanState

variable {dialect : Dialect} {source : Chars} {s : ScanState}

/-- The states that reading a template goes through: the one it starts in, after front matter if
there is some, and each one that a step leads to. -/
inductive Reached (dialect : Dialect) (source : Chars) : ScanState → Prop
  | start : (if dialect.frontMatter then frontMatterLength source else none) = none →
      Reached dialect source (.start source)
  | front {length : Nat} :
      (if dialect.frontMatter then frontMatterLength source else none) = some length →
      Reached dialect source ((ScanState.start source).skip length)
  | step {s next : ScanState} : Reached dialect source s → s.rest ≠ [] →
      (s.step dialect).next = .ok next → Reached dialect source next

/-- Every state of reading a template stands at a place of the grammar. -/
theorem stands_of_reached (reached : s.Reached dialect source) :
    s.On source ∧ ∃ place, s.Stands place := by
  induction reached with
  | start => exact ⟨on_start source, .content, .text rfl⟩
  | front => exact ⟨(on_start source).skip _, .content, .text rfl⟩
  | step _ ahead moves ih =>
    obtain ⟨on, place, stands⟩ := ih
    obtain ⟨onNext, after, standsNext, _⟩ := (leads_step dialect on ahead stands).goesOn _ moves
    exact ⟨onNext, after, standsNext⟩

theorem Stands.stackShape {place : Place} (stands : s.Stands place) :
    StackShape (s.modes.map (·.mode)) := by
  cases stands with
  | text modes | rawEnd modes =>
    rw [modes]
    exact .text
  | directiveHead modes | arguments modes | echo modes | comment modes | tagStart modes
  | verbatim modes | rawCode modes | rawText modes | tag modes =>
    rw [modes]
    exact .construct nofun
  | tagEcho modes =>
    rw [modes]
    exact .echo _
  | tagComment modes =>
    rw [modes]
    exact .comment _
  | value modes =>
    rw [modes]
    exact .value _ _

end ScanState

/-! ## Directives and start tags -/

/-- No directive stands where a start tag is open. -/
def DirectivesOutside : Bool → List Token → Prop
  | _, [] => True
  | inTag, token :: rest =>
    (token.kind = .directiveName → inTag = false) ∧
      DirectivesOutside (token.kind.tagOpenAfter inTag) rest

namespace DirectivesOutside

variable {inTag : Bool} {token : Token} {tokens : List Token}

theorem cons {kind : TokenKind} (of : token.kind = kind)
    (outside : kind = .directiveName → inTag = false)
    (later : DirectivesOutside (kind.tagOpenAfter inTag) tokens) :
    DirectivesOutside inTag (token :: tokens) := by
  subst of
  exact ⟨outside, later⟩

theorem of_split {before after : List Token}
    (outside : DirectivesOutside inTag (before ++ token :: after))
    (directive : token.kind = .directiveName) : tagOpenAfter inTag before = false := by
  induction before generalizing inTag with
  | nil => exact outside.1 directive
  | cons head before ih => exact ih outside.2

/-- Along the grammar, start tags hold no directives. -/
theorem of_reads {source : Chars} {faulted : Bool} {place : Place} {n : Nat}
    (reads : Reads source faulted place n tokens) : DirectivesOutside place.inTag tokens := by
  induction reads with
  | eof _ kind => exact .cons kind nofun trivial
  | stop => trivial
  | front kind _ _ _ ih => exact .cons kind nofun ih
  | noFront _ ih | noRawText _ ih => exact ih
  | @leaf n m token rest leaf _ _ _ ih =>
    refine ⟨fun _ => rfl, ?_⟩
    rw [TokenKind.tagOpenAfter_of_leaf leaf]
    exact ih
  | endTag _ kind _ _ _ _ ih | rawEnd _ kind _ _ _ _ ih => exact .cons kind nofun ih
  | rawText kind _ _ _ ih => exact .cons kind nofun ih
  | directive kind _ _ _ ih => exact .cons kind (fun _ => rfl) ih
  | directiveWith kind _ _ _ _ ih => exact .cons kind (fun _ => rfl) ih
  | noArguments opening _ _ closing _ _ _ ih =>
    exact .cons opening nofun (.cons closing nofun ih)
  | arguments opening _ _ inside _ closing _ _ _ ih =>
    exact .cons opening nofun (.cons inside nofun (.cons closing nofun ih))
  | echo read _ ih | tagEcho _ read _ ih =>
    exact .cons read.openingKind nofun
      (.cons read.contentKind nofun (.cons read.closingKind nofun ih))
  | comment read _ ih | tagComment _ read _ ih =>
    exact .cons read.openingKind nofun
      (.cons read.contentKind nofun (.cons read.closingKind nofun ih))
  | tagOpen kind _ _ _ _ _ ih => exact .cons kind nofun ih
  | tagClose _ kind _ _ _ ih | rawOpen _ kind _ _ _ _ ih => exact .cons kind nofun ih
  | entry _ kind _ _ ih | entryWith _ kind _ _ _ ih => exact .cons kind nofun ih
  | value kind _ _ ih => exact .cons kind nofun ih

end DirectivesOutside

/-! ## Constructs -/

/-- The tokens of an echo or of a comment. -/
inductive DelimitedTokens : List Token → Prop
  | echo {style : EchoStyle} {opening content closing : Token} : opening.kind = .echoOpen style →
      content.kind = .echoContent style → closing.kind = .echoClose style →
      DelimitedTokens [opening, content, closing]
  | comment {opening content closing : Token} : opening.kind = .commentOpen →
      content.kind = .commentContent → closing.kind = .commentClose →
      DelimitedTokens [opening, content, closing]

/-- The tokens of an entry of a start tag. -/
inductive EntryTokens : List Token → Prop
  | bare {name : Token} {kind : AttributeKind} : name.kind = .attributeName kind →
      EntryTokens [name]
  | valued {name value : Token} {kind : AttributeKind} : name.kind = .attributeName kind →
      value.kind = .attributeValue → EntryTokens [name, value]
  | delimited {tokens : List Token} : DelimitedTokens tokens → EntryTokens tokens

/-- At most one token, and that of the given kind. -/
inductive OptionalToken (kind : TokenKind) : List Token → Prop
  | none : OptionalToken kind []
  | some {token : Token} : token.kind = kind → OptionalToken kind [token]

/-- The tokens that belong to a start tag of the given name after its end: if it does not close
itself, the body and the end tag of an element whose body is not read as markup. -/
inductive TailTokens (name : Chars) (closing : Token) : List Token → Prop
  | selfClosing : closing.value = ['/', '>'] → TailTokens name closing []
  | markup : closing.value = ['>'] → Tag.isOneOf Tag.rawTextNames name = false →
      TailTokens name closing []
  | raw {body : List Token} {last : Token} {kind : TagKind} : closing.value = ['>'] →
      Tag.isOneOf Tag.rawTextNames name = true →
      OptionalToken (.rawText (lower name)) body → last.kind = .endTag kind →
      TailTokens name closing (body ++ [last])

/-- The tokens of a construct. -/
inductive ItemTokens : List Token → Prop
  | leaf {token : Token} : token.kind.isLeaf = true → ItemTokens [token]
  | endTag {token : Token} {kind : TagKind} : token.kind = .endTag kind → ItemTokens [token]
  | bare {name : Token} : name.kind = .directiveName → ItemTokens [name]
  | called {name opening closing : Token} {inside : List Token} : name.kind = .directiveName →
      opening.kind = .argumentsOpen → OptionalToken .arguments inside →
      closing.kind = .argumentsClose → ItemTokens (name :: opening :: (inside ++ [closing]))
  | delimited {tokens : List Token} : DelimitedTokens tokens → ItemTokens tokens
  | startTag {opening closing : Token} {kind : TagKind} {entries : List (List Token)}
      {tail : List Token} : opening.kind = .tagOpen kind → (∀ entry ∈ entries, EntryTokens entry) →
      closing.kind = .tagClose → TailTokens (opening.value.drop 1) closing tail →
      ItemTokens (opening :: (entries.flatten ++ closing :: tail))

/-- The tokens of constructs, and of the end of a template. -/
structure Constructs (tokens : List Token) : Prop where
  parts : ∃ (items : List (List Token)) (eof : Token), tokens = items.flatten ++ [eof] ∧
    (∀ item ∈ items, ItemTokens item) ∧ eof.kind = .eof

/-- The tokens of a template: front matter if there is some, constructs, and the end. -/
structure TokenStream (tokens : List Token) : Prop where
  parts : ∃ front rest, tokens = front ++ rest ∧ OptionalToken .frontMatter front ∧
    Constructs rest

/-! ## Along the grammar -/

theorem Constructs.cons {item tokens : List Token} (first : ItemTokens item)
    (later : Constructs tokens) : Constructs (item ++ tokens) := by
  obtain ⟨items, eof, rfl, each, ends⟩ := later.parts
  exact ⟨item :: items, eof, by simp, List.forall_mem_cons.2 ⟨first, each⟩, ends⟩

/-- The rest of a start tag, with what belongs to it, and constructs. -/
def TagConstructs (name : Chars) (tokens : List Token) : Prop :=
  ∃ (entries : List (List Token)) (closing : Token) (tail later : List Token),
    tokens = entries.flatten ++ closing :: (tail ++ later) ∧
    (∀ entry ∈ entries, EntryTokens entry) ∧ closing.kind = .tagClose ∧
    TailTokens name closing tail ∧ Constructs later

theorem TagConstructs.cons {name : Chars} {entry tokens : List Token} (first : EntryTokens entry)
    (later : TagConstructs name tokens) : TagConstructs name (entry ++ tokens) := by
  obtain ⟨entries, closing, tail, rest, rfl, each, closes, follows, constructs⟩ := later
  exact ⟨entry :: entries, closing, tail, rest, by simp, List.forall_mem_cons.2 ⟨first, each⟩,
    closes, follows, constructs⟩

theorem TagConstructs.item {name : Chars} {opening : Token} {kind : TagKind} {tokens : List Token}
    (opens : opening.kind = .tagOpen kind) (value : opening.value = '<' :: name)
    (later : TagConstructs name tokens) : Constructs (opening :: tokens) := by
  obtain ⟨entries, closing, tail, rest, rfl, each, closes, follows, constructs⟩ := later
  have named : opening.value.drop 1 = name := by
    rw [value]
    rfl
  rw [← named] at follows
  have item := constructs.cons (.startTag opens each closes follows)
  rwa [List.cons_append, List.append_assoc] at item

/-- What the tokens at each place of the grammar are. -/
def Streams (tokens : List Token) : Place → Prop
  | .start => TokenStream tokens
  | .content => Constructs tokens
  | .arguments => ∃ opening inside closing later,
      tokens = opening :: (inside ++ closing :: later) ∧ opening.kind = .argumentsOpen ∧
      OptionalToken .arguments inside ∧ closing.kind = .argumentsClose ∧ Constructs later
  | .tag name => TagConstructs name tokens
  | .value name => ∃ value later, tokens = value :: later ∧ value.kind = .attributeValue ∧
      TagConstructs name later
  | .rawBody name => ∃ body last kind later, tokens = body ++ last :: later ∧
      OptionalToken (.rawText (lower name)) body ∧ last.kind = .endTag kind ∧ Constructs later
  | .rawEnd => ∃ last kind later, tokens = last :: later ∧ last.kind = .endTag kind ∧
      Constructs later

/-- The tokens of the grammar, read to the end, are a sequence of constructs. -/
theorem streams_of_reads {source : Chars} {place : Place} {n : Nat} {tokens : List Token}
    (reads : Reads source false place n tokens) : Streams tokens place := by
  induction reads with
  | @eof n token _ kind => exact ⟨[], token, rfl, by simp, kind⟩
  | stop cut => cases cut
  | front kind _ _ _ ih => exact ⟨_, _, rfl, .some kind, ih⟩
  | noFront _ ih => exact ⟨_, _, rfl, .none, ih⟩
  | leaf leaf _ _ _ ih => exact Constructs.cons (.leaf leaf) ih
  | endTag _ kind _ _ _ _ ih => exact Constructs.cons (.endTag kind) ih
  | echo read _ ih =>
    exact Constructs.cons
      (.delimited (.echo read.openingKind read.contentKind read.closingKind)) ih
  | comment read _ ih =>
    exact Constructs.cons
      (.delimited (.comment read.openingKind read.contentKind read.closingKind)) ih
  | directive kind _ _ _ ih => exact Constructs.cons (.bare kind) ih
  | directiveWith kind _ _ _ _ ih =>
    obtain ⟨opening, inside, closing, later, rfl, opens, held, closes, constructs⟩ := ih
    have item := constructs.cons (.called kind opens held closes)
    rw [List.cons_append, List.cons_append, List.append_assoc] at item
    exact item
  | noArguments opens _ _ closes _ _ _ ih => exact ⟨_, _, _, _, rfl, opens, .none, closes, ih⟩
  | arguments opens _ _ held _ closes _ _ _ ih =>
    exact ⟨_, _, _, _, rfl, opens, .some held, closes, ih⟩
  | tagOpen kind _ value _ _ _ ih => exact ih.item kind value
  | tagClose _ kind _ value _ ih =>
    refine ⟨[], _, [], _, rfl, by simp, kind, ?_, ih⟩
    rcases value with ⟨bracket, markup⟩ | slash
    · exact .markup bracket markup
    · exact .selfClosing slash
  | rawOpen _ kind _ value raw _ ih =>
    obtain ⟨body, last, lastKind, later, rfl, text, ends, constructs⟩ := ih
    exact ⟨[], _, body ++ [last], later, by simp, by simp, kind, .raw value raw text ends,
      constructs⟩
  | rawText kind _ _ _ ih =>
    obtain ⟨last, lastKind, later, rfl, ends, constructs⟩ := ih
    exact ⟨_, last, lastKind, later, rfl, .some kind, ends, constructs⟩
  | noRawText _ ih =>
    obtain ⟨last, lastKind, later, rfl, ends, constructs⟩ := ih
    exact ⟨_, last, lastKind, later, rfl, .none, ends, constructs⟩
  | rawEnd _ kind _ _ _ _ ih => exact ⟨_, _, _, rfl, kind, ih⟩
  | tagEcho _ read _ ih =>
    exact TagConstructs.cons
      (.delimited (.echo read.openingKind read.contentKind read.closingKind)) ih
  | tagComment _ read _ ih =>
    exact TagConstructs.cons
      (.delimited (.comment read.openingKind read.contentKind read.closingKind)) ih
  | entry _ kind _ _ ih => exact TagConstructs.cons (.bare kind) ih
  | entryWith _ kind _ _ _ ih =>
    obtain ⟨value, later, rfl, valueKind, tag⟩ := ih
    exact tag.cons (.valued kind valueKind)
  | value kind _ _ ih => exact ⟨_, _, rfl, kind, ih⟩

/-! ## Putting the tokens of a stream together -/

/-- Why tokens cannot be put together: one stands outside its construct, or a start tag has no
end. -/
inductive Misplacement where
  | stray (token : Token)
  | openTag (opening : Token)

namespace Item

/-- Put the tokens of a template together, up to its end, unless one of them is out of place. -/
def tryOfTokens (origin : Origin) (tokens : List Token) : Except Misplacement (List Item) :=
  match tokens with
  | [] => .ok []
  | token :: rest =>
    match token.kind with
    | .eof => .ok []
    | .directiveName =>
      let read := readDirective origin token rest
      (tryOfTokens origin (rest.drop read.2)).map (.directive read.1 :: ·)
    | .echoOpen style =>
      let read := readEcho origin style token rest
      (tryOfTokens origin (rest.drop read.2)).map (.echo read.1 :: ·)
    | .commentOpen =>
      let read := readComment origin token rest
      (tryOfTokens origin (rest.drop read.2)).map
        (.comment read.1 (read.1.slice origin.source) :: ·)
    | .tagOpen kind =>
      let read := readStartTag origin token rest
      if (readEntries origin rest).2.1.isNone then .error (.openTag token)
      else (tryOfTokens origin (rest.drop read.2)).map (.startTag kind read.1 :: ·)
    | .endTag _ =>
      (tryOfTokens origin rest).map (.endTag (token.location origin.file) token.value :: ·)
    | .text => (tryOfTokens origin rest).map (.text (token.location origin.file) token.value :: ·)
    | kind =>
      match regionKind? kind with
      | some held =>
        (tryOfTokens origin rest).map (.region (token.location origin.file) held token.value :: ·)
      | none => .error (.stray token)
termination_by tokens.length
decreasing_by all_goals simp only [List.length_cons, List.length_drop]; omega

/-- The tokens are put together, and none of them is out of place. -/
def Assembles (origin : Origin) (tokens : List Token) : Prop :=
  tryOfTokens origin tokens = .ok (ofTokens origin tokens)

theorem nextIs_of_head {kind : TokenKind} {token : Token} (other : token.kind ≠ kind)
    (tokens : List Token) : nextIs kind (token :: tokens) = none :=
  if_neg other

end Item

theorem DelimitedTokens.head {tokens : List Token} (delimited : DelimitedTokens tokens) :
    ∃ first rest, tokens = first :: rest ∧
      (first.kind = .commentOpen ∨ ∃ style, first.kind = .echoOpen style) := by
  cases delimited with
  | echo opens => exact ⟨_, _, rfl, .inr ⟨_, opens⟩⟩
  | comment opens => exact ⟨_, _, rfl, .inl opens⟩

/-- No entry of a start tag starts with a value. -/
theorem EntryTokens.head {tokens : List Token} (entry : EntryTokens tokens) :
    ∃ first rest, tokens = first :: rest ∧ first.kind ≠ .attributeValue := by
  cases entry with
  | bare kind => exact ⟨_, _, rfl, by simp [kind]⟩
  | valued kind => exact ⟨_, _, rfl, by simp [kind]⟩
  | delimited delimited =>
    obtain ⟨first, rest, rfl, comment | ⟨style, echo⟩⟩ := delimited.head
    · exact ⟨first, rest, rfl, by simp [comment]⟩
    · exact ⟨first, rest, rfl, by simp [echo]⟩

/-- No construct starts with an argument list. -/
theorem ItemTokens.head {tokens : List Token} (item : ItemTokens tokens) :
    ∃ first rest, tokens = first :: rest ∧ first.kind ≠ .argumentsOpen := by
  cases item with
  | leaf leaf =>
    refine ⟨_, _, rfl, ?_⟩
    intro opens
    rw [opens] at leaf
    cases leaf
  | endTag kind => exact ⟨_, _, rfl, by simp [kind]⟩
  | bare kind => exact ⟨_, _, rfl, by simp [kind]⟩
  | called kind => exact ⟨_, _, rfl, by simp [kind]⟩
  | delimited delimited =>
    obtain ⟨first, rest, rfl, comment | ⟨style, echo⟩⟩ := delimited.head
    · exact ⟨first, rest, rfl, by simp [comment]⟩
    · exact ⟨first, rest, rfl, by simp [echo]⟩
  | startTag kind => exact ⟨_, _, rfl, by simp [kind]⟩

/-- The tokens of an entry are read as one entry. -/
theorem EntryTokens.readsEntry {tokens rest : List Token} (entry : EntryTokens tokens)
    (origin : Origin) (next : Item.nextIs .attributeValue rest = none) :
    ∃ made, Item.ReadsEntry origin (tokens ++ rest) made tokens.length rest := by
  cases entry with
  | bare kind => exact ⟨_, Item.readsEntry_bare origin rest kind next⟩
  | valued kind value => exact ⟨_, Item.readsEntry_valued origin rest kind value⟩
  | delimited delimited =>
    cases delimited with
    | echo opens content closes =>
      exact ⟨_, Item.readsEntry_echo origin rest opens content closes⟩
    | comment opens content closes =>
      exact ⟨_, Item.readsEntry_comment origin rest opens content closes⟩

namespace Item

variable {origin : Origin} {tokens rest : List Token}

/-- The tokens of an argument list are read as one, and what is behind them is left. -/
theorem readArguments_called {opening closing : Token} {inside : List Token}
    (opens : opening.kind = .argumentsOpen) (held : OptionalToken .arguments inside)
    (closes : closing.kind = .argumentsClose) (rest : List Token) :
    ∃ text count, readArguments (opening :: (inside ++ [closing]) ++ rest) =
        some (text, closing, count) ∧
      (opening :: (inside ++ [closing]) ++ rest).drop count = rest := by
  cases held with
  | none => exact ⟨_, _, readArguments_empty rest opens closes, rfl⟩
  | some argument => exact ⟨_, _, readArguments_inside rest opens argument closes, rfl⟩

/-- The entries of a start tag are read up to its end. -/
theorem readEntries_of_entries {entries : List (List Token)} {closing : Token}
    (each : ∀ entry ∈ entries, EntryTokens entry) (closes : closing.kind = .tagClose) :
    (readEntries origin (entries.flatten ++ closing :: rest)).2 =
      (some closing, entries.flatten.length + 1) := by
  induction entries with
  | nil =>
    rw [List.flatten_nil, List.nil_append, readEntries_close origin rest closes]
    rfl
  | cons entry entries ih =>
    have found := ih fun entry member => each entry (List.mem_cons_of_mem _ member)
    have noValue : nextIs .attributeValue (entries.flatten ++ closing :: rest) = none := by
      cases entries with
      | nil => exact nextIs_of_head (by simp [closes]) _
      | cons next entries =>
        obtain ⟨first, more, rfl, other⟩ := (each next (by simp)).head
        exact nextIs_of_head other _
    obtain ⟨made, read⟩ := (each entry (by simp)).readsEntry origin noValue
    rw [List.flatten_cons, List.append_assoc, List.length_append, read.entries, found]
    simp only [Nat.add_assoc]

/-- A start tag, and what follows it. -/
theorem assembles_startTag {opening closing : Token} {kind : TagKind} {entries : List (List Token)}
    (opens : opening.kind = .tagOpen kind) (each : ∀ entry ∈ entries, EntryTokens entry)
    (closes : closing.kind = .tagClose) (later : Assembles origin rest) :
    Assembles origin (opening :: (entries.flatten ++ closing :: rest)) := by
  have read := @readEntries_of_entries origin rest entries closing each closes
  have dropped : (entries.flatten ++ closing :: rest).drop (entries.flatten.length + 1) = rest := by
    rw [← List.drop_drop, List.drop_left]
    rfl
  unfold Assembles at later ⊢
  rw [tryOfTokens, ofTokens]
  simp only [opens, readStartTag, read, dropped, later]
  rfl

/-- An end tag, and what follows it. -/
theorem assembles_endTag {token : Token} {kind : TagKind} (ends : token.kind = .endTag kind)
    (later : Assembles origin rest) : Assembles origin (token :: rest) := by
  unfold Assembles at later ⊢
  rw [tryOfTokens, ofTokens]
  simp only [ends, later]
  rfl

/-- A token that is kept as it is, and what follows it. -/
theorem assembles_region {token : Token} {held : RegionKind}
    (kind : regionKind? token.kind = some held) (later : Assembles origin rest) :
    Assembles origin (token :: rest) := by
  unfold Assembles at later ⊢
  rw [tryOfTokens, ofTokens]
  cases found : token.kind <;> simp only [found, regionKind?] at kind ⊢ <;>
    simp [later, Except.map] at kind ⊢

/-- A directive, and what follows it. -/
theorem assembles_directive {name : Token} {made : Directive} {count : Nat}
    (kind : name.kind = .directiveName) (read : readDirective origin name rest = (made, count))
    (later : Assembles origin (rest.drop count)) : Assembles origin (name :: rest) := by
  unfold Assembles at later ⊢
  rw [tryOfTokens, ofTokens]
  simp only [kind, read, later]
  rfl

/-- An echo or a comment, and what follows it. -/
theorem assembles_delimited (delimited : DelimitedTokens tokens) (later : Assembles origin rest) :
    Assembles origin (tokens ++ rest) := by
  unfold Assembles at later ⊢
  cases delimited with
  | echo opens content closes =>
    rw [List.cons_append, tryOfTokens, ofTokens]
    simp only [opens, List.cons_append, List.nil_append, List.drop_succ_cons, List.drop_zero,
      readEcho_of_kinds origin rest content closes, later]
    rfl
  | comment opens content closes =>
    rw [List.cons_append, tryOfTokens, ofTokens]
    simp only [opens, List.cons_append, List.nil_append, List.drop_succ_cons, List.drop_zero,
      readComment_of_kinds origin rest content closes, later]
    rfl

/-- A construct, and what follows it. -/
theorem assembles_item (item : ItemTokens tokens) (next : nextIs .argumentsOpen rest = none)
    (later : Assembles origin rest) : Assembles origin (tokens ++ rest) := by
  cases item with
  | leaf leaf =>
    rcases single_of_leaf leaf with text | region
    · unfold Assembles at later ⊢
      rw [List.singleton_append, tryOfTokens, ofTokens_text origin _ text]
      simp only [text, later]
      rfl
    · obtain ⟨held, kind⟩ := Option.isSome_iff_exists.1 region
      exact assembles_region kind later
  | endTag ends => exact assembles_endTag ends later
  | bare kind => exact assembles_directive kind (readDirective_bare origin rest next) later
  | called kind opens inside closes =>
    obtain ⟨text, count, read, left⟩ := readArguments_called opens inside closes rest
    exact assembles_directive kind (readDirective_called origin _ read) (left.symm ▸ later)
  | delimited delimited => exact assembles_delimited delimited later
  | startTag opens each closes tail =>
    rw [List.cons_append, List.append_assoc, List.cons_append]
    refine assembles_startTag opens each closes ?_
    cases tail with
    | selfClosing | markup => exact later
    | raw _ _ body ends =>
      rw [List.append_assoc]
      have last := assembles_endTag ends later
      cases body with
      | none => exact last
      | some raw => exact assembles_region (by rw [raw]; rfl) last

/-- Constructs up to the end of a template. -/
theorem assembles_items {items : List (List Token)} {eof : Token}
    (each : ∀ item ∈ items, ItemTokens item) (ends : eof.kind = .eof) :
    Assembles origin (items.flatten ++ [eof]) ∧
      nextIs .argumentsOpen (items.flatten ++ [eof]) = none := by
  induction items with
  | nil =>
    refine ⟨?_, nextIs_of_head (by simp [ends]) _⟩
    unfold Assembles
    rw [List.flatten_nil, List.nil_append, tryOfTokens, ofTokens_eof origin _ ends]
    simp only [ends]
  | cons item items ih =>
    obtain ⟨later, next⟩ := ih fun item member => each item (List.mem_cons_of_mem _ member)
    have first := each item List.mem_cons_self
    rw [List.flatten_cons, List.append_assoc]
    refine ⟨assembles_item first next later, ?_⟩
    obtain ⟨head, rest, rfl, other⟩ := first.head
    exact nextIs_of_head other _

/-- No token of a stream is out of place. -/
theorem assembles_of_stream (origin : Origin) (stream : TokenStream tokens) :
    Assembles origin tokens := by
  obtain ⟨front, rest, rfl, fronted, constructs⟩ := stream.parts
  obtain ⟨items, eof, rfl, each, ends⟩ := constructs.parts
  obtain ⟨later, _⟩ := @assembles_items origin items eof each ends
  cases fronted with
  | none => exact later
  | some kind => exact assembles_region (by rw [kind]; rfl) later

end Item

/-! ## Reading a template -/

/-- Every state of reading a template has one of the known stacks of modes. The tokens of a template
that is read to its end are a sequence of complete constructs, so that putting them together meets
none out of place. No directive stands in a start tag, even before a fault. -/
theorem scan_stream (dialect : Dialect) (source : Chars) :
    let tokens := (scan dialect source).tokens
    (∀ s, ScanState.Reached dialect source s → StackShape (s.modes.map (·.mode))) ∧
    (∀ body eof, tokens = body ++ [eof] → eof.kind = .eof →
      TokenStream tokens ∧ ∀ file, Item.tryOfTokens ⟨dialect.registry, file, source⟩ tokens =
        .ok (Item.ofTokens ⟨dialect.registry, file, source⟩ tokens)) ∧
    (∀ before directive after, tokens = before ++ directive :: after →
      directive.kind = .directiveName → insideTag before = false) := by
  intro tokens
  have reads := reads_scan dialect source
  refine ⟨?_, ?_, ?_⟩
  · intro s reached
    obtain ⟨_, place, stands⟩ := ScanState.stands_of_reached reached
    exact stands.stackShape
  · intro body eof split ends
    -- After a fault there is no end among the tokens.
    have whole : (scan dialect source).fault.isSome = false := by
      have ended := (Place.covers_of_reads reads).covered.ended
      refine eq_false_of_ne_true ?_
      intro faulted
      rw [faulted] at ended
      have member : eof ∈ tokens := by
        rw [split]
        exact List.mem_append_right _ List.mem_cons_self
      exact ended.unfinished member ends
    rw [whole] at reads
    have stream := streams_of_reads reads
    exact ⟨stream, fun file => Item.assembles_of_stream _ stream⟩
  · intro before directive after split kind
    have outside := DirectivesOutside.of_reads reads
    have found : (scan dialect source).tokens = before ++ directive :: after := split
    rw [found] at outside
    exact outside.of_split kind

end BladeTemplate
