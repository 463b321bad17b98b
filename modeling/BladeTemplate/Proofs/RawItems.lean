import BladeTemplate.Proofs.ItemEdges
import BladeTemplate.Proofs.RawBodies

/-!
# Items of elements that are not read as markup

The tokens of a template are put together construct by construct. The start tag of an element that
is not read as markup makes one item, and what reading found behind it makes one for the body, if
there is any, and one for the end tag.

* `RawStart` is a start tag of such an element among the tokens;
* `ItemTokens.startTokens` and `ItemTokens.split_flatten` find the construct it begins;
* `Item.ofTokens_items` says that constructs are put together independently of what follows;
* `Item.ofTokens_rawStart` says which items such a start tag, its body and its end tag are.
-/

namespace BladeTemplate

open Text Lookahead

/-- A start tag whose body is not read as markup: where it opens, the tokens of its entries, and the
single bracket at its end. -/
structure RawStart (opening : Token) (entries : List Token) (closing : Token) : Prop where
  opens : ∃ kind, opening.kind = .tagOpen kind
  raw : Tag.isOneOf Tag.rawTextNames (opening.value.drop 1) = true
  inside : ∀ token ∈ entries, token.kind ≠ .tagClose
  closes : closing.kind = .tagClose
  bracket : closing.value = ['>']

/-! ## Start tags among constructs -/

theorem DelimitedTokens.inner {tokens : List Token} (delimited : DelimitedTokens tokens) :
    ∀ token ∈ tokens, token.kind.bounds = false := by
  cases delimited with
  | echo first second third | comment first second third =>
    simp [first, second, third, TokenKind.bounds]

theorem EntryTokens.inner {tokens : List Token} (entry : EntryTokens tokens) :
    ∀ token ∈ tokens, token.kind.bounds = false := by
  cases entry with
  | bare kind => simp [kind, TokenKind.bounds]
  | valued kind value => simp [kind, value, TokenKind.bounds]
  | delimited delimited => exact delimited.inner

theorem OptionalToken.inner {kind : TokenKind} {tokens : List Token}
    (optional : OptionalToken kind tokens) (inner : kind.bounds = false) :
    ∀ token ∈ tokens, token.kind.bounds = false := by
  cases optional with
  | none => simp
  | some of => simpa [of] using inner

theorem TailTokens.inner {name : Chars} {closing : Token} {tokens : List Token}
    (tail : TailTokens name closing tokens) : ∀ token ∈ tokens, token.kind.bounds = false := by
  cases tail with
  | selfClosing | markup => simp
  | raw _ _ body last =>
    rw [List.forall_mem_append]
    exact ⟨body.inner rfl, by simp [last, TokenKind.bounds]⟩

/-- The tokens of a start tag after the first one, and what follows. -/
structure StartTokens (tokens : List Token) : Prop where
  parts : ∃ (entries : List (List Token)) (closing : Token) (rest : List Token),
    tokens = entries.flatten ++ closing :: rest ∧ (∀ entry ∈ entries, EntryTokens entry) ∧
    closing.kind = .tagClose

theorem StartTokens.append {tokens : List Token} (start : StartTokens tokens) (more : List Token) :
    StartTokens (tokens ++ more) := by
  obtain ⟨entries, closing, rest, rfl, inside, closes⟩ := start.parts
  exact ⟨entries, closing, rest ++ more, by simp, inside, closes⟩

/-- A construct that holds the opening of a start tag begins with it. -/
theorem ItemTokens.startTokens {tokens before after : List Token} {opening : Token}
    {kind : TagKind} (item : ItemTokens tokens) (split : tokens = before ++ opening :: after)
    (opens : opening.kind = .tagOpen kind) : before = [] ∧ StartTokens after := by
  have bounds : opening.kind.bounds = true := by rw [opens]; rfl
  have none (inner : ∀ token ∈ tokens, token.kind.bounds = false) : False := by
    have member : opening ∈ tokens := by simp [split]
    rw [inner opening member] at bounds
    cases bounds
  cases item with
  | leaf leaf =>
    refine (none (List.forall_mem_singleton.2 ?_)).elim
    cases same : TokenKind.bounds _ with
    | false => rfl
    | true => unfold TokenKind.bounds at same; split at same <;> simp_all [TokenKind.isLeaf]
  | endTag kind | bare kind => exact (none (by simp [kind, TokenKind.bounds])).elim
  | called name opens inside closes =>
    refine (none ?_).elim
    simp only [List.forall_mem_cons, List.forall_mem_append]
    exact ⟨by simp [name, TokenKind.bounds], by simp [opens, TokenKind.bounds], inside.inner rfl,
      by simp [closes, TokenKind.bounds], by simp⟩
  | delimited delimited => exact (none delimited.inner).elim
  | @startTag first closing _ entries tail _ each closes follows =>
    cases before with
    | nil =>
      obtain ⟨rfl, rfl⟩ := List.cons.inj split
      exact ⟨rfl, entries, closing, tail, rfl, each, closes⟩
    | cons head before =>
      obtain ⟨_, later⟩ := List.cons.inj split
      have member : opening ∈ entries.flatten ++ closing :: tail := by simp [later]
      rw [List.mem_append, List.mem_cons] at member
      rcases member with inEntry | rfl | inTail
      · obtain ⟨entry, inside, found⟩ := List.mem_flatten.1 inEntry
        rw [(each entry inside).inner opening found] at bounds
        cases bounds
      · rw [closes] at opens
        cases opens
      · rw [follows.inner opening inTail] at bounds
        cases bounds

/-- Among constructs, the opening of a start tag begins one of them. -/
theorem ItemTokens.split_flatten {items : List (List Token)} {eof opening : Token} {kind : TagKind}
    {before after : List Token} (each : ∀ item ∈ items, ItemTokens item) (ends : eof.kind = .eof)
    (split : items.flatten ++ [eof] = before ++ opening :: after)
    (opens : opening.kind = .tagOpen kind) :
    ∃ earlier : List (List Token), before = earlier.flatten ∧
      (∀ item ∈ earlier, ItemTokens item) ∧ StartTokens after := by
  induction items generalizing before with
  | nil =>
    have last : opening = eof := by
      have member : opening ∈ [eof] := by
        rw [List.flatten_nil, List.nil_append] at split
        simp [split]
      exact List.mem_singleton.1 member
    rw [last, ends] at opens
    cases opens
  | cons item rest ih =>
    rw [List.forall_mem_cons] at each
    rw [List.flatten_cons, List.append_assoc] at split
    rcases List.append_eq_append_iff.1 split with ⟨more, rfl, later⟩ | ⟨more, here, later⟩
    · obtain ⟨earlier, rfl, first, start⟩ := ih each.2 later
      exact ⟨item :: earlier, by simp, List.forall_mem_cons.2 ⟨each.1, first⟩, start⟩
    · cases more with
      | nil =>
        rw [List.append_nil] at here
        obtain ⟨earlier, none, first, start⟩ := @ih [] each.2 (by simpa using later.symm)
        exact ⟨item :: earlier, by simp [here, ← none],
          List.forall_mem_cons.2 ⟨each.1, first⟩, start⟩
      | cons head tokens =>
        obtain ⟨rfl, rfl⟩ := List.cons.inj later
        obtain ⟨rfl, start⟩ := each.1.startTokens here opens
        exact ⟨[], rfl, by simp, start.append _⟩

/-- In a stream, the opening of a start tag begins a construct, behind front matter if there is
some. -/
theorem TokenStream.split {tokens before after : List Token} {opening : Token} {kind : TagKind}
    (stream : TokenStream tokens) (split : tokens = before ++ opening :: after)
    (opens : opening.kind = .tagOpen kind) :
    ∃ (front : List Token) (earlier : List (List Token)), before = front ++ earlier.flatten ∧
      OptionalToken .frontMatter front ∧ (∀ item ∈ earlier, ItemTokens item) ∧
      StartTokens after := by
  obtain ⟨front, tokens, rfl, fronted, constructs⟩ := stream.parts
  obtain ⟨items, eof, rfl, each, ends⟩ := constructs.parts
  obtain ⟨behind, rfl, same⟩ : ∃ behind, before = front ++ behind ∧
      items.flatten ++ [eof] = behind ++ opening :: after := by
    cases fronted with
    | none => exact ⟨before, rfl, split⟩
    | @some token ofFront =>
      cases before with
      | nil =>
        obtain ⟨rfl, _⟩ := List.cons.inj split
        rw [ofFront] at opens
        cases opens
      | cons head behind =>
        obtain ⟨rfl, same⟩ := List.cons.inj split
        exact ⟨behind, rfl, same⟩
  obtain ⟨earlier, rfl, first, start⟩ := ItemTokens.split_flatten each ends same opens
  exact ⟨front, earlier, rfl, fronted, first, start⟩

/-- The first token that ends a start tag is where two splits of the tokens agree. -/
theorem split_at_close {entries others rest more : List Token} {closing last : Token}
    (same : entries ++ closing :: rest = others ++ last :: more)
    (inside : ∀ token ∈ entries, token.kind ≠ .tagClose) (closes : closing.kind = .tagClose)
    (insideOther : ∀ token ∈ others, token.kind ≠ .tagClose) (ends : last.kind = .tagClose) :
    entries = others ∧ closing = last ∧ rest = more := by
  induction entries generalizing others with
  | nil =>
    cases others with
    | nil =>
      obtain ⟨rfl, rfl⟩ := List.cons.inj same
      exact ⟨rfl, rfl, rfl⟩
    | cons head others =>
      obtain ⟨rfl, _⟩ := List.cons.inj same
      exact absurd closes (insideOther _ List.mem_cons_self)
  | cons token entries ih =>
    rw [List.forall_mem_cons] at inside
    cases others with
    | nil =>
      obtain ⟨rfl, _⟩ := List.cons.inj same
      exact absurd ends inside.1
    | cons head others =>
      rw [List.forall_mem_cons] at insideOther
      obtain ⟨rfl, later⟩ := List.cons.inj same
      obtain ⟨rfl, rfl, rfl⟩ := ih later inside.2 insideOther.2
      exact ⟨rfl, rfl, rfl⟩

namespace Item

variable {origin : Origin} {tokens rest : List Token}

/-- A start tag is one item. -/
theorem ofTokens_startTokens {opening closing : Token} {kind : TagKind}
    {entries : List (List Token)} (opens : opening.kind = .tagOpen kind)
    (each : ∀ entry ∈ entries, EntryTokens entry) (closes : closing.kind = .tagClose) :
    ∃ attributes, ofTokens origin (opening :: (entries.flatten ++ closing :: rest)) =
      .startTag kind (startMarkup origin opening closing attributes) :: ofTokens origin rest := by
  have read := @readEntries_of_entries origin rest entries closing each closes
  have dropped : (entries.flatten ++ closing :: rest).drop (entries.flatten.length + 1) = rest := by
    rw [← List.drop_drop, List.drop_left]
    rfl
  refine ⟨(readEntries origin (entries.flatten ++ closing :: rest)).1, ?_⟩
  rw [ofTokens_startMarkup origin _ opens (Prod.ext rfl read), dropped]

/-- The item of a body that is not read as markup. -/
def ofRawText (file : Option String) (token : Token) : Item :=
  .region (token.location file) .rawText token.value

/-- A body that is not read as markup and its end tag are an item each. -/
theorem ofTokens_rawTail {body : List Token} {last : Token} {name : Chars} {kind : TagKind}
    (held : OptionalToken (.rawText name) body) (ends : last.kind = .endTag kind) :
    ofTokens origin (body ++ last :: rest) = body.map (ofRawText origin.file) ++
      .endTag (last.location origin.file) last.value :: ofTokens origin rest := by
  cases held with
  | none => exact ofTokens_endTag origin rest ends
  | some text =>
    rw [List.singleton_append, ofTokens_region origin _ (by rw [text]; rfl),
      ofTokens_endTag origin rest ends]
    rfl

/-- What is put together of the tokens of a construct does not depend on what follows. -/
theorem ofTokens_item (item : ItemTokens tokens) (next : nextIs .argumentsOpen rest = none) :
    ∃ made, ofTokens origin (tokens ++ rest) = made ++ ofTokens origin rest := by
  cases item with
  | leaf leaf =>
    rcases single_of_leaf leaf with text | region
    · exact ⟨[_], ofTokens_text origin rest text⟩
    · obtain ⟨held, kind⟩ := Option.isSome_iff_exists.1 region
      exact ⟨[_], ofTokens_region origin rest kind⟩
  | endTag ends => exact ⟨[_], ofTokens_endTag origin rest ends⟩
  | bare kind => exact ⟨[_], ofTokens_bare origin rest kind next⟩
  | called kind opens inside closes =>
    obtain ⟨text, count, read, left⟩ := readArguments_called opens inside closes rest
    have made := ofTokens_called origin _ kind read
    rw [left] at made
    exact ⟨[_], made⟩
  | delimited delimited =>
    cases delimited with
    | echo opens content closes =>
      exact ⟨[_], ofTokens_echoTokens origin rest opens content closes⟩
    | comment opens content closes =>
      exact ⟨[_], ofTokens_commentTokens origin rest opens content closes⟩
  | @startTag opening closing tag entries tail opens each closes follows =>
    obtain ⟨attributes, start⟩ :=
      @ofTokens_startTokens origin (tail ++ rest) _ _ _ _ opens each closes
    rw [List.cons_append, List.append_assoc, List.cons_append, start]
    cases follows with
    | selfClosing | markup => exact ⟨[_], rfl⟩
    | @raw body last kind _ _ held ends =>
      rw [List.append_assoc, List.singleton_append, ofTokens_rawTail held ends]
      refine ⟨.startTag tag (startMarkup origin opening closing attributes) ::
        (body.map (ofRawText origin.file) ++
          [.endTag (last.location origin.file) last.value]), ?_⟩
      rw [List.cons_append, List.append_assoc, List.singleton_append]

/-- What is put together of the tokens of constructs does not depend on what follows. -/
theorem ofTokens_items {items : List (List Token)} (each : ∀ item ∈ items, ItemTokens item)
    (next : nextIs .argumentsOpen rest = none) :
    ∃ made, ofTokens origin (items.flatten ++ rest) = made ++ ofTokens origin rest := by
  induction items with
  | nil => exact ⟨[], rfl⟩
  | cons item items ih =>
    rw [List.forall_mem_cons] at each
    obtain ⟨later, made⟩ := ih each.2
    have notArguments : nextIs .argumentsOpen (items.flatten ++ rest) = none := by
      cases items with
      | nil => exact next
      | cons head items =>
        obtain ⟨first, more, rfl, other⟩ := (each.2 head List.mem_cons_self).head
        exact nextIs_of_head other _
    obtain ⟨first, madeFirst⟩ := @ofTokens_item origin item _ each.1 notArguments
    rw [List.flatten_cons, List.append_assoc]
    exact ⟨first ++ later, by rw [madeFirst, made, List.append_assoc]⟩

/-- Where the start tag of an element that is not read as markup stands among the tokens of a
template, the items are one for the start tag, one for the body that was read behind it, and one for
the end tag at which reading stopped. -/
theorem ofTokens_rawStart {dialect : Dialect} (file : Option String) {source : Chars}
    (read : (scan dialect source).fault = none) {before entries rest : List Token}
    {opening closing : Token}
    (split : (scan dialect source).tokens = before ++ opening :: (entries ++ closing :: rest))
    (start : RawStart opening entries closing) :
    ∃ earlier kind attributes body last later, rest = body ++ last :: later ∧
      ReadRaw source (opening.value.drop 1) closing.stop.offset body last ∧
      ofTokens ⟨dialect.registry, file, source⟩ (scan dialect source).tokens = earlier ++
        .startTag kind (startMarkup ⟨dialect.registry, file, source⟩ opening closing attributes) ::
          (body.map (ofRawText file) ++ .endTag (last.location file) last.value ::
            ofTokens ⟨dialect.registry, file, source⟩ later) := by
  have reads := reads_scan dialect source
  rw [read] at reads
  obtain ⟨kind, opens⟩ := start.opens
  obtain ⟨front, items, rfl, fronted, each, tokens⟩ := (streams_of_reads reads).split split opens
  obtain ⟨others, last, _, same, inside, closes⟩ := tokens
  -- No entry of a start tag has a token that ends it, so the two splits agree.
  have inner : ∀ token ∈ others.flatten, token.kind.bounds = false := by
    intro token member
    obtain ⟨entry, among, found⟩ := List.mem_flatten.1 member
    exact (inside entry among).inner token found
  obtain ⟨rfl, rfl, rfl⟩ := split_at_close same start.inside start.closes
    (fun token member ends => by simpa [ends, TokenKind.bounds] using inner token member) closes
  have bodies := rawBodies_scan dialect source read
  rw [split] at bodies
  obtain ⟨body, ending, later, rfl, readRaw⟩ :=
    bodies.of_split opens inner start.closes start.bracket start.raw
  obtain ⟨endKind, ends⟩ := readRaw.last
  have held : OptionalToken (.rawText (lower (opening.value.drop 1))) body := by
    rcases readRaw.body with ⟨rfl, _⟩ | ⟨token, rfl, text, _⟩
    · exact .none
    · exact .some text
  obtain ⟨attributes, tag⟩ := @ofTokens_startTokens ⟨dialect.registry, file, source⟩
    (body ++ ending :: later) _ _ _ _ opens inside start.closes
  rw [ofTokens_rawTail held ends] at tag
  obtain ⟨made, makes⟩ := @ofTokens_items ⟨dialect.registry, file, source⟩
    (opening :: (others.flatten ++ closing :: (body ++ ending :: later))) _ each
    (by simp [nextIs, opens])
  rw [tag] at makes
  rw [split, List.append_assoc]
  cases fronted with
  | none => exact ⟨made, kind, attributes, body, ending, later, rfl, readRaw, makes⟩
  | @some token ofFront =>
    refine ⟨.region (token.location file) .frontMatter token.value :: made, kind, attributes, body,
      ending, later, rfl, readRaw, ?_⟩
    rw [List.singleton_append, ofTokens_region _ _ (by rw [ofFront]; rfl), makes, List.cons_append]

end Item

end BladeTemplate
