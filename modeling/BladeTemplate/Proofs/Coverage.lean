import BladeTemplate.Proofs.Reading

/-!
# Tokens cover the template

The tokens of a template stand in it one after the other, and what lies between two of them is
known: nothing, the spaces before an argument list, the white space of a start tag, or an equals
sign. A fault ends the tokens early and changes nothing for those before it.

* `Gap` is what may lie between two tokens, `insideTag` tells where white space is allowed;
* `Covered` is the same for the tokens from an offset on, and `Place.covers_of_reads` the induction
  over the grammar;
* `scan_covers_source` is the result for whole templates.
-/

namespace BladeTemplate

open Text

/-! ## Between two tokens -/

/-- Whether a start tag is open after a token of the given kind, if one is open before it or not. -/
def TokenKind.tagOpenAfter (kind : TokenKind) (inTag : Bool) : Bool :=
  match kind with
  | .tagOpen _ => true
  | .tagClose => false
  | _ => inTag

theorem TokenKind.tagOpenAfter_of_leaf {kind : TokenKind} (leaf : kind.isLeaf = true)
    (inTag : Bool) : kind.tagOpenAfter inTag = inTag := by
  cases kind with
  | tagOpen | tagClose => cases leaf
  | _ => rfl

/-- Whether a start tag is open after the given tokens, if one is open before them or not. -/
def tagOpenAfter (inTag : Bool) (tokens : List Token) : Bool :=
  tokens.foldl (fun inTag token => token.kind.tagOpenAfter inTag) inTag

/-- Whether a start tag is open after the first tokens of a template. -/
def insideTag (tokens : List Token) : Bool :=
  tagOpenAfter false tokens

/-- What may lie between a token and the next one. -/
inductive Gap (source : Chars) (inTag : Bool) (first second : Token) : Prop
  | none : first.stop.offset = second.start.offset → Gap source inTag first second
  | inline : first.kind = .directiveName → second.kind = .argumentsOpen →
      InlineGap source first.stop.offset second.start.offset → Gap source inTag first second
  | space : inTag = true → TagGap source first.stop.offset second.start.offset →
      Gap source inTag first second
  | equals {kind : AttributeKind} : first.kind = .attributeName kind →
      second.kind = .attributeValue →
      EqualsGap source first.stop.offset second.start.offset → Gap source inTag first second

/-- The tokens end with the end of the template or, after a fault, without it. -/
def Ended (source : Chars) (faulted : Bool) (tokens : List Token) : Prop :=
  ∃ body last, tokens = body ++ last ∧ (∀ token ∈ body, token.kind ≠ .eof) ∧
    if faulted then last = []
    else ∃ eof, last = [eof] ∧ eof.kind = .eof ∧ eof.At source source.length source.length

theorem Ended.cons {source : Chars} {faulted : Bool} {token : Token} {tokens : List Token}
    (other : token.kind ≠ .eof) (ended : Ended source faulted tokens) :
    Ended source faulted (token :: tokens) := by
  obtain ⟨body, last, rfl, plain, ends⟩ := ended
  exact ⟨token :: body, last, rfl, List.forall_mem_cons.2 ⟨other, plain⟩, ends⟩

theorem Ended.unfinished {source : Chars} {tokens : List Token} (ended : Ended source true tokens)
    {token : Token} (member : token ∈ tokens) : token.kind ≠ .eof := by
  obtain ⟨body, last, rfl, plain, ends⟩ := ended
  obtain rfl : last = [] := ends
  rw [List.append_nil] at member
  exact plain token member

/-! ## From an offset on -/

/-- The tokens cover the template from an offset on, where a start tag may be open. -/
structure Covered (source : Chars) (faulted inTag : Bool) (n : Nat) (tokens : List Token) :
    Prop where
  bound : n ≤ source.length
  placed : ∀ token ∈ tokens, ∃ a b, token.At source a b ∧ n ≤ a ∧ b ≤ source.length
  ordered : tokens.Pairwise fun first second => first.stop.offset ≤ second.start.offset
  gaps : ∀ before first second after, tokens = before ++ first :: second :: after →
    Gap source (tagOpenAfter inTag (before ++ [first])) first second
  ended : Ended source faulted tokens

theorem Covered.mono {source : Chars} {faulted inTag : Bool} {n a : Nat} {tokens : List Token}
    (earlier : n ≤ a) (covered : Covered source faulted inTag a tokens) :
    Covered source faulted inTag n tokens := by
  refine ⟨Nat.le_trans earlier covered.bound, ?_, covered.ordered, covered.gaps, covered.ended⟩
  intro token member
  obtain ⟨b, c, placed, start, stop⟩ := covered.placed token member
  exact ⟨b, c, placed, Nat.le_trans earlier start, stop⟩

/-- A token, and those after it. -/
theorem Covered.cons {source : Chars} {faulted inTag after : Bool} {n m k : Nat} {token : Token}
    {tokens : List Token} (placed : token.At source n m) (other : token.kind ≠ .eof)
    (opens : token.kind.tagOpenAfter inTag = after) (mk : m ≤ k)
    (later : Covered source faulted after k tokens)
    (gap : ∀ next rest, tokens = next :: rest → Gap source after token next) :
    Covered source faulted inTag n (token :: tokens) := by
  have nm := placed.ordered
  have bound := later.bound
  refine ⟨by omega, ?_, ?_, ?_, later.ended.cons other⟩
  · intro found member
    rcases List.mem_cons.1 member with rfl | inLater
    · exact ⟨n, m, placed, Nat.le_refl n, by omega⟩
    · obtain ⟨b, c, at_, start, stop⟩ := later.placed found inLater
      exact ⟨b, c, at_, by omega, stop⟩
  · refine List.pairwise_cons.2 ⟨?_, later.ordered⟩
    intro found member
    obtain ⟨b, c, at_, start, _⟩ := later.placed found member
    rw [placed.stop, at_.start]
    omega
  · intro before first second rest split
    cases before with
    | nil =>
      obtain ⟨rfl, ahead⟩ := List.cons.inj split
      rw [List.nil_append, tagOpenAfter, List.foldl_cons, opens]
      exact gap second rest ahead
    | cons head before =>
      obtain ⟨rfl, ahead⟩ := List.cons.inj split
      rw [List.cons_append, tagOpenAfter, List.foldl_cons, opens]
      exact later.gaps before first second rest ahead

/-- A token right before the next one. -/
theorem Covered.touching {source : Chars} {faulted inTag : Bool} {n m k : Nat}
    {token next : Token} {tokens : List Token}
    (later : Covered source faulted inTag m (next :: tokens)) (placed : token.At source n m)
    (nextPlaced : next.At source m k) (other : token.kind ≠ .eof)
    (opens : token.kind.tagOpenAfter inTag = inTag) :
    Covered source faulted inTag n (token :: next :: tokens) := by
  refine later.cons placed other opens (Nat.le_refl m) ?_
  rintro found rest ⟨⟩
  exact .none (placed.stop.trans nextPlaced.start.symm)

/-! ## Along the grammar -/

theorem EchoAt.start {source : Chars} {style : EchoStyle} {opening content closing : Token}
    {n m : Nat} (read : EchoAt source style opening content closing n m) :
    opening.start.offset = n := by
  obtain ⟨_, _, first, _⟩ := read.placed
  exact first.start

theorem CommentAt.start {source : Chars} {opening content closing : Token} {n m : Nat}
    (read : CommentAt source opening content closing n m) : opening.start.offset = n := by
  obtain ⟨_, _, first, _⟩ := read.placed
  exact first.start

namespace Place

/-- Whether the place lies in a start tag. -/
def inTag : Place → Bool
  | .tag _ | .value _ => true
  | _ => false

/-- How the first token at a place and an offset stands to it. -/
def Meets (source : Chars) (n : Nat) (token : Token) : Place → Prop
  | .arguments => token.kind = .argumentsOpen ∧ token.start.offset = n
  | .value _ => token.kind = .attributeValue ∧ token.start.offset = n
  | .tag _ => TagGap source n token.start.offset
  | _ => token.start.offset = n

/-- Between a token and the first one of the place where it stops there is a gap of the right
kind. -/
theorem Meets.gap {source : Chars} {place : Place} {n m : Nat} {token next : Token}
    (placed : token.At source n m) (meets : place.Meets source m next) :
    Gap source place.inTag token next := by
  cases place with
  | tag => exact .space rfl (placed.stop ▸ meets)
  | arguments | value => exact .none (placed.stop.trans meets.2.symm)
  | start | content | rawBody | rawEnd => exact .none (placed.stop.trans (Eq.symm meets))

/-- What is known about the tokens at a place. -/
structure Covers (source : Chars) (faulted : Bool) (n : Nat) (tokens : List Token)
    (place : Place) : Prop where
  covered : Covered source faulted place.inTag n tokens
  meets : ∀ next rest, tokens = next :: rest → place.Meets source n next

variable {source : Chars} {faulted inTag : Bool} {n m : Nat} {token : Token}
  {tokens : List Token} {place : Place}

theorem covers_cons (meets : place.Meets source n token)
    (covered : Covered source faulted place.inTag n (token :: tokens)) :
    place.Covers source faulted n (token :: tokens) := by
  refine ⟨covered, ?_⟩
  rintro next rest ⟨⟩
  exact meets

/-- White space before the next part of a start tag. -/
theorem covers_spaced {name : Chars} (gap : TagGap source n m) (start : token.start.offset = m)
    (covered : Covered source faulted true m (token :: tokens)) :
    (Place.tag name).Covers source faulted n (token :: tokens) := by
  rw [← start] at gap
  exact covers_cons gap (covered.mono (start ▸ gap.ordered))

/-- A token and the place where it stops. -/
theorem Covers.after (later : place.Covers source faulted m tokens) (placed : token.At source n m)
    {kind : TokenKind} (of : token.kind = kind) (other : kind ≠ .eof)
    (opens : kind.tagOpenAfter inTag = place.inTag) :
    Covered source faulted inTag n (token :: tokens) := by
  refine later.covered.cons placed (of ▸ other) (of ▸ opens) (Nat.le_refl m) ?_
  intro next rest split
  exact (later.meets next rest split).gap placed

/-- Three tokens in a row that neither open nor close a start tag. -/
theorem Covers.afterThree (later : place.Covers source faulted m tokens) {a b : Nat}
    {opening content closing : Token} (first : opening.At source n a)
    (second : content.At source a b) (third : closing.At source b m)
    (inner : ∀ token ∈ [opening, content, closing], token.kind ≠ .eof ∧
      token.kind.tagOpenAfter place.inTag = place.inTag) :
    Covered source faulted place.inTag n (opening :: content :: closing :: tokens) := by
  simp only [List.forall_mem_cons] at inner
  obtain ⟨⟨other, opens⟩, ⟨otherContent, contentOpens⟩, ⟨otherClosing, closingOpens⟩, -⟩ := inner
  have last := later.after third rfl otherClosing closingOpens
  have middle := last.touching second third otherContent contentOpens
  exact middle.touching first second other opens

theorem Covers.afterEcho (later : place.Covers source faulted m tokens) {style : EchoStyle}
    {opening content closing : Token} (read : EchoAt source style opening content closing n m) :
    Covered source faulted place.inTag n (opening :: content :: closing :: tokens) := by
  obtain ⟨a, b, first, second, third⟩ := read.placed
  refine later.afterThree first second third ?_
  simp [read.openingKind, read.contentKind, read.closingKind, TokenKind.tagOpenAfter]

theorem Covers.afterComment (later : place.Covers source faulted m tokens)
    {opening content closing : Token} (read : CommentAt source opening content closing n m) :
    Covered source faulted place.inTag n (opening :: content :: closing :: tokens) := by
  obtain ⟨a, b, first, second, third⟩ := read.placed
  refine later.afterThree first second third ?_
  simp [read.openingKind, read.contentKind, read.closingKind, TokenKind.tagOpenAfter]

/-- The tokens of the grammar cover the template from their place on. -/
theorem covers_of_reads {source : Chars} {faulted : Bool} {place : Place} {n : Nat}
    {tokens : List Token} (reads : Reads source faulted place n tokens) :
    place.Covers source faulted n tokens := by
  induction reads with
  | @eof n token whole kind placed end_ =>
    subst end_ whole
    refine ⟨⟨Nat.le_refl _, ?_, List.pairwise_singleton _ _, ?_, ?_⟩, ?_⟩
    · intro found member
      rw [List.mem_singleton.1 member]
      exact ⟨_, _, placed, Nat.le_refl _, Nat.le_refl _⟩
    · intro before first second after split
      have counted := congrArg List.length split
      simp at counted
      omega
    · exact ⟨[], [token], rfl, by simp, token, rfl, kind, placed⟩
    · rintro next rest ⟨⟩
      exact placed.start
  | stop cut bound =>
    subst cut
    refine ⟨⟨bound, by simp, .nil, by simp, [], [], rfl, by simp, rfl⟩, ?_⟩
    rintro next rest ⟨⟩
  -- Constructs of one token.
  | front kind placed _ _ ih =>
    exact covers_cons placed.start (ih.after placed kind nofun rfl)
  | noFront _ ih => exact ⟨ih.covered, ih.meets⟩
  | leaf leaf placed _ _ ih =>
    refine covers_cons placed.start
      (ih.after placed rfl ?_ (TokenKind.tagOpenAfter_of_leaf leaf false))
    intro ends
    rw [ends] at leaf
    cases leaf
  | endTag _ kind placed _ _ _ ih | rawEnd _ kind placed _ _ _ ih =>
    exact covers_cons placed.start (ih.after placed kind nofun rfl)
  | rawText kind placed _ _ ih =>
    exact covers_cons placed.start (ih.after placed kind nofun rfl)
  | noRawText _ ih => exact ⟨ih.covered, ih.meets⟩
  | echo read _ ih => exact covers_cons read.start (ih.afterEcho read)
  | comment read _ ih => exact covers_cons read.start (ih.afterComment read)
  -- Directives: their argument lists stand after spaces.
  | directive kind placed _ _ ih =>
    exact covers_cons placed.start (ih.after placed kind nofun rfl)
  | directiveWith kind placed _ gap _ ih =>
    refine covers_cons placed.start
      (ih.covered.cons placed (by simp [kind]) (by rw [kind]; rfl) gap.ordered ?_)
    intro next rest split
    obtain ⟨opens, start⟩ := ih.meets next rest split
    exact .inline kind opens (by rw [placed.stop, start]; exact gap)
  | noArguments openKind openAt _ closeKind closeAt _ _ ih =>
    have closing := ih.after closeAt closeKind nofun rfl
    exact covers_cons ⟨openKind, openAt.start⟩
      (closing.touching openAt closeAt (by simp [openKind]) (by rw [openKind]; rfl))
  | arguments openKind openAt _ insideKind insideAt closeKind closeAt _ _ ih =>
    exact covers_cons ⟨openKind, openAt.start⟩ (ih.afterThree openAt insideAt closeAt
      (by simp [openKind, insideKind, closeKind, TokenKind.tagOpenAfter]))
  -- Start tags: white space stands before each of their parts.
  | tagOpen kind placed _ _ _ _ ih =>
    exact covers_cons placed.start (ih.after placed kind nofun rfl)
  | tagClose gap kind placed _ _ ih | rawOpen gap kind placed _ _ _ ih =>
    exact covers_spaced gap placed.start (ih.after placed kind nofun rfl)
  | tagEcho gap read _ ih => exact covers_spaced gap read.start (ih.afterEcho read)
  | tagComment gap read _ ih => exact covers_spaced gap read.start (ih.afterComment read)
  | entry gap kind placed _ ih =>
    exact covers_spaced gap placed.start (ih.after placed kind nofun rfl)
  | entryWith gap kind placed equals _ ih =>
    refine covers_spaced gap placed.start
      (ih.covered.cons placed (by simp [kind]) (by rw [kind]; rfl) equals.ordered ?_)
    intro next rest split
    obtain ⟨value, start⟩ := ih.meets next rest split
    exact .equals kind value (by rw [placed.stop, start]; exact equals)
  | value kind placed _ ih =>
    exact covers_cons ⟨kind, placed.start⟩ (ih.after placed kind nofun rfl)

end Place

/-- The tokens of every template cover it: each is the part of the template between its offsets,
they stand in order from the start of the template on, with gaps of known kinds between them. They
end with the end of the template, and with a fault without it. -/
theorem scan_covers_source (dialect : Dialect) (source : Chars) :
    let read := scan dialect source
    (∀ token ∈ read.tokens, token.start.offset ≤ token.stop.offset ∧
      token.stop.offset ≤ source.length ∧
      ∀ file, (token.location file).slice source = token.value) ∧
    (read.tokens.Pairwise fun first second => first.stop.offset ≤ second.start.offset) ∧
    (∀ first rest, read.tokens = first :: rest → first.start.offset = 0) ∧
    (∀ before first second after, read.tokens = before ++ first :: second :: after →
      Gap source (insideTag (before ++ [first])) first second) ∧
    (read.fault = none → ∃ body eof, read.tokens = body ++ [eof] ∧ eof.kind = .eof ∧
      eof.start.offset = source.length ∧ ∀ token ∈ body, token.kind ≠ .eof) ∧
    (read.fault ≠ none → ∀ token ∈ read.tokens, token.kind ≠ .eof) := by
  intro read
  have covers := Place.covers_of_reads (reads_scan dialect source)
  have covered := covers.covered
  have ended := covered.ended
  refine ⟨?_, covered.ordered, covers.meets, covered.gaps, ?_, ?_⟩
  · intro token member
    obtain ⟨a, b, placed, _, bound⟩ := covered.placed token member
    refine ⟨?_, ?_, ?_⟩
    · rw [placed.start, placed.stop]
      exact placed.ordered
    · rw [placed.stop]
      exact bound
    · intro file
      rw [(placed.spans file).slice, placed.value]
  · intro whole
    rw [whole] at ended
    obtain ⟨body, last, split, plain, eof, rfl, kind, placed⟩ := ended
    exact ⟨body, eof, split, kind, placed.start, plain⟩
  · intro faulted token member
    rw [Option.isSome_iff_ne_none.2 faulted] at ended
    exact ended.unfinished member

end BladeTemplate
