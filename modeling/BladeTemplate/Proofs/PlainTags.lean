import BladeTemplate.Proofs.Preserved
import BladeTemplate.Proofs.TagEntries
import BladeTemplate.Proofs.Transcript

/-!
# Tags that close themselves

The text of a tag that closes itself, with nothing but plain entries, and how it is read: as one
start tag with just these entries, without a fault and without a word. The white space between the
entries does not matter, so the texts before and after formatting are read alike.

* `PlainEntry` is an entry as it is written, `MarkupName.selfClosing` the text of such a tag;
* `ScanState.passes_entry` reads one entry, `ScanState.passes_closed` a whole tag by induction;
* `ScanState.ready_closed` reads it in a template.
-/

namespace BladeTemplate

open Text Lookahead

/-! ## Texts -/

/-- Whether a character may stand in the name of a plain entry. -/
def isEntryChar (c : Char) : Bool :=
  isWordChar c || c = '-'

/-- An entry of a start tag: a name of letters, digits and hyphens, alone or with a value that is
put in double quotes. -/
structure PlainEntry where
  name : Chars
  value : Option Chars
  nonempty : name ≠ []
  word : ∀ c ∈ name, isEntryChar c = true
  quotable : ∀ inside, value = some inside → ∀ c ∈ inside, c ≠ doubleQuote ∧ c ≠ '{' ∧ c ≠ '\n'

namespace PlainEntry

variable (entry : PlainEntry)

/-- The value in its quotes. -/
def quoted : Option Chars :=
  entry.value.map fun inside => doubleQuote :: inside ++ [doubleQuote]

/-- The entry as it is written. -/
def text : Chars :=
  entry.name ++ (entry.quoted.map ('=' :: ·)).getD []

/-- What the entry is read as, wherever it stands. -/
def parsed (registry : Registry) : Attribute where
  location := default
  name := entry.name
  value := entry.quoted
  kind := (classifyAttribute registry entry.name entry.quoted.isSome).1

/-- The entries one after the other, each behind the given white space. -/
def spread (gap : Chars) (entries : List PlainEntry) : Chars :=
  entries.flatMap (gap ++ ·.text)

end PlainEntry

/-- The text of a tag that closes itself, with the given white space in front of every entry and in
front of its end. -/
def MarkupName.selfClosing (tag : MarkupName) (gap close : Chars) (entries : List PlainEntry) :
    Chars :=
  '<' :: (tag.text ++ (PlainEntry.spread gap entries ++ (close ++ ['/', '>'])))

/-- An entry without its place. -/
def Attribute.unplaced (entry : Attribute) : Attribute :=
  { entry with location := default }

/-! ## What an entry is made of -/

/-- Only what stands in place of a name is an echo. -/
theorem classifyAttribute_ne_hostEcho (registry : Registry) (name : Chars) (hasValue : Bool) :
    (classifyAttribute registry name hasValue).1 ≠ .hostEcho := by
  unfold classifyAttribute
  simp only
  repeat' split
  all_goals nofun

theorem isPlainNameChar_of_isEntryChar {c : Char} (word : isEntryChar c = true) :
    isPlainNameChar c = true := by
  -- None of the characters that mean something inside a start tag is that of a word.
  have other (d : Char) (odd : isEntryChar d = false) : c ≠ d := by
    rintro rfl
    rw [odd] at word
    cases word
  have noSpace : isTagSpace c = false := by
    simp only [isTagSpace, other ' ' (by decide), other '\t' (by decide), other '\r' (by decide),
      other '\n' (by decide), other (Char.ofNat 0x0C) (by decide), decide_false, Bool.or_self]
  have noQuote : isQuote c = false := by
    simp only [isQuote, other apostrophe (by decide), other doubleQuote (by decide), decide_false,
      Bool.or_self]
  simp [isPlainNameChar, endsAttributeName, noSpace, noQuote, other '=' (by decide),
    other '>' (by decide), other '{' (by decide), other '/' (by decide), other '@' (by decide)]

theorem isNameChar_of_isTagSpace {c : Char} (space : isTagSpace c = true) :
    Tag.isNameChar c = false := by
  simp only [isTagSpace, Bool.or_eq_true, decide_eq_true_eq] at space
  rcases space with (((rfl | rfl) | rfl) | rfl) | rfl <;> decide

namespace PlainEntry

variable (entry : PlainEntry)

theorem plain : ∀ c ∈ entry.name, isPlainNameChar c = true :=
  fun c member => isPlainNameChar_of_isEntryChar (entry.word c member)

theorem startsAttribute (rest : Chars) : StartsAttribute (entry.text ++ rest) := by
  rw [text, List.append_assoc]
  exact startsAttribute_of_plain entry.nonempty entry.plain _

/-- Its name is not that of a directive. -/
theorem unambiguous (registry : Registry) (hasValue : Bool) :
    (classifyAttribute registry entry.name hasValue).2 = false := by
  have unmarked : startsWith ['@'] entry.name = false := by
    rw [← Bool.not_eq_true, startsWith_iff]
    rintro ⟨rest, split⟩
    have sign := entry.plain '@' (by simp [split])
    exact (of_isPlainNameChar sign).2.2.2 rfl
  unfold classifyAttribute
  simp only [show "@".toList = ['@'] from rfl, unmarked, Bool.false_eq_true, if_false]
  repeat' split
  all_goals rfl

/-- It can be moved. -/
theorem isFence_parsed (registry : Registry) : (entry.parsed registry).isFence = false := by
  have notEcho := classifyAttribute_ne_hostEcho registry entry.name entry.quoted.isSome
  simp [Attribute.isFence, parsed, notEcho]

/-- It is written as it was read. -/
theorem attributeText_parsed (registry : Registry) :
    Page.attributeText (entry.parsed registry) = entry.text := by
  unfold Page.attributeText parsed text
  cases found : entry.value with
  | none => simp [quoted, found]
  | some inside =>
    have noBrace : '{' ∉ doubleQuote :: inside ++ [doubleQuote] := by
      intro member
      rcases List.mem_append.1 member with inFront | last
      · rcases List.mem_cons.1 inFront with first | inInside
        · exact absurd first (by decide)
        · exact (entry.quotable inside found '{' inInside).2.1 rfl
      · exact absurd (List.mem_singleton.1 last) (by decide)
    have same := normalizeEchoesAfter_of_plain none noBrace
    simp only [quoted, found, Option.map_some, Option.getD_some, normalizeEchoes, same,
      List.append_assoc, List.singleton_append]

theorem inLine : '\n' ∉ entry.text := by
  have inName : '\n' ∉ entry.name := by
    intro member
    have stops := (of_isPlainNameChar (entry.plain '\n' member)).1
    exact absurd stops (by decide)
  unfold text quoted
  cases found : entry.value with
  | none => simpa using inName
  | some inside =>
    have inValue : '\n' ∉ inside := fun member => (entry.quotable inside found '\n' member).2.2 rfl
    have notQuote : '\n' ≠ doubleQuote := by decide
    simp [inName, inValue, notQuote]

theorem nonempty_text : entry.text ≠ [] :=
  List.append_ne_nil_of_left_ne_nil entry.nonempty _

end PlainEntry

theorem quotedTailLength_inside {quote : Char} {inside : Chars}
    (quotable : ∀ c ∈ inside, c ≠ quote ∧ c ≠ '{') (rest : Chars) :
    quotedTailLength quote (inside ++ quote :: rest) = some (inside.length + 1) := by
  induction inside with
  | nil => rw [List.nil_append, quotedTailLength, if_pos rfl]; rfl
  | cons c inside ih =>
    obtain ⟨other, noBrace⟩ := quotable c List.mem_cons_self
    have single : embeddedLength (c :: (inside ++ quote :: rest)) = none := by
      simp [embeddedLength, commentOpener, EchoStyle.startOf, startsWith, EchoStyle.opener,
        Ne.symm noBrace]
    rw [List.cons_append, quotedTailLength, if_neg other, single,
      ih fun d member => quotable d (List.mem_cons_of_mem c member)]
    simp only [Option.map_some, List.length_cons, Option.some.injEq]
    omega

/-! ## Behind an entry -/

/-- What may stand behind an entry: white space or the end of the tag, and no equals sign. -/
structure EndsEntry (later : Chars) : Prop where
  stops : (∃ c, later.head? = some c ∧ isTagSpace c = true) ∨ ['/', '>'] <+: later
  noSign : (later.drop (countWhile isTagSpace later)).head? ≠ some '='

theorem endsEntry_gap {gap text : Chars} (spaces : ∀ c ∈ gap, isTagSpace c = true)
    (head : ∀ c, text.head? = some c → isTagSpace c = false ∧ c ≠ '=')
    (apart : gap ≠ [] ∨ ['/', '>'] <+: text) : EndsEntry (gap ++ text) where
  stops := by
    cases gap with
    | nil => exact .inr (apart.resolve_left (fun absent => absent rfl))
    | cons c gap => exact .inl ⟨c, rfl, spaces c List.mem_cons_self⟩
  noSign := by
    rw [countWhile_append spaces fun c first => (head c first).1, List.drop_left]
    exact fun sign => (head '=' sign).2 rfl

theorem endsEntry_spread {gap close later : Chars} (some_ : gap ≠ [])
    (spaces : ∀ c ∈ gap, isTagSpace c = true) (ends : ∀ c ∈ close, isTagSpace c = true)
    (entries : List PlainEntry) :
    EndsEntry (PlainEntry.spread gap entries ++ (close ++ '/' :: '>' :: later)) := by
  cases entries with
  | nil =>
    show EndsEntry (close ++ '/' :: '>' :: later)
    refine endsEntry_gap ends ?_ (.inr ⟨later, rfl⟩)
    rintro c ⟨⟩
    decide
  | cons entry entries =>
    obtain ⟨c, more, name⟩ := List.exists_cons_of_ne_nil entry.nonempty
    have goesOn := (of_isPlainNameChar (entry.plain c (by simp [name]))).1
    have silent : isTagSpace c = false ∧ c ≠ '=' := by
      simp only [endsAttributeName, Bool.or_eq_false_iff, decide_eq_false_iff_not] at goesOn
      exact ⟨goesOn.1.1.1, goesOn.1.1.2⟩
    rw [PlainEntry.spread, List.flatMap_cons, List.append_assoc, List.append_assoc]
    refine endsEntry_gap spaces ?_ (.inl some_)
    intro d first
    rw [PlainEntry.text, name] at first
    cases first
    exact silent

/-- The name of an entry ends where white space or the end of the tag follows. -/
theorem attributeNameLength_entry (registry : Registry) (entry : PlainEntry) {later : Chars}
    (behind : EndsEntry later) :
    attributeNameLength registry (entry.name ++ later) = entry.name.length := by
  have size := List.length_pos_iff.2 entry.nonempty
  have unmarked : (entry.name ++ later).head? ≠ some '@' := by
    obtain ⟨c, more, name⟩ := List.exists_cons_of_ne_nil entry.nonempty
    have sign := (of_isPlainNameChar (entry.plain c (by simp [name]))).2.2.2
    rw [name]
    rintro ⟨⟩
    exact sign rfl
  have ended : attributeNameFrom registry (entry.name ++ later) false entry.name.length later =
      entry.name.length := by
    rcases behind.stops with ⟨c, first, space⟩ | ⟨rest, rfl⟩
    · obtain ⟨more, rfl⟩ := List.head?_eq_some_iff.1 first
      have ends : endsAttributeName c = true := by simp [endsAttributeName, space]
      rw [attributeNameFrom, if_pos ends, if_neg (by simp only [unmarked]; simp)]
    · rw [List.cons_append, attributeNameFrom, if_neg (by decide), if_pos (by simp)]
  unfold attributeNameLength
  rw [attributeNameFrom_plain entry.nonempty entry.plain, ended]
  omega

/-! ## Tokens and items -/

/-- The tokens that an entry is read as. -/
structure PlainEntry.Tokens (entry : PlainEntry) (registry : Registry) (name : Token)
    (value : Option Token) : Prop where
  kind : name.kind =
    .attributeName (classifyAttribute registry entry.name entry.quoted.isSome).1
  text : name.value = entry.name
  values : ∀ token, value = some token → token.kind = .attributeValue
  quoted : value.map (·.value) = entry.quoted

/-- The tokens of entries and of the end of the tag behind them. -/
structure ClosedTokens (registry : Registry) (entries : List PlainEntry) (tokens : List Token) :
    Prop where
  valueless : ∀ rest, Item.nextIs .attributeValue (tokens ++ rest) = none
  reads : ∀ origin rest, ∃ attributes closing,
    Item.readEntries origin (tokens ++ rest) = (attributes, some closing, tokens.length) ∧
      attributes.map Attribute.unplaced = entries.map (·.parsed registry) ∧
      closing.value = ['/', '>']

namespace ClosedTokens

variable {registry : Registry}

theorem close {closing : Token} (kind : closing.kind = .tagClose)
    (value : closing.value = ['/', '>']) : ClosedTokens registry [] [closing] where
  valueless rest := by simp [Item.nextIs, kind]
  reads origin rest :=
    ⟨[], closing, Item.readEntries_close origin rest kind, rfl, value⟩

theorem cons {entry : PlainEntry} {entries : List PlainEntry} {name : Token}
    {value : Option Token} {tokens : List Token} (read : entry.Tokens registry name value)
    (closed : ClosedTokens registry entries tokens) :
    ClosedTokens registry (entry :: entries) (name :: (value.toList ++ tokens)) where
  valueless rest := by simp [Item.nextIs, read.kind]
  reads origin rest := by
    obtain ⟨attributes, closing, later, same, bracket⟩ := closed.reads origin rest
    -- The token behind the name is its value, if it has one.
    have next : Item.nextIs .attributeValue (value.toList ++ (tokens ++ rest)) = value := by
      cases value with
      | none => exact closed.valueless rest
      | some token => simp [Item.nextIs, read.values token rfl]
    obtain ⟨kind, isKind⟩ : ∃ kind, name.kind = .attributeName kind := ⟨_, read.kind⟩
    have known := read.kind
    rw [isKind, TokenKind.attributeName.injEq] at known
    refine ⟨Item.readAttribute origin kind name value :: attributes, closing, ?_, ?_, bracket⟩
    · rw [List.cons_append, List.append_assoc,
        ((Item.readsEntry_attribute origin _ isKind next).cons origin later).1, List.length_cons,
        List.length_append, Nat.add_assoc, Nat.add_comm 1]
    · rw [List.map_cons, List.map_cons, same]
      congr 1
      simp only [Attribute.unplaced, Item.readAttribute, PlainEntry.parsed, read.text, read.quoted,
        entry.unambiguous, known]

end ClosedTokens

/-- A start tag that is read from the text of a tag that closes itself. -/
structure Markup.ReadFrom (markup : Markup) (registry : Registry) (tag : MarkupName)
    (entries : List PlainEntry) : Prop where
  tag : markup.tag = tag.text
  attributes : markup.attributes.map Attribute.unplaced = entries.map (·.parsed registry)
  selfClosing : markup.selfClosing = true
  closed : markup.closed = true
  endTag : markup.endTag = none

theorem ClosedTokens.ofTokens {registry : Registry} {tag : MarkupName} {entries : List PlainEntry}
    {tokens : List Token} (closed : ClosedTokens registry entries tokens) {opening : Token}
    {kind : TagKind} (opens : opening.kind = .tagOpen kind)
    (named : opening.value.drop 1 = tag.text)
    (origin : Origin) (rest : List Token) :
    ∃ markup : Markup, markup.ReadFrom registry tag entries ∧
      Item.ofTokens origin (opening :: tokens ++ rest) =
        .startTag kind markup :: Item.ofTokens origin rest := by
  obtain ⟨attributes, closing, read, same, bracket⟩ := closed.reads origin rest
  have made := Item.ofTokens_startMarkup origin _ opens read
  rw [List.drop_left] at made
  exact ⟨_, ⟨named, same, decide_eq_true bracket, rfl, rfl⟩, made⟩

/-! ## Reading -/

namespace ScanState

variable {dialect : Dialect} {s : ScanState} {tag gap close later : Chars} {start : Position}
  {outer : List OpenMode}

/-- The name of an attribute that is no directive's. -/
theorem passes_name {name behind : Chars} (top : s.modes = ⟨.tag tag, start⟩ :: outer)
    (spaces : ∀ c ∈ gap, isTagSpace c = true) (ahead : s.rest = gap ++ (name ++ behind))
    (starts : StartsAttribute (name ++ behind))
    (reads : attributeNameLength dialect.registry (name ++ behind) = name.length)
    (calm : ∀ hasValue, (classifyAttribute dialect.registry name hasValue).2 = false)
    (hasValue : Bool)
    (sign : decide ((behind.drop (countWhile isTagSpace behind)).head? = some '=') = hasValue) :
    Passes dialect s
      [(s.skip gap.length).token
        (.attributeName (classifyAttribute dialect.registry name hasValue).1) name.length]
      (((s.skip gap.length).skip name.length).afterName name) := by
  have nonempty : s.rest ≠ [] := by
    rw [ahead]
    exact List.append_ne_nil_of_right_ne_nil gap starts.nonempty
  have front : (s.skip gap.length).rest = name ++ behind := by simp [ahead]
  have after : ((s.skip gap.length).skip name.length).rest = behind := by
    rw [rest_skip, front, List.drop_left]
  have step := step_attribute dialect top spaces ahead starts
  unfold stepAttribute at step
  have named : (name ++ behind).take name.length = name := List.take_left
  simp only [front, reads, named, after, sign, calm, Bool.false_eq_true, if_false] at step
  refine passes_step nonempty step ?_ rfl
  unfold afterName
  simp only [after]
  subst sign
  by_cases valued : (behind.drop (countWhile isTagSpace behind)).head? = some '='
  · simp only [valued, if_true]
  · simp only [valued, if_false]

/-- A value in double quotes. -/
theorem passes_value {inside : Chars} (top : s.modes = ⟨.attributeValue tag, start⟩ :: outer)
    (quotable : ∀ c ∈ inside, c ≠ doubleQuote ∧ c ≠ '{')
    (ahead : s.rest = doubleQuote :: inside ++ [doubleQuote] ++ later) :
    Passes dialect s [s.token .attributeValue (inside.length + 2)]
      (s.skip (inside.length + 2)).pop := by
  have length : valueLength s.rest = some (inside.length + 2) := by
    have tail := quotedTailLength_inside quotable later
    rw [ahead, List.cons_append, List.cons_append, List.append_assoc, List.singleton_append,
      valueLength, if_pos (by decide), tail, Option.map_some]
    congr 1
    omega
  have step : s.step dialect =
      { tokens := [s.token .attributeValue (inside.length + 2)]
        next := .ok (s.skip (inside.length + 2)).pop } := by
    unfold step
    simp only [top, stepValue, length]
  exact passes_step (by simp [ahead]) step rfl rfl

/-- An entry, up to what stands behind it. -/
theorem passes_entry (entry : PlainEntry) (top : s.modes = ⟨.tag tag, start⟩ :: outer)
    (spaces : ∀ c ∈ gap, isTagSpace c = true) (ahead : s.rest = gap ++ (entry.text ++ later))
    (behind : EndsEntry later) :
    ∃ next name value, Passes dialect s (name :: value.toList) next ∧ next.rest = later ∧
      next.modes = s.modes ∧ entry.Tokens dialect.registry name value := by
  have starts := entry.startsAttribute later
  have calm := entry.unambiguous dialect.registry
  cases found : entry.value with
  | none =>
    have alone : entry.quoted = none := by simp [PlainEntry.quoted, found]
    have text : entry.text = entry.name := by simp [PlainEntry.text, alone]
    rw [text] at ahead starts
    have reads := attributeNameLength_entry dialect.registry entry behind
    have first := passes_name top spaces ahead starts reads calm false
      (decide_eq_false behind.noSign)
    have rest : ((s.skip gap.length).skip entry.name.length).rest = later := by simp [ahead]
    have ended : ((s.skip gap.length).skip entry.name.length).afterName entry.name =
        (s.skip gap.length).skip entry.name.length := by
      unfold afterName
      simp only [rest, if_neg behind.noSign]
    rw [ended] at first
    refine ⟨_, _, none, first, rest, rfl, ?_, ?_, by simp, by simp [alone]⟩
    · simp [token, alone]
    · simp [token, ahead]
  | some inside =>
    have quoted : entry.quoted = some (doubleQuote :: inside ++ [doubleQuote]) := by
      simp [PlainEntry.quoted, found]
    have text : entry.text ++ later =
        entry.name ++ '=' :: (doubleQuote :: inside ++ [doubleQuote] ++ later) := by
      simp [PlainEntry.text, quoted]
    rw [text] at ahead starts
    have reads : attributeNameLength dialect.registry
        (entry.name ++ '=' :: (doubleQuote :: inside ++ [doubleQuote] ++ later)) =
        entry.name.length := by
      have sign := (isSign_of_plain entry.nonempty entry.plain dialect.registry).reads
        (doubleQuote :: inside ++ [doubleQuote] ++ later)
      rwa [List.append_assoc, List.singleton_append] at sign
    have sign : (('=' :: (doubleQuote :: inside ++ [doubleQuote] ++ later)).drop
        (countWhile isTagSpace ('=' :: (doubleQuote :: inside ++ [doubleQuote] ++ later)))).head? =
          some '=' := by
      rw [countWhile, List.takeWhile_cons_of_neg (by decide)]
      rfl
    have first := passes_name top spaces ahead starts reads calm true (decide_eq_true sign)
    -- Neither in front of the equals sign nor behind it is white space.
    obtain ⟨t, isT⟩ : ∃ t, t = ((s.skip gap.length).skip entry.name.length).skip 1 := ⟨_, rfl⟩
    have rest : ((s.skip gap.length).skip entry.name.length).rest =
        '=' :: (doubleQuote :: inside ++ [doubleQuote] ++ later) := by
      rw [rest_skip, rest_skip, ahead, List.drop_left, List.drop_left]
    have valueAhead : t.rest = doubleQuote :: inside ++ [doubleQuote] ++ later := by
      rw [isT, rest_skip, rest]
      rfl
    have after := @afterName_sign _ _ entry.name [] [] (by simp)
      (fun c head => by cases head; decide) rest
    rw [List.length_nil, Nat.zero_add, ← isT, skip_zero] at after
    rw [after] at first
    have quotable : ∀ c ∈ inside, c ≠ doubleQuote ∧ c ≠ '{' := fun c member =>
      ⟨(entry.quotable inside found c member).1, (entry.quotable inside found c member).2.1⟩
    have second := @passes_value dialect (t.push (.attributeValue entry.name)) entry.name later
      t.position t.modes inside rfl quotable valueAhead
    have size : (doubleQuote :: inside ++ [doubleQuote]).length = inside.length + 2 := by simp
    refine ⟨_, _, some _, first.trans second, ?_, ?_, ?_, ?_, ?_, ?_⟩
    · rw [rest_pop, rest_skip, rest_push, valueAhead, ← size, List.drop_left]
    · rw [isT]
      rfl
    · rw [quoted]
      rfl
    · show (s.skip gap.length).rest.take entry.name.length = entry.name
      rw [rest_skip, ahead, List.drop_left, List.take_left]
    · rintro token ⟨⟩
      rfl
    · rw [quoted, Option.map_some]
      show some (t.rest.take (inside.length + 2)) = _
      rw [valueAhead, ← size, List.take_left]

/-- The end of a tag that closes itself. -/
theorem passes_close (top : s.modes = ⟨.tag tag, start⟩ :: outer)
    (spaces : ∀ c ∈ close, isTagSpace c = true) (ahead : s.rest = close ++ '/' :: '>' :: later) :
    Passes dialect s [(s.skip close.length).token .tagClose 2]
      ((s.skip close.length).skip 2).pop := by
  have count : countWhile isTagSpace s.rest = close.length := by
    rw [ahead]
    exact countWhile_gap spaces fun c first => by cases first; decide
  have rest : (s.skip close.length).rest = '/' :: '>' :: later := by simp [ahead]
  have step : s.step dialect =
      { tokens := [(s.skip close.length).token .tagClose 2]
        next := .ok ((s.skip close.length).skip 2).pop } := by
    unfold step
    simp only [top, stepTag, count, rest]
    simp [startsWith]
  exact passes_step (by simp [ahead]) step rfl rfl

/-- The entries of a tag and its end, by induction on the entries. -/
theorem passes_entries (some_ : gap ≠ []) (spaces : ∀ c ∈ gap, isTagSpace c = true)
    (ends : ∀ c ∈ close, isTagSpace c = true) (entries : List PlainEntry) (s : ScanState)
    (top : s.modes = ⟨.tag tag, start⟩ :: outer)
    (ahead : s.rest = PlainEntry.spread gap entries ++ (close ++ '/' :: '>' :: later)) :
    ∃ next tokens, Passes dialect s tokens next ∧ next.rest = later ∧ next.modes = outer ∧
      ClosedTokens dialect.registry entries tokens := by
  induction entries generalizing s with
  | nil =>
    have front : s.rest = close ++ '/' :: '>' :: later := ahead
    have rest : (s.skip close.length).rest = '/' :: '>' :: later := by simp [front]
    refine ⟨_, _, passes_close top ends front, ?_, ?_, .close rfl ?_⟩
    · rw [rest_pop, rest_skip, rest]
      rfl
    · simp [top]
    · show (s.skip close.length).rest.take 2 = _
      rw [rest]
      rfl
  | cons entry entries ih =>
    have split : s.rest = gap ++ (entry.text ++
        (PlainEntry.spread gap entries ++ (close ++ '/' :: '>' :: later))) := by
      rw [ahead, PlainEntry.spread, List.flatMap_cons, PlainEntry.spread]
      simp only [List.append_assoc]
    obtain ⟨middle, name, value, first, rest, modes, read⟩ := passes_entry entry top spaces split
      (endsEntry_spread some_ spaces ends entries)
    obtain ⟨next, tokens, second, done, left, closed⟩ := ih middle (modes.trans top) rest
    exact ⟨next, _, first.trans second, done, left, closed.cons read⟩

/-- A whole tag, from its angle bracket on. -/
theorem passes_closed (some_ : gap ≠ []) (spaces : ∀ c ∈ gap, isTagSpace c = true)
    (ends : ∀ c ∈ close, isTagSpace c = true) (tag : MarkupName) (entries : List PlainEntry)
    (top : s.modes = [⟨.tagStart, start⟩])
    (ahead : s.rest = tag.selfClosing gap close entries ++ later) :
    ∃ next opening tokens, Passes dialect s (opening :: tokens) next ∧ next.rest = later ∧
      next.modes = [] ∧ opening.kind = .tagOpen (Tag.kindOf tag.text) ∧
      opening.value.drop 1 = tag.text ∧ ClosedTokens dialect.registry entries tokens := by
  have shape : s.rest = '<' :: (tag.text ++
      (PlainEntry.spread gap entries ++ (close ++ '/' :: '>' :: later))) := by
    simp [ahead, MarkupName.selfClosing]
  have behind := @endsEntry_spread gap close later some_ spaces ends entries
  have length : Tag.nameLength (s.rest.drop 1) = tag.text.length := by
    rw [shape]
    refine nameLength_append tag ?_
    intro c first
    rcases behind.stops with ⟨d, found, space⟩ | ⟨rest, split⟩
    · obtain rfl : c = d := Option.some.inj (first.symm.trans found)
      exact isNameChar_of_isTagSpace space
    · rw [← split] at first
      cases first
      decide
  have named : (s.rest.drop 1).take tag.text.length = tag.text := by
    rw [shape]
    exact List.take_left
  have head : s.step dialect = s.stepTagStart := by
    unfold step
    rw [top]
  unfold stepTagStart at head
  simp only [length, named] at head
  have first := passes_step (by simp [shape]) head rfl rfl
  obtain ⟨t, isT⟩ : ∃ t, t = (s.skip (1 + tag.text.length)).become (.tag tag.text) := ⟨_, rfl⟩
  have tRest : t.rest = PlainEntry.spread gap entries ++ (close ++ '/' :: '>' :: later) := by
    rw [isT, rest_become, rest_skip, shape, ← List.drop_drop]
    exact List.drop_left
  have tModes : t.modes = [⟨.tag tag.text, start⟩] := by
    rw [isT]
    simp [become, top]
  rw [← isT] at first
  obtain ⟨next, tokens, second, rest, modes, closed⟩ :=
    passes_entries some_ spaces ends entries t tModes tRest
  refine ⟨next, _, tokens, first.trans second, rest, modes, rfl, ?_, closed⟩
  show (s.rest.take (1 + tag.text.length)).drop 1 = tag.text
  rw [shape, Nat.add_comm]
  exact List.take_left

/-- A tag in a template, given what is read behind it. -/
theorem ready_closed {origin : Origin} {told : List Item → Prop} (some_ : gap ≠ [])
    (spaces : ∀ c ∈ gap, isTagSpace c = true) (ends : ∀ c ∈ close, isTagSpace c = true)
    (tag : MarkupName) (entries : List PlainEntry) (after : After dialect origin later told) :
    Ready dialect origin (tag.selfClosing gap close entries ++ later) fun items =>
      ∃ markup more, Markup.ReadFrom markup dialect.registry tag entries ∧
        items = .startTag (Tag.kindOf tag.text) markup :: more ∧ told more := by
  obtain ⟨c, letters, name, alpha⟩ := tag.exists_cons
  have shape : tag.selfClosing gap close entries ++ later = '<' :: c :: (letters ++
      (PlainEntry.spread gap entries ++ (close ++ '/' :: '>' :: later))) := by
    simp [MarkupName.selfClosing, name]
  refine ready_of_tagStart shape alpha fun s start top ahead => ?_
  obtain ⟨next, opening, tokens, passes, rest, modes, kind, named, closed⟩ :=
    passes_closed some_ spaces ends tag entries top ahead
  refine (after next modes rest).of_passes passes ?_ ?_
  · intro more
    simp [Item.nextIs, kind]
  · intro more _ items
    obtain ⟨markup, read, same⟩ := closed.ofTokens kind named origin more
    exact ⟨markup, _, read, same, items⟩

end ScanState

end BladeTemplate
