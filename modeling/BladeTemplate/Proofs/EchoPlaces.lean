import BladeTemplate.Proofs.TagEntries

/-!
# Echoes inside start tags

An echo can be an entry of a start tag, or stand in the name or the value of an attribute. Entries
and quoted values know both styles; names and values without quotes only know escaped echoes, so
that there a raw one is read character by character.

* `EchoPlace` lists the places, `EchoPlace.Reached` says that the reader comes to one, and
  `EchoPlace.Holds` that the echo stands whole in the tokens of its place;
* `ReadsValue` is the reading of an attribute up to a value with an echo in it;
* `echoes_alike` says where the two styles are read alike.
-/

namespace BladeTemplate

open Text Lookahead

/-! ## Places -/

/-- Where an echo can stand in a start tag: as an entry, or in a name, a quoted value or one without
quotes, behind the part of it that leads. A sign is the name of an attribute with its equals
sign. -/
inductive EchoPlace where
  | entry
  | name (lead : Chars)
  | quoted (sign : Chars) (quote : Char) (lead : Chars)
  | bare (sign lead : Chars)

namespace EchoPlace

variable (registry : Registry) (style : EchoStyle) (expression : Chars)

/-- The text from the start of the entry to the echo. -/
def before : EchoPlace → Chars
  | entry => []
  | name lead => lead
  | quoted sign quote lead => sign ++ quote :: lead
  | bare sign lead => sign ++ lead

/-- Whether the reader comes to the place, whatever echo stands there and whatever follows it. -/
def Reached : EchoPlace → Prop
  | entry => True
  | name lead => lead ≠ [] ∧ ∃ grouped, ∀ rest, rest.head? = some '{' →
      StartsAttribute (lead ++ rest) ∧
        attributeNameFrom registry (lead ++ rest) false 0 (lead ++ rest) =
          attributeNameFrom registry (lead ++ rest) grouped lead.length rest
  | quoted sign quote lead => (∃ name, IsSign registry sign name) ∧ isQuote quote = true ∧
      ∀ rest, rest.head? = some '{' →
        quotedTailLength quote (lead ++ rest) =
          (quotedTailLength quote rest).map (lead.length + ·)
  | bare sign lead => (∃ name, IsSign registry sign name) ∧
      (∀ c, lead.head? = some c → isQuote c = false) ∧
      ∀ rest, rest.head? = some '{' →
        bareValueLength (lead ++ rest) = lead.length + bareValueLength rest

/-- Whether no echo, and in the name of an event no group, stands in the expression where it is read
character by character. -/
def Flat : EchoPlace → Prop
  | entry | quoted _ _ _ => True
  | name lead => ¬ EchoStyle.escaped.opener <:+: expression ∧
      (lead.head? = some '@' →
        '(' ∉ expression ∧ ∀ descriptor ∈ registry.descriptors, '{' ∉ descriptor.name)
  | bare _ _ => ¬ EchoStyle.escaped.opener <:+: expression

/-- Whether no character of the expression ends what the echo is in, where it is read character by
character. -/
def Admits : EchoPlace → Prop
  | entry | quoted _ _ _ => True
  | name _ => ∀ c ∈ expression, endsAttributeName c = false
  | bare _ _ => ∀ c ∈ expression, endsBareValue c = false

/-- Whether what the echo is in ends. -/
def Ends (after : Chars) : EchoPlace → Prop
  | entry | name _ | bare _ _ => True
  | quoted _ quote _ => (quotedTailLength quote after).isSome = true

/-- Whether the echo stands whole in the tokens of its place: an entry is the echo itself. -/
def Holds (tokens : List Token) : EchoPlace → Prop
  | entry => ∃ first content last later, tokens = first :: content :: last :: later ∧
      first.kind = .echoOpen style ∧ first.value = style.opener ∧
      content.kind = .echoContent style ∧ content.value = expression ∧
      last.kind = .echoClose style ∧ last.value = style.closer
  | name lead => ∃ held later more, tokens = held :: later ∧
      held.value = lead ++ style.enclose expression ++ more
  | quoted _ quote lead => ∃ first held later more, tokens = first :: held :: later ∧
      held.value = quote :: lead ++ style.enclose expression ++ more
  | bare _ lead => ∃ first held later more, tokens = first :: held :: later ∧
      held.value = lead ++ style.enclose expression ++ more

end EchoPlace

/-! ## Both styles in one place -/

section Places

variable {dialect : Dialect} {s : ScanState} {tag : Chars} {start : Position}
  {outer : List OpenMode} {gap expression after lead sign : Chars} {quote : Char}
  {style : EchoStyle}

/-- The tokens from the entry on that has the place, with an echo in it and a text behind it. -/
def EchoPlace.tokens (place : EchoPlace) (dialect : Dialect) (s : ScanState)
    (gap : Chars) (style : EchoStyle) (expression after : Chars) : List Token :=
  (({ s with rest := gap ++ (place.before ++ style.enclose expression ++ after) } :
    ScanState).run dialect).tokens

/-- The characters of the delimiters end neither names nor values. -/
theorem mem_raw_enclose {c : Char} (member : c ∈ EchoStyle.raw.enclose expression) :
    c = '{' ∨ c = '!' ∨ c = '}' ∨ c ∈ expression := by
  simp only [EchoStyle.enclose, EchoStyle.opener, EchoStyle.closer, List.mem_append, List.mem_cons,
    List.not_mem_nil, or_false] at member
  tauto

theorem mem_enclose_of_mem {c : Char} (style : EchoStyle) (member : c ∈ expression) :
    c ∈ style.enclose expression :=
  List.mem_append_left _ (List.mem_append_right _ member)

theorem head_enclose (style : EchoStyle) (expression after : Chars) :
    (style.enclose expression ++ after).head? = some '{' := by
  cases style <;> rfl

/-! ### Values -/

/-- The tokens of an attribute up to its value, which starts with the text in front of an echo, and
the length that is measured for the value. -/
def ReadsValue (dialect : Dialect) (s : ScanState) (front : Chars) (style : EchoStyle)
    (expression after : Chars) (length : Option Nat) (tokens : List Token) : Prop :=
  ∃ (first : Token) (name : Chars) (value : ScanState),
    tokens = first :: ((value.push (.attributeValue name)).run dialect).tokens ∧
      value.rest = front ++ style.enclose expression ++ after ∧ value.modes = s.modes ∧
      first.kind.name = "ATTRIBUTE_NAME" ∧ valueLength value.rest = length

/-- Whether the token behind the name has the whole echo. -/
def HoldsValue (front : Chars) (style : EchoStyle) (expression : Chars) (tokens : List Token) :
    Prop :=
  ∃ first held later more, tokens = first :: held :: later ∧
    held.value = front ++ style.enclose expression ++ more

namespace ReadsValue

variable {front : Chars} {tokens : List Token} {length : Nat}

theorem ahead {value : ScanState} (rest : value.rest = front ++ style.enclose expression ++ after) :
    value.rest ≠ [] := by
  rw [rest]
  cases style <;> simp [EchoStyle.enclose, EchoStyle.opener]

/-- The value has what was measured. -/
theorem exists_held
    (reads : ReadsValue dialect s front style expression after (some length) tokens) :
    ∃ (first held : Token) (value : ScanState),
      tokens = first :: held :: ((value.skip length).run dialect).tokens ∧
      value.rest = front ++ style.enclose expression ++ after ∧ value.modes = s.modes ∧
      first.kind.name = "ATTRIBUTE_NAME" ∧ held.kind = .attributeValue ∧
      held.value = (front ++ style.enclose expression ++ after).take length := by
  obtain ⟨first, name, value, tokens, rest, modes, kind, found⟩ := reads
  refine ⟨first, value.token .attributeValue length, value, ?_, rest, modes, kind, rfl, ?_⟩
  · rw [tokens, ScanState.tokens_value (ahead rest) name found]
  · rw [← rest]
    rfl

theorem holds {more : Nat}
    (reads : ReadsValue dialect s front style expression after
      (some ((front ++ style.enclose expression).length + more)) tokens) :
    HoldsValue front style expression tokens := by
  obtain ⟨first, held, value, tokens, -, -, -, -, taken⟩ := reads.exists_held
  exact ⟨first, held, _, _, tokens, taken.trans (List.take_length_add_append more)⟩

theorem not_holds_of_lt
    (reads : ReadsValue dialect s front style expression after (some length) tokens)
    (short : length < (front ++ style.enclose expression).length) :
    ¬ HoldsValue front style expression tokens := by
  obtain ⟨first, held, value, tokens, -, -, -, -, taken⟩ := reads.exists_held
  rintro ⟨first', held', later, more, tokens', whole⟩
  rw [tokens] at tokens'
  obtain ⟨-, tail⟩ := List.cons.inj tokens'
  obtain ⟨rfl, -⟩ := List.cons.inj tail
  have size := congrArg List.length (taken.symm.trans whole)
  simp only [List.length_take, List.length_append] at size short
  omega

theorem of_none (reads : ReadsValue dialect s front style expression after none tokens) :
    ∃ first : Token, tokens = [first] ∧ first.kind.name = "ATTRIBUTE_NAME" := by
  obtain ⟨first, name, value, tokens, -, -, kind, found⟩ := reads
  exact ⟨first, by rw [tokens, ScanState.tokens_openValue name (.inr found)], kind⟩

theorem not_holds_of_none (reads : ReadsValue dialect s front style expression after none tokens) :
    ¬ HoldsValue front style expression tokens := by
  obtain ⟨first, rfl, -⟩ := reads.of_none
  rintro ⟨first', held, later, more, tokens, -⟩
  cases tokens

/-- Values that have their echoes whole and as much behind them are followed by the same. -/
theorem typesOf_eq {style' : EchoStyle} {tokens' : List Token} {more : Option Nat}
    (reads : ReadsValue dialect s front style expression after
      (more.map ((front ++ style.enclose expression).length + ·)) tokens)
    (reads' : ReadsValue dialect s front style' expression after
      (more.map ((front ++ style'.enclose expression).length + ·)) tokens') :
    typesOf tokens = typesOf tokens' := by
  cases more with
  | none =>
    obtain ⟨first, rfl, kind⟩ := reads.of_none
    obtain ⟨first', rfl, kind'⟩ := reads'.of_none
    simp [typesOf, kind, kind']
  | some more =>
    obtain ⟨first, held, value, rfl, rest, modes, kind, isValue, -⟩ := reads.exists_held
    obtain ⟨first', held', value', rfl, rest', modes', kind', isValue', -⟩ := reads'.exists_held
    have later := ScanState.typesOf_run dialect
      (ScanState.alike_enclose (modes.trans modes'.symm) rest rest' more)
    simp only [typesOf, List.map_cons, kind, kind', isValue, isValue'] at later ⊢
    rw [later]

end ReadsValue

variable (top : s.modes = ⟨.tag tag, start⟩ :: outer) (spaces : ∀ c ∈ gap, isTagSpace c = true)

section

include top spaces

/-- An attribute up to the value that a text in front of an echo starts. -/
theorem readsValue_sign {name : Chars} (isSign : IsSign dialect.registry sign name)
    (front : Chars) (style : EchoStyle) (expression after : Chars)
    (stops : ∀ c, (front ++ style.enclose expression ++ after).head? = some c →
      isTagSpace c = false) :
    ReadsValue dialect s front style expression after
      (valueLength (front ++ style.enclose expression ++ after))
      (({ s with rest := gap ++ (sign ++ (front ++ style.enclose expression ++ after)) } :
        ScanState).run dialect).tokens := by
  let t : ScanState :=
    { s with rest := gap ++ (sign ++ (front ++ style.enclose expression ++ after)) }
  have top' : t.modes = ⟨.tag tag, start⟩ :: outer := top
  have ahead : t.rest = gap ++ (sign ++ (front ++ style.enclose expression ++ after)) := rfl
  obtain ⟨first, value, tokens, rest, modes, kind⟩ :=
    ScanState.tokens_sign top' spaces ahead isSign stops
  exact ⟨first, name, value, tokens, rest, modes, kind, by rw [rest]⟩

theorem readsValue_quoted (isExpression : IsExpression expression)
    (reached : (EchoPlace.quoted sign quote lead).Reached dialect.registry) (style : EchoStyle)
    (after : Chars) :
    ReadsValue dialect s (quote :: lead) style expression after
      ((quotedTailLength quote after).map ((quote :: lead ++ style.enclose expression).length + ·))
      ((EchoPlace.quoted sign quote lead).tokens dialect s gap style expression after) := by
  obtain ⟨⟨name, isSign⟩, isQuote_, passes⟩ := reached
  have plain : isTagSpace quote = false := by
    rw [isQuote, Bool.or_eq_true, decide_eq_true_eq, decide_eq_true_eq] at isQuote_
    rcases isQuote_ with rfl | rfl <;> decide
  have reads := readsValue_sign top spaces isSign (quote :: lead) style expression after
    (by rintro c ⟨⟩; exact plain)
  have length : valueLength (quote :: lead ++ style.enclose expression ++ after) =
      (quotedTailLength quote after).map
        ((quote :: lead ++ style.enclose expression).length + ·) := by
    rw [List.cons_append, List.cons_append, valueLength, if_pos isQuote_, List.append_assoc,
      passes _ (head_enclose style expression after),
      quotedTailLength_enclose isExpression style isQuote_, Option.map_map, Option.map_map]
    congr 1
    funext n
    simp only [Function.comp_apply, List.length_cons, List.length_append]
    omega
  rw [length] at reads
  simpa only [EchoPlace.tokens, EchoPlace.before, List.append_assoc, List.cons_append] using reads

theorem readsValue_bare (reached : (EchoPlace.bare sign lead).Reached dialect.registry)
    (style : EchoStyle) (expression after : Chars) :
    ReadsValue dialect s lead style expression after
      (some (lead.length + bareValueLength (style.enclose expression ++ after)))
      ((EchoPlace.bare sign lead).tokens dialect s gap style expression after) := by
  obtain ⟨⟨name, isSign⟩, unquoted, passes⟩ := reached
  have length := passes _ (head_enclose style expression after)
  -- The value starts with a character that it goes on behind.
  obtain ⟨c, rest, split, plain, bare⟩ : ∃ c rest,
      lead ++ (style.enclose expression ++ after) = c :: rest ∧ isTagSpace c = false ∧
        isQuote c = false := by
    cases lead with
    | nil =>
      obtain ⟨more, split⟩ := enclose_eq_cons style expression
      exact ⟨'{', more ++ after, by rw [split]; rfl, by decide, by decide⟩
    | cons c lead =>
      refine ⟨c, _, rfl, ?_, unquoted c rfl⟩
      rw [← Bool.not_eq_true]
      intro space
      rw [List.cons_append, bareValueLength, if_pos (by simp [space]), List.length_cons] at length
      omega
  have reads := readsValue_sign top spaces isSign lead style expression after (by
      rw [List.append_assoc, split]
      rintro d ⟨⟩
      exact plain)
  have measured : valueLength (lead ++ style.enclose expression ++ after) =
      some (lead.length + bareValueLength (style.enclose expression ++ after)) := by
    rw [List.append_assoc, ← length, split, valueLength, if_neg (by simp [bare])]
  rw [measured] at reads
  simpa only [EchoPlace.tokens, EchoPlace.before, List.append_assoc] using reads

/-- The name that an echo is in. -/
theorem tokens_name (starts : StartsAttribute (lead ++ style.enclose expression ++ after))
    {length : Nat}
    (reads : attributeNameLength dialect.registry (lead ++ style.enclose expression ++ after) =
      length) :
    ∃ (held : Token) (name : Chars) (next : ScanState),
      (EchoPlace.name lead).tokens dialect s gap style expression after =
        held :: (((next.skip length).afterName name).run dialect).tokens ∧
      next.rest = lead ++ style.enclose expression ++ after ∧ next.modes = s.modes ∧
      held.kind.name = "ATTRIBUTE_NAME" ∧
      held.value = (lead ++ style.enclose expression ++ after).take length := by
  let t : ScanState := { s with rest := gap ++ (lead ++ style.enclose expression ++ after) }
  have top' : t.modes = ⟨.tag tag, start⟩ :: outer := top
  have ahead : t.rest = gap ++ (lead ++ style.enclose expression ++ after) := rfl
  obtain ⟨held, tokens, kind, value⟩ :=
    ScanState.tokens_attribute top' spaces ahead starts reads
  refine ⟨held, _, t.skip gap.length, tokens, ?_, rfl, kind, value⟩
  rw [ScanState.rest_skip, ahead, List.drop_left]

end

theorem startsAttribute_name {registry : Registry}
    (reached : (EchoPlace.name lead).Reached registry) (style : EchoStyle)
    (expression after : Chars) : StartsAttribute (lead ++ style.enclose expression ++ after) := by
  obtain ⟨-, grouped, begins⟩ := reached
  rw [List.append_assoc]
  exact (begins _ (head_enclose style expression after)).1

/-- Whether the echo is passed over as a part of the name behind the text in front. -/
def PassesName (registry : Registry) (lead : Chars) (style : EchoStyle) (expression after : Chars) :
    Prop :=
  ∀ grouped, attributeNameFrom registry (lead ++ style.enclose expression ++ after) grouped
      lead.length (style.enclose expression ++ after) =
    attributeNameFrom registry (lead ++ style.enclose expression ++ after) grouped
      (lead ++ style.enclose expression).length after

/-- An echo that is passed over leaves the name to be read from behind it. -/
theorem PassesName.reads {registry : Registry}
    (passes : PassesName registry lead style expression after) {grouped : Bool}
    (begins : attributeNameFrom registry (lead ++ (style.enclose expression ++ after)) false 0
        (lead ++ (style.enclose expression ++ after)) =
      attributeNameFrom registry (lead ++ (style.enclose expression ++ after)) grouped lead.length
        (style.enclose expression ++ after)) :
    attributeNameFrom registry (lead ++ style.enclose expression ++ after) false 0
        (lead ++ style.enclose expression ++ after) =
      attributeNameFrom registry (lead ++ style.enclose expression ++ after) grouped
        (lead ++ style.enclose expression).length after := by
  rw [← passes grouped, List.append_assoc]
  exact begins

/-- A name with an echo that is passed over has the whole of it. -/
theorem PassesName.exists_length {registry : Registry}
    (reached : (EchoPlace.name lead).Reached registry)
    (passes : PassesName registry lead style expression after) :
    ∃ more, attributeNameLength registry (lead ++ style.enclose expression ++ after) =
      (lead ++ style.enclose expression).length + more := by
  obtain ⟨-, grouped, begins⟩ := reached
  refine Nat.exists_eq_add_of_le ?_
  rw [attributeNameLength, passes.reads (begins _ (head_enclose style expression after)).2]
  exact Nat.le_trans (le_attributeNameFrom _ _ _ _ _) (Nat.le_max_right 1 _)

/-- A name goes on behind an echo that is a part of it, as far whatever its style. -/
theorem exists_nameLength {registry : Registry} {style' : EchoStyle}
    (reached : (EchoPlace.name lead).Reached registry)
    (unbraced : lead.head? = some '@' →
      ∀ descriptor ∈ registry.descriptors, '{' ∉ descriptor.name)
    (passes : PassesName registry lead style expression after)
    (passes' : PassesName registry lead style' expression after) :
    ∃ more,
      attributeNameLength registry (lead ++ style.enclose expression ++ after) =
        (lead ++ style.enclose expression).length + more ∧
      attributeNameLength registry (lead ++ style'.enclose expression ++ after) =
        (lead ++ style'.enclose expression).length + more := by
  obtain ⟨some_, grouped, begins⟩ := reached
  have size := List.length_pos_iff.2 some_
  have heads (style : EchoStyle) :
      (lead ++ style.enclose expression ++ after).head? = lead.head? := by
    cases lead with
    | nil => exact absurd rfl some_
    | cons c lead => rfl
  have calls (style : EchoStyle) : CallsNone registry (lead ++ style.enclose expression ++ after)
      (lead ++ style.enclose expression).length := by
    obtain ⟨more, split⟩ := enclose_eq_cons style expression
    rw [split, List.append_assoc, List.length_append, List.length_cons, Nat.add_comm more.length,
      ← Nat.add_assoc]
    exact (callsNone_of_brace some_ unbraced (more ++ after)).add more.length
  have read (style : EchoStyle) (passes : PassesName registry lead style expression after) :=
    passes.reads (begins _ (head_enclose style expression after)).2
  obtain ⟨more, here, there⟩ :=
    exists_attributeNameFrom ((heads style).trans (heads style').symm) (calls style)
      (calls style') grouped after
  refine ⟨more, ?_, ?_⟩
  · rw [attributeNameLength, read style passes, here, List.length_append]
    omega
  · rw [attributeNameLength, read style' passes', there, List.length_append]
    omega

theorem passesName_escaped (registry : Registry) (isExpression : IsExpression expression)
    (lead after : Chars) : PassesName registry lead .escaped expression after := by
  intro grouped
  rw [attributeNameFrom_escaped isExpression, List.length_append]

/-- A raw echo is passed over as a part of a name if no character of it ends the name. -/
theorem passesName_raw {registry : Registry}
    (flat : (EchoPlace.name lead).Flat registry expression)
    (admits : (EchoPlace.name lead).Admits expression) (some_ : lead ≠ []) (after : Chars) :
    PassesName registry lead .raw expression after := by
  intro grouped
  rw [attributeNameFrom_append (Unbraced.raw flat.1), List.length_append]
  · intro c member
    rcases mem_raw_enclose member with rfl | rfl | rfl | inside
    · decide
    · decide
    · decide
    · exact admits c inside
  · simp [EchoStyle.enclose, EchoStyle.closer]
  · intro marked member
    have head : lead.head? = some '@' := by
      cases lead with
      | nil => exact absurd rfl some_
      | cons c lead => exact marked
    rcases mem_raw_enclose member with same | same | same | inside
    · cases same
    · cases same
    · cases same
    · exact (flat.2 head).1 inside

/-- The name ends in a raw echo in which a character ends it. -/
theorem nameLength_lt {registry : Registry} (reached : (EchoPlace.name lead).Reached registry)
    (flat : (EchoPlace.name lead).Flat registry expression)
    (ends : ∃ c ∈ expression, endsAttributeName c = true) (after : Chars) :
    attributeNameLength registry (lead ++ EchoStyle.raw.enclose expression ++ after) <
      (lead ++ EchoStyle.raw.enclose expression).length := by
  obtain ⟨some_, grouped, begins⟩ := reached
  have size := List.length_pos_iff.2 some_
  obtain ⟨whole, isWhole⟩ : ∃ whole, whole = lead ++ EchoStyle.raw.enclose expression ++ after :=
    ⟨_, rfl⟩
  have head : whole.head? = lead.head? := by
    cases lead with
    | nil => exact absurd rfl some_
    | cons c lead => rw [isWhole]; rfl
  have tail : EchoStyle.raw.enclose expression ++ after =
      EchoStyle.raw.opener ++ (expression ++ EchoStyle.raw.closer ++ after) := by
    simp only [EchoStyle.enclose, List.append_assoc]
  have unbraced : Unbraced (expression ++ EchoStyle.raw.closer) :=
    (Unbraced.raw flat.1).tail.tail.tail
  have opening : Unbraced EchoStyle.raw.opener := ⟨by decide, by decide⟩
  have calls : CallsNone registry whole (lead.length + 3) := by
    have split : whole =
        lead ++ '{' :: ('!' :: '!' :: (expression ++ EchoStyle.raw.closer ++ after)) := by
      rw [isWhole, List.append_assoc, tail]
      rfl
    rw [split]
    exact (callsNone_of_brace some_ (fun marked => (flat.2 marked).2) _).add 2
  have read : attributeNameFrom registry whole false 0 whole =
      attributeNameFrom registry whole grouped (lead.length + 3)
        (expression ++ EchoStyle.raw.closer ++ after) := by
    have silent : ∀ c ∈ ['{', '!', '!'], endsAttributeName c = false := by
      simp only [List.forall_mem_cons, List.not_mem_nil, false_imp_iff, implies_true]
      decide
    have opened := @attributeNameFrom_append registry whole grouped lead.length
      EchoStyle.raw.opener (expression ++ EchoStyle.raw.closer ++ after) opening silent
      (fun ends => absurd ends (by decide)) (fun _ => by decide)
    rw [isWhole, List.append_assoc, (begins _ (head_enclose .raw expression after)).2,
      ← List.append_assoc, ← isWhole, tail]
    exact opened
  have short := @attributeNameFrom_lt registry whole grouped (lead.length + 3)
    (expression ++ EchoStyle.raw.closer) after unbraced
    (ends.imp fun c found => ⟨List.mem_append_left _ found.1, found.2⟩)
    (fun marked member => by
      rcases List.mem_append.1 member with inside | closing
      · exact (flat.2 (head ▸ marked)).1 inside
      · exact absurd closing (by decide)) calls
  rw [← isWhole, attributeNameLength, read]
  simp only [EchoStyle.enclose, EchoStyle.opener, EchoStyle.closer, List.length_append,
    List.length_cons, List.length_nil] at short ⊢
  omega

/-! ### One place at a time -/

section

include top spaces

theorem alike_entry (dialect : Dialect) (isExpression : IsExpression expression) (after : Chars) :
    (∀ style : EchoStyle, EchoPlace.entry.Holds style expression
        (EchoPlace.entry.tokens dialect s gap style expression after)) ∧
      typesOf (EchoPlace.entry.tokens dialect s gap .escaped expression after) =
        typesOf (EchoPlace.entry.tokens dialect s gap .raw expression after) := by
  have reads (style : EchoStyle) :
      ∃ (first content last : Token) (next : ScanState),
        EchoPlace.entry.tokens dialect s gap style expression after =
          first :: content :: last :: ((next.skip style.width).run dialect).tokens ∧
        next.modes = s.modes ∧ next.rest = style.closer ++ after ∧
        first.kind = .echoOpen style ∧ first.value = style.opener ∧
        content.kind = .echoContent style ∧ content.value = expression ∧
        last.kind = .echoClose style ∧ last.value = style.closer := by
    let t : ScanState := { s with rest := gap ++ (style.enclose expression ++ after) }
    have top' : t.modes = ⟨.tag tag, start⟩ :: outer := top
    exact ScanState.tokens_entry isExpression top' spaces rfl
  refine ⟨fun style => ?_, ?_⟩
  · obtain ⟨first, content, last, next, tokens, -, -, parts⟩ := reads style
    exact ⟨first, content, last, _, tokens, parts⟩
  · obtain ⟨first, content, last, next, tokens, modes, rest, isFirst, -, isContent, -, isLast, -⟩ :=
      reads .escaped
    obtain ⟨first', content', last', next', tokens', modes', rest', isFirst', -, isContent', -,
      isLast', -⟩ := reads .raw
    have ahead : next.rest = ['}'] ++ '}' :: after := rest
    have ahead' : next'.rest = ['!', '!'] ++ '}' :: after := rest'
    have later := ScanState.typesOf_run dialect
      (ScanState.alike_behind (modes.trans modes'.symm) ahead ahead' 0)
    rw [tokens, tokens']
    simp only [typesOf, List.map_cons, isFirst, isContent, isLast, isFirst', isContent', isLast',
      List.length_cons, List.length_nil] at later ⊢
    exact congrArg _ (congrArg _ (congrArg _ later))

theorem alike_quoted (isExpression : IsExpression expression)
    (reached : (EchoPlace.quoted sign quote lead).Reached dialect.registry) (after : Chars) :
    (∀ style : EchoStyle, (EchoPlace.quoted sign quote lead).Holds style expression
        ((EchoPlace.quoted sign quote lead).tokens dialect s gap style expression after) ↔
          (quotedTailLength quote after).isSome = true) ∧
      typesOf ((EchoPlace.quoted sign quote lead).tokens dialect s gap .escaped expression after) =
        typesOf
          ((EchoPlace.quoted sign quote lead).tokens dialect s gap .raw expression after) := by
  have reads (style : EchoStyle) :=
    readsValue_quoted top spaces isExpression reached style after
  refine ⟨fun style => ?_, (reads .escaped).typesOf_eq (reads .raw)⟩
  have reads := reads style
  cases found : quotedTailLength quote after with
  | none =>
    rw [found] at reads
    exact iff_of_false reads.not_holds_of_none (by simp)
  | some more =>
    rw [found] at reads
    exact iff_of_true reads.holds rfl

theorem holds_bare (isExpression : IsExpression expression)
    (reached : (EchoPlace.bare sign lead).Reached dialect.registry) (after : Chars) :
    (EchoPlace.bare sign lead).Holds .escaped expression
      ((EchoPlace.bare sign lead).tokens dialect s gap .escaped expression after) := by
  have reads := readsValue_bare top spaces reached .escaped expression after
  rw [bareValueLength_escaped isExpression, ← Nat.add_assoc, ← List.length_append] at reads
  exact reads.holds

theorem alike_bare (isExpression : IsExpression expression)
    (reached : (EchoPlace.bare sign lead).Reached dialect.registry)
    (flat : ¬ EchoStyle.escaped.opener <:+: expression) (after : Chars) :
    ((EchoPlace.bare sign lead).Holds .raw expression
        ((EchoPlace.bare sign lead).tokens dialect s gap .raw expression after) ↔
      (EchoPlace.bare sign lead).Admits expression) ∧
      ((EchoPlace.bare sign lead).Admits expression →
        typesOf ((EchoPlace.bare sign lead).tokens dialect s gap .escaped expression after) =
          typesOf ((EchoPlace.bare sign lead).tokens dialect s gap .raw expression after)) := by
  have reads (style : EchoStyle) := readsValue_bare top spaces reached style expression after
  have escaped := reads .escaped
  rw [bareValueLength_escaped isExpression, ← Nat.add_assoc, ← List.length_append] at escaped
  by_cases admits : ∀ c ∈ expression, endsBareValue c = false
  · have silent : ∀ c ∈ EchoStyle.raw.enclose expression, endsBareValue c = false := by
      intro c member
      rcases mem_raw_enclose member with rfl | rfl | rfl | inside
      · decide
      · decide
      · decide
      · exact admits c inside
    have raw := reads .raw
    rw [bareValueLength_append (Unbraced.raw flat) silent, ← Nat.add_assoc,
      ← List.length_append] at raw
    have types := @ReadsValue.typesOf_eq dialect s expression after .escaped lead _ .raw _
      (some (bareValueLength after)) escaped raw
    exact ⟨iff_of_true raw.holds admits, fun _ => types⟩
  · have ends : ∃ c ∈ EchoStyle.raw.enclose expression, endsBareValue c = true := by
      simp only [not_forall, Bool.not_eq_false] at admits
      obtain ⟨c, member, stops⟩ := admits
      exact ⟨c, mem_enclose_of_mem .raw member, stops⟩
    have short := bareValueLength_lt (Unbraced.raw flat) ends after
    have broken := (reads .raw).not_holds_of_lt (by
      rw [List.length_append]
      omega)
    exact ⟨iff_of_false broken admits, fun held => absurd held admits⟩

/-- A name holds an echo that is passed over. -/
theorem holds_name (reached : (EchoPlace.name lead).Reached dialect.registry)
    (passes : PassesName dialect.registry lead style expression after) :
    (EchoPlace.name lead).Holds style expression
      ((EchoPlace.name lead).tokens dialect s gap style expression after) := by
  obtain ⟨more, length⟩ := passes.exists_length reached
  obtain ⟨held, name, next, tokens, -, -, -, value⟩ :=
    tokens_name top spaces (startsAttribute_name reached style expression after) length
  rw [ScanState.take_enclose] at value
  exact ⟨held, _, _, tokens, value⟩

/-- A name that ends inside an echo does not hold it. -/
theorem not_holds_name (reached : (EchoPlace.name lead).Reached dialect.registry)
    (short : attributeNameLength dialect.registry (lead ++ style.enclose expression ++ after) <
      (lead ++ style.enclose expression).length) :
    ¬ (EchoPlace.name lead).Holds style expression
      ((EchoPlace.name lead).tokens dialect s gap style expression after) := by
  obtain ⟨held, name, next, tokens, -, -, -, value⟩ :=
    tokens_name top spaces (startsAttribute_name reached style expression after) rfl
  rintro ⟨held', later, more, tokens', whole⟩
  rw [tokens] at tokens'
  obtain ⟨rfl, -⟩ := List.cons.inj tokens'
  have size := congrArg List.length (value.symm.trans whole)
  simp only [List.length_take, List.length_append] at size short
  omega

theorem alike_name (isExpression : IsExpression expression)
    (reached : (EchoPlace.name lead).Reached dialect.registry)
    (flat : (EchoPlace.name lead).Flat dialect.registry expression) (after : Chars) :
    ((EchoPlace.name lead).Holds .raw expression
        ((EchoPlace.name lead).tokens dialect s gap .raw expression after) ↔
      (EchoPlace.name lead).Admits expression) ∧
      ((EchoPlace.name lead).Admits expression →
        typesOf ((EchoPlace.name lead).tokens dialect s gap .escaped expression after) =
          typesOf ((EchoPlace.name lead).tokens dialect s gap .raw expression after)) := by
  have unbraced (marked : lead.head? = some '@') := (flat.2 marked).2
  have escaped := passesName_escaped dialect.registry isExpression lead after
  by_cases admits : ∀ c ∈ expression, endsAttributeName c = false
  · have raw := passesName_raw flat admits reached.1 after
    refine ⟨iff_of_true (holds_name top spaces reached raw) admits, fun _ => ?_⟩
    obtain ⟨more, length, length'⟩ := exists_nameLength reached unbraced escaped raw
    obtain ⟨held, name, next, tokens, rest, modes, kind, -⟩ :=
      tokens_name top spaces (startsAttribute_name reached .escaped expression after) length
    obtain ⟨held', name', next', tokens', rest', modes', kind', -⟩ :=
      tokens_name top spaces (startsAttribute_name reached .raw expression after) length'
    have later := ScanState.typesOf_afterName dialect
      (ScanState.alike_enclose (modes.trans modes'.symm) rest rest' more) name name'
    rw [tokens, tokens']
    simp only [typesOf, List.map_cons, kind, kind'] at later ⊢
    exact congrArg _ later
  · simp only [not_forall, Bool.not_eq_false] at admits
    obtain ⟨c, member, stops⟩ := admits
    have short := nameLength_lt reached flat ⟨c, member, stops⟩ after
    have broken := not_holds_name top spaces reached short
    have stopped (admits : (EchoPlace.name lead).Admits expression) : False := by
      rw [admits c member] at stops
      cases stops
    exact ⟨iff_of_false broken stopped, fun admits => (stopped admits).elim⟩

end

/-- **Echoes of both styles inside a start tag.** In every place that the reader comes to, an
escaped echo stands whole in its token. So does a raw one as an entry and in a quoted value; in a
name and in a value without quotes, where its expression is read character by character and no
other echo starts in it, it does exactly if no character of the expression ends what it is in. Where
both stand whole, the tokens are of the same types to the end of the template. -/
theorem echoes_alike {place : EchoPlace} (reached : place.Reached dialect.registry)
    (isExpression : IsExpression expression) (top : s.modes = ⟨.tag tag, start⟩ :: outer)
    (spaces : ∀ c ∈ gap, isTagSpace c = true) (after : Chars) :
    (place.Holds .escaped expression (place.tokens dialect s gap .escaped expression after) ↔
        place.Ends after) ∧
      (place.Flat dialect.registry expression →
        (place.Holds .raw expression (place.tokens dialect s gap .raw expression after) ↔
          place.Ends after ∧ place.Admits expression) ∧
        (place.Admits expression →
          typesOf (place.tokens dialect s gap .escaped expression after) =
            typesOf (place.tokens dialect s gap .raw expression after))) := by
  cases place with
  | entry =>
    obtain ⟨holds, types⟩ := alike_entry top spaces dialect isExpression after
    exact ⟨iff_of_true (holds .escaped) trivial, fun _ =>
      ⟨iff_of_true (holds .raw) ⟨trivial, trivial⟩, fun _ => types⟩⟩
  | name lead =>
    have escaped := passesName_escaped dialect.registry isExpression lead after
    refine ⟨iff_of_true (holds_name top spaces reached escaped) trivial, fun flat => ?_⟩
    obtain ⟨raw, types⟩ := alike_name top spaces isExpression reached flat after
    exact ⟨raw.trans (and_iff_right trivial).symm, types⟩
  | quoted sign quote lead =>
    obtain ⟨holds, types⟩ := alike_quoted top spaces isExpression reached after
    exact ⟨holds .escaped, fun _ =>
      ⟨(holds .raw).trans (and_iff_left trivial).symm, fun _ => types⟩⟩
  | bare sign lead =>
    refine ⟨iff_of_true (holds_bare top spaces isExpression reached after) trivial, fun flat => ?_⟩
    obtain ⟨raw, types⟩ := alike_bare top spaces isExpression reached flat after
    exact ⟨raw.trans (and_iff_right trivial).symm, types⟩

/-- Echoed into a class without quotes, an expression with spaces stands whole if it is escaped, and
falls apart if it is raw. -/
theorem echoes_alike_class :
    let place : EchoPlace := .bare ("class".toList ++ ['=']) []
    let state : ScanState := ⟨some 'v', [], ⟨4, 1, 5⟩, [⟨.tag "div".toList, .start⟩]⟩
    let expression := "$a  ?  $b : $c".toList
    let tokens (style : EchoStyle) :=
      place.tokens ⟨.builtin, true, true⟩ state [' '] style expression ">x</div>".toList
    place.Holds .escaped expression (tokens .escaped) ∧
      ¬ place.Holds .raw expression (tokens .raw) := by
  intro place state expression tokens
  have isSign : IsSign .builtin ("class".toList ++ ['=']) "class".toList :=
    isSign_of_plain (by decide +kernel) (List.all_eq_true.1 (by decide +kernel)) .builtin
  have reached : place.Reached .builtin := ⟨⟨_, isSign⟩, by simp, by simp⟩
  have isExpression : IsExpression expression :=
    ⟨by decide +kernel, fun style => by cases style <;> decide +kernel, by decide +kernel,
      by decide +kernel⟩
  have flat : place.Flat .builtin expression := by
    show ¬ EchoStyle.escaped.opener <:+: expression
    decide +kernel
  have alike := @echoes_alike ⟨.builtin, true, true⟩ state "div".toList .start [] [' '] expression
    place reached isExpression rfl (List.forall_mem_singleton.2 rfl) ">x</div>".toList
  refine ⟨alike.1.2 trivial, fun held => ?_⟩
  have admits : ∀ c ∈ expression, endsBareValue c = false := ((alike.2 flat).1.1 held).2
  exact absurd (admits ' ' (by decide +kernel)) (by decide +kernel)

end Places

end BladeTemplate
