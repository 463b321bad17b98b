import BladeTemplate.Proofs.Alike
import BladeTemplate.Proofs.EchoLengths
import BladeTemplate.Proofs.Measure

/-!
# Entries of a start tag

The reader inside a start tag, one entry at a time, in whatever state it comes there.

* `ScanState.tokens_attribute` reads the name of an attribute, `ScanState.tokens_sign` the name and
  the equals sign, `ScanState.tokens_value` the value, and `ScanState.tokens_entry` an echo;
* `ScanState.alike_enclose` says that the reader goes on alike behind echoes of either style.
-/

namespace BladeTemplate

open Text Lookahead

/-- Whether the reader takes a text inside a start tag for that of an attribute. -/
structure StartsAttribute (text : Chars) : Prop where
  nonempty : text ≠ []
  head : ∀ c, text.head? = some c → isTagSpace c = false ∧ c ≠ '>'
  notClose : startsWith "/>".toList text = false
  notEcho : EchoStyle.startOf text = none

/-- The name of an attribute with the equals sign behind it, whatever value follows. -/
structure IsSign (registry : Registry) (sign name : Chars) : Prop where
  starts : ∀ rest, StartsAttribute (sign ++ rest)
  reads : ∀ rest, attributeNameLength registry (sign ++ rest) = name.length
  split : ∃ before after, sign = name ++ before ++ '=' :: after ∧
    ∀ c ∈ before ++ after, isTagSpace c = true

/-- Whether a character neither ends the name of an attribute nor starts anything else in it. -/
def isPlainNameChar (c : Char) : Bool :=
  !endsAttributeName c && c ≠ '{' && c ≠ '/' && c ≠ '@'

section Plain

variable {name : Chars} (some_ : name ≠ []) (plain : ∀ c ∈ name, isPlainNameChar c = true)

theorem of_isPlainNameChar {c : Char} (plain : isPlainNameChar c = true) :
    endsAttributeName c = false ∧ c ≠ '{' ∧ c ≠ '/' ∧ c ≠ '@' := by
  simpa [isPlainNameChar, and_assoc] using plain

include some_ plain

theorem startsAttribute_of_plain (rest : Chars) : StartsAttribute (name ++ rest) := by
  obtain ⟨c, more, rfl⟩ := List.exists_cons_of_ne_nil some_
  obtain ⟨goesOn, notBrace, notSlash, -⟩ := of_isPlainNameChar (plain c List.mem_cons_self)
  refine ⟨by simp, ?_, ?_, ?_⟩
  · rintro d ⟨⟩
    refine ⟨?_, ?_⟩
    · rw [← Bool.not_eq_true]
      intro space
      simp [endsAttributeName, space] at goesOn
    · rintro rfl
      cases goesOn
  · rw [← Bool.not_eq_true, startsWith_iff]
    rintro ⟨later, split⟩
    exact notSlash (List.cons.inj split).1
  · simp [EchoStyle.startOf, startsWith, EchoStyle.opener, Ne.symm notBrace]

/-- A name of plain characters is passed over, whatever follows. -/
theorem attributeNameFrom_plain (registry : Registry) (rest : Chars) :
    attributeNameFrom registry (name ++ rest) false 0 (name ++ rest) =
      attributeNameFrom registry (name ++ rest) false name.length rest := by
  have noBrace : '{' ∉ name := fun member => (of_isPlainNameChar (plain '{' member)).2.1 rfl
  have unbraced : Unbraced name :=
    ⟨fun inside => noBrace (inside.subset (by decide)),
      fun ends => noBrace (List.mem_of_getLast? ends)⟩
  have unmarked : (name ++ rest).head? ≠ some '@' := by
    obtain ⟨c, more, rfl⟩ := List.exists_cons_of_ne_nil some_
    rintro ⟨⟩
    exact (of_isPlainNameChar (plain '@' List.mem_cons_self)).2.2.2 rfl
  have passed := @attributeNameFrom_append registry (name ++ rest) false 0 name rest unbraced
    (fun c member => (of_isPlainNameChar (plain c member)).1)
    (fun ends => absurd rfl (of_isPlainNameChar (plain '/' (List.mem_of_getLast? ends))).2.2.1)
    fun marked => absurd marked unmarked
  rwa [Nat.zero_add] at passed

theorem isSign_of_plain (registry : Registry) : IsSign registry (name ++ ['=']) name where
  starts rest := by
    rw [List.append_assoc]
    exact startsAttribute_of_plain some_ plain _
  reads rest := by
    have size := List.length_pos_iff.2 some_
    rw [List.append_assoc, attributeNameLength, attributeNameFrom_plain some_ plain,
      List.singleton_append, attributeNameFrom, if_pos (by decide), if_neg (by
        simp [isInlineSpace])]
    omega
  split := ⟨[], [], by simp, by simp⟩

end Plain

/-- The types of tokens. -/
def typesOf (tokens : List Token) : List String :=
  tokens.map (·.kind.name)

/-! ## Steps -/

namespace ScanState

/-- Any two positions. -/
def Anywhere (_ _ : Position) : Prop := True

theorem carries_anywhere : Position.Carries Anywhere := fun _ _ _ _ => trivial

theorem typesOf_run (dialect : Dialect) {s t : ScanState} (alike : s.Alike Anywhere t) :
    typesOf (s.run dialect).tokens = typesOf (t.run dialect).tokens := by
  have tokens := (alike_run carries_anywhere dialect alike).tokens
  unfold typesOf
  generalize (s.run dialect).tokens = first at tokens
  generalize (t.run dialect).tokens = second at tokens
  induction tokens with
  | nil => rfl
  | cons head _ ih => rw [List.map_cons, List.map_cons, head.kind, ih]

variable {dialect : Dialect} {s t : ScanState}

/-- Behind a brace the reader goes on alike, whatever came before it. -/
theorem alike_behind {front front' after : Chars} (modes : s.modes = t.modes)
    (ahead : s.rest = front ++ '}' :: after) (ahead' : t.rest = front' ++ '}' :: after)
    (more : Nat) :
    (s.skip (front.length + 1 + more)).Alike Anywhere (t.skip (front'.length + 1 + more)) := by
  have cut (front : Chars) : (front ++ '}' :: after).take (front.length + 1 + more) =
      front ++ '}' :: after.take more := by
    rw [Nat.add_assoc, Nat.add_comm 1, List.take_length_add_append]
    rfl
  have left (front : Chars) : (front ++ '}' :: after).drop (front.length + 1 + more) =
      after.drop more := by
    rw [Nat.add_assoc, Nat.add_comm 1, List.drop_length_add_append]
    rfl
  refine .of_previous ?_ ?_ trivial ?_
  · simp only [ScanState.skip, ahead, ahead', cut, List.getLast?_append, List.getLast?_cons]
    rfl
  · rw [rest_skip, rest_skip, ahead, ahead', left, left]
  · rw [modes_skip, modes_skip, modes]
    exact List.forall₂_same.2 fun mode _ => ⟨rfl, trivial⟩

theorem tokens_of_step (ahead : s.rest ≠ []) {next : ScanState}
    (goes : (s.step dialect).next = .ok next) :
    (s.run dialect).tokens = (s.step dialect).tokens ++ (next.run dialect).tokens := by
  rw [run_of_stepped ahead goes]
  rfl

/-- A value that ends is one token. -/
theorem tokens_value (ahead : s.rest ≠ []) (name : Chars) {length : Nat}
    (found : valueLength s.rest = some length) :
    ((s.push (.attributeValue name)).run dialect).tokens =
      s.token .attributeValue length :: ((s.skip length).run dialect).tokens := by
  have step : (s.push (.attributeValue name)).step dialect =
      { tokens := [s.token .attributeValue length], next := .ok (s.skip length) } := by
    show (s.push (.attributeValue name)).stepValue s.position = _
    rw [stepValue, rest_push, found]
    rfl
  rw [tokens_of_step (s := s.push _) ahead (by rw [step]), step]
  rfl

/-- A value that does not end is none. -/
theorem tokens_openValue (name : Chars) (open_ : s.rest = [] ∨ valueLength s.rest = none) :
    ((s.push (.attributeValue name)).run dialect).tokens = [] := by
  rcases open_ with ended | none
  · rw [run_of_ended (s := s.push _) ended]
    rfl
  · have ahead : s.rest ≠ [] := by
      intro ended
      rw [ended] at none
      cases none
    have step : (s.push (.attributeValue name)).step dialect =
        { next := .error (.attributeValue, s.position) } := by
      show (s.push (.attributeValue name)).stepValue s.position = _
      rw [stepValue, rest_push, none]
    rw [run_of_failed (s := s.push _) ahead (by rw [step]), step]
    rfl

/-- Two states read a value alike, of whatever attributes. -/
theorem typesOf_value (alike : s.Alike Anywhere t) (name name' : Chars) :
    typesOf ((s.push (.attributeValue name)).run dialect).tokens =
      typesOf ((t.push (.attributeValue name')).run dialect).tokens := by
  by_cases ended : s.rest = []
  · rw [tokens_openValue name (.inl ended), tokens_openValue name' (.inl (alike.rest ▸ ended))]
  · cases found : valueLength s.rest with
    | none =>
      rw [tokens_openValue name (.inr found), tokens_openValue name' (.inr (alike.rest ▸ found))]
    | some length =>
      rw [tokens_value ended name found,
        tokens_value (alike.rest ▸ ended) name' (alike.rest ▸ found)]
      exact congrArg (List.cons _) (typesOf_run dialect (alike.skip carries_anywhere length))

/-- What follows the name of an attribute: the value, if there is an equals sign. -/
def afterName (s : ScanState) (name : Chars) : ScanState :=
  let spaces := countWhile isTagSpace s.rest
  if (s.rest.drop spaces).head? = some '=' then
    let equals := s.skip (spaces + 1)
    (equals.skip (countWhile isTagSpace equals.rest)).push (.attributeValue name)
  else s

theorem typesOf_afterName (dialect : Dialect) (alike : s.Alike Anywhere t) (name name' : Chars) :
    typesOf ((s.afterName name).run dialect).tokens =
      typesOf ((t.afterName name').run dialect).tokens := by
  have equals := alike.skip carries_anywhere (countWhile isTagSpace s.rest + 1)
  have value := equals.skip carries_anywhere
    (countWhile isTagSpace (s.skip (countWhile isTagSpace s.rest + 1)).rest)
  unfold afterName
  simp only [← alike.rest, ← equals.rest]
  split
  · exact typesOf_value value name name'
  · exact typesOf_run dialect alike

section Tag

variable {registry : Registry} {tag : Chars} {start : Position} {outer : List OpenMode}
  {gap text expression after : Chars} {style : EchoStyle}

/-- The spaces in front of an entry. -/
theorem countWhile_gap (spaces : ∀ c ∈ gap, isTagSpace c = true)
    (stops : ∀ c, text.head? = some c → isTagSpace c = false) :
    countWhile isTagSpace (gap ++ text) = gap.length :=
  countWhile_append spaces stops

theorem step_attribute (dialect : Dialect) (top : s.modes = ⟨.tag tag, start⟩ :: outer)
    (spaces : ∀ c ∈ gap, isTagSpace c = true) (ahead : s.rest = gap ++ text)
    (starts : StartsAttribute text) :
    s.step dialect = (s.skip gap.length).stepAttribute dialect := by
  have count : countWhile isTagSpace s.rest = gap.length := by
    rw [ahead]
    exact countWhile_gap spaces fun c first => (starts.head c first).1
  have rest : (s.skip gap.length).rest = text := by simp [ahead]
  have notEnd : text.head? ≠ some '>' := fun ends => (starts.head '>' ends).2 rfl
  have notComment : startsWith commentOpener text = false := by
    rw [← Bool.not_eq_true, startsWith_iff]
    rintro ⟨rest, rfl⟩
    exact absurd starts.notEcho (by simp [EchoStyle.startOf, commentOpener, startsWith,
      EchoStyle.opener])
  unfold step
  rw [top]
  show s.stepTag dialect tag = _
  unfold stepTag
  simp only [count, rest, starts.notClose, notEnd, notComment, starts.notEcho, List.isEmpty_iff,
    starts.nonempty, Bool.false_eq_true, if_false, Option.isSome_none]

theorem step_entry (dialect : Dialect) (isExpression : IsExpression expression)
    (top : s.modes = ⟨.tag tag, start⟩ :: outer) (spaces : ∀ c ∈ gap, isTagSpace c = true)
    (ahead : s.rest = gap ++ (style.enclose expression ++ after)) :
    s.step dialect = (s.skip gap.length).enter .echo := by
  obtain ⟨more, split⟩ := enclose_eq_cons style expression
  have count : countWhile isTagSpace s.rest = gap.length := by
    rw [ahead, split]
    exact countWhile_gap spaces fun c first => by cases first; decide
  have rest : (s.skip gap.length).rest = style.enclose expression ++ after := by simp [ahead]
  have starts : EchoStyle.startOf (style.enclose expression ++ after) = some style := by
    rw [EchoStyle.enclose, List.append_assoc, List.append_assoc]
    exact startOf_opener style _
  have notComment := isExpression.not_comment style after
  unfold step
  rw [top]
  show s.stepTag dialect tag = _
  unfold stepTag
  simp only [count, rest, starts, notComment]
  rw [split]
  simp [startsWith]

/-- An attribute up to the end of its name. -/
theorem tokens_attribute (top : s.modes = ⟨.tag tag, start⟩ :: outer)
    (spaces : ∀ c ∈ gap, isTagSpace c = true) (ahead : s.rest = gap ++ text)
    (starts : StartsAttribute text) {length : Nat}
    (reads : attributeNameLength dialect.registry text = length) :
    ∃ held : Token, (s.run dialect).tokens = held ::
        ((((s.skip gap.length).skip length).afterName (text.take length)).run dialect).tokens ∧
      held.kind.name = "ATTRIBUTE_NAME" ∧ held.value = text.take length := by
  have rest : (s.skip gap.length).rest = text := by simp [ahead]
  have step := step_attribute dialect top spaces ahead starts
  have nonempty : s.rest ≠ [] := by
    rw [ahead]
    exact List.append_ne_nil_of_right_ne_nil gap starts.nonempty
  have goes : (s.step dialect).next =
      .ok (((s.skip gap.length).skip length).afterName (text.take length)) := by
    rw [step]
    unfold stepAttribute afterName
    simp only [rest, reads]
    split <;> rfl
  obtain ⟨kind, tokens⟩ : ∃ kind, (s.step dialect).tokens =
      [(s.skip gap.length).token (.attributeName kind) length] := by
    rw [step, ← reads, ← rest]
    exact ⟨_, rfl⟩
  refine ⟨(s.skip gap.length).token (.attributeName kind) length, ?_, rfl,
    congrArg (List.take length) rest⟩
  rw [tokens_of_step nonempty goes, tokens]
  rfl

/-- An entry that is an echo. -/
theorem tokens_entry (isExpression : IsExpression expression)
    (top : s.modes = ⟨.tag tag, start⟩ :: outer) (spaces : ∀ c ∈ gap, isTagSpace c = true)
    (ahead : s.rest = gap ++ (style.enclose expression ++ after)) :
    ∃ (first content last : Token) (next : ScanState),
      (s.run dialect).tokens =
        first :: content :: last :: ((next.skip style.width).run dialect).tokens ∧
      next.modes = s.modes ∧ next.rest = style.closer ++ after ∧
      first.kind = .echoOpen style ∧ first.value = style.opener ∧
      content.kind = .echoContent style ∧ content.value = expression ∧
      last.kind = .echoClose style ∧ last.value = style.closer := by
  let t := s.skip gap.length
  have rest : t.rest = style.opener ++ (expression ++ (style.closer ++ after)) := by
    show (s.skip gap.length).rest = _
    rw [rest_skip, ahead, List.drop_left, EchoStyle.enclose]
    simp only [List.append_assoc]
  have starts : EchoStyle.startOf t.rest = some style := by
    rw [rest]
    exact startOf_opener style _
  have inside : t.rest.drop style.width = expression ++ (style.closer ++ after) := by
    rw [rest, ← style.length_opener, List.drop_left]
  have found : findDelimiter style.closer (t.rest.drop style.width) = some expression.length := by
    rw [inside, ← List.append_assoc]
    exact isExpression.findDelimiter_closer style after
  have entered := step_entry dialect isExpression top spaces ahead
  have echo : (t.push .echo).step dialect =
      (t.push .echo).takeTriple (.echoOpen style) (.echoContent style) (.echoClose style)
        style.width expression.length := by
    show (t.push .echo).stepEcho t.position = _
    unfold stepEcho
    simp only [rest_push, starts, Option.getD_some, found]
  have nonempty : s.rest ≠ [] := by
    rw [ahead]
    cases style <;> simp [EchoStyle.enclose, EchoStyle.opener]
  have more : t.rest ≠ [] := by
    rw [rest]
    cases style <;> simp [EchoStyle.opener]
  have content : ((t.skip style.width).skip expression.length).rest = style.closer ++ after := by
    rw [rest_skip, rest_skip, inside, List.drop_left]
  refine ⟨t.token (.echoOpen style) style.width,
    (t.skip style.width).token (.echoContent style) expression.length,
    ((t.skip style.width).skip expression.length).token (.echoClose style) style.width,
    (t.skip style.width).skip expression.length, ?_, rfl, content, rfl, ?_, rfl, ?_, rfl, ?_⟩
  · rw [tokens_of_step nonempty (by rw [entered]; rfl), entered]
    rw [tokens_of_step (s := t.push .echo) more (by rw [echo]; rfl), echo]
    rfl
  · show t.rest.take style.width = _
    rw [rest, ← style.length_opener, List.take_left]
  · show (t.rest.drop style.width).take expression.length = _
    rw [inside, List.take_left]
  · show ((t.skip style.width).skip expression.length).rest.take style.width = _
    rw [content, ← style.length_closer, List.take_left]

theorem rest_sign {before behind : Chars} (ahead : s.rest = before ++ '=' :: (behind ++ text)) :
    ((s.skip (before.length + 1)).skip behind.length).rest = text := by
  rw [rest_skip, rest_skip, ahead, ← List.drop_drop, List.drop_left, List.drop_one,
    List.tail_cons, List.drop_left]

/-- Behind the name of an attribute, an equals sign with white space around it leads to the
value. -/
theorem afterName_sign (name : Chars) {before behind : Chars}
    (gaps : ∀ c ∈ before ++ behind, isTagSpace c = true)
    (stops : ∀ c, text.head? = some c → isTagSpace c = false)
    (ahead : s.rest = before ++ '=' :: (behind ++ text)) :
    s.afterName name =
      ((s.skip (before.length + 1)).skip behind.length).push (.attributeValue name) := by
  have toSign : countWhile isTagSpace s.rest = before.length := by
    rw [ahead]
    exact countWhile_gap (fun c member => gaps c (List.mem_append_left _ member))
      fun c head => by cases head; decide
  have hasValue : (s.rest.drop before.length).head? = some '=' := by
    rw [ahead, List.drop_left]
    rfl
  have toValue : countWhile isTagSpace (s.skip (before.length + 1)).rest = behind.length := by
    rw [rest_skip, ahead, ← List.drop_drop, List.drop_left, List.drop_one, List.tail_cons]
    exact countWhile_gap (fun c member => gaps c (List.mem_append_right _ member)) stops
  unfold afterName
  simp only [toSign, hasValue, if_true, toValue]

/-- An attribute up to its value. -/
theorem tokens_sign {sign name : Chars} (top : s.modes = ⟨.tag tag, start⟩ :: outer)
    (spaces : ∀ c ∈ gap, isTagSpace c = true) (ahead : s.rest = gap ++ (sign ++ text))
    (isSign : IsSign dialect.registry sign name)
    (stops : ∀ c, text.head? = some c → isTagSpace c = false) :
    ∃ (first : Token) (value : ScanState),
      (s.run dialect).tokens =
        first :: ((value.push (.attributeValue name)).run dialect).tokens ∧
      value.rest = text ∧ value.modes = s.modes ∧ first.kind.name = "ATTRIBUTE_NAME" := by
  obtain ⟨before, behind, split, gaps⟩ := isSign.split
  obtain ⟨first, tokens, kind, -⟩ :=
    tokens_attribute top spaces ahead (isSign.starts text) (isSign.reads text)
  have named : (sign ++ text).take name.length = name := by
    rw [split, List.append_assoc, List.append_assoc, List.take_left]
  have rest : ((s.skip gap.length).skip name.length).rest = before ++ '=' :: (behind ++ text) := by
    rw [rest_skip, rest_skip, ahead, List.drop_left, split]
    simp only [List.append_assoc, List.cons_append, List.drop_left]
  refine ⟨first, (((s.skip gap.length).skip name.length).skip (before.length + 1)).skip
    behind.length, ?_, rest_sign rest, rfl, kind⟩
  rw [tokens, named, afterName_sign name gaps stops rest]

end Tag

/-! ## Echoes with something around them -/

section Around

variable {front expression after : Chars} {style : EchoStyle}

theorem enclose_eq_concat (style : EchoStyle) (expression : Chars) :
    style.enclose expression =
      style.opener ++ expression ++ style.closer.dropLast ++ ['}'] := by
  cases style <;> simp [EchoStyle.enclose, EchoStyle.closer]

/-- Behind an echo the reader goes on alike, whatever its style. -/
theorem alike_enclose (modes : s.modes = t.modes) {style' : EchoStyle}
    (ahead : s.rest = front ++ style.enclose expression ++ after)
    (ahead' : t.rest = front ++ style'.enclose expression ++ after) (more : Nat) :
    (s.skip ((front ++ style.enclose expression).length + more)).Alike Anywhere
      (t.skip ((front ++ style'.enclose expression).length + more)) := by
  have braced (style : EchoStyle) : front ++ style.enclose expression ++ after =
      (front ++ (style.opener ++ expression ++ style.closer.dropLast)) ++ '}' :: after := by
    rw [enclose_eq_concat]
    simp only [List.append_assoc, List.singleton_append]
  have size (style : EchoStyle) : (front ++ style.enclose expression).length =
      (front ++ (style.opener ++ expression ++ style.closer.dropLast)).length + 1 := by
    rw [enclose_eq_concat, ← List.append_assoc, List.length_append]
    rfl
  rw [size, size]
  exact alike_behind modes (ahead.trans (braced style)) (ahead'.trans (braced style')) more

/-- What is cut off behind an echo. -/
theorem take_enclose (front : Chars) (style : EchoStyle) (expression after : Chars) (more : Nat) :
    (front ++ style.enclose expression ++ after).take
        ((front ++ style.enclose expression).length + more) =
      front ++ style.enclose expression ++ after.take more :=
  List.take_length_add_append more

end Around

end ScanState

end BladeTemplate
