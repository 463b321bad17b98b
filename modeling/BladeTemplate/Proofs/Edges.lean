import BladeTemplate.Proofs.Ink
import BladeTemplate.Proofs.Measure
import BladeTemplate.Proofs.Reading

/-!
# Where tokens start and end

What is kept as it is has firm edges: it starts and ends in ink. The reader stops at a closing
delimiter, at the end of a name, or in front of an end tag, and that is what the tokens show at
their ends.

* `Text.Firm` is a text that starts and ends in ink, `Text.Snug` one that neither starts nor ends
  with a line break;
* `Token.Edged` is what the kind of a token tells about its edges;
* `ScanState.edged_step` says that every step reads such tokens, and `edged_scan` that every token
  of a template is one.
-/

namespace BladeTemplate

open Text Lookahead

namespace Text

/-- The first character of the text is ink. -/
def StartsInked (text : Chars) : Prop :=
  ∃ c rest, text = c :: rest ∧ isBlank c = false

/-- The last character of the text is ink. -/
def EndsInked (text : Chars) : Prop :=
  ∃ head c, text = head ++ [c] ∧ isBlank c = false

/-- The text starts and ends in ink. -/
structure Firm (text : Chars) : Prop where
  starts : StartsInked text
  ends : EndsInked text

theorem StartsInked.inLine {text : Chars} (starts : StartsInked text) :
    text.head? ≠ some '\n' := by
  obtain ⟨c, rest, rfl, inked⟩ := starts
  rintro ⟨⟩
  exact absurd inked (by decide)

theorem StartsInked.nonempty {text : Chars} (starts : StartsInked text) : text ≠ [] := by
  obtain ⟨c, rest, rfl, _⟩ := starts
  exact List.cons_ne_nil c rest

theorem StartsInked.before {text : Chars} (starts : StartsInked text) (rest : Chars) :
    StartsInked (text ++ rest) := by
  obtain ⟨c, more, rfl, inked⟩ := starts
  exact ⟨c, more ++ rest, rfl, inked⟩

theorem StartsInked.take {text : Chars} (starts : StartsInked text) {length : Nat}
    (positive : 0 < length) : StartsInked (text.take length) := by
  obtain ⟨c, rest, rfl, inked⟩ := starts
  obtain ⟨less, rfl⟩ := Nat.exists_eq_add_one_of_ne_zero (Nat.pos_iff_ne_zero.1 positive)
  exact ⟨c, rest.take less, rfl, inked⟩

/-- A text that starts with a delimiter in ink. -/
theorem startsInked_of_startsWith {lead text : Chars} (inked : StartsInked lead)
    (starts : startsWith lead text = true) : StartsInked text := by
  obtain ⟨rest, rfl⟩ := startsWith_iff.1 starts
  exact inked.before rest

theorem EndsInked.after {text : Chars} (lead : Chars) (ends : EndsInked text) :
    EndsInked (lead ++ text) := by
  obtain ⟨head, c, rfl, inked⟩ := ends
  exact ⟨lead ++ head, c, (List.append_assoc _ _ _).symm, inked⟩

theorem endsInked_of_all {text : Chars} (some : text ≠ [])
    (inked : ∀ c ∈ text, isBlank c = false) : EndsInked text := by
  refine ⟨text.dropLast, text.getLast some, (List.dropLast_concat_getLast some).symm, ?_⟩
  exact inked _ (List.getLast_mem some)

/-- The text does not end with a line break. -/
def EndsInLine (text : Chars) : Prop :=
  text.getLast? ≠ some '\n'

theorem endsInLine_nil : EndsInLine [] := by
  simp [EndsInLine]

theorem EndsInLine.append {first second : Chars} (one : EndsInLine first)
    (two : EndsInLine second) : EndsInLine (first ++ second) := by
  unfold EndsInLine at *
  rw [List.getLast?_append]
  cases last : second.getLast? with
  | none => simpa using one
  | some c =>
    rw [last] at two
    simpa using two

theorem EndsInLine.after {text : Chars} (ends : EndsInLine text) (some : text ≠ [])
    (lead : Chars) : EndsInLine (lead ++ text) := by
  unfold EndsInLine at *
  rw [List.getLast?_append, List.getLast?_eq_some_getLast some] at *
  exact ends

theorem EndsInked.inLine {text : Chars} (ends : EndsInked text) : EndsInLine text := by
  obtain ⟨head, c, rfl, inked⟩ := ends
  unfold EndsInLine
  rw [List.getLast?_concat]
  rintro ⟨⟩
  exact absurd inked (by decide)

theorem endsInLine_singleton {c : Char} (other : c ≠ '\n') : EndsInLine [c] := by
  simpa [EndsInLine] using other

theorem startsInked_opener (style : EchoStyle) : StartsInked style.opener := by
  cases style
  · exact ⟨'{', ['{'], rfl, by decide⟩
  · exact ⟨'{', ['!', '!'], rfl, by decide⟩

theorem endsInked_closer (style : EchoStyle) : EndsInked style.closer := by
  cases style
  · exact ⟨['}'], '}', rfl, by decide⟩
  · exact ⟨['!', '!'], '}', rfl, by decide⟩

theorem EndsInked.pos {text : Chars} {length : Nat} (ends : EndsInked (text.take length)) :
    0 < length := by
  obtain ⟨head, c, split, _⟩ := ends
  cases length with
  | zero => simp at split
  | succ n => exact Nat.succ_pos n

/-- What is taken in two steps ends as the second part does. -/
theorem EndsInked.take_add {text : Chars} {n m : Nat} (ends : EndsInked ((text.drop n).take m)) :
    EndsInked (text.take (n + m)) := by
  rw [List.take_add]
  exact ends.after _

/-- The text is not empty, and neither starts nor ends with a line break. -/
structure Snug (text : Chars) : Prop where
  nonempty : text ≠ []
  starts : text.head? ≠ some '\n'
  ends : EndsInLine text

theorem EndsInked.nonempty {text : Chars} (ends : EndsInked text) : text ≠ [] := by
  obtain ⟨head, c, rfl, _⟩ := ends
  simp

theorem Firm.snug {text : Chars} (firm : Firm text) : Snug text :=
  ⟨firm.ends.nonempty, firm.starts.inLine, firm.ends.inLine⟩

/-- Code of the markup that has no end, and so runs to the end of the template. -/
def isOpenCode (code : Chars) : Bool :=
  startsWith "<?".toList code && (indexOf "?>".toList (code.drop 2)).isNone

/-- The end tag of the element with the given name, in lower case, stands at an offset; only its
first letter is looked at. -/
def EndTagAhead (source element : Chars) (n : Nat) : Prop :=
  ∃ c rest, source.drop n = '<' :: '/' :: c :: rest ∧ element.head? = some (foldLetter c)

end Text

/-- What the kind of a token tells about the edges of its text: those of regions are firm, but for
the end of code that is left open; front matter, names and values end in their line; the body of an
element stops at its end tag. -/
def Token.Edged (source : Chars) (token : Token) : Prop :=
  match token.kind with
  | .markupComment | .declaration | .verbatim => Firm token.value
  | .rawCode => StartsInked token.value ∧ (EndsInked token.value ∨ isOpenCode token.value = true)
  | .attributeName _ => Snug token.value
  | .attributeValue => EndsInLine token.value
  | .frontMatter =>
    StartsInked token.value ∧ EndsInLine token.value ∧ token.start.offset = 0
  | .directiveName => ∀ c ∈ token.value, isBlank c = false
  | .rawText element => EndTagAhead source element token.stop.offset
  | _ => True

/-! ## What a search ends at -/

/-- What is read through a closing delimiter ends with it. -/
theorem Text.take_through {text closer : Chars} {lead length : Nat}
    (found : indexOf closer (text.drop lead) = some length) :
    text.take (lead + length + closer.length) = text.take (lead + length) ++ closer := by
  obtain ⟨_, after, closes⟩ := indexOf_spec found
  rw [List.drop_drop] at closes
  rw [List.take_add, closes, List.take_left]

theorem Text.firm_through {text closer : Chars} {lead length : Nat}
    (found : indexOf closer (text.drop lead) = some length) (positive : 0 < lead)
    (starts : StartsInked text) (inked : EndsInked closer) :
    Firm (text.take (lead + length + closer.length)) := by
  refine ⟨starts.take (by omega), ?_⟩
  rw [take_through found]
  exact inked.after _

theorem Lookahead.head_drop_countWhile (keep : Char → Bool) (text : Chars) {c : Char}
    (next : (text.drop (countWhile keep text)).head? = some c) : keep c = false := by
  induction text with
  | nil => cases next
  | cons first rest ih =>
    unfold countWhile at next ih
    rw [List.takeWhile_cons] at next
    split at next
    · exact ih next
    · next stops =>
      obtain rfl : first = c := by simpa using next
      exact eq_false_of_ne_true stops

theorem Lookahead.inked_directiveName (text : Chars) :
    ∀ c ∈ text.take (directiveNameLength text), isBlank c = false := by
  have word {c : Char} (word : isWordChar c = true) : isBlank c = false := by
    refine eq_false_of_ne_true ?_
    intro blank
    rw [isWordChar_of_isBlank blank] at word
    cases word
  have first := take_countWhile isWordChar text
  unfold directiveNameLength
  simp only
  split
  · next rest colons =>
    split
    · exact fun c member => word (first c member)
    · -- A second word follows behind two colons.
      intro c member
      rw [Nat.add_assoc, List.take_add, colons, Nat.add_comm 2, List.take_succ_cons,
        List.take_succ_cons, List.mem_append, List.mem_cons, List.mem_cons] at member
      rcases member with inFirst | rfl | rfl | inSecond
      · exact word (first c inFirst)
      · decide
      · decide
      · exact word (take_countWhile isWordChar rest c inSecond)
  · exact fun c member => word (first c member)

theorem Text.head_lower {c : Char} {rest : Chars} (alpha : c.isAlpha = true) :
    (lower (c :: rest)).head? = some (foldLetter c) := by
  have plain : c ≠ 'Σ' ∧ c ≠ 'İ' ∧ lowerChar c = foldLetter c :=
    of_ascii (fun c => c.isAlpha = true → c ≠ 'Σ' ∧ c ≠ 'İ' ∧ lowerChar c = foldLetter c) (by decide)
      (toNat_of_isAlpha alpha) alpha
  unfold lower lowerAfter
  simp [plain]

/-- The body of an element stops in front of an end tag that starts with the letter of its name. -/
theorem Lookahead.endTagAhead_of_rawText {tag text : Chars} {length : Nat}
    (named : startsAlpha tag = true) (found : rawTextLength tag text = some length) :
    ∃ c rest, text.drop length = '<' :: '/' :: c :: rest ∧
      (lower tag).head? = some (foldLetter c) := by
  obtain ⟨_, ends⟩ := rawTextLength_spec found
  unfold endsRawText at ends
  split at ends
  · next rest ahead =>
    simp only [Bool.and_eq_true, decide_eq_true_eq] at ends
    cases tag with
    | nil => cases named
    | cons first more =>
      cases rest with
      | nil => simp at ends
      | cons c rest =>
        have alike : foldLetter c = foldLetter first := by
          simpa using congrArg List.head? ends.1
        exact ⟨c, rest, ahead, by rw [head_lower named, alike]⟩
  · cases ends

/-! ## What the parts of an entry end at -/

namespace Lookahead

theorem endsInked_closedEcho {style : EchoStyle} {text : Chars} {length : Nat}
    (found : closedEchoLength style text = some length) : EndsInked (text.take length) := by
  obtain ⟨n, closes, rfl⟩ := Option.map_eq_some_iff.1 found
  obtain ⟨_, rest, behind⟩ := findDelimiter_spec closes
  rw [List.drop_drop] at behind
  refine EndsInked.take_add ?_
  rw [behind, ← style.length_closer, List.take_left]
  exact endsInked_closer style

theorem endsInked_group {rest : Chars} {length : Nat}
    (found : groupLength ('(' :: rest) = some length) :
    EndsInked (('(' :: rest).take length) := by
  obtain ⟨inside, later, rfl, rfl⟩ := groupLength_spec found
  refine ⟨'(' :: inside, ')', ?_, by decide⟩
  rw [List.take_succ_cons, List.take_length_add_append]
  rfl

theorem endsInked_embedded {text : Chars} {length : Nat}
    (found : embeddedLength text = some length) : EndsInked (text.take length) := by
  unfold embeddedLength at found
  split at found
  · obtain ⟨n, closes, rfl⟩ := Option.map_eq_some_iff.1 found
    show EndsInked (text.take (4 + n + commentCloser.length))
    rw [take_through closes]
    exact EndsInked.after _ ⟨['-', '-', '}'], '}', rfl, by decide⟩
  · split at found
    · exact endsInked_closedEcho found
    · cases found

theorem endsInked_spacedGroup {registry : Registry} {name rest : Chars} {length : Nat}
    (found : spacedGroupLength registry name rest = some length) :
    EndsInked (rest.take length) := by
  unfold spacedGroupLength at found
  simp only at found
  split at found
  · next opens =>
    obtain ⟨n, group, rfl⟩ := Option.map_eq_some_iff.1 found
    rw [Bool.and_eq_true, decide_eq_true_iff] at opens
    obtain ⟨later, ahead⟩ := List.head?_eq_some_iff.1 opens.2
    refine EndsInked.take_add ?_
    rw [ahead] at group ⊢
    exact endsInked_group group
  · cases found

theorem ne_lineFeed_of_goesOn {c : Char} (goesOn : endsAttributeName c = false) : c ≠ '\n' := by
  rintro rfl
  cases goesOn

/-- The name of an attribute that has been read up to some offset does not end with a line break. -/
theorem endsInLine_attributeNameFrom (registry : Registry) {whole : Chars} (grouped : Bool)
    {done : Nat} {rest : Chars} (ahead : whole.drop done = rest)
    (inLine : EndsInLine (whole.take done)) :
    EndsInLine (whole.take (attributeNameFrom registry whole grouped done rest)) := by
  induction size : rest.length using Nat.strongRecOn generalizing rest grouped done with
  | ind size ih =>
    subst size
    cases rest with
    | nil =>
      rw [attributeNameFrom]
      exact inLine
    | cons c tail =>
      -- What is passed over next ends in its line.
      have further (grouped : Bool) {length : Nat} (positive : 0 < length)
          (unit : EndsInLine ((c :: tail).take length)) :
          EndsInLine (whole.take (attributeNameFrom registry whole grouped (done + length)
            (tail.drop (length - 1)))) := by
        refine ih _ ?_ grouped ?_ ?_ rfl
        · rw [List.length_drop, List.length_cons]
          omega
        · obtain ⟨less, rfl⟩ := Nat.exists_eq_add_of_lt positive
          rw [← List.drop_drop, ahead]
          simp
        · rw [List.take_add, ahead]
          exact inLine.append unit
      rw [attributeNameFrom]
      split
      · split
        · split
          · next found =>
            have unit := endsInked_spacedGroup found
            exact further true unit.pos unit.inLine
          · exact inLine
        · exact inLine
      next goesOn =>
      split
      · exact inLine
      split
      · split
        · next found =>
          have unit := endsInked_closedEcho found
          exact further grouped unit.pos unit.inLine
        · exact inLine
      split
      · next group =>
        rw [Bool.and_eq_true, decide_eq_true_iff] at group
        rw [group.1] at further
        split
        · next found =>
          rw [group.1] at found
          have unit := endsInked_group found
          exact further true unit.pos unit.inLine
        · exact inLine
      · exact further grouped (Nat.succ_pos 0)
          (endsInLine_singleton (ne_lineFeed_of_goesOn (eq_false_of_ne_true goesOn)))

/-- The name of an attribute does not end with a line break, unless it stands at one. -/
theorem endsInLine_attributeName (registry : Registry) {text : Chars}
    (starts : text.head? ≠ some '\n') :
    EndsInLine (text.take (attributeNameLength registry text)) := by
  unfold attributeNameLength
  have named : EndsInLine (text.take (attributeNameFrom registry text false 0 text)) :=
    endsInLine_attributeNameFrom registry false List.drop_zero endsInLine_nil
  rcases Nat.eq_zero_or_pos (attributeNameFrom registry text false 0 text) with none | some
  · -- A character that can be in no name is taken alone.
    rw [none]
    cases text with
    | nil => exact endsInLine_nil
    | cons c rest => exact endsInLine_singleton fun feed => starts (congrArg Option.some feed)
  · rwa [Nat.max_eq_right some]

/-- A text that is taken off behind a unit of it. -/
theorem take_unit {c : Char} {rest : Chars} {length : Nat} (positive : 0 < length) (more : Nat) :
    (c :: rest).take (length + more) =
      (c :: rest).take length ++ (rest.drop (length - 1)).take more := by
  obtain ⟨less, rfl⟩ := Nat.exists_eq_add_of_lt positive
  rw [List.take_add]
  simp

/-- A quoted value ends with its quote. -/
theorem endsInked_quotedTail {quote : Char} (inked : isBlank quote = false) (text : Chars) :
    ∀ length, quotedTailLength quote text = some length → EndsInked (text.take length) := by
  induction text using quotedTailLength.induct quote with
  | case1 =>
    intro length found
    simp [quotedTailLength] at found
  | case2 rest =>
    intro length found
    rw [quotedTailLength, if_pos rfl] at found
    cases found
    exact ⟨[], quote, rfl, inked⟩
  | case3 c rest other unit found ih =>
    intro length closed
    rw [quotedTailLength, if_neg other] at closed
    simp only [found] at closed
    obtain ⟨more, later, rfl⟩ := Option.map_eq_some_iff.1 closed
    rw [take_unit (endsInked_embedded found).pos]
    exact (ih more later).after _
  | case4 c rest other noUnit ih =>
    intro length closed
    rw [quotedTailLength, if_neg other] at closed
    simp only [noUnit] at closed
    obtain ⟨more, later, rfl⟩ := Option.map_eq_some_iff.1 closed
    rw [take_unit Nat.zero_lt_one]
    exact (ih more later).after _

/-- A value without quotes stops in front of white space. -/
theorem endsInLine_bareValue (text : Chars) : EndsInLine (text.take (bareValueLength text)) := by
  have one {c : Char} {rest : Chars} (goesOn : ¬(isTagSpace c || c = '>') = true)
      (later : EndsInLine (rest.take (bareValueLength rest))) :
      EndsInLine ((c :: rest).take (1 + bareValueLength rest)) := by
    have other : c ≠ '\n' := by
      rintro rfl
      exact goesOn rfl
    rw [take_unit Nat.zero_lt_one]
    exact (endsInLine_singleton other).append later
  induction text using bareValueLength.induct with
  | case1 =>
    rw [List.take_nil]
    exact endsInLine_nil
  | case2 c rest stops =>
    rw [bareValueLength, if_pos stops]
    exact endsInLine_nil
  | case3 c rest goesOn starts length found ih =>
    rw [bareValueLength, if_neg goesOn, if_pos starts]
    simp only [found]
    have unit := endsInked_closedEcho found
    rw [take_unit unit.pos]
    exact unit.inLine.append ih
  | case4 c rest goesOn starts unclosed ih =>
    rw [bareValueLength, if_neg goesOn, if_pos starts]
    simp only [unclosed]
    exact one goesOn ih
  | case5 c rest goesOn noEcho ih =>
    rw [bareValueLength, if_neg goesOn, if_neg noEcho]
    exact one goesOn ih

theorem isBlank_of_isQuote {c : Char} (quote : isQuote c = true) : isBlank c = false := by
  unfold isQuote at quote
  rcases Bool.or_eq_true_iff.1 quote with single | double
  · rw [of_decide_eq_true single]
    decide
  · rw [of_decide_eq_true double]
    decide

/-- The value of an attribute does not end with a line break. -/
theorem endsInLine_value {text : Chars} {length : Nat} (found : valueLength text = some length) :
    EndsInLine (text.take length) := by
  unfold valueLength at found
  split at found
  · cases found
    exact endsInLine_nil
  · split at found
    · next c rest quote =>
      obtain ⟨n, tail, rfl⟩ := Option.map_eq_some_iff.1 found
      refine EndsInked.inLine (EndsInked.take_add ?_)
      exact endsInked_quotedTail (isBlank_of_isQuote quote) rest n tail
    · cases found
      exact endsInLine_bareValue _

end Lookahead

/-! ## Steps -/

/-- Whether the body of a construct is read as one token that is kept as it is. -/
def Mode.keepsBody : Mode → Bool
  | .verbatim | .rawCode => true
  | _ => false

namespace ScanState

/-- A body that is kept as it is starts in ink. -/
def Faces (s : ScanState) : Prop :=
  s.modes.head?.any (·.mode.keepsBody) = true → StartsInked s.rest

/-- The tokens of a step have the edges of their kinds, and so will the next ones. -/
structure StepEdged (source : Chars) (step : Step) : Prop where
  tokens : ∀ token ∈ step.tokens, token.Edged source
  next : ∀ next, step.next = .ok next → next.Faces

variable {source : Chars} {s : ScanState}

theorem faces_of_modes {mode : Mode} {start : Position} {outer : List OpenMode}
    (top : s.modes = ⟨mode, start⟩ :: outer) (other : mode.keepsBody = false) : s.Faces := by
  simp [Faces, top, other]

theorem faces_of_text (inText : s.modes = []) : s.Faces := by
  simp [Faces, inText]

theorem became {current mode : Mode} {start : Position} {outer : List OpenMode}
    (top : s.modes = ⟨current, start⟩ :: outer) :
    (s.become mode).modes = ⟨mode, start⟩ :: outer := by
  simp [become, top]

theorem stepEdged_next {tokens : List Token} {next : ScanState}
    (edged : ∀ token ∈ tokens, token.Edged source) (faces : next.Faces)
    (diagnostics : List Diagnostic) (events : List Event) :
    StepEdged source { tokens, diagnostics, events, next := .ok next } :=
  ⟨edged, by rintro _ ⟨⟩; exact faces⟩

theorem stepEdged_single {token : Token} {next : ScanState} (edged : token.Edged source)
    (faces : next.Faces) : StepEdged source { tokens := [token], next := .ok next } :=
  stepEdged_next (List.forall_mem_singleton.2 edged) faces _ _

theorem stepEdged_fault (source : Chars) (fault : LexFault × Position) :
    StepEdged source { next := .error fault } :=
  ⟨by simp, by simp⟩

theorem edged_take (inText : s.modes = []) {kind : TokenKind} {length : Nat}
    (edged : (s.token kind length).Edged source) : StepEdged source (s.take kind length) :=
  stepEdged_single edged (faces_of_text (by simpa using inText))

theorem edged_enter {mode : Mode} (faces : mode.keepsBody = true → StartsInked s.rest) :
    StepEdged source (s.enter mode) := by
  refine stepEdged_next (by simp) ?_ _ _
  intro keeps
  exact faces (by simpa using keeps)

theorem edged_takeThrough (inText : s.modes = []) {kind : TokenKind} {lead : Nat} {closer : Chars}
    (fault : LexFault) (edged : ∀ length, indexOf closer (s.rest.drop lead) = some length →
      (s.token kind (lead + length + closer.length)).Edged source) :
    StepEdged source (s.takeThrough kind lead closer fault) := by
  unfold takeThrough
  split
  · next length found => exact edged_take inText (edged length found)
  · exact stepEdged_fault source _

theorem edged_stepBang (inText : s.modes = []) : StepEdged source s.stepBang := by
  have front {lead : Chars} {c : Char} {more : Chars} (shape : lead = c :: more)
      (inked : isBlank c = false) (starts : startsWith lead s.rest = true) : StartsInked s.rest :=
    startsInked_of_startsWith ⟨c, more, shape, inked⟩ starts
  unfold stepBang
  split
  · next starts =>
    refine edged_takeThrough inText _ fun length found => ?_
    exact firm_through found (by omega) (front rfl (by decide) starts)
      ⟨['-', '-'], '>', rfl, by decide⟩
  split
  · next starts =>
    refine edged_takeThrough inText _ fun length found => ?_
    exact firm_through found (by omega) (front rfl (by decide) starts)
      ⟨[']', ']'], '>', rfl, by decide⟩
  split
  · next starts =>
    refine edged_takeThrough inText _ fun length found => ?_
    exact firm_through found (by omega) (front rfl (by decide) (Bool.and_eq_true_iff.1 starts).1)
      ⟨[], '>', rfl, by decide⟩
  split
  · next starts => exact edged_enter fun _ => front rfl (by decide) starts
  · have one : StepEdged source (s.take .text 1) := edged_take inText trivial
    exact ⟨one.tokens, one.next⟩

theorem edged_stepConstruct (inText : s.modes = []) : StepEdged source s.stepConstruct := by
  unfold stepConstruct
  split
  · exact edged_enter nofun
  split
  · exact edged_enter nofun
  split
  · exact edged_enter nofun
  split
  · exact edged_takeThrough inText _ fun _ _ => trivial
  split
  · exact edged_stepBang inText
  · exact edged_enter nofun

theorem edged_stepText (inText : s.modes = []) : StepEdged source s.stepText := by
  unfold stepText
  simp only
  split
  · exact edged_stepConstruct inText
  split
  · exact edged_take inText trivial
  · have construct : StepEdged source (s.skip (textRunLength s.previous s.rest)).stepConstruct :=
      edged_stepConstruct inText
    exact ⟨List.forall_mem_cons.2 ⟨trivial, construct.tokens⟩, construct.next⟩

theorem edged_stepDirectiveHead (dialect : Dialect) {start : Position} {rest : Chars}
    (top : s.modes = [⟨.directiveHead, start⟩]) (ahead : s.rest = '@' :: rest) :
    StepEdged source (s.stepDirectiveHead dialect) := by
  unfold stepDirectiveHead
  simp only
  split
  · refine stepEdged_next (by simp) ?_ _ _
    intro _
    rw [rest_become, ahead]
    exact ⟨'@', rest, rfl, by decide⟩
  · refine ⟨?_, ?_⟩
    · have named : ∀ c ∈ (s.token .directiveName (1 + directiveNameLength (s.rest.drop 1))).value,
          isBlank c = false := by
        unfold token
        rw [ahead, Nat.add_comm 1, List.drop_one, List.tail_cons, List.take_succ_cons]
        exact List.forall_mem_cons.2 ⟨by decide, inked_directiveName rest⟩
      exact List.forall_mem_singleton.2 named
    · intro next moves
      simp only at moves
      split at moves
      · cases moves
        exact faces_of_text (by simp [top])
      · cases moves
        exact faces_of_modes (became top) rfl

theorem edged_stepArguments {start : Position} (top : s.modes = [⟨.arguments, start⟩]) :
    StepEdged source (s.stepArguments start) := by
  unfold stepArguments
  split
  · exact stepEdged_fault source _
  · refine stepEdged_next ?_ (faces_of_text (by simp [top])) _ _
    rw [List.cons_append, List.forall_mem_cons, List.forall_mem_append]
    refine ⟨trivial, ?_, by simp [Token.Edged, token]⟩
    split <;> simp [Token.Edged, token]

theorem edged_takeTriple {opening content closing : TokenKind} (width length : Nat)
    (edged : ∀ token : Token, token.kind = opening ∨ token.kind = content ∨ token.kind = closing →
      token.Edged source) (faces : ∀ after : ScanState, after.modes = s.modes.tail → after.Faces) :
    StepEdged source (s.takeTriple opening content closing width length) := by
  refine stepEdged_next ?_ (faces _ rfl) _ _
  simp only [List.forall_mem_cons]
  exact ⟨edged _ (.inl rfl), edged _ (.inr (.inl rfl)), edged _ (.inr (.inr rfl)), by simp⟩

theorem edged_stepEcho (start : Position)
    (faces : ∀ after : ScanState, after.modes = s.modes.tail → after.Faces) :
    StepEdged source (s.stepEcho start) := by
  unfold stepEcho
  simp only
  split
  · exact stepEdged_fault source _
  · refine edged_takeTriple _ _ ?_ faces
    rintro token (kind | kind | kind) <;> simp [Token.Edged, kind]

theorem edged_stepComment (start : Position)
    (faces : ∀ after : ScanState, after.modes = s.modes.tail → after.Faces) :
    StepEdged source (s.stepComment start) := by
  unfold stepComment
  split
  · exact stepEdged_fault source _
  · refine edged_takeTriple _ _ ?_ faces
    rintro token (kind | kind | kind) <;> simp [Token.Edged, kind]

theorem edged_stepAttribute (dialect : Dialect) {start : Position} {name : Chars}
    (top : s.modes = [⟨.tag name, start⟩]) (ahead : s.rest ≠ [])
    (starts : s.rest.head? ≠ some '\n') : StepEdged source (s.stepAttribute dialect) := by
  unfold stepAttribute
  refine ⟨List.forall_mem_singleton.2 ?_, ?_⟩
  · have positive := attributeNameLength_pos dialect.registry s.rest
    refine ⟨?_, ?_, endsInLine_attributeName dialect.registry starts⟩
    · simpa [token, Nat.pos_iff_ne_zero.1 positive] using ahead
    · show (s.rest.take _).head? ≠ some '\n'
      rw [List.head?_take, if_neg (by omega)]
      exact starts
  · intro next moves
    simp only at moves
    split at moves
    · cases moves
      exact faces_of_modes (modes_push _ _) rfl
    · cases moves
      exact faces_of_modes top rfl

theorem edged_stepTag (dialect : Dialect) {start : Position} {name : Chars}
    (top : s.modes = [⟨.tag name, start⟩]) : StepEdged source (s.stepTag dialect name) := by
  -- Past the white space of a start tag there is no line break.
  have starts : (s.skip (countWhile isTagSpace s.rest)).rest.head? ≠ some '\n' := by
    intro feed
    exact absurd (head_drop_countWhile isTagSpace s.rest feed) (by decide)
  have topPast : (s.skip (countWhile isTagSpace s.rest)).modes = [⟨.tag name, start⟩] := top
  unfold stepTag
  simp only
  generalize s.skip (countWhile isTagSpace s.rest) = past at *
  split
  · exact stepEdged_next (by simp) (faces_of_modes topPast rfl) _ _
  next ahead =>
  split
  · refine stepEdged_single ?_ (faces_of_text (by simp [topPast]))
    trivial
  split
  · refine stepEdged_single ?_ ?_
    · trivial
    · split
      · exact faces_of_modes (modes_push _ _) rfl
      · exact faces_of_text (by simp [topPast])
  split
  · exact edged_enter nofun
  split
  · exact edged_enter nofun
  · exact edged_stepAttribute dialect topPast (by simpa using ahead) starts

/-- A body that is read through its closing delimiter. -/
theorem edged_takeBody {mode : OpenMode} (top : s.modes = [mode]) {kind : TokenKind} {lead : Nat}
    {closer : Chars} (fault : LexFault) (start : Position)
    (edged : ∀ length, indexOf closer (s.rest.drop lead) = some length →
      (s.token kind (lead + length + closer.length)).Edged source) :
    StepEdged source (s.takeBody kind lead closer fault start) := by
  unfold takeBody
  split
  · exact stepEdged_fault source _
  · next length found =>
    exact stepEdged_single (edged length found) (faces_of_text (by simp [top]))

theorem edged_stepRawCode {mode : OpenMode} (top : s.modes = [mode]) (start : Position)
    (starts : StartsInked s.rest) : StepEdged source (s.stepRawCode start) := by
  have closed {lead length : Nat} {closer : Chars} (positive : 0 < lead)
      (found : indexOf closer (s.rest.drop lead) = some length) (inked : EndsInked closer) :
      (s.token .rawCode (lead + length + closer.length)).Edged source := by
    have firm := firm_through found positive starts inked
    exact ⟨firm.starts, .inl firm.ends⟩
  unfold stepRawCode
  split
  · next opens =>
    refine stepEdged_single ?_ (faces_of_text (by simp [top]))
    split
    · next length found => exact closed (by decide) found ⟨['?'], '>', rfl, by decide⟩
    · next noEnd =>
      have whole : (s.token .rawCode s.rest.length).value = s.rest := List.take_length
      show StartsInked (s.token .rawCode s.rest.length).value ∧ _
      rw [whole, isOpenCode, opens, noEnd]
      exact ⟨starts, .inr rfl⟩
  · exact edged_takeBody top _ _ fun length found =>
      closed (by decide) found ⟨"@endph".toList, 'p', rfl, by decide⟩

theorem edged_stepRawText (on : s.On source) {tag : Chars} {start : Position}
    (top : s.modes = [⟨.rawText tag, start⟩]) (named : startsAlpha tag = true) :
    StepEdged source (s.stepRawText tag start) := by
  unfold stepRawText
  split
  · exact stepEdged_fault source _
  · next length found =>
    refine stepEdged_next ?_ (faces_of_text (by simp [top])) _ _
    split
    · simp
    · obtain ⟨c, rest, ahead, letter⟩ := endTagAhead_of_rawText named found
      refine List.forall_mem_singleton.2 ⟨c, rest, ?_, letter⟩
      exact (on.skip length).rest.symm.trans ahead

/-- Every step reads tokens with the edges of their kinds. -/
theorem edged_step (dialect : Dialect) (on : s.On source) {place : Place}
    (stands : s.Stands place) (faces : s.Faces) : StepEdged source (s.step dialect) := by
  have inText {mode : OpenMode} (top : s.modes = [mode]) :
      ∀ after : ScanState, after.modes = s.modes.tail → after.Faces :=
    fun after modes => faces_of_text (by rw [modes, top]; rfl)
  unfold step
  cases stands with
  | text top | rawEnd top =>
    rw [top]
    exact edged_stepText top
  | directiveHead top at_ =>
    rw [top]
    exact edged_stepDirectiveHead dialect top at_
  | arguments top =>
    rw [top]
    exact edged_stepArguments top
  | echo top =>
    rw [top]
    exact edged_stepEcho _ (inText top)
  | comment top =>
    rw [top]
    exact edged_stepComment _ (inText top)
  | tagStart top =>
    rw [top]
    refine stepEdged_single ?_ ?_
    · trivial
    · exact faces_of_modes (@became (s.skip _) _ (.tag _) _ _ top) rfl
  | verbatim top =>
    rw [top]
    refine edged_takeBody top _ _ fun length found => ?_
    exact firm_through found (by omega) (faces (by rw [top]; rfl))
      ⟨"@endverbati".toList, 'm', rfl, by decide⟩
  | rawCode top =>
    rw [top]
    exact edged_stepRawCode top _ (faces (by rw [top]; rfl))
  | rawText top named =>
    rw [top]
    exact edged_stepRawText on top named
  | tag top =>
    rw [top]
    exact edged_stepTag dialect top
  | tagEcho top =>
    rw [top]
    exact edged_stepEcho _ fun after modes => faces_of_modes (by rw [modes, top]; rfl) rfl
  | tagComment top =>
    rw [top]
    exact edged_stepComment _ fun after modes => faces_of_modes (by rw [modes, top]; rfl) rfl
  | value top =>
    rw [top]
    simp only [stepValue]
    split
    · exact stepEdged_fault source _
    · next length found =>
      refine stepEdged_single ?_ (faces_of_modes (by rw [modes_pop, modes_skip, top]; rfl) rfl)
      exact endsInLine_value found

theorem edged_run (dialect : Dialect) (s : ScanState) : ∀ place, s.On source → s.Stands place →
    s.Faces → ∀ token ∈ (s.run dialect).tokens, token.Edged source := by
  induction s using run_induction dialect with
  | ended s atEnd =>
    intro place _ _ _
    unfold finish
    split
    · exact List.forall_mem_singleton.2 trivial
    · simp
  | failed s fault ahead h =>
    intro place on stands faces
    exact (edged_step dialect on stands faces).tokens
  | stepped s next ahead h ih =>
    intro place on stands faces
    obtain ⟨onNext, after, standsNext, _⟩ := (leads_step dialect on ahead stands).goesOn next h
    have step := edged_step dialect on stands faces
    exact List.forall_mem_append.2 ⟨step.tokens, ih after onNext standsNext (step.next next h)⟩

end ScanState

/-! ## Front matter -/

namespace Lookahead

/-- A line of dashes, with or without carriage returns behind it. -/
theorem inLine_of_dashes {line : Chars}
    (dashed : (line.reverse.dropWhile (· = '\r')).reverse = dashes) :
    line ≠ [] ∧ EndsInLine line := by
  have whole : line = dashes ++ (line.reverse.takeWhile (· = '\r')).reverse := by
    rw [← dashed, ← List.reverse_append, List.takeWhile_append_dropWhile, List.reverse_reverse]
  refine ⟨?_, ?_⟩
  · rintro rfl
    cases dashed
  rw [whole]
  refine EndsInLine.append (by simp [EndsInLine, dashes]) ?_
  intro feed
  have returned := List.all_eq_true.1 List.all_takeWhile '\n'
    (List.mem_reverse.1 (List.mem_of_mem_getLast? feed))
  cases returned

/-- Front matter ends with a line of dashes. -/
theorem inLine_frontMatterFrom {lines : List Chars} {done n : Nat}
    (found : frontMatterFrom done lines = some n) :
    (lines.flatMap ('\n' :: ·)).take (n + 1 - done) ≠ [] ∧
      EndsInLine ((lines.flatMap ('\n' :: ·)).take (n + 1 - done)) := by
  induction lines generalizing done with
  | nil => cases found
  | cons line rest ih =>
    unfold frontMatterFrom at found
    split at found
    · next dashed =>
      obtain rfl : done + line.length = n := Option.some.inj found
      obtain ⟨nonempty, ends⟩ := inLine_of_dashes dashed
      have one : done + line.length + 1 - done = ('\n' :: line).length := by
        rw [List.length_cons]
        omega
      rw [List.flatMap_cons, one, List.take_left]
      exact ⟨by simp, ends.after nonempty ['\n']⟩
    · have later := frontMatterFrom_spec found
      have more : n + 1 - done = ('\n' :: line).length + (n + 1 - (done + line.length + 1)) := by
        rw [List.length_cons]
        omega
      rw [List.flatMap_cons, more, List.take_length_add_append]
      obtain ⟨nonempty, ends⟩ := ih found
      exact ⟨by simp, ends.after nonempty ('\n' :: line)⟩

theorem edges_frontMatter {text : Chars} {length : Nat}
    (found : frontMatterLength text = some length) :
    StartsInked (text.take length) ∧ EndsInLine (text.take length) := by
  obtain ⟨positive, _⟩ := frontMatterLength_pos found
  obtain ⟨dashed, closes⟩ := Option.ite_none_right_eq_some.1 found
  refine ⟨StartsInked.take ?_ positive, ?_⟩
  · rw [Bool.or_eq_true] at dashed
    rcases dashed with plain | returned
    · exact startsInked_of_startsWith ⟨'-', ['-', '-', '\n'], rfl, by decide⟩ plain
    · exact startsInked_of_startsWith ⟨'-', ['-', '-', '\r', '\n'], rfl, by decide⟩ returned
  · cases lines : splitLines text with
    | nil => exact absurd lines (splitLines_ne_nil text)
    | cons first rest =>
      rw [lines] at closes
      have behind := frontMatterFrom_spec closes
      obtain ⟨nonempty, ends⟩ := inLine_frontMatterFrom closes
      have split : length = first.length + (length + 1 - (first.length + 1)) := by omega
      rw [eq_of_splitLines lines, split, List.take_length_add_append]
      exact ends.after nonempty first

end Lookahead

/-- Every token of a template has the edges of its kind. -/
theorem edged_scan (dialect : Dialect) (source : Chars) :
    ∀ token ∈ (scan dialect source).tokens, token.Edged source := by
  have on := ScanState.on_start source
  unfold scan
  simp only
  split
  · next length front =>
    have found := (Option.ite_none_right_eq_some.1 front).2
    have later := ScanState.edged_run dialect _ .content (on.skip length) (.text rfl)
      (ScanState.faces_of_text rfl)
    refine List.forall_mem_append.2 ⟨List.forall_mem_singleton.2 ?_, later⟩
    obtain ⟨starts, ends⟩ := Lookahead.edges_frontMatter found
    exact ⟨starts, ends, rfl⟩
  · exact ScanState.edged_run dialect _ .content on (.text rfl) (ScanState.faces_of_text rfl)

end BladeTemplate
