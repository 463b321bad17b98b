import BladeTemplate.Proofs.Registration
import BladeTemplate.Proofs.ValueUnits

/-!
# Lengths of texts with echoes

What is measured at an echo inside a start tag. Where echoes of a style are known, one is passed
over as a unit, whatever stands in it; elsewhere it is read character by character, and a character
of it can end the name or the value that it is in.

* `EchoStyle.enclose` is the text of an echo, `IsExpression` what both styles can hold;
* `quotedTailLength_enclose`, `bareValueLength_escaped` and `attributeNameFrom_escaped` pass over an
  echo as one;
* `bareValueLength_append` and `attributeNameFrom_append` pass over a text by its characters, and
  `bareValueLength_lt` and `attributeNameFrom_lt` say when they stop inside it.
-/

namespace BladeTemplate

open Text Lookahead

/-! ## Echoes of an expression -/

/-- The text of an echo. -/
def EchoStyle.enclose (style : EchoStyle) (expression : Chars) : Chars :=
  style.opener ++ expression ++ style.closer

/-- What an echo of either style can hold: its string literals are closed, no closer starts in it or
at its last character, and it does not make a comment of the echo. -/
structure IsExpression (expression : Chars) : Prop where
  closed : Quoting.code.after expression = .code
  single : ∀ style : EchoStyle, ¬ style.closer <:+: expression
  last : expression.getLast? ≠ some '}'
  apart : ¬ ['-', '-'] <+: expression

/-- What does not end a word is not its end. -/
theorem infix_of_concat {word text : Chars} {c d : Char} (inside : word ++ [c] <:+: text ++ [d])
    (other : d ≠ c) : word ++ [c] <:+: text := by
  rcases List.infix_concat_iff.1 inside with ends | before
  · have last := congrArg List.getLast? (List.suffix_iff_eq_append.1 ends)
    simp only [← List.append_assoc, List.getLast?_concat, Option.some.injEq] at last
    exact absurd last.symm other
  · exact before

namespace IsExpression

variable {expression : Chars} (isExpression : IsExpression expression) (style : EchoStyle)

include isExpression

/-- No closer ends before the one that belongs to the echo. -/
theorem not_closer : ¬ style.closer <:+: expression ++ style.closer.dropLast := by
  intro early
  cases style with
  | escaped =>
    rcases List.infix_concat_iff.1 early with ends | inside
    · rcases List.suffix_concat_iff.1 ends with none | ⟨lead, split, front, rfl⟩
      · cases none
      · have brace : ['}'] ++ ['}'] = lead ++ ['}'] := split
        obtain rfl := List.append_cancel_right brace
        exact isExpression.last List.getLast?_concat
    · exact isExpression.single .escaped inside
  | raw =>
    have once : ['!', '!'] ++ ['}'] <:+: expression ++ ['!'] ++ ['!'] := by
      simpa [EchoStyle.closer] using early
    exact isExpression.single .raw
      (infix_of_concat (infix_of_concat once (by decide)) (by decide))

/-- The closer that is found is the one of the echo. -/
theorem findDelimiter_closer (rest : Chars) :
    findDelimiter style.closer (expression ++ style.closer ++ rest) = some expression.length := by
  have found : search true style.closer .code (expression ++ style.closer ++ rest) =
      some expression.length := by
    refine (search_eq_some_iff (closer_ne_nil style)).2 ⟨fun _ => isExpression.closed, ?_⟩
    rintro ⟨before, after, split, -⟩
    exact isExpression.not_closer style ⟨before, after, split.symm⟩
  rw [findDelimiter_eq, found]
  rfl

theorem closedEchoLength_enclose (rest : Chars) :
    closedEchoLength style (style.enclose expression ++ rest) =
      some (style.enclose expression).length := by
  have behind : (style.enclose expression ++ rest).drop style.width =
      expression ++ style.closer ++ rest := by
    rw [EchoStyle.enclose, ← style.length_opener]
    simp only [List.append_assoc, List.drop_left]
  unfold closedEchoLength
  rw [behind, isExpression.findDelimiter_closer]
  simp only [Option.map_some, EchoStyle.enclose, List.length_append, style.length_opener,
    style.length_closer]

/-- An echo is no comment. -/
theorem not_comment (rest : Chars) :
    startsWith commentOpener (style.enclose expression ++ rest) = false := by
  rw [← Bool.not_eq_true, startsWith_iff]
  rintro ⟨more, split⟩
  cases style with
  | raw => simp [EchoStyle.enclose, EchoStyle.opener, commentOpener] at split
  | escaped =>
    have behind : expression ++ '}' :: '}' :: rest = '-' :: '-' :: more := by
      simpa [EchoStyle.enclose, EchoStyle.opener, EchoStyle.closer, commentOpener] using split
    rcases expression with _ | ⟨c, _ | ⟨d, expression⟩⟩
    · simp at behind
    · simp at behind
    · simp only [List.cons_append, List.cons.injEq] at behind
      obtain ⟨rfl, rfl, -⟩ := behind
      exact isExpression.apart ⟨expression, rfl⟩

theorem embeddedLength_enclose (rest : Chars) :
    embeddedLength (style.enclose expression ++ rest) =
      some (style.enclose expression).length := by
  have starts : EchoStyle.startOf (style.enclose expression ++ rest) = some style := by
    rw [EchoStyle.enclose, List.append_assoc, List.append_assoc]
    exact startOf_opener style _
  unfold embeddedLength
  rw [if_neg (by simp [isExpression.not_comment style rest]), starts]
  exact isExpression.closedEchoLength_enclose style rest

end IsExpression

/-! ## Texts without an escaped echo -/

/-- No escaped echo starts in the text, whatever follows it. -/
structure Unbraced (text : Chars) : Prop where
  single : ¬ EchoStyle.escaped.opener <:+: text
  last : text.getLast? ≠ some '{'

namespace Unbraced

variable {c : Char} {text rest : Chars}

theorem tail (unbraced : Unbraced (c :: text)) : Unbraced text where
  single inside := unbraced.single (List.infix_cons_iff.2 (.inr inside))
  last ends := unbraced.last (by rw [List.getLast?_cons, ends]; rfl)

theorem not_startsWith (unbraced : Unbraced (c :: text)) (rest : Chars) :
    startsWith EchoStyle.escaped.opener (c :: text ++ rest) = false := by
  rw [← Bool.not_eq_true, startsWith_iff]
  rintro ⟨more, split⟩
  cases text with
  | nil =>
    obtain ⟨rfl, -⟩ := List.cons.inj split
    exact unbraced.last rfl
  | cons d text =>
    obtain ⟨rfl, later⟩ := List.cons.inj split
    obtain ⟨rfl, -⟩ := List.cons.inj later
    exact unbraced.single ⟨[], text, rfl⟩

theorem raw {expression : Chars} (single : ¬ EchoStyle.escaped.opener <:+: expression) :
    Unbraced (EchoStyle.raw.enclose expression) where
  single inside := by
    have closed : ['{'] ++ ['{'] <:+:
        EchoStyle.raw.opener ++ expression ++ ['!'] ++ ['!'] ++ ['}'] := by
      simpa [EchoStyle.enclose, EchoStyle.closer, EchoStyle.opener] using inside
    have opened : EchoStyle.escaped.opener <:+: '{' :: '!' :: '!' :: expression :=
      infix_of_concat (infix_of_concat (infix_of_concat closed (by decide)) (by decide)) (by decide)
    simp only [List.infix_cons_iff] at opened
    rcases opened with ⟨rest, split⟩ | ⟨rest, split⟩ | ⟨rest, split⟩ | inside
    · cases split
    · cases split
    · cases split
    · exact single inside
  last := by simp [EchoStyle.enclose, EchoStyle.closer]

end Unbraced

/-! ## Values -/

section Values

variable {expression : Chars} (isExpression : IsExpression expression) (style : EchoStyle)

/-- The first character of an echo and the others. -/
theorem enclose_eq_cons (style : EchoStyle) (expression : Chars) :
    ∃ more, style.enclose expression = '{' :: more := by
  cases style <;> exact ⟨_, rfl⟩

theorem startsWith_enclose (style : EchoStyle) (expression rest : Chars) :
    startsWith style.opener (style.enclose expression ++ rest) = true :=
  startsWith_iff.2 ⟨expression ++ style.closer ++ rest, by simp [EchoStyle.enclose]⟩

include isExpression in
/-- Inside quotes an echo of either style is passed over as one. -/
theorem quotedTailLength_enclose {quote : Char} (isQuote_ : isQuote quote = true) (rest : Chars) :
    quotedTailLength quote (style.enclose expression ++ rest) =
      (quotedTailLength quote rest).map ((style.enclose expression).length + ·) := by
  have embedded := isExpression.embeddedLength_enclose style rest
  obtain ⟨more, split⟩ := enclose_eq_cons style expression
  have other : '{' ≠ quote := by
    rintro rfl
    cases isQuote_
  rw [split, List.cons_append] at embedded ⊢
  rw [quotedTailLength, if_neg other]
  simp only [embedded, List.length_cons, Nat.add_sub_cancel, List.drop_left]

include isExpression in
/-- Without quotes an escaped echo is passed over as one. -/
theorem bareValueLength_escaped (rest : Chars) :
    bareValueLength (EchoStyle.escaped.enclose expression ++ rest) =
      (EchoStyle.escaped.enclose expression).length + bareValueLength rest := by
  have closed := isExpression.closedEchoLength_enclose .escaped rest
  have starts := startsWith_enclose .escaped expression rest
  obtain ⟨more, split⟩ := enclose_eq_cons .escaped expression
  rw [split, List.cons_append] at closed starts ⊢
  rw [bareValueLength, if_neg (by decide), if_pos starts]
  simp only [closed, List.length_cons, Nat.add_sub_cancel, List.drop_left]

/-- Whether a character ends a value without quotes. -/
def endsBareValue (c : Char) : Bool :=
  isTagSpace c || c = '>'

theorem bareValueLength_append {text : Chars} (unbraced : Unbraced text)
    (silent : ∀ c ∈ text, endsBareValue c = false) (rest : Chars) :
    bareValueLength (text ++ rest) = text.length + bareValueLength rest := by
  induction text with
  | nil => simp
  | cons c text ih =>
    have goesOn : ¬ (isTagSpace c || c = '>') = true := by
      simpa [endsBareValue] using silent c List.mem_cons_self
    have noEcho := unbraced.not_startsWith rest
    have later := ih unbraced.tail fun d member => silent d (List.mem_cons_of_mem c member)
    rw [List.cons_append] at noEcho ⊢
    rw [bareValueLength, if_neg goesOn, if_neg (by simp [noEcho]), later, List.length_cons]
    omega

theorem bareValueLength_lt {text : Chars} (unbraced : Unbraced text)
    (ends : ∃ c ∈ text, endsBareValue c = true) (rest : Chars) :
    bareValueLength (text ++ rest) < text.length := by
  induction text with
  | nil => simp at ends
  | cons c text ih =>
    have noEcho := unbraced.not_startsWith rest
    rw [List.cons_append] at noEcho ⊢
    rw [bareValueLength]
    split
    · exact Nat.succ_pos _
    · next goesOn =>
      obtain ⟨d, member, stops⟩ := ends
      rcases List.mem_cons.1 member with rfl | inside
      · exact absurd stops goesOn
      · have later := ih unbraced.tail ⟨d, inside, stops⟩
        rw [if_neg (by simp [noEcho]), List.length_cons]
        omega

end Values

/-! ## Names -/

section Names

variable {registry : Registry} {whole : Chars} {grouped : Bool} {done : Nat}

/-- Whether a text calls no directive from the given length on, so that no spaces and arguments are
taken to belong to it. -/
def CallsNone (registry : Registry) (whole : Chars) (done : Nat) : Prop :=
  whole.head? = some '@' → ∀ n, done ≤ n → registry.lookup ((whole.take n).drop 1) = none

theorem attributeNameFrom_escaped {expression : Chars} (isExpression : IsExpression expression)
    (rest : Chars) :
    attributeNameFrom registry whole grouped done
        (EchoStyle.escaped.enclose expression ++ rest) =
      attributeNameFrom registry whole grouped
        (done + (EchoStyle.escaped.enclose expression).length) rest := by
  have closed := isExpression.closedEchoLength_enclose .escaped rest
  have starts := startsWith_enclose .escaped expression rest
  obtain ⟨more, split⟩ := enclose_eq_cons .escaped expression
  rw [split, List.cons_append] at closed starts ⊢
  rw [attributeNameFrom, if_neg (by decide), if_neg (by simp), if_pos starts]
  simp only [closed, List.length_cons, Nat.add_sub_cancel, List.drop_left]

theorem attributeNameFrom_append {text rest : Chars} (unbraced : Unbraced text)
    (silent : ∀ c ∈ text, endsAttributeName c = false)
    (notClose : text.getLast? = some '/' → rest.head? ≠ some '>')
    (ungrouped : whole.head? = some '@' → '(' ∉ text) :
    attributeNameFrom registry whole grouped done (text ++ rest) =
      attributeNameFrom registry whole grouped (done + text.length) rest := by
  induction text generalizing done with
  | nil => rfl
  | cons c text ih =>
    have goesOn := silent c List.mem_cons_self
    have noEcho := unbraced.not_startsWith rest
    have noClose : ¬ (c = '/' ∧ (text ++ rest).head? = some '>') := by
      rintro ⟨rfl, closes⟩
      cases text with
      | nil => exact notClose rfl closes
      | cons d text =>
        obtain rfl : d = '>' := by simpa using closes
        have stays := silent '>' (by simp)
        exact absurd stays (by decide)
    have noGroup : ¬ (c = '(' ∧ whole.head? = some '@') := by
      rintro ⟨rfl, marked⟩
      exact ungrouped marked List.mem_cons_self
    have later := @ih (done + 1) unbraced.tail
      (fun d member => silent d (List.mem_cons_of_mem c member))
      (fun ends => notClose (by rw [List.getLast?_cons, ends]; rfl))
      (fun marked member => ungrouped marked (List.mem_cons_of_mem c member))
    rw [List.cons_append] at noEcho ⊢
    rw [attributeNameFrom]
    simp only [goesOn, noEcho, Bool.and_eq_true, decide_eq_true_eq, if_neg noClose, if_neg noGroup,
      Bool.false_eq_true, if_false]
    rw [later, List.length_cons, Nat.add_assoc, Nat.add_comm 1]

/-- Where no directive is called, no spaces with arguments follow. -/
theorem spacedGroupLength_eq_none {name rest : Chars} (unknown : registry.lookup name = none) :
    spacedGroupLength registry name rest = none := by
  unfold spacedGroupLength
  simp [unknown]

theorem attributeNameFrom_lt {text rest : Chars} (unbraced : Unbraced text)
    (ends : ∃ c ∈ text, endsAttributeName c = true)
    (ungrouped : whole.head? = some '@' → '(' ∉ text) (calls : CallsNone registry whole done) :
    attributeNameFrom registry whole grouped done (text ++ rest) < done + text.length := by
  induction text generalizing done with
  | nil => simp at ends
  | cons c text ih =>
    have noEcho := unbraced.not_startsWith rest
    have noGroup : ¬ (c = '(' ∧ whole.head? = some '@') := by
      rintro ⟨rfl, marked⟩
      exact ungrouped marked List.mem_cons_self
    rw [List.cons_append] at noEcho ⊢
    rw [attributeNameFrom]
    simp only [noEcho, Bool.and_eq_true, decide_eq_true_eq, if_neg noGroup, Bool.false_eq_true,
      if_false, List.length_cons]
    split
    · split
      · next spaced =>
        rw [spacedGroupLength_eq_none (calls spaced.1.2 done (Nat.le_refl _))]
        show done < _
        omega
      · omega
    · next goesOn =>
      split
      · omega
      · obtain ⟨d, member, stops⟩ := ends
        rcases List.mem_cons.1 member with rfl | inside
        · exact absurd stops goesOn
        · have later := @ih (done + 1) unbraced.tail ⟨d, inside, stops⟩
            (fun marked member => ungrouped marked (List.mem_cons_of_mem c member))
            (fun marked n bound => calls marked n (by omega))
          omega

theorem CallsNone.add (calls : CallsNone registry whole done) (n : Nat) :
    CallsNone registry whole (done + n) := fun marked m bound => calls marked m (by omega)

/-- In a name behind a brace no directive is called. -/
theorem callsNone_of_brace {lead : Chars} (some_ : lead ≠ [])
    (unbraced : lead.head? = some '@' →
      ∀ descriptor ∈ registry.descriptors, '{' ∉ descriptor.name) (rest : Chars) :
    CallsNone registry (lead ++ '{' :: rest) (lead.length + 1) := by
  intro marked n bound
  cases lead with
  | nil => exact absurd rfl some_
  | cons c lead =>
    have braced : '{' ∈ ((c :: lead ++ '{' :: rest).take n).drop 1 := by
      obtain ⟨k, rfl⟩ : ∃ k, n = lead.length + 1 + 1 + k := ⟨n - (lead.length + 2), by
        simp only [List.length_cons] at bound
        omega⟩
      rw [Nat.add_right_comm, Nat.add_right_comm _ 1, List.cons_append, List.take_succ_cons,
        Nat.add_assoc, Nat.add_comm k 1, List.take_length_add_append]
      simp [Nat.add_comm 1 k]
    cases found : registry.lookup (((c :: lead ++ '{' :: rest).take n).drop 1) with
    | none => rfl
    | some descriptor =>
      have count := Registry.count_of_lookup found (d := '{') (by decide)
      have none := List.count_eq_zero.2 (unbraced marked descriptor (Registry.mem_of_lookup found))
      exact absurd (count.symm.trans none) (Nat.ne_of_gt (List.count_pos_iff.2 braced))

/-- A name never ends in front of what has been read of it. -/
theorem le_attributeNameFrom (registry : Registry) (whole : Chars) (grouped : Bool) (done : Nat)
    (rest : Chars) : done ≤ attributeNameFrom registry whole grouped done rest := by
  fun_induction attributeNameFrom registry whole grouped done rest with
  | case1 | case3 | case4 | case5 | case7 | case9 => exact Nat.le_refl _
  | case2 | case6 | case8 | case10 => omega

/-- How far a name goes on from a place behind which no directive is called does not depend on what
is behind. -/
theorem exists_attributeNameFrom {whole' : Chars} {done' : Nat}
    (heads : whole.head? = whole'.head?) (calls : CallsNone registry whole done)
    (calls' : CallsNone registry whole' done') (grouped : Bool) (rest : Chars) :
    ∃ more, attributeNameFrom registry whole grouped done rest = done + more ∧
      attributeNameFrom registry whole' grouped done' rest = done' + more := by
  induction size : rest.length using Nat.strongRecOn generalizing rest grouped done done' with
  | ind size ih =>
    subst size
    cases rest with
    | nil => exact ⟨0, by rw [attributeNameFrom]; rfl, by rw [attributeNameFrom]; rfl⟩
    | cons c tail =>
      -- What is passed over next has the same length in both.
      have further (grouped : Bool) (length dropped : Nat) :
          ∃ more, attributeNameFrom registry whole grouped (done + length) (tail.drop dropped) =
              done + more ∧
            attributeNameFrom registry whole' grouped (done' + length) (tail.drop dropped) =
              done' + more := by
        have shorter : (tail.drop dropped).length < (c :: tail).length := by
          rw [List.length_drop, List.length_cons]
          omega
        obtain ⟨more, here, there⟩ :=
          @ih _ shorter (done + length) (done' + length) (calls.add length)
            (calls'.add length) grouped _ rfl
        exact ⟨length + more, by omega, by omega⟩
      have stop : ∃ more, done = done + more ∧ done' = done' + more := ⟨0, rfl, rfl⟩
      rw [attributeNameFrom, attributeNameFrom]
      simp only [← heads]
      split
      · split
        · next spaced =>
          simp only [Bool.and_eq_true, decide_eq_true_eq] at spaced
          have marked : whole.head? = some '@' := spaced.1.2
          rw [spacedGroupLength_eq_none (calls marked done (Nat.le_refl _)),
            spacedGroupLength_eq_none (calls' (heads ▸ marked) done' (Nat.le_refl _))]
          exact stop
        · exact stop
      split
      · exact stop
      split
      · split
        · exact further _ _ _
        · exact stop
      split
      · split
        · exact further _ _ _
        · exact stop
      · exact further grouped 1 0

end Names

end BladeTemplate
