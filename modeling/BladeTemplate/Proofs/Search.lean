import BladeTemplate.Token.Lookahead

/-!
# What a search finds

Lengths are measured by searching ahead. A search that answers has seen what it looked for at the
place it names, and that is all the rest of the theory needs to know about it.

* `startsWith_iff` turns the test for a leading piece into an equation;
* `indexOf_spec`, `findDelimiter_spec` and `groupLength_spec` split a text at the place found;
* `trigger_of_textRun` says what plain text ends at, `argumentsOffset_spec` what an argument list
  follows, `endsRawText_spec` what the body of an element that is not read as markup ends at.
-/

namespace BladeTemplate.Text

theorem startsWith_iff {lead text : Chars} :
    startsWith lead text = true ↔ ∃ rest, text = lead ++ rest := by
  unfold startsWith
  rw [List.isPrefixOf_iff_prefix]
  exact ⟨fun ⟨rest, h⟩ => ⟨rest, h.symm⟩, fun ⟨rest, h⟩ => ⟨rest, h.symm⟩⟩

/-- Where a needle is found, the text continues with it. -/
theorem indexOf_spec {needle text : Chars} {n : Nat} (found : indexOf needle text = some n) :
    n ≤ text.length ∧ ∃ rest, text.drop n = needle ++ rest := by
  induction text generalizing n with
  | nil =>
    unfold indexOf at found
    split at found
    · next empty =>
      cases found
      exact ⟨Nat.le_refl _, [], by simpa using empty⟩
    · cases found
  | cons c text ih =>
    unfold indexOf at found
    split at found
    · next starts =>
      cases found
      exact ⟨Nat.zero_le _, startsWith_iff.1 starts⟩
    · obtain ⟨m, later, rfl⟩ := Option.map_eq_some_iff.1 found
      obtain ⟨bound, rest⟩ := ih later
      exact ⟨Nat.succ_le_succ bound, rest⟩

/-- Before the first occurrence of a character it does not occur. -/
theorem not_mem_take_indexOf {needle : Char} {text : Chars} {n : Nat}
    (found : indexOf [needle] text = some n) : needle ∉ text.take n := by
  induction text generalizing n with
  | nil =>
    cases found
  | cons c text ih =>
    unfold indexOf at found
    split at found
    · cases found
      simp
    · next other =>
      obtain ⟨m, later, rfl⟩ := Option.map_eq_some_iff.1 found
      rw [List.take_succ_cons, List.mem_cons, not_or]
      refine ⟨?_, ih later⟩
      rintro rfl
      exact other (by simp [startsWith])

theorem findOutsideLiterals_spec {closer text : Chars} {state : Quoting} {n : Nat}
    (found : findOutsideLiterals closer state text = some n) :
    n ≤ text.length ∧ ∃ rest, text.drop n = closer ++ rest := by
  induction text generalizing state n with
  | nil => cases state <;> cases found
  | cons c text ih =>
    have step {next : Quoting} {n : Nat}
        (mapped : (findOutsideLiterals closer next text).map (· + 1) = some n) :
        n ≤ (c :: text).length ∧ ∃ rest, (c :: text).drop n = closer ++ rest := by
      obtain ⟨m, later, rfl⟩ := Option.map_eq_some_iff.1 mapped
      obtain ⟨bound, rest⟩ := ih later
      exact ⟨Nat.succ_le_succ bound, rest⟩
    cases state with
    | code =>
      unfold findOutsideLiterals at found
      split at found
      · exact step found
      · split at found
        · next starts =>
          cases found
          exact ⟨Nat.zero_le _, startsWith_iff.1 starts⟩
        · exact step found
    | literal quote => exact step found
    | escape quote => exact step found

/-- Where a delimiter is found, the text continues with it. -/
theorem findDelimiter_spec {closer text : Chars} {n : Nat}
    (found : findDelimiter closer text = some n) :
    n ≤ text.length ∧ ∃ rest, text.drop n = closer ++ rest := by
  unfold findDelimiter at found
  rcases Option.or_eq_some_iff.1 found with outside | ⟨_, plain⟩
  · exact findOutsideLiterals_spec outside
  · exact indexOf_spec plain

theorem startOf_spec {text : Chars} {style : EchoStyle}
    (starts : EchoStyle.startOf text = some style) : ∃ rest, text = style.opener ++ rest := by
  unfold EchoStyle.startOf at starts
  split at starts
  · next raw =>
    cases starts
    exact startsWith_iff.1 raw
  · split at starts
    · next escaped =>
      cases starts
      exact startsWith_iff.1 escaped
    · cases starts

/-- The last bracket of a group is the one that its outermost opening bracket is owed. -/
theorem groupLengthFrom_spec {pending : List Char} {state : Quoting} {text : Chars} {n : Nat}
    {owed : Char} (outermost : pending.getLast? = some owed)
    (found : groupLengthFrom pending state text = some n) :
    ∃ inside rest, text = inside ++ owed :: rest ∧ n = inside.length + 1 := by
  induction text generalizing pending state n with
  | nil => cases state <;> cases pending <;> cases found
  | cons c text ih =>
    -- One character further, with the same bracket outermost.
    have step {pending : List Char} {next : Quoting} {n : Nat}
        (outermost : pending.getLast? = some owed)
        (mapped : (groupLengthFrom pending next text).map (· + 1) = some n) :
        ∃ inside rest, c :: text = inside ++ owed :: rest ∧ n = inside.length + 1 := by
      obtain ⟨m, later, rfl⟩ := Option.map_eq_some_iff.1 mapped
      obtain ⟨inside, rest, rfl, rfl⟩ := ih outermost later
      exact ⟨c :: inside, rest, rfl, rfl⟩
    cases state with
    | code =>
      unfold groupLengthFrom at found
      split at found
      · exact step outermost found
      split at found
      · next closer _ =>
        refine step ?_ found
        rw [List.getLast?_cons, outermost]
        rfl
      split at found
      · split at found
        · cases found
        · next closer outer =>
          split at found
          · cases found
          · next same =>
            split at found
            -- The bracket closes the outermost group: the search ends here.
            · next last =>
              cases found
              obtain rfl : outer = [] := by simpa using last
              obtain rfl : closer = owed := by simpa using outermost
              obtain rfl : c = closer := by simpa using same
              exact ⟨[], text, rfl, rfl⟩
            · next more =>
              refine step ?_ found
              cases outer with
              | nil => simp at more
              | cons next outer => simpa using outermost
      · exact step outermost found
    | literal quote => exact step outermost found
    | escape quote => exact step outermost found

/-- A parenthesised group: its parentheses and what stands between them. -/
theorem groupLength_spec {text : Chars} {n : Nat} (found : groupLength ('(' :: text) = some n) :
    ∃ inside rest, text = inside ++ ')' :: rest ∧ n = inside.length + 2 := by
  have opened : (groupLengthFrom [')'] .code text).map (· + 1) = some n := found
  obtain ⟨m, later, rfl⟩ := Option.map_eq_some_iff.1 opened
  obtain ⟨inside, rest, rfl, rfl⟩ := groupLengthFrom_spec rfl later
  exact ⟨inside, rest, rfl, rfl⟩

/-! ## ASCII characters -/

theorem toNat_of_isAlpha {c : Char} (alpha : c.isAlpha = true) : c.toNat < 0x80 := by
  have cased : (c.isUpper || c.isLower) = true := alpha
  rcases Bool.or_eq_true_iff.1 cased with upper | lower
  · have bound : c.val ≤ 'Z'.val := (of_decide_eq_true upper).2
    exact Nat.lt_of_le_of_lt bound (by decide)
  · have bound : c.val ≤ 'z'.val := of_decide_eq_true (Bool.and_eq_true_iff.1 lower).2
    exact Nat.lt_of_le_of_lt bound (by decide)

theorem toNat_of_isAlphanum {c : Char} (named : c.isAlphanum = true) : c.toNat < 0x80 := by
  have cased : (c.isAlpha || c.isDigit) = true := named
  rcases Bool.or_eq_true_iff.1 cased with alpha | digit
  · exact toNat_of_isAlpha alpha
  · have bound : c.val ≤ '9'.val := of_decide_eq_true (Bool.and_eq_true_iff.1 digit).2
    exact Nat.lt_of_le_of_lt bound (by decide)

/-- What holds of the first code points holds of the ASCII characters. -/
theorem of_ascii (P : Char → Prop) (all : ∀ n < 0x80, P (Char.ofNat n)) {c : Char}
    (ascii : c.toNat < 0x80) : P c := by
  have found := all c.toNat ascii
  rwa [Char.ofNat_toNat] at found

end BladeTemplate.Text

/-! ## Lookahead -/

namespace BladeTemplate.Lookahead

open Text

theorem take_countWhile (keep : Char → Bool) (text : Chars) :
    ∀ c ∈ text.take (countWhile keep text), keep c = true := by
  have front : text.takeWhile keep = text.take (countWhile keep text) :=
    List.prefix_iff_eq_take.1 (List.takeWhile_prefix keep)
  rw [← front]
  exact List.all_eq_true.1 List.all_takeWhile

theorem countWhile_le (keep : Char → Bool) (text : Chars) : countWhile keep text ≤ text.length :=
  (List.takeWhile_prefix keep).length_le

/-- What ends a run of plain text. -/
inductive Trigger : Chars → Prop
  | ended : Trigger []
  | echo {text : Chars} : (EchoStyle.startOf text).isSome = true → Trigger text
  | directive {rest : Chars} : Trigger ('@' :: rest)
  | markup {rest : Chars} : startsMarkup rest = true → Trigger ('<' :: rest)

theorem isAlpha_of_startsMarkup {c : Char} {rest : Chars}
    (starts : startsMarkup (c :: rest) = true) (notSlash : c ≠ '/') (notBang : c ≠ '!')
    (notQuestion : c ≠ '?') : c.isAlpha = true := by
  unfold startsMarkup at starts
  split at starts
  · next none => cases none
  · next tail same => exact absurd (List.cons.inj same).1 notSlash
  · next d tail _ same =>
    obtain ⟨rfl, _⟩ := List.cons.inj same
    simpa [notBang, notQuestion] using starts

/-- A run of plain text goes on to the end or to the next construct. -/
theorem trigger_of_textRun (previous : Option Char) (text : Chars) :
    Trigger (text.drop (textRunLength previous text)) := by
  induction previous, text using textRunLength.induct with
  | case1 previous => simpa [textRunLength] using Trigger.ended
  | case2 previous rest doubled ih =>
    unfold textRunLength
    rw [if_pos rfl, if_pos doubled, Nat.add_comm 2, List.drop_succ_cons, Nat.add_comm _ 1,
      ← List.drop_drop]
    exact ih
  | case3 previous rest single style starts length ih =>
    unfold textRunLength
    simp only [single, starts, if_true, if_false, Nat.add_comm 1, Nat.add_right_comm _ 1,
      List.drop_succ_cons, ← List.drop_drop]
    exact ih
  | case4 previous rest single none starts =>
    unfold textRunLength
    simpa [single, none, starts] using Trigger.directive
  | case5 previous rest single none other ih =>
    unfold textRunLength
    simpa [single, none, other, Nat.add_comm 1] using ih
  | case6 previous rest _ starts =>
    unfold textRunLength
    simpa [starts] using Trigger.echo starts
  | case7 previous rest _ other ih =>
    unfold textRunLength
    simpa [other, Nat.add_comm 1] using ih
  | case8 previous rest starts _ _ =>
    unfold textRunLength
    simpa [starts] using Trigger.markup starts
  | case9 previous rest other _ _ ih =>
    unfold textRunLength
    simpa [other, Nat.add_comm 1] using ih
  | case10 previous c rest notAt notBrace notAngle ih =>
    unfold textRunLength
    simpa [notAt, notBrace, notAngle, Nat.add_comm 1] using ih

theorem textRunLength_endTag (previous : Option Char) {c : Char} (letter : isLetter c = true)
    (rest : Chars) : textRunLength previous ('<' :: '/' :: c :: rest) = 0 := by
  rw [textRunLength]
  simp [startsMarkup, letter]

/-- Before an argument list stand the name of the directive and spaces. -/
theorem argumentsOffset_spec {descriptor : Option Descriptor} {nameLength : Nat} {text : Chars}
    {offset : Nat} (found : argumentsOffset descriptor nameLength text = some offset) :
    1 + nameLength ≤ offset ∧
      (∀ c ∈ (text.drop (1 + nameLength)).take (offset - (1 + nameLength)),
        isInlineSpace c = true) ∧
      (text.drop offset).head? = some '(' := by
  unfold argumentsOffset at found
  simp only at found
  split at found
  · split at found
    · next takes =>
      cases found
      simp only [Bool.and_eq_true, decide_eq_true_eq] at takes
      refine ⟨by omega, ?_, ?_⟩
      · rw [Nat.add_sub_cancel_left]
        exact take_countWhile _ _
      · rw [← List.drop_drop]
        exact takes.2
    · cases found
  · split at found
    · next opens =>
      cases found
      simp only [Bool.and_eq_true, decide_eq_true_eq] at opens
      refine ⟨Nat.le_refl _, by simp, opens.1⟩
    · cases found

/-! ## Bodies kept as they are -/

/-- Whether a name starts with an ASCII letter, as those of tags do. -/
def startsAlpha (name : Chars) : Bool :=
  (name.head?.map Char.isAlpha).getD false

theorem isLetter_of_isAlpha {c : Char} (alpha : c.isAlpha = true) : isLetter c = true := by
  simp [isLetter, toNat_of_isAlpha alpha, alpha]

theorem isAlpha_of_toLower {c : Char} (alpha : c.toLower.isAlpha = true) : c.isAlpha = true := by
  unfold Char.toLower at alpha
  split at alpha
  · next upper =>
    have cased : c.isUpper = true := decide_eq_true upper
    exact Bool.or_eq_true_iff.2 (.inl cased)
  · exact alpha

theorem isAlpha_foldLetter {c : Char} (alpha : c.isAlpha = true) :
    (foldLetter c).isAlpha = true :=
  of_ascii (fun c => c.isAlpha = true → (foldLetter c).isAlpha = true) (by decide)
    (toNat_of_isAlpha alpha) alpha

/-- Only letters are alike an ASCII letter when case does not count. -/
theorem isLetter_of_foldLetter {c : Char} (folded : (foldLetter c).isAlpha = true) :
    isLetter c = true := by
  unfold foldLetter at folded
  split at folded
  · next long =>
    rw [long]
    decide
  split at folded
  · next turkish =>
    simp only [Bool.or_eq_true, decide_eq_true_eq] at turkish
    rcases turkish with rfl | rfl <;> decide
  · exact isLetter_of_isAlpha (isAlpha_of_toLower folded)

/-- The end tag of an element starts with an angle bracket, a slash and a letter. -/
theorem endsRawText_spec {tag text : Chars} (named : startsAlpha tag = true)
    (ends : endsRawText tag text = true) :
    ∃ c rest, text = '<' :: '/' :: c :: rest ∧ isLetter c = true := by
  unfold endsRawText at ends
  split at ends
  · next rest =>
    simp only [Bool.and_eq_true, decide_eq_true_eq] at ends
    cases tag with
    | nil => cases named
    | cons first more =>
      cases rest with
      | nil => simp at ends
      | cons c rest =>
        have alike : foldLetter c = foldLetter first := by simpa using (congrArg List.head? ends.1)
        refine ⟨c, rest, rfl, isLetter_of_foldLetter ?_⟩
        rw [alike]
        exact isAlpha_foldLetter named
  · cases ends

theorem rawTextLength_spec {tag text : Chars} {n : Nat} (found : rawTextLength tag text = some n) :
    n ≤ text.length ∧ endsRawText tag (text.drop n) = true := by
  induction text generalizing n with
  | nil => cases found
  | cons c text ih =>
    unfold rawTextLength at found
    split at found
    · next ends =>
      cases found
      exact ⟨Nat.zero_le _, ends⟩
    · obtain ⟨m, later, rfl⟩ := Option.map_eq_some_iff.1 found
      obtain ⟨bound, ends⟩ := ih later
      exact ⟨Nat.succ_le_succ bound, ends⟩

theorem frontMatterFrom_spec {done n : Nat} {lines : List Chars}
    (found : frontMatterFrom done lines = some n) : done ≤ n := by
  induction lines generalizing done with
  | nil => cases found
  | cons line lines ih =>
    unfold frontMatterFrom at found
    split at found
    · cases found
      omega
    · have := ih found
      omega

/-- Front matter is not empty. -/
theorem frontMatterLength_pos {text : Chars} {n : Nat} (found : frontMatterLength text = some n) :
    0 < n ∧ text ≠ [] := by
  unfold frontMatterLength at found
  split at found
  · next dashed =>
    split at found
    · refine ⟨?_, ?_⟩
      · have := frontMatterFrom_spec found
        omega
      · rintro rfl
        revert dashed
        decide
    · cases found
  · cases found

end BladeTemplate.Lookahead
