import BladeTemplate.Token.Lookahead
import BladeTemplate.Proofs.Flow
import BladeTemplate.Proofs.Search

/-!
# Measuring the constructs of drafts

What the lookahead answers at the front of each construct of a draft, whatever follows it.

* `textRunLength_append`: plain text is passed over up to the next construct;
* `textRunLength_echo`, `textRunLength_startTag` and `textRunLength_directive`: a construct ends the
  text before it;
* `findDelimiter_body`, `nameLength_tag`, `directiveNameLength_name` and `groupLength_arguments`
  measure the parts of constructs.
-/

namespace BladeTemplate

open Text Lookahead

/-! ## Characters -/

/-- White space ends every word. -/
theorem isWordChar_of_isBlank {c : Char} (blank : isBlank c = true) : isWordChar c = false := by
  have ranges : ∀ range ∈ blankRanges, ∀ k ≤ range.2 - range.1,
      isWordChar (Char.ofNat (range.1 + k)) = false := by
    decide +kernel
  obtain ⟨range, member, inside⟩ := List.any_eq_true.1 blank
  simp only [Bool.and_eq_true, decide_eq_true_eq] at inside
  have found := ranges range member (c.toNat - range.1) (by omega)
  rwa [Nat.add_sub_cancel' inside.1, Char.ofNat_toNat] at found

/-- Whether a character may stand in the tags of drafts. -/
def isTagChar (c : Char) : Bool := c.isLower || c.isDigit

/-- What holds of the first code points holds of the characters of tags. -/
theorem of_isTagChar (P : Char → Prop)
    (all : ∀ n < 128, isTagChar (Char.ofNat n) = true → P (Char.ofNat n)) {c : Char}
    (tagged : isTagChar c = true) : P c := by
  have named : c.isAlphanum = true := by
    rcases Bool.or_eq_true_iff.1 tagged with lower | digit
    · exact Bool.or_eq_true_iff.2 (.inl (Bool.or_eq_true_iff.2 (.inr lower)))
    · exact Bool.or_eq_true_iff.2 (.inr digit)
  exact of_ascii (fun c => isTagChar c = true → P c) all (toNat_of_isAlphanum named) tagged

theorem isNameChar_of_isTagChar {c : Char} (tagged : isTagChar c = true) :
    Tag.isNameChar c = true :=
  of_isTagChar (Tag.isNameChar · = true) (by decide) tagged

theorem inked_of_isTagChar {c : Char} (tagged : isTagChar c = true) : isBlank c = false :=
  of_isTagChar (isBlank · = false) (by decide) tagged

/-- The characters of tags are in lower case. -/
theorem lowerAfter_tag (before : Chars) {text : Chars} (tagged : ∀ c ∈ text, isTagChar c = true) :
    lowerAfter before text = text := by
  induction text generalizing before with
  | nil => rfl
  | cons c rest ih =>
    have plain : c ≠ 'Σ' ∧ c ≠ 'İ' ∧ lowerChar c = c :=
      of_isTagChar (fun c => c ≠ 'Σ' ∧ c ≠ 'İ' ∧ lowerChar c = c) (by decide)
        (tagged c List.mem_cons_self)
    rw [lowerAfter, if_neg plain.1, if_neg plain.2.1, plain.2.2,
      ih _ fun d member => tagged d (List.mem_cons_of_mem c member)]
    rfl

/-- What the reader takes for the name of a tag. -/
structure MarkupName where
  text : Chars
  starts : startsAlpha text = true
  named : ∀ c ∈ text, Tag.isNameChar c = true

namespace MarkupName

def closing (tag : MarkupName) : Chars := ['<', '/'] ++ tag.text ++ ['>']

/-- The first letter of a name. -/
theorem exists_cons (tag : MarkupName) : ∃ c rest, tag.text = c :: rest ∧ c.isAlpha = true := by
  have starts := tag.starts
  unfold startsAlpha at starts
  cases found : tag.text with
  | nil => simp [found] at starts
  | cons c rest => exact ⟨c, rest, rfl, by simpa [found] using starts⟩

end MarkupName

namespace TagName

theorem tagged (tag : TagName) : ∀ c ∈ tag.text, isTagChar c = true := tag.letters

theorem lower_text (tag : TagName) : lower tag.text = tag.text :=
  lowerAfter_tag [] tag.tagged

/-- The first letter of a tag. -/
theorem exists_cons (tag : TagName) :
    ∃ c rest, tag.text = c :: rest ∧ c.isAlpha = true ∧ isLetter c = true := by
  have starts := tag.starts
  cases found : tag.text with
  | nil => simp [found] at starts
  | cons c rest =>
    simp only [found, List.head?_cons, Option.map_some, Option.getD_some] at starts
    have tagged : isTagChar c = true := by simp [isTagChar, starts]
    have letter : c.isLower = true → c.isAlpha = true ∧ isLetter c = true :=
      of_isTagChar (fun c => c.isLower = true → c.isAlpha = true ∧ isLetter c = true) (by decide)
        tagged
    exact ⟨c, rest, rfl, letter starts⟩

/-- The tags of drafts have names. -/
def markupName (tag : TagName) : MarkupName where
  text := tag.text
  starts := by
    obtain ⟨c, rest, name, alpha, _⟩ := tag.exists_cons
    simp [startsAlpha, name, alpha]
  named c member := isNameChar_of_isTagChar (tag.tagged c member)

@[simp]
theorem closing_markupName (tag : TagName) : tag.markupName.closing = tag.closing := rfl

/-- The tags of drafts are neither components nor slots. -/
theorem kindOf_text (tag : TagName) : Tag.kindOf tag.text = .element := by
  have noDash : '-' ∉ tag.text := fun member => absurd (tag.tagged _ member) (by decide)
  have lead (start : Chars) (dashed : '-' ∈ start) : startsWith start tag.text = false := by
    rw [← Bool.not_eq_true, startsWith_iff]
    rintro ⟨rest, split⟩
    exact noDash (by rw [split]; exact List.mem_append_left _ dashed)
  have notSlot : tag.text ≠ Tag.slotTag := by
    intro same
    exact noDash (by rw [same]; decide)
  unfold Tag.kindOf Tag.namesSlot
  simp [tag.lower_text, notSlot, lead (Tag.slotTag ++ [':']) (by decide),
    lead Tag.componentLead (by decide)]

end TagName

/-! ## Where plain text ends -/

theorem countWhile_append {keep : Char → Bool} {text rest : Chars}
    (kept : ∀ c ∈ text, keep c = true) (stops : ∀ c, rest.head? = some c → keep c = false) :
    countWhile keep (text ++ rest) = text.length := by
  unfold countWhile
  rw [List.takeWhile_append_of_pos kept]
  cases rest with
  | nil => simp
  | cons c more => simp [stops c rfl]

theorem textRunLength_append (previous : Option Char) {gap : Chars}
    (plain : ∀ c ∈ gap, isPlain c = true) (later : Chars) :
    textRunLength previous (gap ++ later) =
      gap.length + textRunLength (gap.getLast?.or previous) later := by
  induction gap generalizing previous with
  | nil => simp
  | cons c rest ih =>
    have sign := plain c List.mem_cons_self
    simp only [isPlain, ne_eq, Bool.and_eq_true, decide_eq_true_eq] at sign
    rw [List.cons_append, textRunLength, if_neg sign.1.1, if_neg sign.1.2, if_neg sign.2,
      ih _ fun d member => plain d (List.mem_cons_of_mem c member), List.length_cons,
      List.getLast?_cons]
    cases rest.getLast? <;> simp <;> omega

theorem textRunLength_echo (previous : Option Char) (rest : Chars) :
    textRunLength previous ('{' :: '{' :: rest) = 0 := by
  rw [textRunLength]
  simp [EchoStyle.startOf, startsWith, EchoStyle.opener]

theorem textRunLength_startTag (previous : Option Char) {c : Char} (letter : c.isAlpha = true)
    (rest : Chars) : textRunLength previous ('<' :: c :: rest) = 0 := by
  have markup : startsMarkup (c :: rest) = true := by
    unfold startsMarkup
    split
    · next found => cases found
    · next found =>
      cases found
      exact absurd letter (by decide)
    · next found =>
      cases found
      simp [letter]
  rw [textRunLength]
  simp [markup]

theorem textRunLength_directive {previous : Option Char} {c : Char} {rest : Chars}
    (letter : c.isAlpha = true) (apart : (previous.map isWordChar).getD false = false) :
    textRunLength previous ('@' :: c :: rest) = 0 := by
  have sign : c ≠ '@' ∧ c ≠ '{' := by
    constructor <;> rintro rfl <;> exact absurd letter (by decide)
  have noEcho : EchoStyle.startOf (c :: rest) = none := by
    simp [EchoStyle.startOf, startsWith, EchoStyle.opener, sign.2.symm]
  rw [textRunLength]
  simp [sign.1, noEcho, startsDirective, isNameStart, letter, apart]

/-! ## The parts of constructs -/

/-- White space is neither a quote nor a brace. -/
theorem simple_of_isBlank {c : Char} (blank : isBlank c = true) : isQuote c = false ∧ c ≠ '}' := by
  have quotes : isBlank apostrophe = false ∧ isBlank doubleQuote = false ∧ isBlank '}' = false := by
    decide
  unfold isQuote
  simp only [Bool.or_eq_false_iff, decide_eq_false_iff_not]
  refine ⟨⟨?_, ?_⟩, ?_⟩ <;> rintro rfl <;> simp_all

namespace Interpolation

theorem simple_body (braced : Interpolation) : ∀ c ∈ braced.body, isQuote c = false ∧ c ≠ '}' := by
  intro c member
  simp only [body, List.mem_append] at member
  rcases member with (before | inside) | after
  · exact simple_of_isBlank (braced.before.blank c before).1
  · exact ⟨(braced.simple c inside).2.1, (braced.simple c inside).2.2.2⟩
  · exact simple_of_isBlank (braced.after.blank c after).1

/-- An echo of a draft is no comment. -/
theorem not_comment (braced : Interpolation) (rest : Chars) :
    startsWith ['-', '-'] (braced.body ++ '}' :: rest) = false := by
  have notDash {c : Char} (blank : isBlank c = true) : '-' ≠ c := by
    rintro rfl
    exact absurd blank (by decide)
  have dashes := braced.notComment
  unfold body
  cases before : braced.before.text with
  | cons c more =>
    have blank := (braced.before.blank c (by simp [before])).1
    simp [startsWith, List.isPrefixOf, notDash blank]
  | nil =>
    -- Two characters of the expression decide, or one and what follows it.
    rcases expression : braced.expression with _ | ⟨a, _ | ⟨b, more⟩⟩
    · exact absurd expression braced.nonempty
    · cases after : braced.after.text with
      | cons c more =>
        have blank := (braced.after.blank c (by simp [after])).1
        simp [startsWith, List.isPrefixOf, notDash blank]
      | nil => simp [startsWith, List.isPrefixOf]
    · simpa [expression, startsWith, List.isPrefixOf] using dashes

end Interpolation

/-- The body of an echo ends at the first pair of braces. -/
theorem findDelimiter_body {body : Chars}
    (simple : ∀ c ∈ body, isQuote c = false ∧ c ≠ '}') (rest : Chars) :
    findDelimiter EchoStyle.escaped.closer (body ++ '}' :: '}' :: rest) = some body.length := by
  suffices outside : findOutsideLiterals EchoStyle.escaped.closer .code
      (body ++ '}' :: '}' :: rest) = some body.length by
    rw [findDelimiter, outside, Option.some_or]
  induction body with
  | nil => simp [findOutsideLiterals, startsWith, EchoStyle.closer, isQuote, apostrophe, doubleQuote]
  | cons c more ih =>
    have head := simple c List.mem_cons_self
    have notCloser : startsWith EchoStyle.escaped.closer (c :: (more ++ '}' :: '}' :: rest)) = false := by
      simp [startsWith, EchoStyle.closer, List.isPrefixOf, Ne.symm head.2]
    rw [List.cons_append, findOutsideLiterals, head.1, notCloser,
      ih fun d member => simple d (List.mem_cons_of_mem c member)]
    rfl

/-- The name of a tag ends where something else follows. -/
theorem nameLength_append (tag : MarkupName) {rest : Chars}
    (stops : ∀ c, rest.head? = some c → Tag.isNameChar c = false) :
    Tag.nameLength (tag.text ++ rest) = tag.text.length :=
  countWhile_append tag.named stops

theorem nameLength_tag (tag : MarkupName) (rest : Chars) :
    Tag.nameLength (tag.text ++ '>' :: rest) = tag.text.length := by
  refine nameLength_append tag ?_
  intro c first
  cases first
  decide

/-- The name of a directive ends where no word goes on. -/
theorem directiveNameLength_name {name rest : Chars} (word : ∀ c ∈ name, isWordChar c = true)
    (stops : ∀ c, rest.head? = some c → isWordChar c = false ∧ c ≠ ':') :
    directiveNameLength (name ++ rest) = name.length := by
  have count := countWhile_append word fun c first => (stops c first).1
  unfold directiveNameLength
  simp only [count, List.drop_left]
  split
  · next more =>
    exact absurd rfl (stops ':' rfl).2
  · rfl

/-- Arguments without quotes and brackets end at the parenthesis. -/
theorem groupLength_arguments (opening : Opening) (rest : Chars) :
    groupLength ('(' :: (opening.arguments ++ ')' :: rest)) =
      some (opening.arguments.length + 2) := by
  have inside : ∀ arguments : Chars,
      (∀ c ∈ arguments, c ≠ '\n' ∧ isQuote c = false ∧ closingBracket c = none ∧
        isClosingBracket c = false) →
      groupLengthFrom [')'] .code (arguments ++ ')' :: rest) = some (arguments.length + 1) := by
    intro arguments simple
    induction arguments with
    | nil =>
      simp [groupLengthFrom, isQuote, apostrophe, doubleQuote, closingBracket, isClosingBracket]
    | cons c more ih =>
      have head := simple c List.mem_cons_self
      rw [List.cons_append, groupLengthFrom, head.2.1, head.2.2.1, head.2.2.2,
        ih fun d member => simple d (List.mem_cons_of_mem c member)]
      simp
  have quote : isQuote '(' = false := by decide
  rw [groupLength, groupLengthFrom, quote]
  simp [closingBracket, inside opening.arguments opening.simple]

end BladeTemplate
