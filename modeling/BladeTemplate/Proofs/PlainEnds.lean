import BladeTemplate.Proofs.Lossless
import BladeTemplate.Proofs.Registration

/-!
# End tags of elements that are not read as markup

The reader knows the end tag of such an element by its letters and by what follows them; matching
takes the first word in the end tag, in lower case. They differ where a slash follows, and where a
letter stands in for another one.

* `Tag.endsPlainly` tells whether an end tag is none of these;
* `Tag.Stopped` is what stands in an end tag at which the reader stops;
* `Tag.Stopped.closes` says that a plain one closes the element, and `Tag.Stopped.not_closes` that
  any other closes nothing.
-/

namespace BladeTemplate

open Text Lookahead

namespace Text

/-! ## Letters -/

theorem lower_of_ascii {text : Chars} (ascii : ∀ c ∈ text, c.toNat < 0x80) :
    lower text = text.map Char.toLower := by
  suffices all : ∀ before, lowerAfter before text = text.map Char.toLower from all []
  induction text with
  | nil => exact fun _ => rfl
  | cons c rest ih =>
    intro before
    rw [List.forall_mem_cons] at ascii
    have plain : c ≠ 'Σ' ∧ c ≠ 'İ' ∧ lowerChar c = c.toLower :=
      of_ascii (fun c => c ≠ 'Σ' ∧ c ≠ 'İ' ∧ lowerChar c = c.toLower) (by decide) ascii.1
    rw [lowerAfter, if_neg plain.1, if_neg plain.2.1, plain.2.2, ih ascii.2, List.map_cons]
    rfl

/-- The lower-case form of a text holds that of each of its characters. -/
theorem mem_lower {text : Chars} {c : Char} (member : c ∈ text) (single : c ≠ 'Σ' ∧ c ≠ 'İ') :
    lowerChar c ∈ lower text := by
  suffices all : ∀ before, lowerChar c ∈ lowerAfter before text from all []
  induction text with
  | nil => cases member
  | cons d rest ih =>
    intro before
    rw [lowerAfter, List.mem_append]
    rcases List.mem_cons.1 member with rfl | later
    · exact .inl (by simp [single])
    · exact .inr (ih later _)

theorem dotAbove_mem_lower {text : Chars} (member : 'İ' ∈ text) : dotAbove ∈ lower text := by
  suffices all : ∀ before, dotAbove ∈ lowerAfter before text from all []
  induction text with
  | nil => cases member
  | cons d rest ih =>
    intro before
    rw [lowerAfter, List.mem_append]
    rcases List.mem_cons.1 member with rfl | later
    · exact .inl (by simp [dotAbove])
    · exact .inr (ih later _)

end Text

namespace Lookahead

/-- Three characters stand in for an ASCII letter when case does not count. -/
theorem of_foldLetter {c : Char} (folded : (foldLetter c).isAlpha = true) :
    c.isAlpha = true ∨ c = 'ſ' ∨ c = 'İ' ∨ c = 'ı' := by
  unfold foldLetter at folded
  split at folded
  · next long => exact .inr (.inl long)
  split at folded
  · next turkish =>
    simp only [Bool.or_eq_true, decide_eq_true_eq] at turkish
    exact .inr (.inr turkish)
  · exact .inl (isAlpha_of_toLower folded)

theorem foldLetter_of_isAlpha {c : Char} (alpha : c.isAlpha = true) : foldLetter c = c.toLower :=
  of_ascii (fun c => foldLetter c = c.toLower) (by decide) (toNat_of_isAlpha alpha)

theorem isBlank_of_foldLetter {c : Char} (folded : (foldLetter c).isAlpha = true) :
    isBlank c = false := by
  rcases of_foldLetter folded with alpha | rfl | rfl | rfl
  · refine isBlank_of_nameChar ?_
    simp [Tag.isNameChar, Char.isAlphanum, alpha]
  all_goals decide

/-- In lower case, letters that stand in for others give themselves away. -/
theorem isAlpha_of_ascii_lower {written : Chars}
    (folded : ∀ c ∈ written, (foldLetter c).isAlpha = true)
    (ascii : ∀ d ∈ lower written, d.toNat < 0x80) : ∀ c ∈ written, c.isAlpha = true := by
  intro c member
  rcases of_foldLetter (folded c member) with alpha | rfl | rfl | rfl
  · exact alpha
  · exact absurd (ascii _ (mem_lower member (by decide))) (by decide +kernel)
  · exact absurd (ascii _ (dotAbove_mem_lower member)) (by decide)
  · exact absurd (ascii _ (mem_lower member (by decide))) (by decide +kernel)

theorem lower_of_letters {text : Chars} (letters : ∀ c ∈ text, c.isAlpha = true) :
    lower text = text.map foldLetter := by
  rw [lower_of_ascii fun c member => toNat_of_isAlpha (letters c member)]
  exact List.map_congr_left fun c member => (foldLetter_of_isAlpha (letters c member)).symm

end Lookahead

namespace Tag

/-! ## What the reader stops at -/

/-- Whether an end tag goes on with the name of an element, in any case, and then with white space
or its closing bracket. -/
def endsPlainly (tag content : Chars) : Bool :=
  let behind := content.drop 2
  lower (behind.take tag.length) = lower tag &&
    ((behind.drop tag.length).head?.map fun c => isBlank c || c = '>').getD false

theorem letters_of_rawText {tag : Chars} (raw : isOneOf rawTextNames tag = true)
    (named : ∀ c ∈ tag, isNameChar c = true) : tag ≠ [] ∧ ∀ c ∈ tag, c.isAlpha = true := by
  obtain ⟨known, member, same⟩ := List.any_eq_true.1 raw
  rw [decide_eq_true_eq] at same
  have letters : known.toList ≠ [] ∧ known.toList.all Char.isAlpha = true := by
    simp only [rawTextNames, List.mem_cons, List.not_mem_nil, or_false] at member
    rcases member with rfl | rfl | rfl | rfl <;> decide
  rw [List.all_eq_true] at letters
  rw [same, lower_of_ascii fun c member => toNat_of_nameChar (named c member)] at letters
  refine ⟨by simpa using letters.1, ?_⟩
  intro c member
  exact isAlpha_of_toLower (letters.2 _ (List.mem_map_of_mem member))

/-- What stands in an end tag at which the reader stops: the letters of the name, in any case or
stood in for, and after them nothing, white space or a slash. -/
structure Stopped (tag written more : Chars) : Prop where
  some : written ≠ []
  length : written.length = tag.length
  alike : written.map foldLetter = tag.map foldLetter
  folded : ∀ c ∈ written, (foldLetter c).isAlpha = true
  next : more = [] ∨ ∃ c tail, more = c :: tail ∧ (isBlank c = true ∨ c = '/')

theorem stopped_of_ends {tag inside rest : Chars} (some : tag ≠ [])
    (letters : ∀ c ∈ tag, c.isAlpha = true) (notInside : '>' ∉ inside)
    (ends : endsRawText tag ('<' :: '/' :: (inside ++ '>' :: rest)) = true) :
    ∃ written more, inside = written ++ more ∧ Stopped tag written more := by
  unfold endsRawText at ends
  simp only [Bool.and_eq_true, decide_eq_true_eq] at ends
  obtain ⟨alike, next⟩ := ends
  have folded : ∀ c ∈ (inside ++ '>' :: rest).take tag.length, (foldLetter c).isAlpha = true := by
    intro c member
    have inTag : foldLetter c ∈ tag.map foldLetter := alike ▸ List.mem_map_of_mem member
    obtain ⟨d, inName, same⟩ := List.mem_map.1 inTag
    rw [← same]
    exact isAlpha_foldLetter (letters d inName)
  -- The closing bracket stands in for no letter, so the letters lie before it.
  have within : tag.length ≤ inside.length := by
    rw [← Nat.not_lt]
    intro short
    obtain ⟨k, more⟩ := Nat.exists_eq_add_of_lt short
    rw [List.take_append, more, Nat.add_assoc, Nat.add_sub_cancel_left, List.take_succ_cons]
      at folded
    exact absurd (folded '>' (by simp)) (by decide)
  rw [List.take_append_of_le_length within] at alike folded
  rw [List.drop_append_of_le_length within] at next
  have length : (inside.take tag.length).length = tag.length := List.length_take_of_le within
  refine ⟨inside.take tag.length, inside.drop tag.length, (List.take_append_drop _ _).symm,
    ⟨?_, length, alike, folded, ?_⟩⟩
  · intro none
    rw [none] at length
    exact some (List.length_eq_zero_iff.1 length.symm)
  · cases more : inside.drop tag.length with
    | nil => exact .inl rfl
    | cons c tail =>
      have other : c ≠ '>' := by
        rintro rfl
        refine notInside (List.mem_of_mem_drop (i := tag.length) ?_)
        rw [more]
        exact List.mem_cons_self
      refine .inr ⟨c, tail, rfl, ?_⟩
      simpa [more, other] using next

namespace Stopped

variable {tag written more : Chars}

/-- The first word in the end tag starts with the letters. -/
theorem firstWord_eq (stopped : Stopped tag written more) :
    firstWord (written ++ more) = written ++ more.takeWhile (!isBlank ·) := by
  have inked : ∀ c ∈ written, (!isBlank c) = true := by
    intro c member
    rw [isBlank_of_foldLetter (stopped.folded c member)]
    rfl
  have untrimmed : trimLeft (written ++ more) = written ++ more := by
    cases written with
    | nil => exact absurd rfl stopped.some
    | cons c rest =>
      have first := inked c List.mem_cons_self
      simp only [Bool.not_eq_true'] at first
      simp [trimLeft, first]
  rw [firstWord, untrimmed, List.takeWhile_append_of_pos inked]

/-- The end tag is plain if its letters are those of the name, and no slash follows. -/
theorem endsPlainly_eq (stopped : Stopped tag written more) :
    endsPlainly tag (['<', '/'] ++ (written ++ more) ++ ['>']) =
      (decide (lower written = lower tag) && decide (more.takeWhile (!isBlank ·) = [])) := by
  unfold endsPlainly
  have behind : (['<', '/'] ++ (written ++ more) ++ ['>']).drop 2 = written ++ (more ++ ['>']) := by
    simp
  simp only [behind, ← stopped.length, List.take_left, List.drop_left]
  congr 1
  rcases stopped.next with rfl | ⟨c, tail, rfl, blank | rfl⟩
  · decide
  · simp [blank]
  · have slash : isBlank '/' = false := by decide
    simp [slash]

/-- What is left of the first word behind the letters is nothing, or starts with a slash. -/
theorem rest_cases (stopped : Stopped tag written more) :
    more.takeWhile (!isBlank ·) = [] ∨ '/' ∈ more.takeWhile (!isBlank ·) := by
  rcases stopped.next with rfl | ⟨c, tail, rfl, blank | rfl⟩
  · exact .inl rfl
  · exact .inl (by simp [blank])
  · have slash : isBlank '/' = false := by decide
    exact .inr (by simp [slash])

/-- An end tag that is written plainly closes the element at whose end the reader stopped. -/
theorem closes (stopped : Stopped tag written more)
    (plain : endsPlainly tag (['<', '/'] ++ (written ++ more) ++ ['>']) = true) :
    Tag.closes (firstWord (written ++ more)) tag = true := by
  rw [stopped.endsPlainly_eq, Bool.and_eq_true, decide_eq_true_eq, decide_eq_true_eq] at plain
  rw [stopped.firstWord_eq, plain.2, List.append_nil]
  simp [Tag.closes, plain.1]

/-- Any other end tag closes nothing that has the name of a tag. -/
theorem not_closes (stopped : Stopped tag written more) (letters : ∀ c ∈ tag, c.isAlpha = true)
    (odd : endsPlainly tag (['<', '/'] ++ (written ++ more) ++ ['>']) = false) {other : Chars}
    (named : ∀ c ∈ other, isNameChar c = true) :
    Tag.closes (firstWord (written ++ more)) other = false := by
  refine eq_false_of_ne_true fun closes => ?_
  -- In lower case the word is that of a tag: it is ASCII, and there is no slash in it.
  obtain ⟨ascii, noSlash⟩ : (∀ d ∈ lower (firstWord (written ++ more)), d.toNat < 0x80) ∧
      (firstWord (written ++ more)).count '/' = 0 := by
    rw [← count_lower _ (by decide : isUncased '/' = true)]
    unfold Tag.closes at closes
    simp only [Bool.or_eq_true, Bool.and_eq_true, decide_eq_true_eq] at closes
    rcases closes with same | ⟨slot, _⟩
    · rw [← same, count_lower _ (by decide)]
      refine ⟨?_, List.count_eq_zero.2 fun slash => absurd (named _ slash) (by decide)⟩
      rw [lower_of_ascii fun c member => toNat_of_nameChar (named c member)]
      intro d member
      obtain ⟨c, inside, rfl⟩ := List.mem_map.1 member
      exact of_ascii (fun c => c.toLower.toNat < 0x80) (by decide)
        (toNat_of_nameChar (named c inside))
    · rw [slot]
      exact ⟨by simp [slotTag], by decide⟩
  rw [stopped.firstWord_eq] at ascii noSlash
  rcases stopped.rest_cases with none | slash
  · rw [none, List.append_nil] at ascii
    have same : lower written = lower tag := by
      rw [lower_of_letters (isAlpha_of_ascii_lower stopped.folded ascii), stopped.alike,
        lower_of_letters letters]
    rw [stopped.endsPlainly_eq, decide_eq_true same, decide_eq_true none] at odd
    cases odd
  · exact List.count_eq_zero.1 noSlash (List.mem_append_right _ slash)

end Stopped

end Tag

end BladeTemplate
