import BladeTemplate.Json.Reader
import BladeTemplate.Json.Writer

/-!
# Texts and numbers read back

A text between double quotes is read back as it was written, whatever characters it holds, and so is
a whole number in front of something that does not go on with it.

* `Spells` says that a piece is read as given characters wherever it stands: its units are read, and
  joined again; `spells_writeChar` is the case of one character, written as it is, by a short
  escape, as one unit or as both halves of a pair;
* `readText_writeText` is the result for texts;
* `digitsValue_decimal` and `number_signedDecimal` are the results for whole numbers.
-/

namespace BladeTemplate

namespace Json

open Text

/-! ## Escapes -/

theorem hexValue?_digitChar {n : Nat} (small : n < 16) : hexValue? n.digitChar = some n := by
  have all : ∀ n < 16, hexValue? n.digitChar = some n := by decide
  exact all n small

/-- One more digit at the end of a padded number. -/
theorem hexDigits_succ (width n : Nat) :
    hexDigits (width + 2) n = hexDigits (width + 1) (n / 16) ++ [(n % 16).digitChar] := by
  unfold hexDigits
  rcases Nat.lt_or_ge n 16 with small | large
  · have none : n / 16 = 0 := Nat.div_eq_of_lt small
    have zero : Nat.toDigits 16 0 = ['0'] := rfl
    rw [Nat.toDigits_of_lt_base small, none, zero, Nat.mod_eq_of_lt small]
    simp [List.replicate_succ']
  · rw [Nat.toDigits_of_base_le (by omega) large]
    simp

/-- Four hexadecimal digits, one for each part of the number. -/
theorem hexDigits_four {n : Nat} (small : n < 0x10000) :
    hexDigits 4 n = [(n / 4096).digitChar, (n / 256 % 16).digitChar, (n / 16 % 16).digitChar,
      (n % 16).digitChar] := by
  have first : n / 16 / 16 / 16 < 16 := by omega
  rw [hexDigits_succ, hexDigits_succ, hexDigits_succ]
  have last : hexDigits 1 (n / 16 / 16 / 16) = [(n / 4096).digitChar] := by
    unfold hexDigits
    rw [Nat.toDigits_of_lt_base first, Nat.div_div_eq_div_mul, Nat.div_div_eq_div_mul]
    rfl
  rw [last, Nat.div_div_eq_div_mul]
  rfl

theorem unit?_hexDigits {n : Nat} (small : n < 0x10000) :
    unit? (n / 4096).digitChar (n / 256 % 16).digitChar (n / 16 % 16).digitChar
      (n % 16).digitChar = some n := by
  unfold unit?
  rw [hexValue?_digitChar (by omega), hexValue?_digitChar (by omega),
    hexValue?_digitChar (by omega), hexValue?_digitChar (by omega)]
  have whole : ((n / 4096 * 16 + n / 256 % 16) * 16 + n / 16 % 16) * 16 + n % 16 = n := by omega
  exact congrArg some whole

/-- Put places in front of those that are read. -/
def prepend (units : List TextUnit) (read : List TextUnit × Chars) : List TextUnit × Chars :=
  (units ++ read.1, read.2)

theorem readUnits_unitEscape {n : Nat} (small : n < 0x10000) (rest : Chars) :
    readUnits (unitEscape n ++ rest) = (readUnits rest).map (prepend [.unit n]) := by
  unfold unitEscape
  rw [hexDigits_four small]
  simp only [List.cons_append, List.nil_append]
  rw [readUnits, if_neg (by decide), if_pos rfl]
  simp only [unit?_hexDigits small]
  rfl

theorem readUnits_short {escaped c : Char} (short : shortEscape? escaped = some c)
    (notUnit : escaped ≠ 'u') (rest : Chars) :
    readUnits ('\\' :: escaped :: rest) = (readUnits rest).map (prepend [.char c]) := by
  rw [readUnits.eq_def ('\\' :: escaped :: rest)]
  simp only [if_true]
  rw [if_neg (by decide)]
  split
  · next same =>
    cases same
    exact absurd rfl notUnit
  · next same =>
    cases same
    simp only [short]
    rfl
  · next same => cases same

/-! ## Characters -/

/-- The piece is read as the given characters, whatever follows it. -/
structure Spells (written text : Chars) : Prop where
  read : ∃ units, (∀ rest, readUnits (written ++ rest) = (readUnits rest).map (prepend units)) ∧
    ∀ rest, joinUnits (units ++ rest) = text.map .char ++ joinUnits rest

theorem Spells.nil : Spells [] [] := by
  refine ⟨[], fun rest => ?_, fun _ => rfl⟩
  exact (congrFun Option.map_id (readUnits rest)).symm

theorem Spells.append {written text more after : Chars} (first : Spells written text)
    (second : Spells more after) : Spells (written ++ more) (text ++ after) := by
  obtain ⟨units, reads, joins⟩ := first.read
  obtain ⟨others, readsAfter, joinsAfter⟩ := second.read
  refine ⟨units ++ others, fun rest => ?_, fun rest => ?_⟩
  · rw [List.append_assoc, reads, readsAfter, Option.map_map]
    congr 1
    funext read
    show prepend units (prepend others read) = _
    unfold prepend
    rw [List.append_assoc]
  · rw [List.append_assoc, joins, joinsAfter, List.map_append, List.append_assoc]

theorem spells_short {escaped c : Char} (short : shortEscape? escaped = some c)
    (notUnit : escaped ≠ 'u') : Spells ['\\', escaped] [c] :=
  ⟨[.char c], readUnits_short short notUnit, fun _ => rfl⟩

/-- A character that needs no escape. -/
theorem spells_plain {c : Char} (notQuote : c ≠ Text.doubleQuote) (notEscape : c ≠ '\\')
    (shown : 0x20 ≤ c.toNat) : Spells [c] [c] := by
  refine ⟨[.char c], fun rest => ?_, fun _ => rfl⟩
  rw [List.singleton_append, readUnits.eq_def]
  simp only
  rw [if_neg notQuote, if_neg notEscape, if_neg (Nat.not_lt.2 shown)]
  rfl

/-- A character is never half of a pair. -/
theorem not_isHalf (c : Char) : isHalf c.toNat = false := by
  have valid := c.valid
  have number : c.toNat = c.val.toNat := rfl
  unfold isHalf
  simp only [UInt32.isValidChar, Nat.isValidChar] at valid
  rw [Bool.and_eq_false_iff, decide_eq_false_iff_not, decide_eq_false_iff_not]
  omega

theorem pairChar?_of_not_isHalf {high : Nat} (whole : isHalf high = false) (low : Nat) :
    pairChar? high low = none := by
  unfold isHalf at whole
  rw [Bool.and_eq_false_iff, decide_eq_false_iff_not, decide_eq_false_iff_not] at whole
  unfold pairChar?
  rw [if_neg]
  simp only [Bool.and_eq_true, decide_eq_true_eq]
  omega

/-- One unit that is no half of a pair is joined with nothing. -/
theorem joinUnits_unit (c : Char) (rest : List TextUnit) :
    joinUnits (.unit c.toNat :: rest) = .char c :: joinUnits rest := by
  have single : singleUnit c.toNat = .char c := by
    rw [singleUnit, not_isHalf c, if_neg Bool.false_ne_true, Char.ofNat_toNat]
  rw [← single]
  match rest with
  | [] | .char _ :: _ => rfl
  | .unit low :: rest =>
    simp only [joinUnits, pairChar?_of_not_isHalf (not_isHalf c)]

theorem spells_unit {c : Char} (basic : c.toNat < 0x10000) : Spells (unitEscape c.toNat) [c] :=
  ⟨[.unit c.toNat], readUnits_unitEscape basic, joinUnits_unit c⟩

/-- The halves of a character beyond the basic plane make it up. -/
theorem pairChar?_halves {c : Char} (beyond : 0x10000 ≤ c.toNat) :
    pairChar? (0xD800 + (c.toNat - 0x10000) / 0x400) (0xDC00 + (c.toNat - 0x10000) % 0x400) =
      some c := by
  have bound : c.toNat < 0x110000 := by
    have valid := c.valid
    have number : c.toNat = c.val.toNat := rfl
    simp only [UInt32.isValidChar, Nat.isValidChar] at valid
    omega
  have whole : 0x10000 + (0xD800 + (c.toNat - 0x10000) / 0x400 - 0xD800) * 0x400 +
      (0xDC00 + (c.toNat - 0x10000) % 0x400 - 0xDC00) = c.toNat := by omega
  unfold pairChar?
  rw [if_pos (by simp only [Bool.and_eq_true, decide_eq_true_eq]; omega), whole, Char.ofNat_toNat]

/-- Two escapes side by side that make up a character. -/
theorem spells_pair {high low : Nat} {c : Char} (pair : pairChar? high low = some c) :
    Spells (unitEscape high ++ unitEscape low) [c] := by
  have halves := pair
  unfold pairChar? at halves
  have ranges := (Option.ite_none_right_eq_some.1 halves).1
  simp only [Bool.and_eq_true, decide_eq_true_eq] at ranges
  refine ⟨[.unit high, .unit low], fun rest => ?_, fun rest => ?_⟩
  · rw [List.append_assoc, readUnits_unitEscape (by omega), readUnits_unitEscape (by omega),
      Option.map_map]
    rfl
  · show joinUnits (.unit high :: .unit low :: rest) = _
    rw [joinUnits, pair]
    rfl

/-- Every character is read as it was written. -/
theorem spells_writeChar (c : Char) : Spells (writeChar c) [c] := by
  unfold writeChar
  split
  · next special =>
    simp only [Bool.or_eq_true, decide_eq_true_eq] at special
    rcases special with rfl | rfl
    · exact spells_short (by decide) (by decide)
    · exact spells_short (by decide) (by decide)
  next ordinary =>
  simp only [Bool.or_eq_true, decide_eq_true_eq, not_or] at ordinary
  split
  · next feed => exact feed ▸ spells_short rfl (by decide)
  split
  · next feed => exact feed ▸ spells_short rfl (by decide)
  split
  · next feed => exact feed ▸ spells_short rfl (by decide)
  split
  · next feed => exact feed ▸ spells_short rfl (by decide)
  split
  · next feed => exact feed ▸ spells_short rfl (by decide)
  split
  · next shown =>
    rw [Bool.and_eq_true, decide_eq_true_eq, decide_eq_true_eq] at shown
    exact spells_plain ordinary.1 ordinary.2 shown.1
  split
  · next basic => exact spells_unit basic
  · next beyond => exact spells_pair (pairChar?_halves (Nat.le_of_not_lt beyond))

theorem spells_flatMap (text : Chars) : Spells (text.flatMap writeChar) text := by
  induction text with
  | nil => exact .nil
  | cons c text ih => exact (spells_writeChar c).append ih

/-- A text is read back as it was written, from behind its opening quote on. -/
theorem readText_writeText (text rest : Chars) :
    readText (text.flatMap writeChar ++ Text.doubleQuote :: rest) =
      .ok (text.map .char, rest) := by
  obtain ⟨units, reads, joins⟩ := (spells_flatMap text).read
  have ends : readUnits (Text.doubleQuote :: rest) = some ([], rest) := by
    rw [readUnits.eq_def]
    simp only [if_true]
  have joined := joins []
  rw [show joinUnits [] = [] from rfl, List.append_nil, List.append_nil] at joined
  unfold readText
  rw [reads, ends, Option.map_some]
  unfold prepend
  simp only [List.append_nil, joined]

theorem textValue_char (text : Chars) : textValue (text.map .char) = .str text := by
  have characters : (text.map TextUnit.char).mapM TextUnit.char? = some text := by
    induction text with
    | nil => rfl
    | cons c text ih => rw [List.map_cons, List.mapM_cons, ih]; rfl
  rw [textValue, characters]

theorem toChar_char (text : Chars) : (text.map TextUnit.char).map TextUnit.toChar = text := by
  rw [List.map_map]
  exact List.map_id text

/-! ## Whole numbers -/

theorem isDigit_digit {n : Nat} (small : n < 10) : isDigit (digit n) = true := by
  have all : ∀ n < 10, isDigit (digit n) = true := by decide
  exact all n small

theorem isDigit_of_mem_decimal (n : Nat) : ∀ c ∈ Text.decimal n, isDigit c = true := by
  fun_induction Text.decimal n with
  | case1 n small => exact List.forall_mem_singleton.2 (isDigit_digit small)
  | case2 n _ ih =>
    rw [List.forall_mem_append]
    exact ⟨ih, List.forall_mem_singleton.2 (isDigit_digit (Nat.mod_lt n (by omega)))⟩

theorem decimal_ne_nil (n : Nat) : Text.decimal n ≠ [] := by
  unfold Text.decimal
  split <;> simp

theorem head_decimal_append (n : Nat) (after : Chars) :
    (Text.decimal n ++ after).head? = (Text.decimal n).head? := by
  obtain ⟨d, rest, run⟩ := List.exists_cons_of_ne_nil (decimal_ne_nil n)
  rw [run]
  rfl

/-- Decimal digits spell their number. -/
theorem digitsValue_decimal (n : Nat) : digitsValue (Text.decimal n) = n := by
  have value : ∀ n < 10, (digit n).toNat - '0'.toNat = n := by decide
  fun_induction Text.decimal n with
  | case1 n small => exact (Nat.zero_add _).trans (value n small)
  | case2 n _ ih =>
    have last := value (n % 10) (Nat.mod_lt n (by omega))
    unfold digitsValue at ih ⊢
    rw [List.foldl_append, ih, List.foldl_cons, List.foldl_nil, last]
    omega

/-- No number but zero starts with a zero. -/
theorem head_decimal {n : Nat} (positive : 0 < n) : (Text.decimal n).head? ≠ some '0' := by
  have other : ∀ n < 10, 0 < n → digit n ≠ '0' := by decide
  fun_induction Text.decimal n with
  | case1 n small =>
    intro zero
    exact other n small positive (Option.some.inj zero)
  | case2 n large ih =>
    rw [head_decimal_append]
    exact ih (by omega)

/-- Nothing, or something that starts with a mark or a line break; no number goes on with it. -/
def Closes (after : Chars) : Prop :=
  ∀ c rest, after = c :: rest → c ∈ [',', ']', '}', '\n']

theorem Closes.cons {c : Char} {rest : Chars} (closes : Closes (c :: rest)) :
    c ∈ [',', ']', '}', '\n'] :=
  closes c rest rfl

theorem Closes.eq_mark {c : Char} {rest : Chars} (closes : Closes (c :: rest)) :
    c = ',' ∨ c = ']' ∨ c = '}' ∨ c = '\n' := by
  simpa using closes.cons

section closes

variable {after : Chars} (closes : Closes after)

include closes

theorem digits_append {run : Chars} (all : ∀ c ∈ run, isDigit c = true) :
    digits (run ++ after) = run := by
  unfold digits
  rw [List.takeWhile_append_of_pos all]
  have none : after.takeWhile isDigit = [] := by
    cases after with
    | nil => rfl
    | cons c rest =>
      apply List.takeWhile_cons_of_neg
      rcases closes.eq_mark with rfl | rfl | rfl | rfl <;> decide
  rw [none, List.append_nil]

theorem wholeDigits_decimal (n : Nat) : wholeDigits (Text.decimal n ++ after) = Text.decimal n := by
  have run := digits_append closes (isDigit_of_mem_decimal n)
  rcases Nat.eq_zero_or_pos n with rfl | positive
  · have zero : Text.decimal 0 = ['0'] := by
      unfold Text.decimal
      rfl
    rw [zero]
    rfl
  · have head := head_decimal positive
    unfold wholeDigits
    split
    · next rest starts =>
      have zero : (Text.decimal n ++ after).head? = some '0' := by rw [starts]; rfl
      rw [head_decimal_append] at zero
      exact absurd zero head
    · exact run

theorem fraction_eq_nil : fraction after = [] := by
  unfold fraction
  split
  · exact absurd closes.cons (by decide)
  · rfl

theorem exponent_eq_nil : exponent after = [] := by
  unfold exponent
  split
  · next e rest =>
    apply if_neg
    rcases closes.eq_mark with rfl | rfl | rfl | rfl <;> decide
  · rfl

/-- A whole number is read back, unless it has too many digits. -/
theorem number_signedDecimal (n : Int) :
    number (signedDecimal n ++ after) =
      if maxDigits < (Text.decimal n.natAbs).length then
        .error (.longNumber (Text.decimal n.natAbs).length)
      else .ok (.int n, (signedDecimal n).length) := by
  have parts (sign : Chars) (isSign : ((sign ++ (Text.decimal n.natAbs ++ after)).take 1).filter
      (· = '-') = sign) : number (sign ++ (Text.decimal n.natAbs ++ after)) =
        if maxDigits < (Text.decimal n.natAbs).length then
          .error (.longNumber (Text.decimal n.natAbs).length)
        else
          .ok (.int (if !sign.isEmpty then -(n.natAbs : Int) else n.natAbs),
            sign.length + (Text.decimal n.natAbs).length) := by
    have some : (Text.decimal n.natAbs).isEmpty = false := by
      rw [List.isEmpty_eq_false_iff]
      exact decimal_ne_nil _
    unfold number
    simp only [isSign, List.drop_left, wholeDigits_decimal closes, fraction_eq_nil closes,
      exponent_eq_nil closes, List.length_nil, Nat.add_zero, digitsValue_decimal, some,
      List.isEmpty_nil]
    rfl
  unfold signedDecimal
  split
  · next negative =>
    rw [List.cons_append]
    have read := parts ['-'] rfl
    rw [List.singleton_append] at read
    rw [read]
    congr 3
    · simp only [List.isEmpty_cons, Bool.not_false, if_true, Json.int.injEq]
      omega
    · exact Nat.add_comm _ _
  · next positive =>
    have digit : ((Text.decimal n.natAbs ++ after).take 1).filter (· = '-') = [] := by
      rw [List.filter_eq_nil_iff]
      intro c member minus
      rw [of_decide_eq_true minus] at member
      cases run : Text.decimal n.natAbs with
      | nil => exact absurd run (decimal_ne_nil _)
      | cons d rest =>
        rw [run, List.cons_append, List.take_succ_cons, List.take_zero, List.mem_singleton] at member
        have isDigit := isDigit_of_mem_decimal n.natAbs d (by rw [run]; exact List.mem_cons_self)
        rw [← member] at isDigit
        exact absurd isDigit (by decide)
    have read := parts [] digit
    rw [List.nil_append] at read
    rw [read]
    congr 3
    · simp only [List.isEmpty_nil, Bool.not_true, Bool.false_eq_true, if_false, Json.int.injEq]
      omega
    · exact Nat.zero_add _

end closes

end Json

end BladeTemplate
