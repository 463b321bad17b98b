import BladeTemplate.Proofs.Search
import BladeTemplate.Proofs.Spelling

/-!
# Values read back

The text of a value is read back as the value, on one line or with any indent. Only a whole number
with more digits than the reader takes stands in the way.

* `Json.Plain` describes the values that trees are saved as;
* `Json.longNumber?` finds the first number that has too many digits;
* `readValue_writeAt` is the result for values within others, by induction on the value, and
  `read_write` the result for whole texts.
-/

namespace BladeTemplate

namespace Json

open Text

/-! ## Plain values -/

mutual

/-- The value is made of objects, lists, texts, whole numbers, booleans and null. -/
def Plain : Json → Prop
  | .null | .bool _ | .int _ | .str _ => True
  | .decimal _ | .unpaired _ => False
  | .arr items => PlainItems items
  | .obj fields => PlainFields fields

/-- All items are plain. -/
def PlainItems : List Json → Prop
  | [] => True
  | item :: rest => item.Plain ∧ PlainItems rest

/-- All values of fields are plain. -/
def PlainFields : List (Chars × Json) → Prop
  | [] => True
  | (_, value) :: rest => value.Plain ∧ PlainFields rest

end

mutual

/-- The digits of the first whole number that has more of them than the reader takes. -/
def longNumber? : Json → Option Nat
  | .int n =>
    let length := (Text.decimal n.natAbs).length
    if maxDigits < length then some length else none
  | .arr items => longItem? items
  | .obj fields => longField? fields
  | _ => none

/-- The same among the items of a list. -/
def longItem? : List Json → Option Nat
  | [] => none
  | item :: rest => item.longNumber?.or (longItem? rest)

/-- The same among the values of fields. -/
def longField? : List (Chars × Json) → Option Nat
  | [] => none
  | (_, value) :: rest => value.longNumber?.or (longField? rest)

end

/-- What reading answers: the result, or that a number has too many digits. -/
def checked {α : Type} (long : Option Nat) (result : α) : Except ReadError α :=
  match long with
  | none => .ok result
  | some digits => .error (.longNumber digits)

/-! ## White space and marks -/

/-- Nothing but white space. -/
def Spaces (text : Chars) : Prop :=
  ∀ c ∈ text, isSpace c = true

theorem spaces_writeBreak (indent : Option Nat) (depth : Nat) :
    Spaces (writeBreak indent depth) := by
  intro c member
  cases indent with
  | none => cases member
  | some width =>
    rcases List.mem_cons.1 member with rfl | space
    · rfl
    · rw [List.eq_of_mem_replicate space]
      rfl

theorem skipSpace_append {gap : Chars} (spaces : Spaces gap) {c : Char}
    (other : isSpace c = false) (rest : Chars) : skipSpace (gap ++ c :: rest) = c :: rest := by
  unfold skipSpace
  rw [List.dropWhile_append_of_pos spaces, List.dropWhile_cons_of_neg]
  rw [other]
  exact Bool.false_ne_true

theorem mark?_append {gap : Chars} (spaces : Spaces gap) {c : Char} (other : isSpace c = false)
    (mark : Char) (rest : Chars) :
    mark? mark (gap ++ c :: rest) = if c = mark then some rest else none := by
  unfold mark?
  rw [skipSpace_append spaces other]

theorem spaces_nil : Spaces [] := by
  intro c member
  cases member

theorem mark?_comma (mark : Char) (rest : Chars) :
    mark? mark (',' :: rest) = if ',' = mark then some rest else none :=
  mark?_append spaces_nil rfl mark rest

/-- A comma is followed by nothing but white space. -/
theorem writeComma_eq (indent : Option Nat) (depth : Nat) :
    ∃ gap, Spaces gap ∧ writeComma indent depth = ',' :: gap := by
  cases indent with
  | none => exact ⟨[' '], List.forall_mem_singleton.2 rfl, rfl⟩
  | some width => exact ⟨_, spaces_writeBreak (some width) depth, rfl⟩

theorem closes_writeBreak (indent : Option Nat) (depth : Nat) {c : Char}
    (mark : c ∈ [',', ']', '}', '\n']) (rest : Chars) :
    Closes (writeBreak indent depth ++ c :: rest) := by
  intro first after starts
  cases indent with
  | none =>
    cases starts
    exact mark
  | some width =>
    cases starts
    decide

theorem closes_cons {c : Char} (mark : c ∈ [',', ']', '}', '\n']) (rest : Chars) :
    Closes (c :: rest) := by
  rintro first after ⟨⟩
  exact mark

/-! ## Words and numbers -/

/-- Whether a text starts with a digit, or with a minus sign in front of a digit. -/
def startsNumber (text : Chars) : Bool :=
  match text.take 2 with
  | [] => false
  | c :: rest => isDigit c || c = '-' && (rest.head?.map isDigit).getD false

theorem startsNumber_signedDecimal (n : Int) (after : Chars) :
    startsNumber (signedDecimal n ++ after) = true := by
  obtain ⟨d, rest, run⟩ := List.exists_cons_of_ne_nil (decimal_ne_nil n.natAbs)
  have isDigit := isDigit_of_mem_decimal n.natAbs d (by rw [run]; exact List.mem_cons_self)
  unfold signedDecimal
  rw [run]
  split <;> simp [startsNumber, isDigit]

theorem head_of_startsNumber {text : Chars} (starts : startsNumber text = true) :
    ∃ c rest, text = c :: rest ∧ (isDigit c = true ∨ c = '-') := by
  cases text with
  | nil => cases starts
  | cons c rest =>
    simp only [startsNumber, List.take_succ_cons, Bool.or_eq_true, Bool.and_eq_true,
      decide_eq_true_eq] at starts
    exact ⟨c, rest, rfl, starts.imp_right And.left⟩

/-- No word starts like a number. -/
theorem scalar_of_startsNumber {text : Chars} (starts : startsNumber text = true) :
    scalar text = number text := by
  have none : (words.find? fun word => startsWith word.1.toList text) = none := by
    rw [List.find?_eq_none]
    intro word member found
    obtain ⟨after, spelled⟩ := startsWith_iff.1 found
    have letters : ∀ word ∈ words, 2 ≤ word.1.toList.length ∧
        startsNumber word.1.toList = false := by decide
    obtain ⟨long, other⟩ := letters word member
    have same : startsNumber text = startsNumber word.1.toList := by
      unfold startsNumber
      rw [spelled, List.take_append_of_le_length long]
    rw [starts, other] at same
    cases same
  unfold scalar
  rw [none]

/-! ## Where values start -/

theorem isSpace_of_isDigit {c : Char} (digit : isDigit c = true) : isSpace c = false := by
  rw [← Bool.not_eq_true]
  intro space
  simp only [isSpace, Bool.or_eq_true, decide_eq_true_eq] at space
  rcases space with ((rfl | rfl) | rfl) | rfl <;> cases digit

/-- The text starts with a character that is no white space and closes no list. -/
def StartsValue (text : Chars) : Prop :=
  ∃ c rest, text = c :: rest ∧ isSpace c = false ∧ c ≠ ']'

theorem StartsValue.append {text : Chars} (starts : StartsValue text) (after : Chars) :
    StartsValue (text ++ after) := by
  obtain ⟨c, rest, rfl, other, open_⟩ := starts
  exact ⟨c, rest ++ after, rfl, other, open_⟩

theorem StartsValue.skipSpace_append {text gap : Chars} (starts : StartsValue text)
    (spaces : Spaces gap) : skipSpace (gap ++ text) = text := by
  obtain ⟨c, rest, rfl, other, _⟩ := starts
  exact Json.skipSpace_append spaces other rest

theorem startsValue_group (indent : Option Nat) (depth : Nat) {opening : Char} (closing : Char)
    (inside : Chars) (other : isSpace opening = false) (open_ : opening ≠ ']') :
    StartsValue (writeGroup indent depth opening closing inside) := by
  unfold writeGroup
  split
  · exact ⟨opening, [closing], rfl, other, open_⟩
  · exact ⟨opening, _, rfl, other, open_⟩

theorem startsValue_writeAt (indent : Option Nat) (depth : Nat) {value : Json}
    (plain : value.Plain) : StartsValue (writeAt indent depth value) := by
  cases value with
  | null => exact ⟨_, _, rfl, rfl, by decide⟩
  | bool value => cases value <;> exact ⟨_, _, rfl, rfl, by decide⟩
  | int n =>
    have starts := startsNumber_signedDecimal n []
    rw [List.append_nil] at starts
    obtain ⟨c, rest, written, digit | rfl⟩ := head_of_startsNumber starts
    · refine ⟨c, rest, written, isSpace_of_isDigit digit, ?_⟩
      rintro rfl
      cases digit
    · exact ⟨_, _, written, rfl, by decide⟩
  | decimal => exact plain.elim
  | str => exact ⟨_, _, rfl, rfl, by decide⟩
  | unpaired => exact plain.elim
  | arr items => exact startsValue_group indent depth ']' _ rfl (by decide)
  | obj fields => exact startsValue_group indent depth '}' _ rfl (by decide)

theorem startsValue_writeItems (indent : Option Nat) (depth : Nat) {items : List Json}
    (plain : PlainItems items) (some : items ≠ []) :
    StartsValue (writeItems indent depth items) := by
  cases items with
  | nil => exact absurd rfl some
  | cons item rest => exact (startsValue_writeAt indent depth plain.1).append _

theorem startsValue_writeFields (indent : Option Nat) (depth : Nat)
    {fields : List (Chars × Json)} (some : fields ≠ []) :
    ∃ rest, writeFields indent depth fields = Text.doubleQuote :: rest := by
  cases fields with
  | nil => exact absurd rfl some
  | cons field rest => exact ⟨_, rfl⟩

/-! ## Reading steps -/

section steps

variable {fuel : Nat} {text : Chars}

theorem readValue_scalar {c : Char} {rest : Chars} (starts : text = c :: rest)
    (bare : c ∉ [Text.doubleQuote, '[', '{']) :
    readValue (fuel + 1) text =
      (scalar text).map fun found => (found.1, text.drop found.2) := by
  simp only [List.mem_cons, List.not_mem_nil, or_false, not_or] at bare
  rw [starts, readValue, if_neg bare.1, if_neg bare.2.1, if_neg bare.2.2]
  cases scalar (c :: rest) <;> rfl

theorem readValue_number (starts : startsNumber text = true) :
    readValue (fuel + 1) text =
      (number text).map fun found => (found.1, text.drop found.2) := by
  obtain ⟨c, rest, written, first⟩ := head_of_startsNumber starts
  rw [readValue_scalar written, scalar_of_startsNumber starts]
  intro mark
  simp only [List.mem_cons, List.not_mem_nil, or_false] at mark
  rcases mark with rfl | rfl | rfl <;> exact absurd first (by decide)

theorem readValue_text (text after : Chars) :
    readValue (fuel + 1) (writeText text ++ after) = .ok (.str text, after) := by
  unfold writeText
  rw [List.append_assoc, List.cons_append, readValue, if_pos rfl, List.singleton_append,
    readText_writeText]
  show Except.ok (textValue _, after) = _
  rw [textValue_char]

theorem readValue_emptyList (after : Chars) :
    readValue (fuel + 1) ('[' :: ']' :: after) = .ok (.arr [], after) := by
  rw [readValue, if_neg (by decide), if_pos rfl]
  rfl

theorem readValue_emptyObject (after : Chars) :
    readValue (fuel + 1) ('{' :: '}' :: after) = .ok (.obj [], after) := by
  rw [readValue, if_neg (by decide), if_neg (by decide), if_pos rfl]
  rfl

theorem readValue_list {gap : Chars} (spaces : Spaces gap) (starts : StartsValue text) :
    readValue (fuel + 1) ('[' :: gap ++ text) =
      (readItems fuel text).map fun read => (.arr read.1, read.2) := by
  rw [List.cons_append, readValue, if_neg (by decide), if_pos rfl, starts.skipSpace_append spaces]
  obtain ⟨c, rest, rfl, other, open_⟩ := starts
  rw [mark?_append spaces other, if_neg open_]
  cases readItems fuel (c :: rest) <;> rfl

theorem readValue_object {gap : Chars} (spaces : Spaces gap) {rest : Chars}
    (starts : text = Text.doubleQuote :: rest) :
    readValue (fuel + 1) ('{' :: gap ++ text) =
      (readFields fuel text).map fun read => (.obj read.1, read.2) := by
  subst starts
  rw [List.cons_append, readValue, if_neg (by decide), if_neg (by decide), if_pos rfl,
    mark?_append spaces (by decide), if_neg (by decide), skipSpace_append spaces (by decide)]
  cases readFields fuel (Text.doubleQuote :: rest) <;> rfl

/-- The last item of a list. -/
theorem readItems_last {long : Option Nat} {item : Json} {gap after : Chars}
    (reads : readValue fuel text = checked long (item, gap ++ ']' :: after))
    (spaces : Spaces gap) : readItems (fuel + 1) text = checked long ([item], after) := by
  rw [readItems, reads]
  cases long with
  | none =>
    have closing : mark? ']' (gap ++ ']' :: after) = some after := by
      rw [mark?_append spaces rfl, if_pos rfl]
    simp only [checked, bind, Except.bind, closing]
    rfl
  | some digits => rfl

/-- An item with others behind it. -/
theorem readItems_more {long later : Option Nat} {item : Json} {items : List Json}
    {gap more after : Chars} (reads : readValue fuel text = checked long (item, ',' :: gap ++ more))
    (spaces : Spaces gap) (starts : StartsValue more)
    (readsMore : readItems fuel more = checked later (items, after)) :
    readItems (fuel + 1) text = checked (long.or later) (item :: items, after) := by
  rw [readItems, reads]
  cases long with
  | none =>
    have closing := mark?_comma ']' (gap ++ more)
    have comma := mark?_comma ',' (gap ++ more)
    rw [if_neg (by decide)] at closing
    rw [if_pos rfl] at comma
    simp only [checked, bind, Except.bind, List.cons_append, closing, comma]
    rw [starts.skipSpace_append spaces, readsMore]
    cases later <;> rfl
  | some digits => rfl

/-- A field: its name, a colon, and what its value and the rest are read as. -/
theorem readFields_field (name rest : Chars) :
    readFields (fuel + 1) (writeText name ++ ':' :: ' ' :: rest) = (do
      let (value, left) ← readValue fuel (skipSpace rest)
      match mark? '}' left with
      | some rest => return ([(name, value)], rest)
      | none =>
        match mark? ',' left with
        | none => .error .malformed
        | some rest =>
          let (fields, left) ← readFields fuel (skipSpace rest)
          return ((name, value) :: fields, left)) := by
  unfold writeText
  rw [List.append_assoc, List.cons_append, readFields, if_neg (by simp), List.singleton_append,
    readText_writeText]
  -- the name is read, and the space behind the colon is passed over
  have space : skipSpace (' ' :: rest) = skipSpace rest := rfl
  rw [← space]
  conv => rhs; rw [← toChar_char name]
  rfl

/-- The last field of an object. -/
theorem readFields_last {long : Option Nat} {value : Json} {gap after : Chars} (name : Chars)
    (starts : StartsValue text)
    (reads : readValue fuel text = checked long (value, gap ++ '}' :: after))
    (spaces : Spaces gap) :
    readFields (fuel + 1) (writeText name ++ ':' :: ' ' :: text) =
      checked long ([(name, value)], after) := by
  have start : skipSpace text = text := starts.skipSpace_append spaces_nil
  rw [readFields_field, start, reads]
  cases long with
  | none =>
    simp only [checked, bind, Except.bind]
    rw [mark?_append spaces rfl, if_pos rfl]
    rfl
  | some digits => rfl

/-- A field with others behind it. -/
theorem readFields_more {long later : Option Nat} {value : Json} {fields : List (Chars × Json)}
    {gap more rest after : Chars} (name : Chars) (starts : StartsValue text)
    (reads : readValue fuel text = checked long (value, ',' :: gap ++ more))
    (spaces : Spaces gap) (next : more = Text.doubleQuote :: rest)
    (readsMore : readFields fuel more = checked later (fields, after)) :
    readFields (fuel + 1) (writeText name ++ ':' :: ' ' :: text) =
      checked (long.or later) ((name, value) :: fields, after) := by
  have start : skipSpace text = text := starts.skipSpace_append spaces_nil
  rw [readFields_field, start, reads]
  cases long with
  | none =>
    have closing := mark?_comma '}' (gap ++ more)
    have comma := mark?_comma ',' (gap ++ more)
    rw [if_neg (by decide)] at closing
    rw [if_pos rfl] at comma
    have quote : skipSpace (gap ++ more) = more := by
      rw [next]
      exact skipSpace_append spaces rfl rest
    simp only [checked, bind, Except.bind, List.cons_append, closing, comma]
    rw [quote, readsMore]
    cases later <;> rfl
  | some digits => rfl

end steps

/-! ## Values within others -/

theorem group_append (indent : Option Nat) (depth : Nat) (opening closing : Char) {inside : Chars}
    (some : inside ≠ []) (after : Chars) :
    writeGroup indent depth opening closing inside ++ after =
      opening :: writeBreak indent (depth + 1) ++
        (inside ++ (writeBreak indent depth ++ closing :: after)) := by
  unfold writeGroup
  rw [if_neg (by rwa [List.isEmpty_iff])]
  simp only [List.cons_append, List.append_assoc, List.nil_append]

theorem length_group (indent : Option Nat) (depth : Nat) (opening closing : Char)
    (inside : Chars) :
    inside.length + 2 ≤ (writeGroup indent depth opening closing inside).length := by
  unfold writeGroup
  split
  · next none => simp [List.isEmpty_iff.1 none]
  · simp only [List.length_append, List.length_cons, List.length_nil]
    omega

/-- Reading a text takes at least one call. -/
theorem exists_fuel {text : Chars} {fuel : Nat} (some : text ≠ [])
    (enough : 2 * text.length ≤ fuel + 1) : ∃ more, fuel = more + 1 := by
  have := List.length_pos_iff.2 some
  exact ⟨fuel - 1, by omega⟩

theorem StartsValue.ne_nil {text : Chars} (starts : StartsValue text) : text ≠ [] := by
  obtain ⟨c, rest, rfl, _⟩ := starts
  exact List.cons_ne_nil c rest

mutual

/-- A value is read back wherever something follows that closes it. -/
theorem readValue_writeAt (indent : Option Nat) : (value : Json) → value.Plain →
    ∀ (depth fuel : Nat) (after : Chars), Closes after →
      2 * (writeAt indent depth value).length ≤ fuel + 1 →
      readValue fuel (writeAt indent depth value ++ after) =
        checked value.longNumber? (value, after)
  | .null, plain => by
    intro depth fuel after _ enough
    obtain ⟨fuel, rfl⟩ := exists_fuel (startsValue_writeAt indent depth plain).ne_nil enough
    exact (readValue_scalar (c := 'n') rfl (by decide)).trans rfl
  | .bool true, plain => by
    intro depth fuel after _ enough
    obtain ⟨fuel, rfl⟩ := exists_fuel (startsValue_writeAt indent depth plain).ne_nil enough
    exact (readValue_scalar (c := 't') rfl (by decide)).trans rfl
  | .bool false, plain => by
    intro depth fuel after _ enough
    obtain ⟨fuel, rfl⟩ := exists_fuel (startsValue_writeAt indent depth plain).ne_nil enough
    exact (readValue_scalar (c := 'f') rfl (by decide)).trans rfl
  | .int n, plain => by
    intro depth fuel after closes enough
    obtain ⟨fuel, rfl⟩ := exists_fuel (startsValue_writeAt indent depth plain).ne_nil enough
    rw [writeAt, readValue_number (startsNumber_signedDecimal n after),
      number_signedDecimal closes, longNumber?]
    split
    · rfl
    · simp only [Except.map, List.drop_left, checked]
  | .str text, plain => by
    intro depth fuel after _ enough
    obtain ⟨fuel, rfl⟩ := exists_fuel (startsValue_writeAt indent depth plain).ne_nil enough
    rw [writeAt, readValue_text]
    rfl
  | .decimal _, plain | .unpaired _, plain => plain.elim
  | .arr items, plain => by
    intro depth fuel after _ enough
    obtain ⟨fuel, rfl⟩ := exists_fuel (startsValue_writeAt indent depth plain).ne_nil enough
    rw [writeAt] at enough ⊢
    by_cases none : items = []
    · rw [none]
      exact readValue_emptyList after
    · have starts := startsValue_writeItems indent (depth + 1) plain none
      have size := length_group indent depth '[' ']' (writeItems indent (depth + 1) items)
      rw [group_append indent depth '[' ']' starts.ne_nil,
        readValue_list (spaces_writeBreak indent _) (starts.append _),
        readItems_writeItems indent items plain none _ _ _ _ (by omega), longNumber?]
      cases longItem? items <;> rfl
  | .obj fields, plain => by
    intro depth fuel after _ enough
    obtain ⟨fuel, rfl⟩ := exists_fuel (startsValue_writeAt indent depth plain).ne_nil enough
    rw [writeAt] at enough ⊢
    by_cases none : fields = []
    · rw [none]
      exact readValue_emptyObject after
    · obtain ⟨rest, starts⟩ := startsValue_writeFields indent (depth + 1) none
      have size := length_group indent depth '{' '}' (writeFields indent (depth + 1) fields)
      have some : writeFields indent (depth + 1) fields ≠ [] := by
        rw [starts]
        exact List.cons_ne_nil _ _
      rw [group_append indent depth '{' '}' some,
        readValue_object (spaces_writeBreak indent _) (by rw [starts]; rfl),
        readFields_writeFields indent fields plain none _ _ _ _ (by omega), longNumber?]
      cases longField? fields <;> rfl

/-- The items of a list are read back up to its closing bracket. -/
theorem readItems_writeItems (indent : Option Nat) : (items : List Json) → PlainItems items →
    items ≠ [] → ∀ (depth outer fuel : Nat) (after : Chars),
      2 * (writeItems indent depth items).length ≤ fuel →
      readItems fuel (writeItems indent depth items ++ (writeBreak indent outer ++ ']' :: after)) =
        checked (longItem? items) (items, after)
  | [], _, nonempty => absurd rfl nonempty
  | item :: rest, plain, _ => by
    intro depth outer fuel after enough
    have starts := startsValue_writeAt indent depth plain.1
    have positive := List.length_pos_iff.2 starts.ne_nil
    rw [writeItems] at enough ⊢
    rw [List.length_append] at enough
    obtain ⟨fuel, rfl⟩ : ∃ more, fuel = more + 1 := ⟨fuel - 1, by omega⟩
    by_cases last : rest = []
    · rw [last, longItem?, longItem?, Option.or_none, List.isEmpty_nil, if_pos rfl,
        List.append_nil]
      refine readItems_last ?_ (spaces_writeBreak indent outer)
      exact readValue_writeAt indent item plain.1 _ _ _
        (closes_writeBreak indent outer (by decide) after) (by omega)
    · obtain ⟨gap, spaces, comma⟩ := writeComma_eq indent depth
      have more := startsValue_writeItems indent depth plain.2 last
      rw [if_neg (by rwa [List.isEmpty_iff]), comma] at enough ⊢
      simp only [List.cons_append, List.length_cons, List.length_append] at enough
      rw [longItem?, List.append_assoc, List.append_assoc]
      refine readItems_more ?_ spaces (more.append _)
        (readItems_writeItems indent rest plain.2 last _ outer _ after (by omega))
      exact readValue_writeAt indent item plain.1 _ _ _ (closes_cons (by decide) _) (by omega)

/-- The fields of an object are read back up to its closing brace. -/
theorem readFields_writeFields (indent : Option Nat) : (fields : List (Chars × Json)) →
    PlainFields fields → fields ≠ [] → ∀ (depth outer fuel : Nat) (after : Chars),
      2 * (writeFields indent depth fields).length ≤ fuel →
      readFields fuel
          (writeFields indent depth fields ++ (writeBreak indent outer ++ '}' :: after)) =
        checked (longField? fields) (fields, after)
  | [], _, nonempty => absurd rfl nonempty
  | (name, value) :: rest, plain, _ => by
    intro depth outer fuel after enough
    have starts := startsValue_writeAt indent depth plain.1
    have positive := List.length_pos_iff.2 starts.ne_nil
    rw [writeFields] at enough ⊢
    simp only [List.length_append, List.length_cons, List.length_nil] at enough
    obtain ⟨fuel, rfl⟩ : ∃ more, fuel = more + 1 := ⟨fuel - 1, by omega⟩
    rw [List.append_assoc, List.append_assoc, List.append_assoc, List.cons_append, List.cons_append,
      List.nil_append]
    by_cases last : rest = []
    · rw [last, longField?, longField?, Option.or_none, List.isEmpty_nil, if_pos rfl,
        List.nil_append]
      refine readFields_last name (starts.append _) ?_ (spaces_writeBreak indent outer)
      exact readValue_writeAt indent value plain.1 _ _ _
        (closes_writeBreak indent outer (by decide) after) (by omega)
    · obtain ⟨gap, spaces, comma⟩ := writeComma_eq indent depth
      obtain ⟨inside, more⟩ := startsValue_writeFields indent depth last
      rw [if_neg (by rwa [List.isEmpty_iff]), comma] at enough ⊢
      simp only [List.cons_append, List.length_cons, List.length_append] at enough
      rw [longField?, List.append_assoc]
      refine readFields_more name (starts.append _) ?_ spaces (by rw [more]; rfl)
        (readFields_writeFields indent rest plain.2 last _ outer _ after (by omega))
      exact readValue_writeAt indent value plain.1 _ _ _ (closes_cons (by decide) _) (by omega)

end

/-- The text of a value, on one line or with any indent, is read back as the value; only a number
with too many digits is refused. -/
theorem read_write (indent : Option Nat) {value : Json} (plain : value.Plain) :
    read (value.write indent) = checked value.longNumber? value := by
  have starts := startsValue_writeAt indent 0 plain
  have start := starts.skipSpace_append spaces_nil
  have whole := readValue_writeAt indent value plain 0 (2 * (value.write indent).length) []
    (by intro c rest none; cases none) (Nat.le_succ _)
  rw [List.append_nil] at whole
  unfold read
  rw [show skipSpace (value.write indent) = writeAt indent 0 value from start, whole]
  cases value.longNumber? <;> rfl

end Json

end BladeTemplate
