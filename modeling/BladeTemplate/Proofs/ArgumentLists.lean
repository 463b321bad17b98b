import BladeTemplate.Proofs.BracketGroups

/-!
# Arguments of a list

Brackets are read twice. The end of an argument list is found with a stack of the brackets still
owed; its arguments are set apart with a mere count of the open ones, whatever their kind. On the
inside of a list that has an end the two agree.

* `Text.BracketItem.eq_of_append` and `Text.items_determined` say that a text is a sequence of items
  in one way only, so that its `Text.Nested` positions do not hang on how it is read;
* `Text.BracketItem.uncut` says that no item but the comma is cut, and `Text.splitTopLevel_flatten`
  what becomes of a sequence of items;
* `arguments_set_apart` is the result for every list of a text.
-/

namespace BladeTemplate

namespace Text

/-! ## Items are read in one way -/

/-- A string literal with both of its quotes. -/
def ClosedLiteral (text : Chars) : Prop :=
  ∃ quote body, isQuote quote = true ∧ LiteralBody quote body ∧ text = quote :: (body ++ [quote])

/-- The position lies in a group or a literal that items alone stand in front of. -/
def Nested (text : Chars) (i : Nat) : Prop :=
  ∃ before item after, text = before ++ item ++ after ∧ BracketItems before ∧
    (BracketGroup item ∨ ClosedLiteral item) ∧ before.length ≤ i ∧ i < before.length + item.length

/-- A comma outside every nested group and every literal. -/
def TopLevelComma (text : Chars) (i : Nat) : Prop :=
  text[i]? = some ',' ∧ ¬ Nested text i

/-- An item is a group, a literal, or a character that is neither bracket nor quote. -/
theorem bracketItem_cases {item : Chars} (is_ : BracketItem item) :
    (BracketGroup item ∨ ClosedLiteral item) ∨ ∃ c, item = [c] := by
  cases is_ with
  | group closes all => exact .inl (.inl ⟨_, _, _, closes, ⟨_, all, rfl⟩, rfl⟩)
  | literal quotes literal => exact .inl (.inr ⟨_, _, quotes, literal, rfl⟩)
  | plain => exact .inr ⟨_, rfl⟩

theorem bracketItem_of_nested {item : Chars} (nested : BracketGroup item ∨ ClosedLiteral item) :
    BracketItem item := by
  rcases nested with ⟨_, _, _, closes, items, rfl⟩ | ⟨_, _, quotes, literal, rfl⟩
  · exact .of_inside closes items
  · exact .literal quotes literal

/-- Neither a group nor a literal is a comma. -/
theorem ne_comma_of_nested {item : Chars} (nested : BracketGroup item ∨ ClosedLiteral item) :
    item ≠ [','] := by
  rcases nested with ⟨_, _, inside, _, _, rfl⟩ | ⟨_, body, _, _, rfl⟩ <;> simp

theorem BracketItem.ne_nil {item : Chars} (is_ : BracketItem item) : item ≠ [] := by
  cases is_ <;> simp

theorem ne_backslash_of_isQuote {quote : Char} (quotes : isQuote quote = true) : quote ≠ '\\' := by
  rintro rfl
  revert quotes
  decide

/-- A literal ends at the first quote that is not escaped. -/
theorem LiteralBody.lengthToCode_eq {quote : Char} {body : Chars} (literal : LiteralBody quote body)
    (quotes : isQuote quote = true) (later : Chars) :
    lengthToCode (.literal quote) (body ++ quote :: later) = some (body.length + 1) := by
  have noEscape := ne_backslash_of_isQuote quotes
  induction literal with
  | nil => simp [lengthToCode, Quoting.next, noEscape]
  | plain other noBackslash _ ih => simp [lengthToCode, Quoting.next, other, noBackslash, ih]
  | escaped _ ih => simp [lengthToCode, Quoting.next, ih]

/-- Length of the item at the front of a text. -/
def itemLength : Chars → Option Nat
  | [] => none
  | c :: rest =>
    if isQuote c then literalLength (c :: rest)
    else if (closingBracket c).isSome then groupLength (c :: rest)
    else some 1

theorem BracketItem.itemLength_append {item : Chars} (is_ : BracketItem item) (later : Chars) :
    itemLength (item ++ later) = some item.length := by
  cases is_ with
  | @group opening closer items closes all =>
    have found := groupLength_of_group closes ⟨items, all, rfl⟩ later
    simp [itemLength, (closer_spec closes).1, closes, found]
  | literal quotes literal =>
    simp [itemLength, quotes, literalLength, literal.lengthToCode_eq quotes]
  | plain noQuote noOpening _ => simp [itemLength, noQuote, noOpening]

/-- No item is the start of another. -/
theorem BracketItem.eq_of_append {item other rest later : Chars} (first : BracketItem item)
    (second : BracketItem other) (same : item ++ rest = other ++ later) : item = other := by
  have length := first.itemLength_append rest
  rw [same, second.itemLength_append later, Option.some_inj] at length
  exact (List.append_inj same length.symm).1

/-- Items at the front of a sequence of items are the first ones of the sequence. -/
theorem items_determined {items others : List Chars} {rest : Chars}
    (each : ∀ item ∈ items, BracketItem item) (all : ∀ item ∈ others, BracketItem item)
    (same : items.flatten = others.flatten ++ rest) : ∃ more, items = others ++ more := by
  induction others generalizing items with
  | nil => exact ⟨items, rfl⟩
  | cons other others ih =>
    rw [List.forall_mem_cons] at all
    rw [List.flatten_cons, List.append_assoc] at same
    cases items with
    | nil => exact absurd (List.append_eq_nil_iff.1 same.symm).1 all.1.ne_nil
    | cons item items =>
      rw [List.forall_mem_cons] at each
      rw [List.flatten_cons] at same
      obtain rfl := each.1.eq_of_append all.1 same
      obtain ⟨more, rfl⟩ := ih each.2 all.2 (List.append_cancel_left same)
      exact ⟨more, rfl⟩

/-- Every position of a sequence lies in one of its pieces. -/
theorem exists_piece_at {items : List Chars} {i : Nat} (inside : i < items.flatten.length) :
    ∃ before item after, items = before ++ item :: after ∧ before.flatten.length ≤ i ∧
      i < before.flatten.length + item.length := by
  induction items generalizing i with
  | nil => exact absurd inside (Nat.not_lt_zero i)
  | cons first rest ih =>
    by_cases here : i < first.length
    · exact ⟨[], first, rest, rfl, Nat.zero_le i, by simpa using here⟩
    · rw [List.flatten_cons, List.length_append] at inside
      obtain ⟨before, item, after, rfl, begins, ends⟩ :=
        ih (i := i - first.length) (by omega)
      refine ⟨first :: before, item, after, rfl, ?_, ?_⟩ <;>
        rw [List.flatten_cons, List.length_append] <;> omega

/-- No two pieces of a sequence have a position in common. -/
theorem piece_unique {before after others more : List Chars} {first second : Chars} {i : Nat}
    (same : before ++ first :: after = others ++ second :: more)
    (begins : before.flatten.length ≤ i) (ends : i < before.flatten.length + first.length)
    (othersBegin : others.flatten.length ≤ i)
    (othersEnd : i < others.flatten.length + second.length) : first = second := by
  rcases List.append_eq_append_iff.1 same with ⟨gap, rfl, later⟩ | ⟨gap, rfl, later⟩
  · cases gap with
    | nil => exact (List.cons.inj later).1
    | cons piece gap =>
      obtain ⟨rfl, -⟩ := List.cons.inj later
      rw [List.flatten_append, List.length_append, List.flatten_cons, List.length_append]
        at othersBegin
      omega
  · cases gap with
    | nil => exact (List.cons.inj later).1.symm
    | cons piece gap =>
      obtain ⟨rfl, -⟩ := List.cons.inj later
      rw [List.flatten_append, List.length_append, List.flatten_cons, List.length_append] at begins
      omega

/-- The commas outside groups and literals are those that are items themselves. -/
theorem topLevelComma_flatten_iff {items : List Chars} (each : ∀ item ∈ items, BracketItem item)
    (i : Nat) : TopLevelComma items.flatten i ↔
      ∃ before after, items = before ++ [','] :: after ∧ i = before.flatten.length := by
  constructor
  · rintro ⟨comma, outside⟩
    obtain ⟨bound, -⟩ := List.getElem?_eq_some_iff.1 comma
    obtain ⟨before, item, after, rfl, begins, ends⟩ := exists_piece_at bound
    obtain ⟨earlier, is_, -⟩ := List.forall_mem_append.1 each |>.imp_right List.forall_mem_cons.1
    have whole : (before ++ item :: after).flatten = before.flatten ++ item ++ after.flatten := by
      rw [List.flatten_append, List.flatten_cons, List.append_assoc]
    rcases bracketItem_cases is_ with nested | ⟨c, rfl⟩
    · exact absurd ⟨_, item, _, whole, ⟨before, earlier, rfl⟩, nested, begins, ends⟩ outside
    · obtain rfl : i = before.flatten.length := by
        rw [List.length_singleton] at ends
        omega
      rw [whole, List.append_assoc, List.getElem?_append_right (Nat.le_refl _), Nat.sub_self]
        at comma
      obtain rfl : c = ',' := by simpa using comma
      exact ⟨before, after, rfl, rfl⟩
  · rintro ⟨before, after, rfl, rfl⟩
    refine ⟨by simp, ?_⟩
    rintro ⟨_, item, rest, same, ⟨others, all, rfl⟩, nested, begins, ends⟩
    -- The item that is said to hold the comma is one of the sequence, so it would be the comma.
    have sequence : ∀ piece ∈ others ++ [item], BracketItem piece :=
      List.forall_mem_append.2 ⟨all, List.forall_mem_singleton.2 (bracketItem_of_nested nested)⟩
    have whole : (before ++ [','] :: after).flatten = (others ++ [item]).flatten ++ rest := by
      rw [same, List.flatten_append, List.flatten_singleton]
    obtain ⟨more, split⟩ := items_determined each sequence whole
    rw [List.append_assoc, List.singleton_append] at split
    have comma := piece_unique split (Nat.le_refl _) (Nat.lt_succ_self _) begins ends
    exact ne_comma_of_nested nested comma.symm

/-! ## Where a text is cut -/

theorem pushFirst_eq {pieces : List Chars} (some : pieces ≠ []) (c : Char) :
    pushFirst c pieces = pieces.modifyHead (c :: ·) := by
  obtain ⟨piece, rest, rfl⟩ := List.exists_cons_of_ne_nil some
  rfl

theorem pushFirst_ne_nil (c : Char) (pieces : List Chars) : pushFirst c pieces ≠ [] := by
  cases pieces <;> exact List.cons_ne_nil _ _

section

variable {separator : Chars} {depth : Nat} {c closer : Char} {rest : Chars}

theorem splitFrom_ne_nil (separator : Chars) (depth : Nat) (state : Quoting) (text : Chars) :
    splitFrom separator depth state text ≠ [] := by
  cases text with
  | nil => exact List.cons_ne_nil _ _
  | cons c rest =>
    cases state with
    | code =>
      unfold splitFrom
      split_ifs
      · exact pushFirst_ne_nil _ _
      · exact pushFirst_ne_nil _ _
      · exact pushFirst_ne_nil _ _
      · exact List.cons_ne_nil _ _
      · exact pushFirst_ne_nil _ _
    | literal | escape => exact pushFirst_ne_nil _ _

theorem splitFrom_quote (quote : isQuote c = true) :
    splitFrom separator depth .code (c :: rest) =
      pushFirst c (splitFrom separator depth (.literal c) rest) := by
  simp only [splitFrom, quote, if_true]

theorem splitFrom_opening (closes : closingBracket c = some closer) :
    splitFrom separator depth .code (c :: rest) =
      pushFirst c (splitFrom separator (depth + 1) .code rest) := by
  simp only [splitFrom, (closer_spec closes).1, closes, Option.isSome_some, Bool.false_eq_true,
    if_false, if_true]

theorem splitFrom_closer {opening : Char} (closes : closingBracket opening = some c) :
    splitFrom separator (depth + 1) .code (c :: rest) =
      pushFirst c (splitFrom separator depth .code rest) := by
  obtain ⟨-, noQuote, noOpening, closing⟩ := closer_spec closes
  simp only [splitFrom, noQuote, noOpening, closing, Option.isSome_none, Bool.false_eq_true,
    if_false, if_true, Nat.add_sub_cancel]

theorem splitFrom_plain (noQuote : isQuote c = false) (noOpening : closingBracket c = none)
    (noClosing : isClosingBracket c = false) (uncut : 0 < depth ∨ [c] ≠ separator) :
    splitFrom separator depth .code (c :: rest) =
      pushFirst c (splitFrom separator depth .code rest) := by
  have noCut : ¬ ([c] = separator ∧ depth = 0) := by
    rintro ⟨same, zero⟩
    rcases uncut with inside | other
    · exact absurd zero (Nat.pos_iff_ne_zero.1 inside)
    · exact other same
  simp only [splitFrom, noQuote, noOpening, noClosing, noCut, Option.isSome_none,
    Bool.false_eq_true, if_false]

theorem splitFrom_literal {quote : Char} :
    splitFrom separator depth (.literal quote) (c :: rest) =
      pushFirst c (splitFrom separator depth (Quoting.next (.literal quote) c) rest) := rfl

theorem splitFrom_escape {quote : Char} :
    splitFrom separator depth (.escape quote) (c :: rest) =
      pushFirst c (splitFrom separator depth (.literal quote) rest) := rfl

end

/-- The pieces, joined with the separator, are the text again. -/
theorem intercalate_splitFrom (separator : Char) (depth : Nat) (state : Quoting) (text : Chars) :
    [separator].intercalate (splitFrom [separator] depth state text) = text := by
  have pushed (c : Char) (pieces : List Chars) :
      [separator].intercalate (pushFirst c pieces) = c :: [separator].intercalate pieces := by
    cases pieces with
    | nil => rfl
    | cons piece pieces => exact List.intercalate_cons_cons_left
  induction text generalizing depth state with
  | nil => exact List.intercalate_singleton
  | cons c rest ih =>
    cases state with
    | code =>
      unfold splitFrom
      split_ifs with _ _ _ cuts
      · rw [pushed, ih]
      · rw [pushed, ih]
      · rw [pushed, ih]
      · obtain ⟨same, -⟩ := cuts
        rw [List.intercalate_cons_of_ne_nil (splitFrom_ne_nil _ _ _ _), ih, ← same]
        rfl
      · rw [pushed, ih]
    | literal | escape => exact (pushed _ _).trans (congrArg _ (ih _ _))

/-! ## Items are not cut -/

/-- The text belongs to one piece, whatever follows it at the given depth. -/
def Uncut (depth : Nat) (text : Chars) : Prop :=
  ∀ later, splitFrom [','] depth .code (text ++ later) =
    (splitFrom [','] depth .code later).modifyHead (text ++ ·)

theorem pushFirst_modifyHead (c : Char) (text : Chars) {pieces : List Chars} (some : pieces ≠ []) :
    pushFirst c (pieces.modifyHead (text ++ ·)) = pieces.modifyHead (c :: text ++ ·) := by
  obtain ⟨piece, rest, rfl⟩ := List.exists_cons_of_ne_nil some
  rfl

theorem Uncut.flatten {depth : Nat} {items : List Chars} (each : ∀ item ∈ items, Uncut depth item) :
    Uncut depth items.flatten := by
  intro later
  induction items with
  | nil => exact (congrFun List.modifyHead_id _).symm
  | cons first rest ih =>
    rw [List.forall_mem_cons] at each
    rw [List.flatten_cons, List.append_assoc, each.1, ih each.2, List.modifyHead_modifyHead]
    congr 1
    funext piece
    exact (List.append_assoc first rest.flatten piece).symm

/-- A literal belongs to one piece, up to its closing quote. -/
theorem LiteralBody.uncut {quote : Char} {body : Chars} (literal : LiteralBody quote body)
    (quotes : isQuote quote = true) (depth : Nat) (later : Chars) :
    splitFrom [','] depth (.literal quote) (body ++ quote :: later) =
      (splitFrom [','] depth .code later).modifyHead (body ++ [quote] ++ ·) := by
  have some_ := splitFrom_ne_nil [','] depth .code later
  have noEscape := ne_backslash_of_isQuote quotes
  induction literal with
  | nil =>
    rw [List.nil_append, splitFrom_literal, Quoting.next, if_neg noEscape, if_pos rfl,
      pushFirst_eq some_]
    rfl
  | plain other noBackslash _ ih =>
    rw [List.cons_append, splitFrom_literal, Quoting.next, if_neg noBackslash, if_neg other, ih,
      pushFirst_modifyHead _ _ some_]
    rfl
  | @escaped c body _ ih =>
    rw [List.cons_append, List.cons_append, splitFrom_literal, Quoting.next, if_pos rfl,
      splitFrom_escape, ih, pushFirst_modifyHead _ _ some_, pushFirst_modifyHead _ (c :: _) some_]
    rfl

/-- No item is cut but the comma that stands outside every group. -/
theorem BracketItem.uncut {item : Chars} (is_ : BracketItem item) {depth : Nat}
    (whole : 0 < depth ∨ item ≠ [',']) : Uncut depth item := by
  have some_ (later : Chars) := splitFrom_ne_nil [','] depth .code later
  induction is_ generalizing depth with
  | @group opening closer items closes _ ih =>
    intro later
    -- Inside the group the depth is not zero, so that its commas do not count.
    have inside : Uncut (depth + 1) items.flatten := .flatten fun item member =>
      ih item member (.inl (Nat.succ_pos depth)) (splitFrom_ne_nil [','] (depth + 1) .code)
    rw [List.cons_append, List.append_assoc, splitFrom_opening closes, inside,
      List.singleton_append, splitFrom_closer closes, pushFirst_eq (some_ later),
      List.modifyHead_modifyHead]
    obtain ⟨piece, pieces, found⟩ := List.exists_cons_of_ne_nil (some_ later)
    simp [found, pushFirst]
  | literal quotes literal =>
    intro later
    rw [List.cons_append, List.append_assoc, splitFrom_quote quotes, List.singleton_append,
      literal.uncut quotes, pushFirst_modifyHead _ _ (some_ later)]
  | plain noQuote noOpening noClosing =>
    intro later
    rw [List.singleton_append, splitFrom_plain noQuote noOpening noClosing whole,
      pushFirst_eq (some_ later)]
    rfl

theorem splitFrom_comma (rest : Chars) :
    splitFrom [','] 0 .code (',' :: rest) = [] :: splitFrom [','] 0 .code rest := by
  rw [splitFrom]
  simp [isQuote, apostrophe, doubleQuote, closingBracket, isClosingBracket]

/-- A sequence of items is cut at its commas. -/
theorem splitTopLevel_flatten {items : List Chars} (each : ∀ item ∈ items, BracketItem item) :
    splitTopLevel [','] items.flatten = (items.splitOn [',']).map List.flatten := by
  unfold splitTopLevel
  induction items with
  | nil => rfl
  | cons item rest ih =>
    rw [List.forall_mem_cons] at each
    rw [List.flatten_cons, List.splitOn_cons_eq_if_modifyHead]
    by_cases comma : item = [',']
    · rw [if_pos (by simpa using comma), comma, List.singleton_append, splitFrom_comma, ih each.2]
      rfl
    · rw [if_neg (by simpa using comma), each.1.uncut (.inr comma), ih each.2]
      cases rest.splitOn [','] <;> rfl

/-- The items of a piece are those of the sequence but for the separators. -/
theorem mem_of_mem_splitOn {α : Type} [BEq α] [LawfulBEq α] {separator : α} {items piece : List α}
    (part : piece ∈ items.splitOn separator) : ∀ item ∈ piece, item ∈ items ∧ item ≠ separator := by
  induction items generalizing piece with
  | nil =>
    obtain rfl : piece = [] := by simpa using part
    simp
  | cons first rest ih =>
    have later (piece : List α) (part : piece ∈ rest.splitOn separator) :
        ∀ item ∈ piece, item ∈ first :: rest ∧ item ≠ separator :=
      fun item member => (ih part item member).imp_left (List.mem_cons_of_mem _)
    rw [List.splitOn_cons_eq_if_modifyHead] at part
    split at part
    · rcases List.mem_cons.1 part with rfl | behind
      · simp
      · exact later piece behind
    · next other =>
      obtain ⟨head, pieces, found⟩ :=
        List.exists_cons_of_ne_nil (List.splitOn_ne_nil separator rest)
      rw [found] at part later
      rcases List.mem_cons.1 part with rfl | behind
      · refine List.forall_mem_cons.2 ⟨⟨List.mem_cons_self, by simpa using other⟩, ?_⟩
        exact later head List.mem_cons_self
      · exact later piece (List.mem_cons_of_mem _ behind)

/-! ## Positions of the cuts -/

/-- Where the separators stand between pieces of a text, counted from where the first one starts. -/
def separatorsAt : Nat → List Chars → List Nat
  | start, piece :: next :: pieces =>
    (start + piece.length) :: separatorsAt (start + piece.length + 1) (next :: pieces)
  | _, _ => []

theorem separatorsAt_cons (start : Nat) (piece : Chars) {pieces : List Chars} (some : pieces ≠ []) :
    separatorsAt start (piece :: pieces) =
      (start + piece.length) :: separatorsAt (start + piece.length + 1) pieces := by
  obtain ⟨next, rest, rfl⟩ := List.exists_cons_of_ne_nil some
  rfl

theorem separatorsAt_modifyHead (start : Nat) (text : Chars) (pieces : List Chars) :
    separatorsAt start (pieces.modifyHead (text ++ ·)) =
      separatorsAt (start + text.length) pieces := by
  match pieces with
  | [] | [_] => rfl
  | piece :: next :: rest => simp [separatorsAt, Nat.add_assoc]

theorem length_separatorsAt (start : Nat) {pieces : List Chars} (some : pieces ≠ []) :
    pieces.length = (separatorsAt start pieces).length + 1 := by
  induction pieces generalizing start with
  | nil => exact absurd rfl some
  | cons piece rest ih =>
    cases rest with
    | nil => rfl
    | cons next rest =>
      rw [separatorsAt_cons _ _ (List.cons_ne_nil _ _), List.length_cons,
        ih (start + piece.length + 1) (List.cons_ne_nil _ _), List.length_cons]

/-- The separators come in order. -/
theorem pairwise_separatorsAt (start : Nat) (pieces : List Chars) :
    (separatorsAt start pieces).Pairwise (· < ·) ∧ ∀ i ∈ separatorsAt start pieces, start ≤ i := by
  induction pieces generalizing start with
  | nil => exact ⟨.nil, by simp [separatorsAt]⟩
  | cons piece rest ih =>
    cases rest with
    | nil => exact ⟨.nil, by simp [separatorsAt]⟩
    | cons next rest =>
      obtain ⟨ordered, behind⟩ := ih (start + piece.length + 1)
      rw [separatorsAt_cons _ _ (List.cons_ne_nil _ _), List.pairwise_cons, List.forall_mem_cons]
      refine ⟨⟨?_, ordered⟩, by omega, ?_⟩ <;>
      · intro i member
        have := behind i member
        omega

/-- A sequence of items has its separators where its commas are. -/
theorem mem_separatorsAt_splitOn {items : List Chars} (start i : Nat) :
    i ∈ separatorsAt start ((items.splitOn [',']).map List.flatten) ↔
      ∃ before after, items = before ++ [','] :: after ∧ i = start + before.flatten.length := by
  induction items generalizing start with
  | nil => simp [separatorsAt]
  | cons item rest ih =>
    have some_ : (rest.splitOn [',']).map List.flatten ≠ [] := by simp [List.splitOn_ne_nil]
    rw [List.splitOn_cons_eq_if_modifyHead]
    by_cases comma : item = [',']
    · subst comma
      rw [if_pos (by simp), List.map_cons, separatorsAt_cons _ _ some_, List.mem_cons, ih]
      constructor
      · rintro (rfl | ⟨before, after, rfl, rfl⟩)
        · exact ⟨[], rest, rfl, rfl⟩
        · exact ⟨[','] :: before, after, rfl, by simp; omega⟩
      · rintro ⟨before, after, split, rfl⟩
        cases before with
        | nil => exact .inl rfl
        | cons first before =>
          obtain ⟨rfl, rfl⟩ := List.cons.inj split
          exact .inr ⟨before, after, rfl, by simp; omega⟩
    · have joined : ((rest.splitOn [',']).modifyHead (item :: ·)).map List.flatten =
          ((rest.splitOn [',']).map List.flatten).modifyHead (item ++ ·) := by
        cases rest.splitOn [','] <;> rfl
      rw [if_neg (by simpa using comma), joined, separatorsAt_modifyHead, ih]
      constructor
      · rintro ⟨before, after, rfl, rfl⟩
        exact ⟨item :: before, after, rfl, by simp; omega⟩
      · rintro ⟨before, after, split, rfl⟩
        cases before with
        | nil => exact absurd (List.cons.inj split).1 comma
        | cons first before =>
          obtain ⟨rfl, rfl⟩ := List.cons.inj split
          exact ⟨before, after, rfl, by simp; omega⟩

/-- On a sequence of items the commas outside groups and literals are where it is cut. -/
theorem mem_separatorsAt_iff {text : Chars} (items : BracketItems text) (i : Nat) :
    i ∈ separatorsAt 0 (splitTopLevel [','] text) ↔ TopLevelComma text i := by
  obtain ⟨items, each, rfl⟩ := items
  rw [splitTopLevel_flatten each, mem_separatorsAt_splitOn, topLevelComma_flatten_iff each]
  simp only [Nat.zero_add]

/-- Every piece of a sequence of items is such a sequence. -/
theorem bracketItems_of_mem {text piece : Chars} (items : BracketItems text)
    (part : piece ∈ splitTopLevel [','] text) : BracketItems piece := by
  obtain ⟨items, each, rfl⟩ := items
  rw [splitTopLevel_flatten each] at part
  obtain ⟨some_, inside, rfl⟩ := List.mem_map.1 part
  exact ⟨some_, fun item member => each item (mem_of_mem_splitOn inside item member).1, rfl⟩

theorem insideParens_group (inside : Chars) : insideParens ('(' :: (inside ++ [')'])) = inside := by
  simp [insideParens, List.getLast?_cons]

/-- The list with its end is its inside between parentheses. -/
theorem inside_of_groupEnd {source : Chars} {start last : Nat} (opens : source[start]? = some '(')
    (ends : groupEnd source start = some last) :
    BracketItems (cut source (start + 1) (last - 1)) ∧
      cut source start last = '(' :: (cut source (start + 1) (last - 1) ++ [')']) := by
  have group := ((groupEnd_eq_some_iff opens (by rfl) last).1 ends).2
  obtain ⟨inside, later, ahead, items⟩ := items_of_group opens (by rfl) group
  have found : groupLength (source.drop start) = some (inside.length + 2) := by
    rw [ahead]
    exact groupLength_of_group (by rfl) items later
  obtain rfl : last = start + (inside.length + 2) := by
    rw [groupEnd, found] at ends
    exact (Option.some_inj.1 ends).symm
  have behind : source.drop (start + 1) = inside ++ ')' :: later := by
    rw [← List.drop_drop, ahead]
    rfl
  have within : cut source (start + 1) (start + (inside.length + 2) - 1) = inside := by
    rw [show start + (inside.length + 2) - 1 = start + 1 + inside.length by omega]
    exact cut_of_drop behind
  have whole : source.drop start = '(' :: (inside ++ [')']) ++ later := by
    rw [ahead]
    simp
  rw [within]
  refine ⟨items, ?_⟩
  have cut_ := cut_of_drop whole
  rwa [show ('(' :: (inside ++ [')'])).length = inside.length + 2 by simp] at cut_

end Text

open Text

/-- **Arguments are set apart where brackets say.** The pieces of an expression between its
separators, joined with them, are the expression again.

Where the parenthesis of a text opens a list that has an end, what is inside is cut exactly at the
commas outside every nested group and every literal; every piece is a sequence of groups, literals
and other characters; and the number of arguments is none if there is only white space inside, and
one more than the number of those commas otherwise. -/
theorem arguments_set_apart :
    (∀ (separator : Char) (expression : Chars),
      [separator].intercalate (splitTopLevel [separator] expression) = expression) ∧
    ∀ (source : Chars) (start last : Nat), source[start]? = some '(' →
      groupEnd source start = some last →
      let inside := cut source (start + 1) (last - 1)
      let pieces := splitTopLevel [','] inside
      let commas := separatorsAt 0 pieces
      commas.Pairwise (· < ·) ∧ (∀ i, i ∈ commas ↔ TopLevelComma inside i) ∧
      (∀ piece ∈ pieces, BracketItems piece) ∧
      countArguments (some (cut source start last)) =
        if isBlankText inside then 0 else commas.length + 1 := by
  refine ⟨fun separator expression => intercalate_splitFrom separator 0 .code expression, ?_⟩
  intro source start last opens ends inside pieces commas
  obtain ⟨items, whole⟩ := inside_of_groupEnd opens ends
  refine ⟨(pairwise_separatorsAt 0 pieces).1, mem_separatorsAt_iff items,
    fun piece part => bracketItems_of_mem items part, ?_⟩
  have length : pieces.length = commas.length + 1 :=
    length_separatorsAt 0 (splitFrom_ne_nil [','] 0 .code inside)
  rw [whole, countArguments]
  simp only [insideParens_group]
  rw [← length]

/-- Commas inside a literal and inside a nested group part no arguments. -/
theorem arguments_set_apart_nested :
    let source := "@if ('a,b', [1, 2])".toList
    source[4]? = some '(' ∧ groupEnd source 4 = some 19 ∧
      splitTopLevel [','] (cut source 5 18) = ["'a,b'".toList, " [1, 2]".toList] ∧
      TopLevelComma (cut source 5 18) 5 ∧ ¬ TopLevelComma (cut source 5 18) 2 ∧
      ¬ TopLevelComma (cut source 5 18) 9 ∧ (∀ piece ∈ ["'a,b'".toList, " [1, 2]".toList],
        BracketItems piece) ∧
      countArguments (some (cut source 4 19)) = 2 := by
  intro source
  have opens : source[4]? = some '(' := by decide +kernel
  have ends : groupEnd source 4 = some 19 := by decide +kernel
  have pieces : splitTopLevel [','] (cut source 5 18) = ["'a,b'".toList, " [1, 2]".toList] := by
    decide +kernel
  obtain ⟨-, commas, items, count⟩ := arguments_set_apart.2 source 4 19 opens ends
  rw [show (19 - 1 : Nat) = 18 from rfl, pieces] at commas items count
  refine ⟨opens, ends, pieces, (commas 5).1 (by decide +kernel), ?_, ?_, items, ?_⟩
  · exact fun comma => absurd ((commas 2).2 comma) (by decide +kernel)
  · exact fun comma => absurd ((commas 9).2 comma) (by decide +kernel)
  · rw [count]
    decide +kernel

end BladeTemplate
