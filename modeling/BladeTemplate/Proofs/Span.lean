import BladeTemplate.Token.State

/-!
# Spans of a text

Tokens, items and nodes all stand for a part of one template. Their spans are given by two offsets,
and spans that touch join to one span.

* `Text.cut` is the part of a text between two offsets;
* `Location.Spans` and `Token.At` tie a location and a token to their offsets;
* `ScanState.On` says that a state reads the given text, so that its tokens are cut from it.
-/

namespace BladeTemplate

namespace Text

/-- The part of a text between two offsets. -/
def cut (text : Chars) (first last : Nat) : Chars :=
  (text.drop first).take (last - first)

@[simp]
theorem cut_self (text : Chars) (n : Nat) : cut text n n = [] := by
  simp [cut]

theorem cut_all (text : Chars) : cut text 0 text.length = text := by
  simp [cut]

/-- A part that holds something runs forward. -/
theorem lt_of_cut_ne_nil {text : Chars} {a b : Nat} (some : cut text a b ≠ []) : a < b := by
  refine Nat.lt_of_not_le ?_
  intro back
  refine some ?_
  rw [cut, Nat.sub_eq_zero_of_le back, List.take_zero]

/-- Parts that touch join to one. -/
theorem cut_append (text : Chars) {a b c : Nat} (ab : a ≤ b) (bc : b ≤ c) :
    cut text a b ++ cut text b c = cut text a c := by
  have middle : text.drop b = (text.drop a).drop (b - a) := by
    rw [List.drop_drop]
    congr 1
    omega
  have whole : c - a = (b - a) + (c - b) := by omega
  rw [cut, cut, cut, middle, whole, List.take_add]

/-- The part of a text that starts where the text continues with `piece` and is as long as it. -/
theorem cut_of_drop {text piece rest : Chars} {n : Nat} (at_ : text.drop n = piece ++ rest) :
    cut text n (n + piece.length) = piece := by
  rw [cut, at_, Nat.add_sub_cancel_left, List.take_left]

end Text

open Text

/-! ## Locations -/

/-- The location runs from offset `first` to offset `last`. -/
structure Location.Spans (location : Location) (first last : Nat) : Prop where
  offset : location.offset = first
  endOffset : location.endOffset = last
  ordered : first ≤ last

namespace Location

theorem Spans.slice {location : Location} {a b : Nat} (spans : location.Spans a b)
    (source : Chars) : location.slice source = cut source a b := by
  unfold Location.slice
  rw [spans.offset, spans.endOffset, Text.slice_natCast]
  rfl

/-- A location has one start and one end. -/
theorem Spans.unique {location : Location} {a b c d : Nat} (one : location.Spans a b)
    (other : location.Spans c d) : a = c ∧ b = d := by
  have offset := one.offset.symm.trans other.offset
  have endOffset := one.endOffset.symm.trans other.endOffset
  omega

/-- From the start of one location to the end of another. -/
theorem Spans.spanTo {first last : Location} {a b c d : Nat} (one : first.Spans a b)
    (other : last.Spans c d) (ordered : a ≤ d) : (first.spanTo last).Spans a d := by
  refine ⟨one.offset, ?_, ordered⟩
  unfold Location.spanTo orElseZero
  simp only
  have := other.ordered
  have := other.offset
  have := other.endOffset
  split <;> omega

end Location

/-! ## Tokens -/

/-- The token is the part of the text from offset `first` to offset `last`. -/
structure Token.At (source : Chars) (token : Token) (first last : Nat) : Prop where
  start : token.start.offset = first
  stop : token.stop.offset = last
  ordered : first ≤ last
  value : token.value = cut source first last

namespace Token

theorem At.spans {source : Chars} {token : Token} {a b : Nat} (placed : token.At source a b)
    (file : Option String) : (token.location file).Spans a b :=
  ⟨congrArg Nat.cast placed.start, congrArg Nat.cast placed.stop, placed.ordered⟩

end Token

/-! ## States -/

namespace Position

theorem offset_advance (position : Position) (text : Chars) :
    (position.advance text).offset = position.offset + text.length := by
  unfold advance
  induction text generalizing position with
  | nil => rfl
  | cons c rest ih =>
    rw [List.foldl_cons, ih, List.length_cons]
    unfold step
    split <;> simp only <;> omega

end Position

namespace ScanState

/-- How far the state has read. -/
def offset (s : ScanState) : Nat := s.position.offset

/-- The state reads the given text. -/
structure On (source : Chars) (s : ScanState) : Prop where
  rest : s.rest = source.drop s.offset
  bound : s.offset ≤ source.length

theorem on_start (source : Chars) : (start source).On source :=
  ⟨rfl, Nat.zero_le _⟩

variable {source : Chars} {s : ScanState}

theorem offset_skip (s : ScanState) (length : Nat) :
    (s.skip length).offset = s.offset + (s.rest.take length).length :=
  Position.offset_advance _ _

theorem offset_skip_of_le {length : Nat} (enough : length ≤ s.rest.length) :
    (s.skip length).offset = s.offset + length := by
  rw [offset_skip, List.length_take, Nat.min_eq_left enough]

/-- Something is passed over wherever something lies ahead. -/
theorem offset_lt_skip (ahead : s.rest ≠ []) {length : Nat} (positive : 0 < length) :
    s.offset < (s.skip length).offset := by
  have := List.length_pos_iff.2 ahead
  rw [offset_skip, List.length_take]
  omega

theorem On.skip (on : s.On source) (length : Nat) : (s.skip length).On source := by
  have rest := on.rest
  have bound := on.bound
  have measured := congrArg List.length rest
  rw [List.length_drop] at measured
  refine ⟨?_, ?_⟩
  · rw [offset_skip, rest_skip, List.length_take, ← List.drop_drop, ← rest]
    rcases Nat.le_total length s.rest.length with less | more
    · rw [Nat.min_eq_left less]
    · rw [Nat.min_eq_right more, List.drop_length, List.drop_eq_nil_of_le more]
  · rw [offset_skip, List.length_take]
    omega

/-- A state that has read everything stands at the end. -/
theorem On.offset_of_ended (on : s.On source) (ended : s.rest = []) : s.offset = source.length := by
  have rest := on.rest
  have bound := on.bound
  rw [ended] at rest
  have := List.drop_eq_nil_iff.1 rest.symm
  omega

theorem On.cut_skip (on : s.On source) (length : Nat) :
    cut source s.offset (s.skip length).offset = s.rest.take length := by
  rw [cut, offset_skip, Nat.add_sub_cancel_left, ← on.rest, List.length_take]
  rcases Nat.le_total length s.rest.length with less | more
  · rw [Nat.min_eq_left less]
  · rw [Nat.min_eq_right more, List.take_length, List.take_of_length_le more]

/-- A token is cut from the text read. -/
theorem On.token_at (on : s.On source) (kind : TokenKind) (length : Nat) :
    (s.token kind length).At source s.offset (s.skip length).offset := by
  refine ⟨rfl, rfl, ?_, (on.cut_skip length).symm⟩
  rw [offset_skip]
  omega

theorem On.pop (on : s.On source) : s.pop.On source := ⟨on.rest, on.bound⟩

theorem On.push (on : s.On source) (mode : Mode) : (s.push mode).On source := ⟨on.rest, on.bound⟩

theorem On.become (on : s.On source) (mode : Mode) : (s.become mode).On source := by
  unfold ScanState.become
  split
  · exact on
  · exact ⟨on.rest, on.bound⟩

@[simp]
theorem offset_pop (s : ScanState) : s.pop.offset = s.offset := rfl

@[simp]
theorem offset_push (s : ScanState) (mode : Mode) : (s.push mode).offset = s.offset := rfl

@[simp]
theorem offset_become (s : ScanState) (mode : Mode) : (s.become mode).offset = s.offset := by
  unfold ScanState.become
  split <;> rfl

end ScanState

end BladeTemplate
