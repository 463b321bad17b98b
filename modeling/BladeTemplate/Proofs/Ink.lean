import BladeTemplate.Fingerprint
import BladeTemplate.Proofs.Search

/-!
# Ink

The ink of a text is what is left of it without white space. Layout moves white space about and
leaves the ink alone, so every operation on texts has a law for the ink of what it yields.

* `squeeze_append`, `squeeze_of_blank` and `squeeze_trim` are the laws of pieces;
* `squeeze_splitLines` and `squeeze_joinLines` are those of lines;
* `squeeze_formatEcho` and `squeeze_normalizeEchoes` are those of echoes.
-/

namespace BladeTemplate.Text

@[simp]
theorem squeeze_nil : squeeze [] = [] := rfl

@[simp]
theorem squeeze_append (a b : Chars) : squeeze (a ++ b) = squeeze a ++ squeeze b :=
  List.filter_append _ _

theorem squeeze_cons (c : Char) (text : Chars) :
    squeeze (c :: text) = squeeze [c] ++ squeeze text :=
  squeeze_append [c] text

theorem squeeze_of_blank {text : Chars} (blank : isBlankText text = true) : squeeze text = [] := by
  unfold squeeze
  rw [List.filter_eq_nil_iff]
  intro c member
  simpa using List.all_eq_true.1 blank c member

theorem squeeze_eq_nil_iff {text : Chars} : squeeze text = [] ↔ isBlankText text = true := by
  refine ⟨fun none => ?_, squeeze_of_blank⟩
  unfold squeeze at none
  rw [List.filter_eq_nil_iff] at none
  unfold isBlankText
  rw [List.all_eq_true]
  intro c member
  simpa using none c member

theorem squeeze_of_inked {text : Chars} (inked : ∀ c ∈ text, isBlank c = false) :
    squeeze text = text := by
  unfold squeeze
  rw [List.filter_eq_self]
  intro c member
  simpa using inked c member

theorem squeeze_cons_of_blank {c : Char} (blank : isBlank c = true) (text : Chars) :
    squeeze (c :: text) = squeeze text :=
  List.filter_cons_of_neg (by simp [blank])

theorem squeeze_cons_of_inked {c : Char} (inked : isBlank c = false) (text : Chars) :
    squeeze (c :: text) = c :: squeeze text :=
  List.filter_cons_of_pos (by simp [inked])

@[simp]
theorem squeeze_lineFeed (text : Chars) : squeeze ('\n' :: text) = squeeze text :=
  squeeze_cons_of_blank (by decide) text

@[simp]
theorem squeeze_space (text : Chars) : squeeze (' ' :: text) = squeeze text :=
  squeeze_cons_of_blank (by decide) text

@[simp]
theorem squeeze_opener (style : EchoStyle) : squeeze style.opener = style.opener := by
  cases style <;> decide

@[simp]
theorem squeeze_closer (style : EchoStyle) : squeeze style.closer = style.closer := by
  cases style <;> decide

@[simp]
theorem squeeze_flatMap {α : Type} (pieces : List α) (text : α → Chars) :
    squeeze (pieces.flatMap text) = pieces.flatMap fun piece => squeeze (text piece) := by
  induction pieces with
  | nil => rfl
  | cons piece rest ih => simp [List.flatMap_cons, ih]

/-- Pieces of white space leave no ink, however often they are repeated. -/
theorem squeeze_replicate {unit : Chars} (blank : isBlankText unit = true) (count : Nat) :
    squeeze (replicate count unit) = [] := by
  refine squeeze_of_blank (List.all_eq_true.2 ?_)
  intro c member
  obtain ⟨piece, copies, inside⟩ := List.mem_flatten.1 member
  rw [List.eq_of_mem_replicate copies] at inside
  exact List.all_eq_true.1 blank c inside

/-! ## Trimming -/

theorem squeeze_dropWhile {drops : Char → Bool} (blank : ∀ c, drops c = true → isBlank c = true)
    (text : Chars) : squeeze (text.dropWhile drops) = squeeze text := by
  induction text with
  | nil => rfl
  | cons c rest ih =>
    rw [List.dropWhile_cons]
    split
    · next dropped => rw [ih, squeeze_cons_of_blank (blank c dropped)]
    · rfl

theorem squeeze_reverse (text : Chars) : squeeze text.reverse = (squeeze text).reverse :=
  List.filter_reverse

@[simp]
theorem squeeze_trimLeft (text : Chars) : squeeze (trimLeft text) = squeeze text :=
  squeeze_dropWhile (fun _ blank => blank) text

@[simp]
theorem squeeze_trimRight (text : Chars) : squeeze (trimRight text) = squeeze text := by
  unfold trimRight
  rw [squeeze_reverse, squeeze_dropWhile (fun _ blank => blank), squeeze_reverse,
    List.reverse_reverse]

@[simp]
theorem squeeze_trim (text : Chars) : squeeze (trim text) = squeeze text := by
  unfold trim
  rw [squeeze_trimRight, squeeze_trimLeft]

theorem trimLeft_of_blank {text : Chars} (blank : isBlankText text = true) : trimLeft text = [] := by
  have dropped := @List.dropWhile_append_of_pos _ isBlank text [] (List.all_eq_true.1 blank)
  rwa [List.append_nil] at dropped

/-- White space before a text does not count when it is trimmed. -/
theorem trim_blank_append {lead : Chars} (blank : isBlankText lead = true) (text : Chars) :
    trim (lead ++ text) = trim text := by
  unfold trim trimLeft
  rw [List.dropWhile_append_of_pos (List.all_eq_true.1 blank)]

/-- White space after a text does not count when it is trimmed. -/
theorem trim_append_blank (text : Chars) {trail : Chars} (blank : isBlankText trail = true) :
    trim (text ++ trail) = trim text := by
  have right (kept : Chars) : trimRight (kept ++ trail) = trimRight kept := by
    unfold trimRight
    rw [List.reverse_append, List.dropWhile_append_of_pos fun c member =>
      List.all_eq_true.1 blank c (List.mem_reverse.1 member)]
  unfold trim
  cases kept : trimLeft text with
  | nil =>
    have all : trimLeft (text ++ trail) = trimLeft trail := by
      unfold trimLeft at *
      simp [List.dropWhile_append, kept]
    rw [all, trimLeft_of_blank blank]
  | cons c rest =>
    have some : trimLeft (text ++ trail) = trimLeft text ++ trail := by
      unfold trimLeft at *
      simp [List.dropWhile_append, kept]
    rw [some, kept, right]

/-- The ink of a text is its first word and the ink of what follows that. -/
theorem squeeze_eq_firstWord (text : Chars) :
    squeeze text = firstWord text ++ squeeze ((trimLeft text).dropWhile (!isBlank ·)) := by
  have word : squeeze (firstWord text) = firstWord text := by
    refine squeeze_of_inked ?_
    intro c member
    simpa using List.all_eq_true.1 List.all_takeWhile c member
  calc squeeze text = squeeze (trimLeft text) := (squeeze_trimLeft text).symm
    _ = squeeze (firstWord text ++ (trimLeft text).dropWhile (!isBlank ·)) := by
      rw [firstWord, List.takeWhile_append_dropWhile]
    _ = firstWord text ++ squeeze ((trimLeft text).dropWhile (!isBlank ·)) := by
      rw [squeeze_append, word]

/-! ## Lines -/

theorem joinLines_cons (line : Chars) (lines : List Chars) :
    joinLines (line :: lines) = line ++ '\n' :: joinLines lines := by
  simp [joinLines, List.flatMap_cons]

theorem joinLines_append (a b : List Chars) :
    joinLines (a ++ b) = joinLines a ++ joinLines b :=
  List.flatMap_append

theorem squeeze_joinLines (lines : List Chars) :
    squeeze (joinLines lines) = lines.flatMap squeeze := by
  unfold joinLines
  simp

theorem splitLines_ne_nil (text : Chars) : splitLines text ≠ [] := by
  cases text with
  | nil => simp [splitLines]
  | cons c rest =>
    unfold splitLines
    split
    · simp
    · unfold pushFirst
      split <;> simp

/-- A text is its first line, and the others each behind a line feed. -/
theorem eq_of_splitLines {text first : Chars} {rest : List Chars}
    (split : splitLines text = first :: rest) : text = first ++ rest.flatMap ('\n' :: ·) := by
  induction text generalizing first rest with
  | nil =>
    cases split
    rfl
  | cons c tail ih =>
    unfold splitLines at split
    split at split
    · next feed =>
      obtain ⟨rfl, rfl⟩ := List.cons.inj split
      cases found : splitLines tail with
      | nil => exact absurd found (splitLines_ne_nil tail)
      | cons line lines =>
        rw [ih found, feed]
        simp
    · cases found : splitLines tail with
      | nil => exact absurd found (splitLines_ne_nil tail)
      | cons line lines =>
        rw [found, pushFirst] at split
        obtain ⟨rfl, rfl⟩ := List.cons.inj split
        rw [ih found, List.cons_append]

theorem squeeze_splitLines (text : Chars) : (splitLines text).flatMap squeeze = squeeze text := by
  induction text with
  | nil => rfl
  | cons c rest ih =>
    unfold splitLines
    split
    · next feed =>
      rw [feed, List.flatMap_cons, ih, squeeze_lineFeed, squeeze_nil, List.nil_append]
    · cases split : splitLines rest with
      | nil => exact absurd split (splitLines_ne_nil rest)
      | cons first more =>
        rw [split, List.flatMap_cons] at ih
        rw [pushFirst, List.flatMap_cons, squeeze_cons c first, squeeze_cons c rest, ← ih,
          List.append_assoc]

theorem exists_eq_takeWhile_lineFeed {text : Chars} (several : '\n' ∈ text) :
    ∃ rest, text = text.takeWhile (· != '\n') ++ '\n' :: rest := by
  induction text with
  | nil => cases several
  | cons c tail ih =>
    by_cases feed : c = '\n'
    · exact ⟨tail, by simp [feed]⟩
    · obtain ⟨rest, found⟩ := ih (by simpa [Ne.symm feed] using several)
      refine ⟨rest, ?_⟩
      rw [List.takeWhile_cons_of_pos (by simpa using feed), List.cons_append, ← found]

/-- A text of several lines is what precedes its last line feed, and the last line. -/
theorem splitLastLine_spec {text head last : Chars} (split : splitLastLine text = some (head, last)) :
    text = head ++ '\n' :: last := by
  unfold splitLastLine at split
  simp only at split
  split at split
  · next several =>
    cases split
    -- Seen from the end, the last line runs up to the first line feed.
    have feed : '\n' ∈ text.reverse := by simpa [isMultiline] using several
    obtain ⟨rest, whole⟩ := exists_eq_takeWhile_lineFeed feed
    have forward : text = rest.reverse ++ '\n' :: (text.reverse.takeWhile (· != '\n')).reverse := by
      have reversed := congrArg List.reverse whole
      simpa using reversed
    generalize (text.reverse.takeWhile (· != '\n')).reverse = last at forward ⊢
    have length : text.length - last.length - 1 = rest.reverse.length := by
      rw [forward]
      simp
      omega
    rw [length, forward, List.take_left]
  · cases split

/-! ## Echoes -/

/-- An echo in canonical form has the ink of its delimiters and of its body. -/
@[simp]
theorem squeeze_formatEcho (style : EchoStyle) (body : Chars) :
    squeeze (formatEcho style body) = style.opener ++ squeeze body ++ style.closer := by
  unfold formatEcho
  split
  · simp
  · simp only
    split
    · next empty =>
      have none : squeeze body = [] := by
        rw [← squeeze_trim, List.isEmpty_iff.1 empty, squeeze_nil]
      simp [none]
    · simp

theorem startOf_of_echoToNormalize {previous : Option Char} {text : Chars} {style : EchoStyle}
    (found : echoToNormalize previous text = some style) : EchoStyle.startOf text = some style := by
  unfold echoToNormalize at found
  split at found
  · cases found
  · exact found

/-- A text that starts with an echo is its opening delimiter and what follows that. -/
theorem opener_split {style : EchoStyle} {c : Char} {rest : Chars}
    (starts : EchoStyle.startOf (c :: rest) = some style) :
    c :: rest = style.opener ++ rest.drop (style.width - 1) := by
  obtain ⟨after, text⟩ := startOf_spec starts
  have dropped := congrArg (List.drop style.width) text
  obtain ⟨width, h⟩ := Nat.exists_eq_succ_of_ne_zero (Nat.ne_of_gt style.width_pos)
  rw [← style.length_opener, List.drop_left, style.length_opener, h, List.drop_succ_cons] at dropped
  rw [text, ← dropped, h, Nat.succ_sub_one]

/-- A text that starts with an echo, cut at the delimiters of the echo. -/
theorem echo_split {style : EchoStyle} {c : Char} {rest : Chars} {length : Nat}
    (starts : EchoStyle.startOf (c :: rest) = some style)
    (found : findDelimiter style.closer (rest.drop (style.width - 1)) = some length) :
    c :: rest = style.opener ++ (rest.drop (style.width - 1)).take length ++ style.closer ++
      (rest.drop (style.width - 1)).drop (length + style.width) := by
  rw [opener_split starts]
  generalize rest.drop (style.width - 1) = after at found ⊢
  obtain ⟨_, later, closer⟩ := findDelimiter_spec found
  have tail : after.drop (length + style.width) = later := by
    rw [← List.drop_drop, closer, ← style.length_closer, List.drop_left]
  rw [tail, List.append_assoc, List.append_assoc, ← closer, List.take_append_drop]

/-- Normalizing echoes changes no ink. -/
theorem squeeze_normalizeEchoesAfter (previous : Option Char) (text : Chars) :
    squeeze (normalizeEchoesAfter previous text) = squeeze text := by
  induction previous, text using normalizeEchoesAfter.induct with
  | case1 previous => simp [normalizeEchoesAfter]
  | case2 previous c rest none ih =>
    unfold normalizeEchoesAfter
    simp only [none]
    rw [squeeze_cons, ih, ← squeeze_cons]
  | case3 previous c rest style starts body unclosed =>
    unfold normalizeEchoesAfter
    simp only [starts]
    rw [show findDelimiter style.closer (rest.drop (style.width - 1)) = none from unclosed]
  | case4 previous c rest style starts body length closed ih =>
    unfold normalizeEchoesAfter
    simp only [starts]
    rw [show findDelimiter style.closer (rest.drop (style.width - 1)) = some length from closed]
    simp only
    rw [squeeze_append, ih, squeeze_formatEcho]
    rw [echo_split (startOf_of_echoToNormalize starts) closed]
    simp [body]

@[simp]
theorem squeeze_normalizeEchoes (value : Chars) :
    squeeze (normalizeEchoes value) = squeeze value :=
  squeeze_normalizeEchoesAfter none value

end BladeTemplate.Text

namespace BladeTemplate.Node

/-- A blank text leaves no mark. -/
theorem marks_of_isBlank (sort : Bool) {node : Node} (blank : node.isBlank = true) :
    node.marks sort = [] := by
  cases node with
  | text location content =>
    have nothing : Text.squeeze content = [] := Text.squeeze_of_blank blank
    simp [marks, nothing]
  | _ => simp [isBlank] at blank

end BladeTemplate.Node
