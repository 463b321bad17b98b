import BladeTemplate.Proofs.Outline
import BladeTemplate.Proofs.Printed

/-!
# Lines of canonical output

Between two lines, the state of the output is known from the lines so far, the level, whether
something has been written at this level, and how many blank lines have been asked for.

* `Lines.between` is that state, and the lemmas after it say how each request changes it;
* `Page.Reaches` follows a text line by line up to the construct behind it;
* `Lines.Settled` is what is known at the end of a scope.
-/

namespace BladeTemplate

open Text

/-! ## Lines of texts -/

namespace Text

theorem splitLines_of_single {line : Chars} (single : '\n' ∉ line) : splitLines line = [line] := by
  induction line with
  | nil => rfl
  | cons c rest ih =>
    have head : c ≠ '\n' := fun same => single (by simp [same])
    rw [splitLines, if_neg head, ih fun member => single (List.mem_cons_of_mem c member)]
    rfl

theorem splitLines_append {line : Chars} (single : '\n' ∉ line) (rest : Chars) :
    splitLines (line ++ '\n' :: rest) = line :: splitLines rest := by
  induction line with
  | nil => rfl
  | cons c more ih =>
    have head : c ≠ '\n' := fun same => single (by simp [same])
    rw [List.cons_append, splitLines, if_neg head,
      ih fun member => single (List.mem_cons_of_mem c member)]
    rfl

/-- A line feed at the end starts one more piece. -/
theorem splitLines_concat (text : Chars) :
    splitLines (text ++ ['\n']) = splitLines text ++ [[]] := by
  induction text with
  | nil => rfl
  | cons c rest ih =>
    rw [List.cons_append, splitLines, splitLines, ih]
    split
    · rfl
    · cases found : splitLines rest with
      | nil => exact absurd found (splitLines_ne_nil rest)
      | cons first more => rfl

end Text

namespace Space

theorem single (space : Space) : '\n' ∉ space.text := fun member => (space.blank _ member).2 rfl

theorem isBlankText (space : Space) : Text.isBlankText space.text = true :=
  List.all_eq_true.2 fun c member => (space.blank c member).1

end Space

namespace Phrase

theorem single_around (phrase : Phrase) (margin : Margin) :
    '\n' ∉ margin.around phrase.text := by
  have inPhrase : '\n' ∉ phrase.text := fun member => (phrase.plain _ member).1 rfl
  simp [Margin.around, margin.lead.single, margin.trail.single, inPhrase]

theorem isBlankText_around (phrase : Phrase) (margin : Margin) :
    isBlankText (margin.around phrase.text) = false := by
  rw [← Bool.not_eq_true, ← squeeze_eq_nil_iff]
  simp [Margin.around, phrase.inked]

end Phrase

/-! ## Between two lines -/

namespace Lines

/-- Output between two lines. -/
def between (config : Config) (rows : List Chars) (level : Nat) (opened : Bool) (asked : Nat) :
    Lines where
  unit := config.indentUnit
  maxBlank := config.preserveBlankLines
  done := rows.reverse
  level := level
  pendingBlank := if opened then asked else 0
  scopeStart := !opened

variable {config : Config} {rows : List Chars} {level : Nat} {opened : Bool} {asked : Nat}
  {out : Lines}

@[simp]
theorem newline_between :
    (between config rows level opened asked).newline = between config rows level opened asked := rfl

@[simp]
theorem space_between :
    (between config rows level opened asked).space = between config rows level opened asked := rfl

theorem blank_between (count : Nat) :
    (between config rows level opened 0).blank count = between config rows level opened count := by
  unfold blank between
  cases opened with
  | false => simp
  | true => cases count <;> simp

@[simp]
theorem indent_between :
    (between config rows level opened asked).indent = between config rows (level + 1) false 0 := rfl

@[simp]
theorem dedent_between :
    (between config rows level opened asked).dedent = between config rows (level - 1) false 0 := rfl

@[simp]
theorem newline_space : out.space.newline = out.newline := by
  unfold space
  split
  · rfl
  · next started =>
    unfold newline atLineStart at *
    simp [started]

/-- A text without line feed is a fragment. -/
theorem raw_of_single {text : Chars} (single : '\n' ∉ text) : out.raw text = out.append text := by
  unfold raw
  rw [splitLines_of_single single]

/-- A fragment that has a line of its own. -/
theorem newline_append_between {fragment : Chars} (nonempty : fragment ≠ [])
    (written : opened = true → rows ≠ []) :
    ((between config rows level opened asked).append fragment).newline =
      between config
        (rows ++ (List.replicate (config.kept opened asked) [] ++
          [(config.margin level).around fragment])) level true 0 := by
  have due : (between config rows level opened asked).dueBlanks =
      List.replicate (config.kept opened asked) [] := by
    unfold dueBlanks between Config.kept
    cases opened with
    | false => simp
    | true => simp [written rfl]
  have started : (Text.replicate level config.indentUnit ++ fragment).isEmpty = false := by
    simpa using fun _ => nonempty
  unfold append
  rw [due]
  simp only [List.isEmpty_iff, nonempty, if_false]
  simp [between, atLineStart, newline, started, Config.indent, Config.margin, Margin.around,
    Space.none]

/-- Output at the end of a scope, whether or not its last line is finished. -/
structure Settled (config : Config) (rows : List Chars) (level : Nat) (out : Lines) : Prop where
  unit : out.unit = config.indentUnit
  maxBlank : out.maxBlank = config.preserveBlankLines
  level : out.level = level
  done : out.newline.done = rows.reverse

theorem settled_between : Settled config rows level (between config rows level opened asked) :=
  ⟨rfl, rfl, rfl, rfl⟩

theorem newline_eq :
    out.newline = { out with done := out.newline.done, current := [], pendingSpace := false } := by
  unfold newline atLineStart
  split
  · next started => simp [List.isEmpty_iff.1 started]
  · rfl

theorem blank_eq (count : Nat) :
    out.blank count = { out with pendingBlank := (out.blank count).pendingBlank } := by
  unfold blank
  split <;> rfl

/-- What is asked for at the end of a scope does not count. -/
theorem settled_blank_iff {count : Nat} :
    Settled config rows level (out.newline.blank count) ↔ Settled config rows level out := by
  rw [blank_eq, newline_eq]
  exact ⟨fun ⟨unit, maxBlank, level, done⟩ => ⟨unit, maxBlank, level, done⟩,
    fun ⟨unit, maxBlank, level, done⟩ => ⟨unit, maxBlank, level, done⟩⟩

/-- The scope ends, and with it all that is asked for. -/
theorem Settled.dedent_newline (settled : Settled config rows level out) :
    out.dedent.newline = between config rows (level - 1) false 0 := by
  have done : out.dedent.newline.done = rows.reverse := by
    rw [← settled.done]
    unfold newline atLineStart
    split <;> simp_all [dedent]
  rw [newline_eq, done]
  simp [dedent, between, settled.unit, settled.maxBlank, settled.level]

end Lines

/-! ## Texts -/

namespace Page

variable {config : Config} {rows : List Chars} {level passed : Nat} {opened : Bool}
  {out mid : Lines} {gap : Chars}

theorem printSegment_of_blank {segment : Chars} (blank : isBlankText segment = true) :
    printSegment segment out = if segment.isEmpty then out else out.space := by
  have trimmed : trim segment = [] := by
    rw [trim, trimLeft_of_blank blank]
    rfl
  unfold printSegment
  simp only [trimmed, List.isEmpty_nil, if_true]

/-- White space at the end of a line leaves no trace on it. -/
theorem newline_printSegment (space : Space) :
    (printSegment space.text out).newline = out.newline := by
  rw [printSegment_of_blank space.isBlankText]
  split
  · rfl
  · exact Lines.newline_space

theorem newline_printSegment_between (space : Space) {asked : Nat} :
    (printSegment space.text (.between config rows level opened asked)).newline =
      .between config rows level opened asked :=
  newline_printSegment space

/-- A phrase on a line of its own. -/
theorem newline_printSegment_around (margin : Margin) (phrase : Phrase) {asked : Nat}
    (written : opened = true → rows ≠ []) :
    (printSegment (margin.around phrase.text)
        (.between config rows level opened asked)).newline =
      .between config
        (rows ++ (List.replicate (config.kept opened asked) [] ++
          [(config.margin level).around phrase.text])) level true 0 := by
  have trimmed : trim (margin.around phrase.text) = phrase.text := by
    unfold Margin.around
    rw [trim_append_blank _ margin.trail.isBlankText, trim_blank_append margin.lead.isBlankText,
      phrase.trimmed]
  have line := @Lines.newline_append_between config rows level opened asked _ phrase.nonempty
    written
  unfold printSegment
  simp only [trimmed, List.isEmpty_iff, phrase.nonempty, if_false, Lines.space_between, ite_self]
  split
  · rw [Lines.newline_space, line]
  · exact line

/-- Before the first line of a scope, no line break counts. -/
theorem printSegments_start (segments : List Chars) (breaks : Nat) :
    printSegments breaks segments (.between config rows level false 0) =
      printSegments 0 segments (.between config rows level false 0) := by
  have ask (count : Nat) := @Lines.blank_between config rows level false count
  induction segments generalizing breaks with
  | nil =>
    simp only [printSegments, if_true, Lines.newline_between, ask]
    split <;> rfl
  | cons segment rest ih =>
    simp only [printSegments, Lines.newline_between, ask]
    split
    · rw [ih, ih (0 + 1)]
    · rfl

/-- Printing a text that starts with `gap` comes past it to the given output, with so many line
breaks passed since the last line that was not blank. -/
def Reaches (out : Lines) (gap : Chars) (passed : Nat) (mid : Lines) : Prop :=
  ∀ rest, printText (gap ++ rest) out = printSegments passed (splitLines rest) mid

namespace Reaches

theorem start : Reaches (.between config rows level false 0) [] 0
    (.between config rows level false 0) := by
  intro rest
  unfold printText
  rw [List.nil_append]
  split
  · next none => exact absurd none (splitLines_ne_nil rest)
  · next first more found =>
    rw [found, printSegments]
    split
    · next blank =>
      rw [printSegments_start _ (0 + 1), printSegment_of_blank blank, Lines.space_between, ite_self]
    · rfl

/-- The end of a construct's line. -/
theorem trail (space : Space) :
    Reaches out (space.text ++ ['\n']) 0 (printSegment space.text out) := by
  intro rest
  unfold printText
  rw [List.append_assoc, List.singleton_append, splitLines_append space.single]

theorem blankLine (reaches : Reaches out gap passed mid) (space : Space) :
    Reaches out (gap ++ space.text ++ ['\n']) (passed + 1) mid := by
  intro rest
  rw [List.append_assoc, List.append_assoc, List.singleton_append, reaches,
    splitLines_append space.single, printSegments, if_pos space.isBlankText]

theorem phraseLine (reaches : Reaches out gap passed mid) (margin : Margin) (phrase : Phrase) :
    Reaches out (gap ++ margin.around phrase.text ++ ['\n']) 0
      (printSegment (margin.around phrase.text) (mid.newline.blank passed)) := by
  intro rest
  rw [List.append_assoc, List.append_assoc, List.singleton_append, reaches,
    splitLines_append (phrase.single_around margin), printSegments,
    if_neg (by simp [phrase.isBlankText_around margin])]

/-- Up to the lead of the next construct. -/
theorem lead (reaches : Reaches out gap passed mid) (space : Space) :
    printText (gap ++ space.text) out = mid.newline.blank passed := by
  rw [reaches, splitLines_of_single space.single, printSegments, if_pos space.isBlankText]
  rfl

/-- The last line break of a template may be missing. -/
theorem settled_printSegments {segments : List Chars} {breaks : Nat}
    (settled : Lines.Settled config rows level (printSegments breaks (segments ++ [[]]) out)) :
    Lines.Settled config rows level (printSegments breaks segments out) := by
  induction segments generalizing breaks out with
  | nil =>
    have last := Lines.settled_blank_iff.1 settled
    rw [printSegments]
    split
    · exact last
    · exact Lines.settled_blank_iff.2 last
  | cons segment rest ih =>
    rw [List.cons_append, printSegments] at settled
    rw [printSegments]
    split
    · next blank =>
      rw [if_pos blank] at settled
      exact ih settled
    · next inked =>
      rw [if_neg inked] at settled
      exact ih settled

/-- Up to the end of the scope. -/
theorem settled_finish (reaches : Reaches out gap passed mid) {fresh : Bool}
    (interlude : Interlude fresh gap) (between : mid.newline = .between config rows level opened 0)
    (final : Option Space) :
    Lines.Settled config rows level (printText (finish final gap) out) := by
  have ended (space : Space) :
      Lines.Settled config rows level (printText (gap ++ space.text) out) := by
    rw [reaches.lead, between, Lines.blank_between]
    exact Lines.settled_between
  cases final with
  | some lead => exact ended lead
  | none =>
    rcases interlude.lines with ⟨rfl, _⟩ | ⟨before, rfl⟩
    · exact ended .none
    -- The last line feed of the lines is not part of the template: it would only ask for a line.
    · have last := ended .none
      rw [Space.none, List.append_nil, printText, splitLines_concat] at last
      rw [finish, List.dropLast_concat, printText]
      cases found : splitLines before with
      | nil => exact absurd found (splitLines_ne_nil before)
      | cons first more =>
        rw [found] at last
        exact settled_printSegments last

end Reaches

end Page

end BladeTemplate
