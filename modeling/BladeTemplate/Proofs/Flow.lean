import BladeTemplate.Proofs.Draft

/-!
# Flows

To the reader, a draft is an alternation of plain text and constructs: all that stands between two
constructs is one text, whatever lines it is made of.

* `Flow` is that alternation, and `Draft.flow` the one of a draft;
* `Flow.Fits` is what is known about the text before, between and after constructs;
* `Draft.text_flow` says that a draft and its flow are the same template.
-/

namespace BladeTemplate

open Text

/-- Plain text and constructs in turn. -/
inductive Flow where
  | plain (gap : Chars)
  | echo (gap : Chars) (braced : Interpolation) (rest : Flow)
  | element (gap : Chars) (tag : TagName) (inside rest : Flow)
  | block (gap : Chars) (opening : Opening) (inside rest : Flow)
  | otherwise (gap : Chars) (rest : Flow)

namespace Flow

/-- The template of a flow. -/
def text : Flow → Chars
  | .plain gap => gap
  | .echo gap braced rest => gap ++ braced.text ++ rest.text
  | .element gap tag inside rest =>
    gap ++ tag.opening ++ inside.text ++ tag.closing ++ rest.text
  | .block gap opening inside rest =>
    gap ++ opening.text ++ inside.text ++ opening.keyword.closing ++ rest.text
  | .otherwise gap rest => gap ++ otherwiseText ++ rest.text

/-- A text next to constructs: a `fresh` one has none before it, a `followed` one has one after it.
The line of a construct is otherwise blank, and no two constructs share one. -/
structure Fits (fresh followed : Bool) (gap : Chars) : Prop where
  plain : ∀ c ∈ gap, isPlain c = true
  starts : fresh = false → ∀ c, gap.head? = some c → isBlank c = true
  ends : followed = true → ∀ c, gap.getLast? = some c → isBlank c = true
  breaks : fresh = false → followed = true → '\n' ∈ gap

/-- Every text of a flow fits between its neighbours. -/
def Readable (fresh followed : Bool) : Flow → Prop
  | .plain gap => Fits fresh followed gap
  | .echo gap _ rest => Fits fresh true gap ∧ rest.Readable false followed
  | .element gap _ inside rest | .block gap _ inside rest =>
    Fits fresh true gap ∧ inside.Readable false true ∧ rest.Readable false followed
  | .otherwise gap rest => Fits fresh true gap ∧ rest.Readable false followed

end Flow

/-- The last text of a flow, from the lines it is made of: up to the lead of the construct that
follows or, at the end of a template, without the last line feed. -/
def finish (final : Option Space) (gap : Chars) : Chars :=
  match final with
  | none => gap.dropLast
  | some lead => gap ++ lead.text

namespace Draft

/-- The flow of a draft after the lines of `gap`, the first of which may be the end of a construct's
line. -/
def flow (final : Option Space) (gap : Chars) : Draft → Flow
  | .done => .plain (finish final gap)
  | .blank space rest => rest.flow final (gap ++ space.text ++ ['\n'])
  | .text margin phrase rest => rest.flow final (gap ++ margin.around phrase.text ++ ['\n'])
  | .echo margin braced rest =>
    .echo (gap ++ margin.lead.text) braced (rest.flow final (margin.trail.text ++ ['\n']))
  | .element start tag inside stop rest =>
    .element (gap ++ start.lead.text) tag
      (inside.flow (some stop.lead) (start.trail.text ++ ['\n']))
      (rest.flow final (stop.trail.text ++ ['\n']))
  | .block start opening inside stop rest =>
    .block (gap ++ start.lead.text) opening
      (inside.flow (some stop.lead) (start.trail.text ++ ['\n']))
      (rest.flow final (stop.trail.text ++ ['\n']))
  | .otherwise margin rest =>
    .otherwise (gap ++ margin.lead.text) (rest.flow final (margin.trail.text ++ ['\n']))

theorem finish_append (final : Option Space) (before : Chars) {gap : Chars} (some : gap ≠ []) :
    finish final (before ++ gap) = before ++ finish final gap := by
  cases final with
  | none => exact List.dropLast_append_of_ne_nil some
  | some lead => exact List.append_assoc ..

/-- A draft and its flow are the same template. -/
theorem text_flow (draft : Draft) (final : Option Space) (gap : Chars) :
    (draft.flow final gap).text = finish final (gap ++ joinLines draft.lines) := by
  induction draft generalizing final gap with
  | done => simp [flow, Flow.text, lines, joinLines]
  | blank space rest ih | text margin phrase rest ih =>
    simp [flow, ih, lines, joinLines_cons]
  | echo margin braced rest ih | otherwise margin rest ih =>
    simp only [flow, Flow.text, ih, lines, joinLines_cons, Margin.around]
    -- What follows on the line of a construct is never empty.
    rw [← finish_append _ _ (by simp)]
    simp
  | element start tag inside stop rest ihInside ih
  | block start opening inside stop rest ihInside ih =>
    simp only [flow, Flow.text, ihInside, ih, lines, joinLines_cons, joinLines_append, Margin.around,
      List.cons_append]
    rw [← finish_append _ _ (by simp)]
    simp [finish]

end Draft

/-! ## Gaps between constructs -/

theorem isPlain_of_isBlank {c : Char} (blank : isBlank c = true) : isPlain c = true := by
  have signs : isBlank '@' = false ∧ isBlank '{' = false ∧ isBlank '<' = false := by decide
  unfold isPlain
  simp only [ne_eq, Bool.and_eq_true, decide_eq_true_eq]
  refine ⟨⟨?_, ?_⟩, ?_⟩ <;> rintro rfl <;> simp_all

/-- Lines before the next construct: the first one may be the end of a construct's line. -/
structure Interlude (fresh : Bool) (gap : Chars) : Prop where
  plain : ∀ c ∈ gap, isPlain c = true
  starts : fresh = false → ∀ c, gap.head? = some c → isBlank c = true
  lines : gap = [] ∧ fresh = true ∨ ∃ before, gap = before ++ ['\n']

namespace Interlude

variable {fresh : Bool} {gap : Chars}

theorem start : Interlude true [] := ⟨by simp, by simp, .inl ⟨rfl, rfl⟩⟩

/-- The end of a construct's line. -/
theorem trail (space : Space) : Interlude false (space.text ++ ['\n']) := by
  have blank : ∀ c ∈ space.text ++ ['\n'], isBlank c = true := by
    intro c member
    rcases List.mem_append.1 member with inSpace | last
    · exact (space.blank c inSpace).1
    · rw [List.mem_singleton.1 last]
      decide
  refine ⟨fun c member => isPlain_of_isBlank (blank c member), ?_, .inr ⟨_, rfl⟩⟩
  intro _ c first
  exact blank c (List.mem_of_mem_head? first)

/-- After a construct there is at least the end of its line. -/
theorem eq_line (opened : Interlude fresh gap) (notFresh : fresh = false) :
    ∃ before, gap = before ++ ['\n'] := by
  rcases opened.lines with ⟨_, isFresh⟩ | ended
  · rw [notFresh] at isFresh
    cases isFresh
  · exact ended

theorem head?_append (opened : Interlude fresh gap) (notFresh : fresh = false) (more : Chars) :
    (gap ++ more).head? = gap.head? := by
  obtain ⟨before, rfl⟩ := opened.eq_line notFresh
  cases before <;> rfl

/-- One more line. -/
theorem line (opened : Interlude fresh gap) {line : Chars} (plain : ∀ c ∈ line, isPlain c = true) :
    Interlude fresh (gap ++ line ++ ['\n']) := by
  refine ⟨?_, ?_, .inr ⟨_, rfl⟩⟩
  · intro c member
    simp only [List.mem_append, List.mem_singleton] at member
    rcases member with (before | inLine) | rfl
    · exact opened.plain c before
    · exact plain c inLine
    · decide
  · intro notFresh c first
    rw [List.append_assoc, opened.head?_append notFresh] at first
    exact opened.starts notFresh c first

theorem blankLine (opened : Interlude fresh gap) (space : Space) :
    Interlude fresh (gap ++ space.text ++ ['\n']) :=
  opened.line fun c member => isPlain_of_isBlank (space.blank c member).1

theorem phraseLine (opened : Interlude fresh gap) (margin : Margin) (phrase : Phrase) :
    Interlude fresh (gap ++ margin.around phrase.text ++ ['\n']) := by
  refine opened.line ?_
  intro c member
  simp only [Margin.around, List.mem_append] at member
  rcases member with (lead | inPhrase) | trail
  · exact isPlain_of_isBlank (margin.lead.blank c lead).1
  · exact (phrase.plain c inPhrase).2
  · exact isPlain_of_isBlank (margin.trail.blank c trail).1

/-- The lines and the lead of the construct after them. -/
theorem fits_lead (opened : Interlude fresh gap) (lead : Space) :
    Flow.Fits fresh true (gap ++ lead.text) := by
  refine ⟨?_, ?_, ?_, ?_⟩
  · intro c member
    rcases List.mem_append.1 member with before | inLead
    · exact opened.plain c before
    · exact isPlain_of_isBlank (lead.blank c inLead).1
  · intro notFresh c first
    rw [opened.head?_append notFresh] at first
    exact opened.starts notFresh c first
  · intro _ c last
    -- The last character is that of the lead or, if there is no lead, a line feed.
    rcases List.mem_append.1 (List.mem_of_getLast? last) with _ | inLead
    · rw [List.getLast?_append] at last
      cases atEnd : lead.text.getLast? with
      | some d =>
        simp only [atEnd, Option.some_or, Option.some.injEq] at last
        rw [← last]
        exact (lead.blank d (List.mem_of_getLast? atEnd)).1
      | none =>
        simp only [atEnd, Option.none_or] at last
        rcases opened.lines with ⟨rfl, _⟩ | ⟨before, rfl⟩
        · simp at last
        · simp only [List.getLast?_append, List.getLast?_singleton, Option.some_or,
            Option.some.injEq] at last
          rw [← last]
          decide
    · exact (lead.blank c inLead).1
  · intro notFresh _
    obtain ⟨before, rfl⟩ := opened.eq_line notFresh
    simp

/-- The last lines of a flow. -/
theorem fits_finish (opened : Interlude fresh gap) (final : Option Space) :
    Flow.Fits fresh final.isSome (finish final gap) := by
  cases final with
  | some lead => exact opened.fits_lead lead
  | none =>
    refine ⟨?_, ?_, ?_, ?_⟩
    · intro c member
      exact opened.plain c ((List.dropLast_sublist gap).mem member)
    · intro notFresh c first
      refine opened.starts notFresh c ?_
      rcases opened.lines with ⟨rfl, _⟩ | ⟨before, rfl⟩
      · exact first
      · simp only [finish, List.dropLast_concat] at first
        simp [first]
    · intro followed
      cases followed
    · intro _ followed
      cases followed

end Interlude

/-- Every text of the flow of a draft fits between its neighbours. -/
theorem Draft.readable_flow (draft : Draft) {fresh : Bool} {gap : Chars}
    (opened : Interlude fresh gap) (final : Option Space) :
    (draft.flow final gap).Readable fresh final.isSome := by
  induction draft generalizing fresh gap final with
  | done => exact opened.fits_finish final
  | blank space rest ih => exact ih (opened.blankLine space) final
  | text margin phrase rest ih => exact ih (opened.phraseLine margin phrase) final
  | echo margin braced rest ih | otherwise margin rest ih =>
    exact ⟨opened.fits_lead _, ih (.trail margin.trail) final⟩
  | element start tag inside stop rest ihInside ih
  | block start opening inside stop rest ihInside ih =>
    exact ⟨opened.fits_lead _, ihInside (.trail start.trail) (some stop.lead),
      ih (.trail stop.trail) final⟩

end BladeTemplate
