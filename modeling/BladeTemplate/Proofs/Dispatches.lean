import BladeTemplate.Proofs.Locality

/-!
# How many steps reading takes

Some steps read nothing: they open a mode, put one in place of another, or close one that has
nothing to read. Each of them draws on a reserve, which is never more than four. Where it is four
and an idle step leaves three, that step has closed an empty body in front of its end tag, and the
end tag is read next. So of three steps in a row one at least reads something.

* `ScanState.Dispatches` is one turn of the loop over the modes, before the end of the text;
* `ScanState.reserve` is what idle turns draw on, and `ScanState.length_lt_of_three` says that three
  turns in a row are not all idle;
* `ScanState.runWithin` and `scanWithin` are the loop with a limit on its turns;
* `scan_terminates` bounds the turns that reading a template takes.
-/

namespace BladeTemplate

open Text Lookahead

namespace ScanState

/-- One turn of the loop: before the end of the text, a step that goes on. -/
def Dispatches (dialect : Dialect) (s next : ScanState) : Prop :=
  s.rest ≠ [] ∧ (s.step dialect).next = .ok next

/-- The work ahead that is not due to characters. -/
def reserve (s : ScanState) : Nat :=
  debts s.modes + topRank s.modes

variable {dialect : Dialect} {source : Chars} {s t next : ScanState}

/-! ## Turns never go back -/

theorem Moves.rest_suffix (moves : s.Moves t) : t.rest <:+ s.rest := by
  induction moves with
  | stay => exact List.suffix_refl _
  | skip length _ ih => exact (List.drop_suffix length _).trans ih
  | push mode _ ih => exact ih
  | pop _ ih => exact ih
  | become mode _ ih => rwa [rest_become]

theorem On.offset_add_length (on : s.On source) : s.offset + s.rest.length = source.length := by
  have bound := on.bound
  rw [on.rest, List.length_drop]
  omega

theorem Dispatches.reached (turn : s.Dispatches dialect next)
    (reached : s.Reached dialect source) : next.Reached dialect source :=
  .step reached turn.1 turn.2

theorem Dispatches.length_le (turn : s.Dispatches dialect next) :
    next.rest.length ≤ s.rest.length :=
  (moves_step turn.2).rest_suffix.length_le

/-! ## Idle turns -/

/-- A turn that reads nothing draws on the reserve. -/
theorem Dispatches.reserve_lt (turn : s.Dispatches dialect next)
    (idle : next.rest.length = s.rest.length) : next.reserve < s.reserve := by
  have lower := work_lt_of_step turn.1 turn.2
  unfold work at lower
  unfold reserve
  omega

theorem Stands.reserve_bounds {place : Place} (stands : s.Stands place) :
    0 < s.reserve ∧ s.reserve ≤ 4 := by
  cases stands with
  | text modes | rawEnd modes | directiveHead modes | arguments modes | echo modes | comment modes
  | tagStart modes | verbatim modes | rawCode modes | rawText modes | tag modes | tagEcho modes
  | tagComment modes | value modes =>
    simp [reserve, modes, debts, topRank, Mode.debt, Mode.rank]

/-- Plain text that starts with an end tag is read at once: there is no run of text in front of it,
and the end tag is no mode of its own. -/
theorem Dispatches.length_lt_of_endTag (turn : s.Dispatches dialect next) (inText : s.modes = [])
    {rest : Chars} (endTag : s.rest = '<' :: '/' :: rest) :
    next.rest.length < s.rest.length := by
  obtain ⟨ahead, goes⟩ := turn
  have some_ := List.length_pos_iff.2 ahead
  unfold step at goes
  rw [inText] at goes
  simp only [stepText] at goes
  split at goes
  · -- No text: the step is that of the end tag.
    have construct : s.stepConstruct = s.stepEndTag := by
      simp [stepConstruct, endTag, startsWith, commentOpener]
    rw [construct, stepEndTag, takeThrough] at goes
    split at goes
    · cases goes
      simp only [rest_skip, List.length_drop]
      omega
    · cases goes
  · next positive =>
    have read : ((s.skip (textRunLength s.previous s.rest)).rest).length < s.rest.length := by
      rw [rest_skip, List.length_drop]
      omega
    split at goes
    · cases goes
      exact read
    · exact Nat.lt_of_le_of_lt (moves_stepConstruct goes).rest_suffix.length_le read

/-- An idle turn that leaves three of four has closed the empty body of an element: its end tag is
next. After an attribute value there would be less, since a start tag is open. -/
theorem Stands.endTag_of_idle {place : Place} (stands : s.Stands place)
    (turn : s.Dispatches dialect next) (idle : next.rest.length = s.rest.length)
    (full : s.reserve = 4) (left : next.reserve = 3) :
    next.modes = [] ∧ ∃ rest, next.rest = '<' :: '/' :: rest := by
  obtain ⟨ahead, goes⟩ := turn
  cases stands with
  | text modes | rawEnd modes | directiveHead modes | arguments modes | echo modes | comment modes
  | tagStart modes | verbatim modes | rawCode modes | tag modes | tagEcho modes | tagComment modes =>
    simp [reserve, modes, debts, topRank, Mode.debt, Mode.rank] at full
  | value modes =>
    simp only [step, modes, stepValue] at goes
    split at goes
    · cases goes
    · cases goes
      simp [reserve, modes, debts, topRank, Mode.debt, Mode.rank] at left
  | rawText modes named =>
    simp only [step, modes, stepRawText] at goes
    split at goes
    · cases goes
    · next length found =>
      cases goes
      obtain ⟨bound, ends⟩ := rawTextLength_spec found
      simp only [rest_pop, rest_skip, List.length_drop] at idle
      obtain rfl : length = 0 := by omega
      obtain ⟨c, rest, endTag, _⟩ := endsRawText_spec named ends
      exact ⟨by simp [modes], c :: rest, endTag⟩

/-- Of three turns in a row, one reads something. -/
theorem length_lt_of_three {s₀ s₁ s₂ s₃ : ScanState} (reached : s₀.Reached dialect source)
    (first : s₀.Dispatches dialect s₁) (second : s₁.Dispatches dialect s₂)
    (third : s₂.Dispatches dialect s₃) : s₃.rest.length < s₀.rest.length := by
  by_contra notShorter
  have le₁ := first.length_le
  have le₂ := second.length_le
  have le₃ := third.length_le
  obtain ⟨-, place, stands₀⟩ := stands_of_reached reached
  obtain ⟨-, _, stands₃⟩ :=
    stands_of_reached (third.reached (second.reached (first.reached reached)))
  -- Four, three, two, one: there is no other way for the reserve to go down three times.
  have := first.reserve_lt (by omega)
  have := second.reserve_lt (by omega)
  have := third.reserve_lt (by omega)
  have := stands₀.reserve_bounds
  have := stands₃.reserve_bounds
  obtain ⟨inText, _, endTag⟩ :=
    stands₀.endTag_of_idle first (by omega) (by omega) (by omega)
  have := second.length_lt_of_endTag inText endTag
  omega

/-! ## The loop with a limit -/

/-- Read everything ahead in at most `limit` turns; nothing when they do not suffice. -/
def runWithin (dialect : Dialect) (limit : Nat) (s : ScanState) : Option Scan :=
  if s.rest = [] then some s.finish
  else
    match limit with
    | 0 => none
    | limit + 1 =>
      match (s.step dialect).next with
      | .error fault => some (.failed (s.step dialect) fault)
      | .ok next => (next.runWithin dialect limit).map (.after (s.step dialect))

/-- With one turn more, a run is what a step yields and the run after it, if there is one. -/
theorem runWithin_succ {limit : Nat}
    (later : ∀ next, s.Dispatches dialect next →
      next.runWithin dialect limit = some (next.run dialect)) :
    s.runWithin dialect (limit + 1) = some (s.run dialect) := by
  unfold runWithin
  split
  · next ended => rw [run_of_ended ended]
  · next ahead =>
    simp only
    split
    · next failed => rw [run_of_failed ahead failed]
    · next next goes => rw [run_of_stepped ahead goes, later next ⟨ahead, goes⟩, Option.map_some]

/-- Three turns for each character ahead suffice. -/
theorem Reached.runWithin_eq (reached : s.Reached dialect source) {limit : Nat}
    (enough : 3 * s.rest.length ≤ limit) :
    s.runWithin dialect limit = some (s.run dialect) := by
  induction size : s.rest.length using Nat.strongRecOn generalizing s limit with
  | ind length ih =>
    by_cases ended : s.rest = []
    · unfold runWithin
      rw [if_pos ended, run_of_ended ended]
    · have some_ := List.length_pos_iff.2 ended
      obtain ⟨rest, rfl⟩ := Nat.exists_eq_add_of_le' (show 3 ≤ limit by omega)
      refine runWithin_succ fun s₁ first => runWithin_succ fun s₂ second =>
        runWithin_succ fun s₃ third => ?_
      have shorter := length_lt_of_three reached first second third
      exact ih s₃.rest.length (by omega) (third.reached (second.reached (first.reached reached)))
        (by omega) rfl

end ScanState

/-- Read a whole template in at most `limit` turns of the loop. -/
def scanWithin (dialect : Dialect) (limit : Nat) (source : Chars) : Option Scan :=
  let s := ScanState.start source
  match if dialect.frontMatter then frontMatterLength source else none with
  | some length =>
    ((s.skip length).runWithin dialect limit).map
      (.after { s.take .frontMatter length with events := [.frontMatter length] })
  | none => s.runWithin dialect limit

/-- Three turns for each character of a template suffice. -/
theorem scanWithin_eq (dialect : Dialect) (source : Chars) {limit : Nat}
    (enough : 3 * source.length ≤ limit) :
    scanWithin dialect limit source = some (scan dialect source) := by
  unfold scanWithin scan
  cases front : (if dialect.frontMatter then frontMatterLength source else none) with
  | some length =>
    have shorter := (List.drop_suffix length source).length_le
    have enoughLeft : 3 * ((ScanState.start source).skip length).rest.length ≤ limit := by
      simp only [ScanState.rest_skip, ScanState.start]
      omega
    have later := (ScanState.Reached.front front).runWithin_eq enoughLeft
    simp only [later, Option.map_some]
  | none => exact (ScanState.Reached.start front).runWithin_eq enough

/-- Reading ends on every template and with every registry. No turn of the loop goes back or beyond
the end of the text, and of three turns in a row before the end one moves on, unless one of them
fails. So three turns for each character and three more suffice to reach the end of the template or
a fault. -/
theorem scan_terminates (dialect : Dialect) (source : Chars) :
    (∀ s : ScanState, s.Reached dialect source → s.offset ≤ source.length ∧
      ∀ next, s.Dispatches dialect next → s.offset ≤ next.offset) ∧
    (∀ s₀ s₁ s₂ s₃ : ScanState, s₀.Reached dialect source → s₀.Dispatches dialect s₁ →
      s₁.Dispatches dialect s₂ → s₂.Dispatches dialect s₃ →
      s₀.offset < s₁.offset ∨ s₁.offset < s₂.offset ∨ s₂.offset < s₃.offset) ∧
    ∃ result, scanWithin dialect (3 * (source.length + 1)) source = some result ∧
      result = scan dialect source ∧
      ((∃ fault, result.fault = some fault) ∨
        result.fault = none ∧ ∃ body eof, result.tokens = body ++ [eof] ∧ eof.kind = .eof) := by
  have measured {s : ScanState} (reached : s.Reached dialect source) :
      s.offset + s.rest.length = source.length :=
    (ScanState.stands_of_reached reached).1.offset_add_length
  refine ⟨?_, ?_, scan dialect source, scanWithin_eq dialect source (by omega), rfl, ?_⟩
  · intro s reached
    have size := measured reached
    refine ⟨by omega, fun next turn => ?_⟩
    have nextSize := measured (turn.reached reached)
    have shorter := turn.length_le
    omega
  · intro s₀ s₁ s₂ s₃ reached first second third
    have size := measured reached
    have lastSize := measured (third.reached (second.reached (first.reached reached)))
    have shorter := ScanState.length_lt_of_three reached first second third
    omega
  · have ended := (Place.covers_of_reads (reads_scan dialect source)).covered.ended
    cases failed : (scan dialect source).fault with
    | some fault => exact .inl ⟨fault, rfl⟩
    | none =>
      rw [failed] at ended
      obtain ⟨body, _, split, -, eof, rfl, ends, -⟩ := ended
      exact .inr ⟨rfl, body, eof, split, ends⟩

/-- A code block takes three turns, of which only the last one reads. -/
theorem scan_terminates_code_block :
    let source := "@php $x @endphp".toList
    let dialect : Dialect := ⟨.builtin, true, true⟩
    let s₀ : ScanState := .start source
    let s₁ := s₀.push .directiveHead
    let s₂ := s₁.become .rawCode
    let s₃ : ScanState := ⟨some 'p', [], ⟨15, 1, 16⟩, []⟩
    s₀.Reached dialect source ∧ s₀.Dispatches dialect s₁ ∧ s₁.Dispatches dialect s₂ ∧
      s₂.Dispatches dialect s₃ ∧ (s₀.offset, s₁.offset, s₂.offset) = (0, 0, 0) ∧
      s₂.offset < s₃.offset ∧
      (scanWithin dialect (3 * (source.length + 1)) source).isSome = true := by
  intro source dialect s₀ s₁ s₂ s₃
  have reached : s₀.Reached dialect source := .start (by decide +kernel)
  have first : s₀.Dispatches dialect s₁ := ⟨by decide +kernel, by decide +kernel⟩
  have second : s₁.Dispatches dialect s₂ := ⟨by decide +kernel, by decide +kernel⟩
  have third : s₂.Dispatches dialect s₃ := ⟨by decide +kernel, by decide +kernel⟩
  obtain ⟨-, advances, result, within, -⟩ := scan_terminates dialect source
  refine ⟨reached, first, second, third, rfl, ?_, by rw [within]; rfl⟩
  -- The first two turns are idle, so that the third one is not.
  rcases advances s₀ s₁ s₂ s₃ reached first second third with early | early | late
  · exact absurd early (Nat.lt_irrefl 0)
  · exact absurd early (Nat.lt_irrefl 0)
  · exact late

end BladeTemplate
