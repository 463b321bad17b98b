import BladeTemplate.Token.Step

/-!
# Reading a template

`ScanState.run` repeats steps to the end of the text, or to the first fault; it ends because every
step lowers the work ahead (`work_lt_of_step`). `scan` reads a whole template.
-/

namespace BladeTemplate

open Text Lookahead

namespace ScanState

/-! ## Every step lowers the work ahead -/

/-- A step that, when it goes on, leaves less work ahead than there was at `s`. -/
def Lowers (s : ScanState) (step : Step) : Prop :=
  ∀ next, step.next = .ok next → next.work < s.work

theorem topRank_le (modes : List OpenMode) : topRank modes ≤ 3 := by
  unfold topRank Mode.rank
  split
  · omega
  · split <;> omega

theorem debts_tail_le (modes : List OpenMode) : debts modes.tail ≤ debts modes := by
  cases modes <;> simp [debts]

/-- Reading something lowers the work, whatever mode follows, if no debt is added. -/
theorem work_lt_of_read {s next : ScanState} (shorter : next.rest.length < s.rest.length)
    (noDebt : debts next.modes ≤ debts s.modes) : next.work < s.work := by
  have := topRank_le next.modes
  unfold work
  omega

theorem lowers_fault (s : ScanState) (step : Step) {fault : LexFault × Position}
    (failed : step.next = .error fault) : s.Lowers step := by
  intro next h
  rw [failed] at h
  cases h

theorem lowers_take {s : ScanState} (nonempty : s.rest ≠ []) (kind : TokenKind) {length : Nat}
    (positive : 0 < length) : s.Lowers (s.take kind length) := by
  rintro next ⟨⟩
  have := List.length_pos_iff.2 nonempty
  exact work_lt_of_read (by simp; omega) (by simp)

theorem lowers_takeThrough {s : ScanState} (nonempty : s.rest ≠ []) (kind : TokenKind)
    {lead : Nat} (positive : 0 < lead) (closer : Chars) (fault : LexFault) :
    s.Lowers (s.takeThrough kind lead closer fault) := by
  unfold takeThrough
  split
  · exact lowers_take nonempty kind (by omega)
  · exact lowers_fault s _ rfl

theorem lowers_enter {s : ScanState} {mode : Mode} (noDebt : mode.debt = 0)
    (lower : mode.rank < topRank s.modes) : s.Lowers (s.enter mode) := by
  rintro next ⟨⟩
  simp [work, debts, topRank, noDebt] at lower ⊢
  omega

theorem lowers_stepEndTag {s : ScanState} (nonempty : s.rest ≠ []) : s.Lowers s.stepEndTag :=
  lowers_takeThrough nonempty _ (by omega) _ _

theorem lowers_stepBang {s : ScanState} (nonempty : s.rest ≠ []) (inText : s.modes = []) :
    s.Lowers s.stepBang := by
  unfold stepBang
  split
  · exact lowers_takeThrough nonempty _ (by omega) _ _
  split
  · exact lowers_takeThrough nonempty _ (by omega) _ _
  split
  · exact lowers_takeThrough nonempty _ (by omega) _ _
  split
  · exact lowers_enter rfl (by simp [inText, topRank, Mode.rank])
  · exact lowers_take nonempty .text (by omega)

theorem lowers_stepConstruct {s : ScanState} (nonempty : s.rest ≠ []) (inText : s.modes = []) :
    s.Lowers s.stepConstruct := by
  have entering (mode : Mode) (noDebt : mode.debt = 0) (low : mode.rank < 3) :
      s.Lowers (s.enter mode) := lowers_enter noDebt (by simpa [inText, topRank] using low)
  unfold stepConstruct
  split
  · exact entering .comment rfl (by decide)
  split
  · exact entering .echo rfl (by decide)
  split
  · exact entering .directiveHead rfl (by decide)
  split
  · exact lowers_stepEndTag nonempty
  split
  · exact lowers_stepBang nonempty inText
  · exact entering .tagStart rfl (by decide)

theorem lowers_stepText {s : ScanState} (nonempty : s.rest ≠ []) (inText : s.modes = []) :
    s.Lowers s.stepText := by
  unfold stepText
  simp only
  split
  · exact lowers_stepConstruct nonempty inText
  split
  · exact lowers_take nonempty .text (by omega)
  · next positive unfinished =>
    intro next h
    have first := lowers_take nonempty .text (Nat.pos_of_ne_zero positive) _ rfl
    have second := lowers_stepConstruct (s := s.skip (textRunLength s.previous s.rest))
      (by simpa using unfinished) (by simpa using inText) next h
    omega

theorem debts_become (s : ScanState) {mode : Mode} (noDebt : mode.debt = 0) :
    debts (s.become mode).modes ≤ debts s.modes := by
  unfold become
  split
  · exact Nat.le_refl _
  · next current outer h => simp [h, debts, noDebt]

theorem lowers_stepDirectiveHead {s : ScanState} (dialect : Dialect) (nonempty : s.rest ≠ [])
    {start : Position} {outer : List OpenMode}
    (top : s.modes = ⟨.directiveHead, start⟩ :: outer) :
    s.Lowers (s.stepDirectiveHead dialect) := by
  have := List.length_pos_iff.2 nonempty
  unfold stepDirectiveHead
  simp only
  split
  · rintro next ⟨⟩
    unfold become work
    simp only [top, debts, topRank]
    split <;> simp [Mode.debt, Mode.rank]
  · intro next h
    simp only at h
    split at h
    · cases h
      exact work_lt_of_read (by simp; omega) (by simpa using debts_tail_le _)
    · cases h
      refine work_lt_of_read (by simp; omega) ?_
      exact Nat.le_trans (debts_become _ rfl) (by simp)

theorem lowers_stepArguments {s : ScanState} (nonempty : s.rest ≠ []) (start : Position) :
    s.Lowers (s.stepArguments start) := by
  have := List.length_pos_iff.2 nonempty
  unfold stepArguments
  split
  · exact lowers_fault s _ rfl
  · rintro next ⟨⟩
    exact work_lt_of_read (by simp; omega) (by simpa using debts_tail_le _)

theorem lowers_takeTriple {s : ScanState} (nonempty : s.rest ≠ []) (a b c : TokenKind)
    {width : Nat} (positive : 0 < width) (length : Nat) :
    s.Lowers (s.takeTriple a b c width length) := by
  have := List.length_pos_iff.2 nonempty
  rintro next ⟨⟩
  exact work_lt_of_read (by simp; omega) (by simpa using debts_tail_le _)

theorem lowers_stepEcho {s : ScanState} (nonempty : s.rest ≠ []) (start : Position) :
    s.Lowers (s.stepEcho start) := by
  unfold stepEcho
  simp only
  split
  · exact lowers_fault s _ rfl
  · exact lowers_takeTriple nonempty _ _ _ (EchoStyle.width_pos _) _

theorem lowers_stepComment {s : ScanState} (nonempty : s.rest ≠ []) (start : Position) :
    s.Lowers (s.stepComment start) := by
  unfold stepComment
  split
  · exact lowers_fault s _ rfl
  · exact lowers_takeTriple nonempty _ _ _ (by omega) _

theorem lowers_stepTagStart {s : ScanState} (nonempty : s.rest ≠ []) :
    s.Lowers s.stepTagStart := by
  have := List.length_pos_iff.2 nonempty
  rintro next ⟨⟩
  refine work_lt_of_read (by simp; omega) ?_
  exact Nat.le_trans (debts_become _ rfl) (by simp)

theorem attributeNameLength_pos (registry : Registry) (text : Chars) :
    0 < attributeNameLength registry text := by
  unfold attributeNameLength
  omega

theorem lowers_stepAttribute {s : ScanState} (dialect : Dialect) (nonempty : s.rest ≠ []) :
    s.Lowers (s.stepAttribute dialect) := by
  have := List.length_pos_iff.2 nonempty
  have named := attributeNameLength_pos dialect.registry s.rest
  unfold stepAttribute
  intro next h
  simp only at h
  split at h
  · next valued =>
    cases h
    have found : (s.rest.drop (attributeNameLength dialect.registry s.rest)) ≠ [] := by
      intro empty
      simp [empty] at valued
    have := List.length_pos_iff.2 found
    simp at this
    simp [work, debts, topRank, Mode.debt, Mode.rank]
    omega
  · cases h
    exact work_lt_of_read (by simp; omega) (by simp)

theorem lowers_stepTag {s : ScanState} (dialect : Dialect) (name : Chars) (nonempty : s.rest ≠ [])
    {start : Position} {outer : List OpenMode} {label : Chars}
    (top : s.modes = ⟨.tag label, start⟩ :: outer) : s.Lowers (s.stepTag dialect name) := by
  have := List.length_pos_iff.2 nonempty
  have still {step : Step} (lowers : (s.skip (countWhile isTagSpace s.rest)).Lowers step) :
      s.Lowers step := by
    intro next h
    have := lowers next h
    have : (s.skip (countWhile isTagSpace s.rest)).work ≤ s.work := by
      simp only [work, rest_skip, modes_skip, List.length_drop]
      omega
    omega
  unfold stepTag
  simp only
  split
  · next done =>
    rintro next ⟨⟩
    simp at done
    exact work_lt_of_read (by simp; omega) (by simp)
  · next unfinished =>
    have ahead : (s.skip (countWhile isTagSpace s.rest)).rest ≠ [] := by simpa using unfinished
    have size := List.length_pos_iff.2 ahead
    simp at size
    split
    · rintro next ⟨⟩
      exact work_lt_of_read (by simp; omega) (by simpa using debts_tail_le _)
    split
    · rintro next ⟨⟩
      split
      · simp [work, top, debts, topRank, Mode.debt, Mode.rank]
        omega
      · exact work_lt_of_read (by simp; omega) (by simpa using debts_tail_le _)
    split
    · exact still (lowers_enter rfl (by simp [top, topRank, Mode.rank]))
    split
    · exact still (lowers_enter rfl (by simp [top, topRank, Mode.rank]))
    · exact still (lowers_stepAttribute dialect ahead)

theorem lowers_stepValue {s : ScanState} {start : Position} {outer : List OpenMode} {name : Chars}
    (top : s.modes = ⟨.attributeValue name, start⟩ :: outer) :
    s.Lowers (s.stepValue start) := by
  unfold stepValue
  split
  · exact lowers_fault s _ rfl
  · rintro next ⟨⟩
    have := topRank_le outer
    simp [work, top, debts, topRank, Mode.debt, Mode.rank] at this ⊢
    omega

theorem lowers_takeBody {s : ScanState} (nonempty : s.rest ≠ []) (kind : TokenKind) {lead : Nat}
    (positive : 0 < lead) (closer : Chars) (fault : LexFault) (start : Position) :
    s.Lowers (s.takeBody kind lead closer fault start) := by
  have := List.length_pos_iff.2 nonempty
  unfold takeBody
  split
  · exact lowers_fault s _ rfl
  · rintro next ⟨⟩
    exact work_lt_of_read (by simp; omega) (by simpa using debts_tail_le _)

theorem lowers_stepRawCode {s : ScanState} (nonempty : s.rest ≠ []) (start : Position) :
    s.Lowers (s.stepRawCode start) := by
  have := List.length_pos_iff.2 nonempty
  unfold stepRawCode
  split
  · rintro next ⟨⟩
    refine work_lt_of_read ?_ (by simpa using debts_tail_le _)
    simp only [rest_pop, rest_skip, List.length_drop]
    split
    · exact Nat.sub_lt this (Nat.succ_pos _)
    · exact Nat.sub_lt this this
  · exact lowers_takeBody nonempty _ (by omega) _ _ _

theorem lowers_stepRawText {s : ScanState} {start : Position} {outer : List OpenMode} {tag : Chars}
    (top : s.modes = ⟨.rawText tag, start⟩ :: outer) : s.Lowers (s.stepRawText tag start) := by
  unfold stepRawText
  split
  · exact lowers_fault s _ rfl
  · rintro next ⟨⟩
    have := topRank_le outer
    simp [work, top, debts, topRank, Mode.debt, Mode.rank] at this ⊢
    omega

/-- Every step that goes on leaves less work ahead. -/
theorem work_lt_of_step {dialect : Dialect} {s next : ScanState} (nonempty : s.rest ≠ [])
    (h : (s.step dialect).next = .ok next) : next.work < s.work := by
  revert next
  change s.Lowers (s.step dialect)
  unfold step
  split
  · next inText => exact lowers_stepText nonempty inText
  · next mode start outer top =>
    cases mode with
    | directiveHead => exact lowers_stepDirectiveHead dialect nonempty top
    | arguments => exact lowers_stepArguments nonempty start
    | echo => exact lowers_stepEcho nonempty start
    | comment => exact lowers_stepComment nonempty start
    | tagStart => exact lowers_stepTagStart nonempty
    | tag name => exact lowers_stepTag dialect name nonempty top
    | attributeValue name => exact lowers_stepValue top
    | verbatim => exact lowers_takeBody nonempty _ (by omega) _ _ _
    | rawCode => exact lowers_stepRawCode nonempty start
    | rawText tag => exact lowers_stepRawText top

end ScanState

/-! ## Running the reader -/

/-- Everything that reading a template yields: tokens, diagnostics and events in order, and the
fault that ended it early, with the position where its construct starts. -/
structure Scan where
  tokens : List Token := []
  diagnostics : List Diagnostic := []
  events : List Event := []
  fault : Option (LexFault × Position) := none

namespace Scan

/-- What a step yields, followed by what comes after it. -/
def after (step : Step) (later : Scan) : Scan where
  tokens := step.tokens ++ later.tokens
  diagnostics := step.diagnostics ++ later.diagnostics
  events := step.events ++ later.events
  fault := later.fault

/-- What a step yields that ends in a fault. -/
def failed (step : Step) (fault : LexFault × Position) : Scan :=
  ⟨step.tokens, step.diagnostics, step.events, some fault⟩

end Scan

namespace ScanState

/-- The end of the text: the last token, or the fault of a construct that is still open. -/
def finish (s : ScanState) : Scan :=
  match s.modes with
  | [] => { tokens := [s.token .eof 0] }
  | ⟨mode, start⟩ :: _ => { fault := some (mode.openFault, start) }

/-- Read everything ahead. -/
def run (dialect : Dialect) (s : ScanState) : Scan :=
  if _ended : s.rest = [] then s.finish
  else
    match _stepped : (s.step dialect).next with
    | .error fault => .failed (s.step dialect) fault
    | .ok next => .after (s.step dialect) (next.run dialect)
termination_by s.work
decreasing_by exact work_lt_of_step _ended _stepped

end ScanState

/-- Read a whole template. -/
def scan (dialect : Dialect) (source : Chars) : Scan :=
  let s := ScanState.start source
  match if dialect.frontMatter then frontMatterLength source else none with
  | some length =>
    .after { s.take .frontMatter length with events := [.frontMatter length] }
      ((s.skip length).run dialect)
  | none => s.run dialect

end BladeTemplate
