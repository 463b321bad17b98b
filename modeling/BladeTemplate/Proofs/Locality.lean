import BladeTemplate.Proofs.Alike
import BladeTemplate.Proofs.Positions
import BladeTemplate.Proofs.Stream

/-!
# Reading is local

Where no construct is open, the reader has forgotten what it has read: the rest of a template is
read as a template of its own, only at other positions. One character of the past can show, since no
directive starts at an `@` right behind a word.

* `ScanState.Moves` is what a step can do to the state, and `ScanState.recalls_of_reached` what it
  keeps of the text behind: the last character;
* `Position.behind` moves positions behind others, `carries_shifted` says that reading goes on from
  there as it would from the start;
* `scan_is_local` is the result for every state of reading a template.
-/

namespace BladeTemplate

open Text Lookahead

/-! ## The character behind -/

namespace Lookahead

/-- How far plain text reaches depends on the character before it only at an `@`, and there only on
whether that character belongs to a word. -/
theorem textRunLength_congr {p q : Option Char} {text : Chars}
    (same : text.head? = some '@' → (p.map isWordChar).getD false = (q.map isWordChar).getD false) :
    textRunLength p text = textRunLength q text := by
  cases text with
  | nil => rw [textRunLength, textRunLength]
  | cons c rest =>
    rw [textRunLength, textRunLength]
    by_cases sign : c = '@'
    · subst sign
      have starts : startsDirective p rest = startsDirective q rest := by
        rw [startsDirective, startsDirective, same rfl]
      rw [starts]
    · simp only [if_neg sign]

end Lookahead

namespace ScanState

/-- What a step can do to the state. -/
inductive Moves (s : ScanState) : ScanState → Prop
  | stay : Moves s s
  | skip {t : ScanState} (length : Nat) : Moves s t → Moves s (t.skip length)
  | push {t : ScanState} (mode : Mode) : Moves s t → Moves s (t.push mode)
  | pop {t : ScanState} : Moves s t → Moves s t.pop
  | become {t : ScanState} (mode : Mode) : Moves s t → Moves s (t.become mode)

section Moves

variable {dialect : Dialect} {s t next : ScanState}

theorem Moves.trans (first : s.Moves t) (second : t.Moves next) : s.Moves next := by
  induction second with
  | stay => exact first
  | skip length _ ih => exact .skip length ih
  | push mode _ ih => exact .push mode ih
  | pop _ ih => exact .pop ih
  | become mode _ ih => exact .become mode ih

theorem moves_takeThrough {kind : TokenKind} {lead : Nat} {closer : Chars} {fault : LexFault}
    (goes : (s.takeThrough kind lead closer fault).next = .ok next) : s.Moves next := by
  unfold takeThrough at goes
  split at goes
  · cases goes
    exact .skip _ .stay
  · cases goes

theorem moves_stepBang (goes : s.stepBang.next = .ok next) : s.Moves next := by
  unfold stepBang at goes
  split at goes
  · exact moves_takeThrough goes
  split at goes
  · exact moves_takeThrough goes
  split at goes
  · exact moves_takeThrough goes
  split at goes
  · cases goes
    exact .push .rawCode .stay
  · cases goes
    exact .skip 1 .stay

theorem moves_stepConstruct (goes : s.stepConstruct.next = .ok next) : s.Moves next := by
  have enters {mode : Mode} (goes : (s.enter mode).next = .ok next) : s.Moves next := by
    cases goes
    exact .push mode .stay
  unfold stepConstruct at goes
  split at goes
  · exact enters goes
  split at goes
  · exact enters goes
  split at goes
  · exact enters goes
  split at goes
  · exact moves_takeThrough goes
  split at goes
  · exact moves_stepBang goes
  · exact enters goes

theorem moves_stepText (goes : s.stepText.next = .ok next) : s.Moves next := by
  unfold stepText at goes
  simp only at goes
  split at goes
  · exact moves_stepConstruct goes
  split at goes
  · cases goes
    exact .skip _ .stay
  · exact (Moves.skip _ .stay).trans (moves_stepConstruct goes)

theorem moves_stepAttribute (goes : (s.stepAttribute dialect).next = .ok next) : s.Moves next := by
  unfold stepAttribute at goes
  simp only at goes
  split at goes
  all_goals cases goes
  · exact (((Moves.stay.skip _).skip _).skip _).push _
  · exact Moves.stay.skip _

theorem moves_stepTag {name : Chars} (goes : (s.stepTag dialect name).next = .ok next) :
    s.Moves next := by
  have gap : s.Moves (s.skip (countWhile isTagSpace s.rest)) := .skip _ .stay
  unfold stepTag at goes
  simp only at goes
  split at goes
  · cases goes
    exact gap
  split at goes
  · cases goes
    exact (gap.skip 2).pop
  split at goes
  · cases goes
    split
    · exact ((gap.skip 1).pop).push _
    · exact (gap.skip 1).pop
  split at goes
  · cases goes
    exact gap.push .comment
  split at goes
  · cases goes
    exact gap.push .echo
  · exact gap.trans (moves_stepAttribute goes)

theorem moves_stepDirectiveHead (goes : (s.stepDirectiveHead dialect).next = .ok next) :
    s.Moves next := by
  unfold stepDirectiveHead at goes
  simp only at goes
  split at goes
  · cases goes
    exact Moves.stay.become _
  · simp only at goes
    split at goes
    all_goals cases goes
    · exact (Moves.stay.skip _).pop
    · exact ((Moves.stay.skip _).skip _).become _

theorem moves_takeBody {kind : TokenKind} {lead : Nat} {closer : Chars} {fault : LexFault}
    {start : Position} (goes : (s.takeBody kind lead closer fault start).next = .ok next) :
    s.Moves next := by
  unfold takeBody at goes
  split at goes
  · cases goes
  · cases goes
    exact (Moves.stay.skip _).pop

theorem moves_step (goes : (s.step dialect).next = .ok next) : s.Moves next := by
  unfold step at goes
  split at goes
  · exact moves_stepText goes
  · next mode start outer _ =>
    cases mode with
    | directiveHead => exact moves_stepDirectiveHead goes
    | arguments =>
      simp only [stepArguments] at goes
      split at goes
      all_goals cases goes
      exact (((Moves.stay.skip _).skip _).skip _).pop
    | echo =>
      simp only [stepEcho, takeTriple] at goes
      split at goes
      all_goals cases goes
      exact (((Moves.stay.skip _).skip _).skip _).pop
    | comment =>
      simp only [stepComment, takeTriple] at goes
      split at goes
      all_goals cases goes
      exact (((Moves.stay.skip _).skip _).skip _).pop
    | tagStart =>
      cases goes
      exact (Moves.stay.skip _).become _
    | tag name => exact moves_stepTag goes
    | attributeValue name =>
      simp only [stepValue] at goes
      split at goes
      all_goals cases goes
      exact (Moves.stay.skip _).pop
    | verbatim => exact moves_takeBody goes
    | rawCode =>
      simp only [stepRawCode] at goes
      split at goes
      · cases goes
        exact (Moves.stay.skip _).pop
      · exact moves_takeBody goes
    | rawText tag =>
      simp only [stepRawText] at goes
      split at goes
      all_goals cases goes
      exact (Moves.stay.skip _).pop

end Moves

section Reached

variable {dialect : Dialect} {source : Chars} {s t : ScanState}

/-- What a state knows of the text behind it: its last character. -/
structure Recalls (source : Chars) (s : ScanState) : Prop where
  sited : s.Sited source
  previous : s.previous = (source.take s.offset).getLast?

theorem Recalls.skip (recalls : s.Recalls source) (length : Nat) :
    (s.skip length).Recalls source where
  sited := recalls.sited.skip length
  previous := by
    have read : source.take (s.skip length).offset =
        source.take s.offset ++ s.rest.take length := by
      rw [← recalls.sited.on.cut_skip length, cut, ← List.take_add, offset_skip,
        Nat.add_sub_cancel_left]
    rw [read, List.getLast?_append, ← recalls.previous]
    rfl

/-- Whatever a step does, the last character behind is known. -/
theorem Recalls.of_moves (recalls : s.Recalls source) (moves : s.Moves t) : t.Recalls source := by
  induction moves with
  | stay => exact recalls
  | skip length _ ih => exact ih.skip length
  | push mode _ ih => exact ⟨ih.sited.push mode, ih.previous⟩
  | pop _ ih => exact ⟨ih.sited.pop, ih.previous⟩
  | @become t mode _ ih =>
    refine ⟨ih.sited.become mode, ?_⟩
    rw [offset_become, ← ih.previous]
    unfold ScanState.become
    split <;> rfl

/-- Plain text ahead reaches as far as it would from the start of what lies ahead, but for an `@`
behind a character of a word: the character behind is the only thing left of what was read. -/
theorem Recalls.textRunLength_eq (recalls : s.Recalls source)
    (apart : s.offset = 0 ∨ source[s.offset]? ≠ some '@' ∨
      ∀ c, source[s.offset - 1]? = some c → isWordChar c = false) :
    textRunLength s.previous s.rest = textRunLength none (source.drop s.offset) := by
  rw [recalls.sited.on.rest]
  refine textRunLength_congr fun sign => ?_
  rw [List.head?_drop] at sign
  rcases apart with first | other | wordless
  · rw [recalls.previous, first]
    rfl
  · exact absurd sign other
  · cases behind : s.previous with
    | none => rfl
    | some c =>
      have size := recalls.sited.on.bound
      rw [recalls.previous, List.getLast?_take] at behind
      split at behind
      · cases behind
      · next started =>
        have inside : s.offset - 1 < source.length := by omega
        rw [List.getElem?_eq_getElem inside, Option.some_or] at behind
        exact wordless c (by rw [List.getElem?_eq_getElem inside, behind])

theorem recalls_of_reached (reached : s.Reached dialect source) : s.Recalls source := by
  have start : (ScanState.start source).Recalls source := ⟨sited_start source, rfl⟩
  induction reached with
  | start => exact start
  | front => exact start.skip _
  | step _ _ goes ih => exact ih.of_moves (moves_step goes)

/-- Reading a template is reading up to a state that it goes through, and then reading on. -/
theorem Reached.run_split (reached : s.Reached dialect source) :
    ∃ tokens diagnostics, (scan dialect source).tokens = tokens ++ (s.run dialect).tokens ∧
      (scan dialect source).diagnostics = diagnostics ++ (s.run dialect).diagnostics ∧
      (scan dialect source).fault = (s.run dialect).fault := by
  induction reached with
  | start none =>
    unfold scan
    simp only [none]
    exact ⟨[], [], rfl, rfl, trivial⟩
  | front some =>
    unfold scan
    simp only [some]
    exact ⟨_, [], rfl, rfl, rfl⟩
  | @step s next _ ahead goes ih =>
    obtain ⟨tokens, diagnostics, tokensEq, diagnosticsEq, faultEq⟩ := ih
    rw [run_of_stepped ahead goes] at tokensEq diagnosticsEq faultEq
    refine ⟨tokens ++ (s.step dialect).tokens, diagnostics ++ (s.step dialect).diagnostics, ?_, ?_,
      faultEq⟩
    · rw [tokensEq, Scan.after, List.append_assoc]
    · rw [diagnosticsEq, Scan.after, List.append_assoc]

/-- Whether front matter is allowed shows at the start only. -/
theorem run_frontMatter (dialect : Dialect) (frontMatter : Bool) (s : ScanState) :
    s.run { dialect with frontMatter } = s.run dialect := by
  refine run_induction dialect (P := fun s scan => s.run { dialect with frontMatter } = scan)
    ?ended ?failed ?stepped s
  case ended =>
    intro s ended
    exact run_of_ended ended
  case failed =>
    intro s fault ahead failed
    exact run_of_failed ahead failed
  case stepped =>
    intro s next ahead goes ih
    have stepped : s.run { dialect with frontMatter } = _ := run_of_stepped ahead goes
    rw [stepped, ih]
    rfl

end Reached

end ScanState

/-! ## Positions behind others -/

namespace Position

/-- The position in a template of what is at position `p` in the part of it behind `base`. -/
def behind (base p : Position) : Position where
  offset := base.offset + p.offset
  line := base.line + (p.line - 1)
  column := if p.line = 1 then base.column + (p.column - 1) else p.column

/-- A position that is behind another one as a position of a text is behind its start. -/
def Shifted (base p q : Position) : Prop :=
  p = base.behind q ∧ 1 ≤ q.line ∧ 1 ≤ q.column

theorem shifted_start (base : Position) : Shifted base base start :=
  ⟨rfl, Nat.le_refl 1, Nat.le_refl 1⟩

theorem Shifted.step {base p q : Position} (shifted : Shifted base p q) (c : Char) :
    Shifted base (p.step c) (q.step c) := by
  obtain ⟨rfl, line, column⟩ := shifted
  unfold Shifted behind Position.step
  split
  · refine ⟨?_, by simp, by simp⟩
    have below : ¬q.line + 1 = 1 := by omega
    simp only [if_neg below, mk.injEq, and_true]
    omega
  · refine ⟨?_, line, by simp⟩
    simp only [mk.injEq, true_and]
    refine ⟨by omega, ?_⟩
    split <;> omega

/-- Passing a text goes on behind another position as it would from the start. -/
theorem carries_shifted (base : Position) : Carries (Shifted base) := by
  intro p q text shifted
  induction text generalizing p q with
  | nil => exact shifted
  | cons c rest ih => exact ih (shifted.step c)

end Position

/-- A token of the text behind a position, in the whole template. -/
def Token.behind (base : Position) (token : Token) : Token :=
  { token with start := base.behind token.start, stop := base.behind token.stop }

/-- A diagnostic about the text behind a position, in the whole template. -/
def Diagnostic.behind (base : Position) (diagnostic : Diagnostic) : Diagnostic :=
  { diagnostic with
    line := base.line + (diagnostic.line - 1)
    column :=
      if diagnostic.line = 1 then base.column + (diagnostic.column - 1) else diagnostic.column }

section Shifted

variable {base : Position}

theorem Token.eq_behind {a b : Token} (alike : a.Alike (Position.Shifted base) b) :
    a = b.behind base := by
  obtain ⟨kind, value, start, stop⟩ := a
  obtain ⟨rfl, rfl, ⟨rfl, -, -⟩, ⟨rfl, -, -⟩⟩ := alike
  rfl

theorem Diagnostic.eq_behind {a b : Diagnostic} (alike : a.Alike (Position.Shifted base) b) :
    a = b.behind base := by
  obtain ⟨s, t, ⟨same, line, column⟩, code, text, rfl, rfl⟩ := alike
  have lines : (s.position.line : Int) = base.line + ((t.position.line : Int) - 1) := by
    rw [same, Position.behind]
    simp only
    omega
  have columns : (s.position.column : Int) = if (t.position.line : Int) = 1 then
      base.column + ((t.position.column : Int) - 1) else t.position.column := by
    rw [same, Position.behind]
    simp only
    split <;> split <;> omega
  simp only [Diagnostic.info, Diagnostic.placed, Diagnostic.behind, ScanState.here, lines, columns]
  rfl

theorem LexFault.eq_behind {a b : Option (LexFault × Position)}
    (alike : Option.Rel (LexFault.Alike (Position.Shifted base)) a b) :
    a = b.map fun fault => (fault.1, base.behind fault.2) := by
  cases alike with
  | none => rfl
  | some same => exact congrArg some (Prod.ext same.fault same.position.1)

/-- Lists that agree entry by entry, where agreeing is being an image, are images. -/
theorem eq_map_of_agree {α : Type} {R : α → α → Prop} (f : α → α)
    (image : ∀ a b, R a b → a = f b) {as bs : List α} (agree : List.Forall₂ R as bs) :
    as = bs.map f := by
  rw [← List.forall₂_eq_eq_eq]
  exact List.forall₂_map_right_iff.2 (agree.imp image)

end Shifted

/-! ## Reading on -/

/-- **Reading is local.** Where no construct is open, reading a template goes on as reading what
lies ahead from its start would, front matter aside: the tokens, the diagnostics and the fault are
the same, at positions counted on from here. The character behind must not be that of a word if an
`@` lies ahead. -/
theorem scan_is_local (dialect : Dialect) (source : Chars) {s : ScanState}
    (reached : s.Reached dialect source) (inText : s.modes = [])
    (apart : s.offset = 0 ∨ source[s.offset]? ≠ some '@' ∨
      ∀ c, source[s.offset - 1]? = some c → isWordChar c = false) :
    let ahead := scan { dialect with frontMatter := false } (source.drop s.offset)
    let here := Position.ofOffset source s.offset
    (∃ tokens diagnostics,
      (scan dialect source).tokens = tokens ++ (s.run dialect).tokens ∧
      (scan dialect source).diagnostics = diagnostics ++ (s.run dialect).diagnostics ∧
      (scan dialect source).fault = (s.run dialect).fault) ∧
    (s.run dialect).tokens = ahead.tokens.map (Token.behind here) ∧
    (s.run dialect).diagnostics = ahead.diagnostics.map (Diagnostic.behind here) ∧
    (s.run dialect).fault = ahead.fault.map fun fault => (fault.1, here.behind fault.2) := by
  intro ahead here
  have recalls := ScanState.recalls_of_reached reached
  have fresh : ahead = (ScanState.start (source.drop s.offset)).run dialect :=
    ScanState.run_frontMatter dialect false _
  have alike : s.Alike (Position.Shifted here) (.start (source.drop s.offset)) := by
    refine ⟨recalls.textRunLength_eq apart, recalls.sited.on.rest, ?_, ?_⟩
    · rw [recalls.sited.position]
      exact Position.shifted_start here
    · rw [inText]
      exact .nil
  obtain ⟨tokens, diagnostics, fault⟩ :=
    ScanState.alike_run (Position.carries_shifted here) dialect alike
  rw [fresh]
  refine ⟨reached.run_split,
    eq_map_of_agree (Token.behind here) (fun _ _ => Token.eq_behind) tokens,
    eq_map_of_agree (Diagnostic.behind here) (fun _ _ => Diagnostic.eq_behind) diagnostics,
    LexFault.eq_behind fault⟩

/-- Behind a start tag, with an unknown directive and an echo that is never closed ahead. -/
theorem scan_is_local_behind_startTag :
    let source := "<b>a @foo\n\x7b\x7b $x".toList
    let dialect : Dialect := ⟨.builtin, true, true⟩
    let s : ScanState := ⟨some '>', source.drop 3, ⟨3, 1, 4⟩, []⟩
    s.Reached dialect source ∧ source[s.offset]? ≠ some '@' ∧
      (s.run dialect).tokens =
        (scan ⟨.builtin, false, true⟩ "a @foo\n\x7b\x7b $x".toList).tokens.map
          (Token.behind ⟨3, 1, 4⟩) ∧
      (s.run dialect).diagnostics =
        [⟨1, 6, .info, "unknown directive '@foo' kept as written", .unknownDirective⟩] ∧
      (s.run dialect).fault = some (.echo .escaped, ⟨10, 2, 1⟩) := by
  intro source dialect s
  have reached : s.Reached dialect source := by
    have begun : (ScanState.start source).Reached dialect source := .start (by decide +kernel)
    have entered : ((ScanState.start source).push .tagStart).Reached dialect source :=
      .step begun (by decide +kernel) (by decide +kernel)
    have named : (⟨some 'b', source.drop 2, ⟨2, 1, 3⟩, [⟨.tag ['b'], .start⟩]⟩ : ScanState).Reached
        dialect source := .step entered (by decide +kernel) (by decide +kernel)
    exact .step named (by decide +kernel) (by decide +kernel)
  have apart : source[s.offset]? ≠ some '@' := by decide +kernel
  obtain ⟨-, tokens, diagnostics, fault⟩ :=
    scan_is_local dialect source reached rfl (.inr (.inl apart))
  exact ⟨reached, apart, tokens, diagnostics.trans (by decide +kernel),
    fault.trans (by decide +kernel)⟩

end BladeTemplate
