import BladeTemplate.Proofs.Run
import Mathlib.Data.List.Forall2

/-!
# The same text in another place

What the reader does depends on the text ahead and on the open modes. Where the text stands, and
where the open constructs started, only goes into the positions it reports: two states that agree
but for their positions lead to runs that agree but for theirs. The character before the text shows
in one thing only, which is how far plain text reaches.

* `ScanState.Alike` relates the states, by a relation of positions that passing a text keeps
  (`Position.Carries`);
* `ScanState.alike_step` is the lemma for one step, from one lemma for each mode;
* `ScanState.alike_run` is the result.
-/

namespace BladeTemplate

open Text Lookahead

/-- A relation of positions that passing the same text keeps. -/
def Position.Carries (R : Position → Position → Prop) : Prop :=
  ∀ ⦃p q : Position⦄ (text : Chars), R p q → R (p.advance text) (q.advance text)

section Alike

variable (R : Position → Position → Prop)

/-! ## What agrees but for positions -/

/-- Tokens of one kind and text at related positions. -/
structure Token.Alike (a b : Token) : Prop where
  kind : a.kind = b.kind
  value : a.value = b.value
  start : R a.start b.start
  stop : R a.stop b.stop

/-- The same message at related positions. -/
def Diagnostic.Alike (a b : Diagnostic) : Prop :=
  ∃ s t : ScanState, R s.position t.position ∧
    ∃ code text, a = .info s.here code text ∧ b = .info t.here code text

/-- The same mode from related positions on. -/
structure OpenMode.Alike (a b : OpenMode) : Prop where
  mode : a.mode = b.mode
  start : R a.start b.start

/-- The same fault at related positions. -/
structure LexFault.Alike (a b : LexFault × Position) : Prop where
  fault : a.1 = b.1
  position : R a.2 b.2

namespace ScanState

/-- States with the same text ahead of them, plain up to the same place, and the same modes open. -/
structure Alike (s t : ScanState) : Prop where
  reach : textRunLength s.previous s.rest = textRunLength t.previous t.rest
  rest : s.rest = t.rest
  position : R s.position t.position
  modes : List.Forall₂ (OpenMode.Alike R) s.modes t.modes

end ScanState

/-- Both go on, in states that agree, or both give up. -/
inductive Step.NextAlike :
    Except (LexFault × Position) ScanState → Except (LexFault × Position) ScanState → Prop
  | ok {s t : ScanState} : s.Alike R t → NextAlike (.ok s) (.ok t)
  | error {a b : LexFault × Position} : LexFault.Alike R a b → NextAlike (.error a) (.error b)

/-- Steps that yield the same. -/
structure Step.Alike (a b : Step) : Prop where
  tokens : List.Forall₂ (Token.Alike R) a.tokens b.tokens
  diagnostics : List.Forall₂ (Diagnostic.Alike R) a.diagnostics b.diagnostics
  next : Step.NextAlike R a.next b.next

/-- Scans that yield the same. -/
structure Scan.Alike (a b : Scan) : Prop where
  tokens : List.Forall₂ (Token.Alike R) a.tokens b.tokens
  diagnostics : List.Forall₂ (Diagnostic.Alike R) a.diagnostics b.diagnostics
  fault : Option.Rel (LexFault.Alike R) a.fault b.fault

end Alike

namespace ScanState

section Moves

variable {R : Position → Position → Prop} {s t : ScanState}

/-! ## Moves -/

/-- The same text on both sides is enough. -/
theorem Alike.of_previous (previous : s.previous = t.previous) (rest : s.rest = t.rest)
    (position : R s.position t.position)
    (modes : List.Forall₂ (OpenMode.Alike R) s.modes t.modes) : s.Alike R t :=
  ⟨by rw [previous, rest], rest, position, modes⟩

/-- Behind anything that was read, the text on both sides is the same. -/
theorem Alike.reach_skip (alike : s.Alike R t) (length : Nat) :
    textRunLength (s.skip length).previous (s.skip length).rest =
      textRunLength (t.skip length).previous (t.skip length).rest := by
  have rest := alike.rest
  simp only [ScanState.skip, ← rest]
  cases read : (s.rest.take length).getLast? with
  | some c => rfl
  | none =>
    have still : s.rest.drop length = s.rest := by
      rcases List.take_eq_nil_iff.1 (List.getLast?_eq_none_iff.1 read) with zero | ended
      · rw [zero, List.drop_zero]
      · rw [ended, List.drop_nil]
    rw [still]
    exact rest ▸ alike.reach

theorem Alike.skip (carries : Position.Carries R) (alike : s.Alike R t) (length : Nat) :
    (s.skip length).Alike R (t.skip length) where
  reach := alike.reach_skip length
  rest := by simp only [rest_skip, alike.rest]
  position := by
    simp only [ScanState.skip, alike.rest]
    exact carries _ alike.position
  modes := alike.modes

theorem Alike.token (carries : Position.Carries R) (alike : s.Alike R t) (kind : TokenKind)
    (length : Nat) : (s.token kind length).Alike R (t.token kind length) where
  kind := rfl
  value := by simp only [ScanState.token, alike.rest]
  start := alike.position
  stop := (alike.skip carries length).position

theorem Alike.push (alike : s.Alike R t) (mode : Mode) : (s.push mode).Alike R (t.push mode) where
  reach := alike.reach
  rest := alike.rest
  position := alike.position
  modes := .cons ⟨rfl, alike.position⟩ alike.modes

theorem Alike.pop (alike : s.Alike R t) : s.pop.Alike R t.pop := by
  obtain ⟨previous, rest, position, modes⟩ := s
  obtain ⟨previous', rest', position', modes'⟩ := t
  have tails : List.Forall₂ (OpenMode.Alike R) modes.tail modes'.tail := by
    cases alike.modes with
    | nil => exact .nil
    | cons _ outer => exact outer
  exact ⟨alike.reach, alike.rest, alike.position, tails⟩

theorem Alike.become (alike : s.Alike R t) (mode : Mode) :
    (s.become mode).Alike R (t.become mode) := by
  obtain ⟨previous, rest, position, modes⟩ := s
  obtain ⟨previous', rest', position', modes'⟩ := t
  cases alike.modes with
  | nil => exact alike
  | cons head outer =>
    exact ⟨alike.reach, alike.rest, alike.position, .cons ⟨rfl, head.start⟩ outer⟩

end Moves

/-! ## Steps -/

section Steps

variable {R : Position → Position → Prop} (carries : Position.Carries R) {dialect : Dialect}
  {s t : ScanState} (alike : s.Alike R t)

include carries alike

theorem alike_take (kind : TokenKind) (length : Nat) :
    (s.take kind length).Alike R (t.take kind length) where
  tokens := .cons (alike.token carries kind length) .nil
  diagnostics := .nil
  next := .ok (alike.skip carries length)

omit carries in
theorem alike_enter (mode : Mode) : (s.enter mode).Alike R (t.enter mode) where
  tokens := .nil
  diagnostics := .nil
  next := .ok (alike.push mode)

omit carries in
theorem alike_failHere (fault : LexFault) : (s.failHere fault).Alike R (t.failHere fault) where
  tokens := .nil
  diagnostics := .nil
  next := .error ⟨rfl, alike.position⟩

theorem alike_takeThrough (kind : TokenKind) (lead : Nat) (closer : Chars) (fault : LexFault) :
    (s.takeThrough kind lead closer fault).Alike R (t.takeThrough kind lead closer fault) := by
  unfold takeThrough
  rw [alike.rest]
  split
  · exact alike_take carries alike kind _
  · exact alike_failHere alike fault

theorem alike_stepEndTag : s.stepEndTag.Alike R t.stepEndTag := by
  unfold stepEndTag
  rw [alike.rest]
  exact alike_takeThrough carries alike _ _ _ _

theorem alike_stepBang : s.stepBang.Alike R t.stepBang := by
  unfold stepBang
  rw [alike.rest]
  split
  · exact alike_takeThrough carries alike _ _ _ _
  split
  · exact alike_takeThrough carries alike _ _ _ _
  split
  · exact alike_takeThrough carries alike _ _ _ _
  split
  · exact alike_enter alike .rawCode
  · have taken := alike_take carries alike .text 1
    exact ⟨taken.tokens, taken.diagnostics, taken.next⟩

theorem alike_stepConstruct : s.stepConstruct.Alike R t.stepConstruct := by
  unfold stepConstruct
  rw [alike.rest]
  split
  · exact alike_enter alike .comment
  split
  · exact alike_enter alike .echo
  split
  · exact alike_enter alike .directiveHead
  split
  · exact alike_stepEndTag carries alike
  split
  · exact alike_stepBang carries alike
  · exact alike_enter alike .tagStart

theorem alike_stepText : s.stepText.Alike R t.stepText := by
  have next := alike.skip carries (textRunLength s.previous s.rest)
  have construct := alike_stepConstruct carries next
  have text := alike.token carries .text (textRunLength s.previous s.rest)
  unfold stepText
  simp only [← alike.reach, ← next.rest]
  split
  · exact alike_stepConstruct carries alike
  split
  · exact alike_take carries alike .text _
  · exact ⟨.cons text construct.tokens, construct.diagnostics, construct.next⟩

theorem alike_stepDirectiveHead :
    (s.stepDirectiveHead dialect).Alike R (t.stepDirectiveHead dialect) := by
  unfold stepDirectiveHead
  simp only [← alike.rest]
  split
  · exact ⟨.nil, .nil, .ok (alike.become _)⟩
  · refine ⟨.cons (alike.token carries _ _) .nil, ?_, ?_⟩ <;> dsimp only
    · split
      · exact .cons ⟨s, t, alike.position, _, _, rfl, rfl⟩ .nil
      · exact .nil
    · split
      · exact .ok (alike.skip carries _).pop
      · exact .ok (((alike.skip carries _).skip carries _).become .arguments)

theorem alike_stepArguments {p q : Position} (opened : R p q) :
    (s.stepArguments p).Alike R (t.stepArguments q) := by
  unfold stepArguments
  rw [alike.rest]
  split
  · exact ⟨.nil, .nil, .error ⟨rfl, opened⟩⟩
  · next length _ =>
    have inside := alike.skip carries 1
    have closing := inside.skip carries (length - 2)
    refine ⟨.cons (alike.token carries _ _) ?_, .nil, .ok (closing.skip carries 1).pop⟩
    split
    · exact .cons (closing.token carries _ _) .nil
    · exact .cons (inside.token carries _ _) (.cons (closing.token carries _ _) .nil)

theorem alike_takeTriple (opening content closing : TokenKind) (width length : Nat) :
    (s.takeTriple opening content closing width length).Alike R
      (t.takeTriple opening content closing width length) := by
  have inside := alike.skip carries width
  have after := inside.skip carries length
  exact ⟨.cons (alike.token carries _ _) (.cons (inside.token carries _ _)
    (.cons (after.token carries _ _) .nil)), .nil, .ok (after.skip carries width).pop⟩

theorem alike_stepEcho {p q : Position} (opened : R p q) :
    (s.stepEcho p).Alike R (t.stepEcho q) := by
  unfold stepEcho
  rw [alike.rest]
  dsimp only
  split
  · exact ⟨.nil, .nil, .error ⟨rfl, opened⟩⟩
  · exact alike_takeTriple carries alike _ _ _ _ _

theorem alike_stepComment {p q : Position} (opened : R p q) :
    (s.stepComment p).Alike R (t.stepComment q) := by
  unfold stepComment
  rw [alike.rest]
  split
  · exact ⟨.nil, .nil, .error ⟨rfl, opened⟩⟩
  · exact alike_takeTriple carries alike _ _ _ _ _

theorem alike_stepTagStart : s.stepTagStart.Alike R t.stepTagStart := by
  unfold stepTagStart
  simp only [← alike.rest]
  exact ⟨.cons (alike.token carries _ _) .nil, .nil, .ok ((alike.skip carries _).become _)⟩

theorem alike_stepAttribute :
    (s.stepAttribute dialect).Alike R (t.stepAttribute dialect) := by
  unfold stepAttribute
  obtain ⟨length, isLength⟩ : ∃ length, length = attributeNameLength dialect.registry s.rest :=
    ⟨_, rfl⟩
  have after := alike.skip carries length
  simp only [← alike.rest, ← isLength, ← after.rest]
  refine ⟨.cons (alike.token carries _ _) .nil, ?_, ?_⟩ <;> dsimp only
  · split
    · exact .cons ⟨s, t, alike.position, _, _, rfl, rfl⟩ .nil
    · exact .nil
  · split
    · have equals := after.skip carries (countWhile isTagSpace (s.skip length).rest + 1)
      rw [← equals.rest]
      exact .ok ((equals.skip carries _).push _)
    · exact .ok after

theorem alike_stepTag (name : Chars) :
    (s.stepTag dialect name).Alike R (t.stepTag dialect name) := by
  unfold stepTag
  obtain ⟨spaces, isSpaces⟩ : ∃ spaces, spaces = countWhile isTagSpace s.rest := ⟨_, rfl⟩
  have next := alike.skip carries spaces
  simp only [← alike.rest, ← isSpaces, ← next.rest]
  split
  · exact ⟨.nil, .nil, .ok next⟩
  split
  · exact ⟨.cons (next.token carries _ _) .nil, .nil, .ok (next.skip carries 2).pop⟩
  split
  · have after := (next.skip carries 1).pop
    refine ⟨.cons (next.token carries _ _) .nil, .nil, ?_⟩
    dsimp only
    split
    · exact .ok (after.push _)
    · exact .ok after
  split
  · exact alike_enter next .comment
  split
  · exact alike_enter next .echo
  · exact alike_stepAttribute carries next

theorem alike_stepValue {p q : Position} (opened : R p q) :
    (s.stepValue p).Alike R (t.stepValue q) := by
  unfold stepValue
  rw [alike.rest]
  split
  · exact ⟨.nil, .nil, .error ⟨rfl, opened⟩⟩
  · exact ⟨.cons (alike.token carries _ _) .nil, .nil, .ok (alike.skip carries _).pop⟩

theorem alike_takeBody (kind : TokenKind) (lead : Nat) (closer : Chars) (fault : LexFault)
    {p q : Position} (opened : R p q) :
    (s.takeBody kind lead closer fault p).Alike R (t.takeBody kind lead closer fault q) := by
  unfold takeBody
  rw [alike.rest]
  split
  · exact ⟨.nil, .nil, .error ⟨rfl, opened⟩⟩
  · exact ⟨.cons (alike.token carries _ _) .nil, .nil, .ok (alike.skip carries _).pop⟩

theorem alike_stepRawCode {p q : Position} (opened : R p q) :
    (s.stepRawCode p).Alike R (t.stepRawCode q) := by
  unfold stepRawCode
  rw [alike.rest]
  split
  · exact ⟨.cons (alike.token carries _ _) .nil, .nil, .ok (alike.skip carries _).pop⟩
  · exact alike_takeBody carries alike _ _ _ _ opened

theorem alike_stepRawText (tag : Chars) {p q : Position} (opened : R p q) :
    (s.stepRawText tag p).Alike R (t.stepRawText tag q) := by
  unfold stepRawText
  rw [alike.rest]
  split
  · exact ⟨.nil, .nil, .error ⟨rfl, opened⟩⟩
  · refine ⟨?_, .nil, .ok (alike.skip carries _).pop⟩
    dsimp only
    split
    · exact .nil
    · exact .cons (alike.token carries _ _) .nil

/-- One step, whatever the mode. -/
theorem alike_step (dialect : Dialect) : (s.step dialect).Alike R (t.step dialect) := by
  obtain ⟨previous, rest, position, modes⟩ := s
  obtain ⟨previous', rest', position', modes'⟩ := t
  cases alike.modes with
  | nil => exact alike_stepText carries alike
  | @cons top top' _ _ head _ =>
    obtain ⟨mode, p⟩ := top
    obtain ⟨mode', q⟩ := top'
    obtain rfl : mode = mode' := head.mode
    have opened : R p q := head.start
    cases mode with
    | directiveHead => exact alike_stepDirectiveHead carries alike
    | arguments => exact alike_stepArguments carries alike opened
    | echo => exact alike_stepEcho carries alike opened
    | comment => exact alike_stepComment carries alike opened
    | tagStart => exact alike_stepTagStart carries alike
    | tag name => exact alike_stepTag carries alike name
    | attributeValue name => exact alike_stepValue carries alike opened
    | verbatim => exact alike_takeBody carries alike _ _ _ _ opened
    | rawCode => exact alike_stepRawCode carries alike opened
    | rawText tag => exact alike_stepRawText carries alike tag opened

theorem alike_finish : s.finish.Alike R t.finish := by
  obtain ⟨previous, rest, position, modes⟩ := s
  obtain ⟨previous', rest', position', modes'⟩ := t
  cases alike.modes with
  | nil => exact ⟨.cons (alike.token carries .eof 0) .nil, .nil, .none⟩
  | cons head _ => exact ⟨.nil, .nil, .some ⟨congrArg Mode.openFault head.mode, head.start⟩⟩

end Steps

/-! ## Runs -/

/-- States that agree but for their positions lead to scans that agree but for theirs. -/
theorem alike_run {R : Position → Position → Prop} (carries : Position.Carries R)
    (dialect : Dialect) {s t : ScanState} (alike : s.Alike R t) :
    (s.run dialect).Alike R (t.run dialect) := by
  revert t
  refine run_induction dialect (P := fun s scan => ∀ {t : ScanState}, s.Alike R t →
    scan.Alike R (t.run dialect)) ?ended ?failed ?stepped s
  case ended =>
    intro s ended t alike
    rw [run_of_ended (alike.rest ▸ ended)]
    exact alike_finish carries alike
  case failed =>
    intro s fault ahead failed t alike
    have step := alike_step carries alike dialect
    have next := step.next
    rw [failed] at next
    cases other : (t.step dialect).next with
    | ok _ => rw [other] at next; cases next
    | error also =>
      rw [other] at next
      cases next with
      | error same =>
        rw [run_of_failed (alike.rest ▸ ahead) other]
        exact ⟨step.tokens, step.diagnostics, .some same⟩
  case stepped =>
    intro s after ahead stepped ih t alike
    have step := alike_step carries alike dialect
    have next := step.next
    rw [stepped] at next
    cases other : (t.step dialect).next with
    | error _ => rw [other] at next; cases next
    | ok also =>
      rw [other] at next
      cases next with
      | ok later =>
        have rest := ih later
        rw [run_of_stepped (alike.rest ▸ ahead) other]
        exact ⟨List.rel_append step.tokens rest.tokens,
          List.rel_append step.diagnostics rest.diagnostics, rest.fault⟩

end ScanState

end BladeTemplate
