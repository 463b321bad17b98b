import BladeTemplate.Proofs.Matching
import BladeTemplate.Proofs.Run
import BladeTemplate.Proofs.Slices

/-!
# Lines and columns

The position of a token is counted while reading, character by character, so that its line and
column are those of its offset. Of two tokens the one that starts first has the earlier line, or the
same line and the earlier column.

* `Position.ofOffset` is the position of an offset, and `Position.before_ofOffset` says that
  positions are in the order of their offsets;
* `sited_scan` says that every token is at the positions of its offsets;
* `directives_precede` orders the directives of a template.
-/

namespace BladeTemplate

open Text Lookahead

namespace Position

/-! ## The position of an offset -/

/-- The position of an offset in a text. -/
def ofOffset (source : Chars) (n : Nat) : Position :=
  start.advance (source.take n)

/-- One position is on an earlier line than another, or on the same line in an earlier column. -/
def Before (p q : Position) : Prop :=
  p.line < q.line ∨ (p.line = q.line ∧ p.column < q.column)

theorem Before.trans {p q r : Position} (first : p.Before q) (second : q.Before r) :
    p.Before r := by
  unfold Before at *
  omega

theorem before_step (p : Position) (c : Char) : p.Before (p.step c) := by
  unfold Before step
  split <;> simp

theorem advance_append (p : Position) (text more : Chars) :
    p.advance (text ++ more) = (p.advance text).advance more :=
  List.foldl_append

theorem before_advance (p : Position) {text : Chars} (some : text ≠ []) :
    p.Before (p.advance text) := by
  induction text generalizing p with
  | nil => exact absurd rfl some
  | cons c rest ih =>
    show p.Before ((p.step c).advance rest)
    by_cases last : rest = []
    · rw [last]
      exact before_step p c
    · exact (before_step p c).trans (ih (p.step c) last)

theorem ofOffset_add (source : Chars) (n m : Nat) :
    Position.ofOffset source (n + m) =
      (Position.ofOffset source n).advance ((source.drop n).take m) := by
  rw [ofOffset, List.take_add, advance_append]
  rfl

/-- Positions are in the order of their offsets. -/
theorem before_ofOffset {source : Chars} {n m : Nat} (less : n < m) (bound : m ≤ source.length) :
    (Position.ofOffset source n).Before (Position.ofOffset source m) := by
  obtain ⟨k, rfl⟩ := Nat.exists_eq_add_of_lt less
  rw [Nat.add_assoc, ofOffset_add]
  refine before_advance _ (List.ne_nil_of_length_pos ?_)
  rw [List.length_take, List.length_drop]
  omega

end Position

/-! ## Reading -/

/-- The token starts and stops at the positions of its offsets. -/
structure Token.Sited (source : Chars) (token : Token) : Prop where
  start : token.start = Position.ofOffset source token.start.offset
  stop : token.stop = Position.ofOffset source token.stop.offset

namespace ScanState

/-- The state reads the given text and knows the position of its offset. -/
structure Sited (source : Chars) (s : ScanState) : Prop where
  on : s.On source
  position : s.position = Position.ofOffset source s.offset

/-- The tokens of a step, and the state after it, are at the positions of their offsets. -/
structure StepSited (source : Chars) (step : Step) : Prop where
  tokens : ∀ token ∈ step.tokens, token.Sited source
  next : ∀ next, step.next = .ok next → next.Sited source

variable {source : Chars} {s : ScanState}

theorem sited_start (source : Chars) : (start source).Sited source :=
  ⟨on_start source, rfl⟩

theorem Sited.skip (sited : s.Sited source) (length : Nat) : (s.skip length).Sited source := by
  refine ⟨sited.on.skip length, ?_⟩
  have whole : s.rest.take length = (source.drop s.offset).take (s.rest.take length).length := by
    rw [← sited.on.rest, List.length_take]
    rcases Nat.le_total length s.rest.length with less | more
    · rw [Nat.min_eq_left less]
    · rw [Nat.min_eq_right more, List.take_length, List.take_of_length_le more]
  rw [offset_skip, Position.ofOffset_add, ← whole, ← sited.position]
  rfl

theorem Sited.pop (sited : s.Sited source) : s.pop.Sited source :=
  ⟨sited.on.pop, sited.position⟩

theorem Sited.push (sited : s.Sited source) (mode : Mode) : (s.push mode).Sited source :=
  ⟨sited.on.push mode, sited.position⟩

theorem Sited.become (sited : s.Sited source) (mode : Mode) : (s.become mode).Sited source := by
  refine ⟨sited.on.become mode, ?_⟩
  rw [offset_become, ← sited.position]
  unfold ScanState.become
  split <;> rfl

theorem Sited.token (sited : s.Sited source) (kind : TokenKind) (length : Nat) :
    (s.token kind length).Sited source :=
  ⟨sited.position, (sited.skip length).position⟩

theorem stepSited_fault {fault : LexFault × Position} (diagnostics : List Diagnostic)
    (events : List Event) :
    StepSited source { diagnostics, events, next := .error fault } :=
  ⟨by simp, by simp⟩

theorem stepSited_next {tokens : List Token} (sited : ∀ token ∈ tokens, token.Sited source)
    {next : ScanState} (after : next.Sited source) (diagnostics : List Diagnostic)
    (events : List Event) : StepSited source { tokens, diagnostics, events, next := .ok next } := by
  refine ⟨sited, ?_⟩
  rintro _ ⟨⟩
  exact after

theorem stepSited_take (sited : s.Sited source) (kind : TokenKind) (length : Nat) :
    StepSited source (s.take kind length) :=
  stepSited_next (by simpa using sited.token kind length) (sited.skip length) _ _

theorem stepSited_enter (sited : s.Sited source) (mode : Mode) :
    StepSited source (s.enter mode) :=
  stepSited_next (by simp) (sited.push mode) _ _

theorem stepSited_takeThrough (sited : s.Sited source) (kind : TokenKind) (lead : Nat)
    (closer : Chars) (fault : LexFault) :
    StepSited source (s.takeThrough kind lead closer fault) := by
  unfold takeThrough
  split
  · exact stepSited_take sited kind _
  · exact stepSited_fault _ _

theorem stepSited_stepBang (sited : s.Sited source) : StepSited source s.stepBang := by
  unfold stepBang
  split
  · exact stepSited_takeThrough sited _ _ _ _
  split
  · exact stepSited_takeThrough sited _ _ _ _
  split
  · exact stepSited_takeThrough sited _ _ _ _
  split
  · exact stepSited_enter sited _
  · have one := stepSited_take sited .text 1
    exact ⟨one.tokens, one.next⟩

theorem stepSited_stepConstruct (sited : s.Sited source) : StepSited source s.stepConstruct := by
  unfold stepConstruct
  split
  · exact stepSited_enter sited _
  split
  · exact stepSited_enter sited _
  split
  · exact stepSited_enter sited _
  split
  · exact stepSited_takeThrough sited _ _ _ _
  split
  · exact stepSited_stepBang sited
  · exact stepSited_enter sited _

theorem stepSited_stepText (sited : s.Sited source) : StepSited source s.stepText := by
  unfold stepText
  simp only
  split
  · exact stepSited_stepConstruct sited
  · split
    · exact stepSited_take sited _ _
    · have construct := stepSited_stepConstruct
        (sited.skip (textRunLength s.previous s.rest))
      exact ⟨List.forall_mem_cons.2 ⟨sited.token .text _, construct.tokens⟩, construct.next⟩

theorem stepSited_stepDirectiveHead (dialect : Dialect) (sited : s.Sited source) :
    StepSited source (s.stepDirectiveHead dialect) := by
  unfold stepDirectiveHead
  simp only
  split
  · exact stepSited_next (by simp) (sited.become _) _ _
  · refine ⟨by simpa using sited.token .directiveName _, ?_⟩
    intro next moves
    simp only at moves
    split at moves
    · cases moves
      exact (sited.skip _).pop
    · cases moves
      exact ((sited.skip _).skip _).become _

theorem stepSited_stepArguments (sited : s.Sited source) (start : Position) :
    StepSited source (s.stepArguments start) := by
  unfold stepArguments
  split
  · exact stepSited_fault _ _
  · next length _ =>
    have inside := sited.skip 1
    have closing := inside.skip (length - 2)
    refine stepSited_next ?_ (closing.skip 1).pop _ _
    rw [List.cons_append, List.forall_mem_cons, List.forall_mem_append]
    refine ⟨sited.token _ _, ?_, by simpa using closing.token .argumentsClose 1⟩
    split
    · simp
    · simpa using inside.token .arguments _

theorem stepSited_takeTriple (sited : s.Sited source) (opening content closing : TokenKind)
    (width length : Nat) :
    StepSited source (s.takeTriple opening content closing width length) := by
  have inside := sited.skip width
  have after := inside.skip length
  refine stepSited_next ?_ (after.skip width).pop _ _
  simpa using
    ⟨sited.token opening width, inside.token content length, after.token closing width⟩

theorem stepSited_stepAttribute (dialect : Dialect) (sited : s.Sited source) :
    StepSited source (s.stepAttribute dialect) := by
  unfold stepAttribute
  refine ⟨by simpa using sited.token _ _, ?_⟩
  intro next moves
  simp only at moves
  split at moves
  · cases moves
    exact (((sited.skip _).skip _).skip _).push _
  · cases moves
    exact sited.skip _

theorem stepSited_stepTag (dialect : Dialect) (sited : s.Sited source) (name : Chars) :
    StepSited source (s.stepTag dialect name) := by
  have past := sited.skip (countWhile isTagSpace s.rest)
  unfold stepTag
  simp only
  split
  · exact stepSited_next (by simp) past _ _
  split
  · exact stepSited_next (by simpa using past.token .tagClose 2) (past.skip 2).pop _ _
  split
  · refine stepSited_next (by simpa using past.token .tagClose 1) ?_ _ _
    split
    · exact (past.skip 1).pop.push _
    · exact (past.skip 1).pop
  split
  · exact stepSited_enter past _
  split
  · exact stepSited_enter past _
  · exact stepSited_stepAttribute dialect past

theorem stepSited_takeBody (sited : s.Sited source) (kind : TokenKind) (lead : Nat)
    (closer : Chars) (fault : LexFault) (start : Position) :
    StepSited source (s.takeBody kind lead closer fault start) := by
  unfold takeBody
  split
  · exact stepSited_fault _ _
  · exact stepSited_next (by simpa using sited.token kind _) (sited.skip _).pop _ _

/-- Every step has its tokens at the positions of their offsets. -/
theorem stepSited_step (dialect : Dialect) (sited : s.Sited source) :
    StepSited source (s.step dialect) := by
  unfold step
  split
  · exact stepSited_stepText sited
  · next mode start outer top =>
    cases mode with
    | directiveHead => exact stepSited_stepDirectiveHead dialect sited
    | arguments => exact stepSited_stepArguments sited start
    | echo =>
      simp only [stepEcho]
      split
      · exact stepSited_fault _ _
      · exact stepSited_takeTriple sited _ _ _ _ _
    | comment =>
      simp only [stepComment]
      split
      · exact stepSited_fault _ _
      · exact stepSited_takeTriple sited _ _ _ _ _
    | tagStart =>
      exact stepSited_next (by simpa using sited.token _ _) ((sited.skip _).become _) _ _
    | tag name => exact stepSited_stepTag dialect sited name
    | attributeValue name =>
      simp only [stepValue]
      split
      · exact stepSited_fault _ _
      · exact stepSited_next (by simpa using sited.token _ _) (sited.skip _).pop _ _
    | verbatim => exact stepSited_takeBody sited _ _ _ _ _
    | rawCode =>
      simp only [stepRawCode]
      split
      · exact stepSited_next (by simpa using sited.token _ _) (sited.skip _).pop _ _
      · exact stepSited_takeBody sited _ _ _ _ _
    | rawText tag =>
      simp only [stepRawText]
      split
      · exact stepSited_fault _ _
      · refine stepSited_next ?_ (sited.skip _).pop _ _
        split
        · simp
        · simpa using sited.token _ _

theorem sited_run (dialect : Dialect) (s : ScanState) : s.Sited source →
    ∀ token ∈ (s.run dialect).tokens, token.Sited source := by
  induction s using run_induction dialect with
  | ended s atEnd =>
    intro sited
    unfold finish
    split
    · simpa using sited.token .eof 0
    · simp
  | failed s fault ahead h =>
    intro sited
    exact (stepSited_step dialect sited).tokens
  | stepped s next ahead h ih =>
    intro sited
    have step := stepSited_step dialect sited
    exact List.forall_mem_append.2 ⟨step.tokens, ih (step.next next h)⟩

end ScanState

/-- Every token of a template starts and stops at the positions of its offsets. -/
theorem sited_scan (dialect : Dialect) (source : Chars) :
    ∀ token ∈ (scan dialect source).tokens, token.Sited source := by
  have sited := ScanState.sited_start source
  unfold scan
  simp only
  split
  · next length _ =>
    exact List.forall_mem_cons.2 ⟨sited.token .frontMatter length,
      ScanState.sited_run dialect _ (sited.skip length)⟩
  · exact ScanState.sited_run dialect _ sited

/-! ## Directives -/

/-- The directive of an item that is one. -/
def Item.directive? : Item → Option Directive
  | .directive read => some read
  | _ => none

theorem Item.stands_readDirective (origin : Origin) (name : Token) (rest : List Token) :
    (readDirective origin name rest).1.location.line = name.start.line ∧
      (readDirective origin name rest).1.location.column = name.start.column ∧
      (readDirective origin name rest).1.location.offset = name.start.offset := by
  unfold readDirective
  simp only
  split <;> exact ⟨rfl, rfl, rfl⟩

/-- A directive stands where its name does. -/
theorem Item.token_of_directive (origin : Origin) (tokens : List Token) {read : Directive}
    (member : .directive read ∈ ofTokens origin tokens) :
    ∃ token ∈ tokens, read.location.line = token.start.line ∧
      read.location.column = token.start.column ∧ read.location.offset = token.start.offset := by
  have dropped {count : Nat} {rest : List Token} {token : Token}
      (found : ∃ other ∈ rest.drop count, read.location.line = other.start.line ∧
        read.location.column = other.start.column ∧ read.location.offset = other.start.offset) :
      ∃ other ∈ token :: rest, read.location.line = other.start.line ∧
        read.location.column = other.start.column ∧
        read.location.offset = other.start.offset := by
    obtain ⟨other, inside, stands⟩ := found
    exact ⟨other, List.mem_cons_of_mem _ (List.mem_of_mem_drop inside), stands⟩
  fun_induction ofTokens origin tokens with
  | case1 | case2 => cases member
  | case3 name rest _ _ ih =>
    rcases List.mem_cons.1 member with same | later
    · refine ⟨name, List.mem_cons_self, ?_⟩
      cases same
      exact stands_readDirective origin name rest
    · exact dropped (ih later)
  | case4 _ _ _ _ _ ih | case5 _ _ _ _ ih | case6 _ _ _ _ _ ih =>
    rcases List.mem_cons.1 member with same | later
    · cases same
    · exact dropped (ih later)
  | case7 _ _ _ _ ih | case8 _ _ _ _ _ _ _ _ _ _ ih | case9 _ _ _ _ _ _ _ _ _ ih =>
    rcases List.mem_cons.1 member with same | later
    · cases same
    · exact @dropped 0 _ _ (ih later)

/-- One location starts before another, by its offset and by its line and column. -/
structure Location.Precedes (first second : Location) : Prop where
  offset : first.offset < second.offset
  position : first.line < second.line ∨ (first.line = second.line ∧ first.column < second.column)

theorem Item.Covers.ordered {source : Chars} {item : Item} {a b : Nat}
    (covers : item.Covers source a b) : a ≤ b := by
  cases covers with
  | text spans | comment spans | region spans | endTag _ spans => exact spans.ordered
  | echo written => exact written.spans.ordered
  | directive written => exact written.spans.ordered
  | startTag _ spans => exact spans.ordered

theorem Tiles.ordered {source : Chars} {items : List Item} {a b : Nat}
    (tiles : Tiles (Item.Covers source) items a b) : a ≤ b := by
  induction tiles with
  | nil => exact Nat.le_refl _
  | cons covers _ ih => exact Nat.le_trans covers.ordered ih

/-- Items that tile a part of a template have their directives there, in order. -/
theorem Tiles.directives {source : Chars} {items : List Item} {a b : Nat}
    (tiles : Tiles (Item.Covers source) items a b) :
    (∀ read ∈ items.filterMap Item.directive?,
      (a : Int) ≤ read.location.offset ∧ read.location.offset < b) ∧
    (items.filterMap Item.directive?).Pairwise fun first second =>
      first.location.offset < second.location.offset := by
  induction tiles with
  | nil => simp
  | @cons item rest a b c covers later ih =>
    obtain ⟨bounds, sorted⟩ := ih
    have ab := covers.ordered
    have bc := later.ordered
    cases directive : item.directive? with
    | none =>
      rw [List.filterMap_cons_none directive]
      refine ⟨fun read member => ?_, sorted⟩
      have := bounds read member
      omega
    | some read =>
      rw [List.filterMap_cons_some directive, List.forall_mem_cons, List.pairwise_cons]
      cases covers with
      | directive written =>
        cases directive
        have some := written.nonempty
        have start := written.spans.offset
        refine ⟨⟨by omega, fun other member => ?_⟩, fun other member => ?_, sorted⟩
        · have := bounds other member
          omega
        · have := bounds other member
          omega
      | _ => cases directive

/-- The directives of a template that reads without fault stand in it one before the other. -/
theorem directives_precede (dialect : Dialect) (file : Option String) (source : Chars)
    (read : (scan dialect source).fault = none) :
    ((Item.ofTokens ⟨dialect.registry, file, source⟩ (scan dialect source).tokens).filterMap
      Item.directive?).Pairwise fun first second =>
        first.location.Precedes second.location := by
  obtain ⟨bounds, sorted⟩ := (tiles_ofTokens dialect file source read).directives
  refine sorted.imp_of_mem ?_
  intro first second inFirst inSecond less
  have sited {found : Directive} (member : found ∈ (Item.ofTokens ⟨dialect.registry, file, source⟩
      (scan dialect source).tokens).filterMap Item.directive?) :
      ∃ n : Nat, found.location.offset = n ∧
        found.location.line = (Position.ofOffset source n).line ∧
        found.location.column = (Position.ofOffset source n).column := by
    obtain ⟨item, inside, same⟩ := List.mem_filterMap.1 member
    cases item with
    | directive other =>
      cases same
      obtain ⟨token, tokenIn, line, column, offset⟩ := Item.token_of_directive _ _ inside
      have start : token.start = Position.ofOffset source token.start.offset :=
        (sited_scan dialect source token tokenIn).start
      refine ⟨token.start.offset, offset, ?_, ?_⟩
      · rw [← start]
        exact line
      · rw [← start]
        exact column
    | _ => cases same
  obtain ⟨n, offset, line, column⟩ := sited inFirst
  obtain ⟨m, otherOffset, otherLine, otherColumn⟩ := sited inSecond
  have bound := (bounds second inSecond).2
  have before : (Position.ofOffset source n).Before (Position.ofOffset source m) :=
    Position.before_ofOffset (by omega) (by omega)
  refine ⟨less, ?_⟩
  unfold Position.Before at before
  omega

end BladeTemplate
