import BladeTemplate.Proofs.Printed
import BladeTemplate.Proofs.Span

/-!
# Texts that stand in the output

A text stands in the output at a place where exactly its characters are. Output only grows at its
end, so a text that stands in it once stays where it is, and texts written one after the other have
places that do not overlap.

* `Text.InOrder` says that texts stand in a whole one after the other, `Text.Standing` that each has
  a place of its own, in whatever order;
* `Lines.written` is everything written so far, and `Lines.written_raw` how a text of several lines
  is added to it;
* `Lines.Shows` is what is known to stand in output under construction, with a law for every
  request.
-/

namespace BladeTemplate

namespace Text

/-! ## Places -/

/-- The texts stand in the whole one after the other, with anything between them. -/
inductive InOrder : List Chars → Chars → Prop
  | nil (rest : Chars) : InOrder [] rest
  | cons (gap : Chars) {text rest : Chars} {texts : List Chars} : InOrder texts rest →
      InOrder (text :: texts) (gap ++ text ++ rest)

/-- Every text has a place of its own in the whole, where exactly its characters stand, and no two
places overlap. -/
def Standing (texts : List Chars) (whole : Chars) : Prop :=
  ∃ placed : List (Nat × Chars), placed.map (·.2) = texts ∧
    (∀ spot ∈ placed, cut whole spot.1 (spot.1 + spot.2.length) = spot.2) ∧
    placed.Pairwise fun a b => a.1 + a.2.length ≤ b.1 ∨ b.1 + b.2.length ≤ a.1

namespace InOrder

variable {texts more : List Chars} {whole later : Chars}

theorem after (gap : Chars) (inOrder : InOrder texts whole) : InOrder texts (gap ++ whole) := by
  cases inOrder with
  | nil => exact .nil _
  | cons between rest =>
    rw [← List.append_assoc, ← List.append_assoc]
    exact .cons (gap ++ between) rest

theorem append (first : InOrder texts whole) (second : InOrder more later) :
    InOrder (texts ++ more) (whole ++ later) := by
  induction first with
  | nil rest => exact second.after rest
  | cons gap _ ih =>
    rw [List.append_assoc, List.cons_append]
    exact .cons gap ih

theorem before (inOrder : InOrder texts whole) (rest : Chars) : InOrder texts (whole ++ rest) := by
  have padded := inOrder.append (.nil rest)
  rwa [List.append_nil] at padded

theorem single (text : Chars) : InOrder [text] text := by
  have alone : InOrder [text] ([] ++ text ++ []) := .cons [] (.nil [])
  rwa [List.nil_append, List.append_nil] at alone

/-- A leading part of a text stands where the text does. -/
theorem of_isPrefix {text : Chars} (lead : text <+: whole) : InOrder [text] whole := by
  obtain ⟨rest, rfl⟩ := lead
  exact (single text).before rest

end InOrder

theorem cut_after (gap text : Chars) (a b : Nat) :
    cut (gap ++ text) (gap.length + a) (gap.length + b) = cut text a b := by
  unfold cut
  rw [← List.drop_drop, List.drop_left, Nat.add_sub_add_left]

/-- Texts one after the other have places of their own. -/
theorem InOrder.standing {texts : List Chars} {whole : Chars} (inOrder : InOrder texts whole) :
    Standing texts whole := by
  induction inOrder with
  | nil rest => exact ⟨[], rfl, by simp, .nil⟩
  | @cons gap text rest texts _ ih =>
    obtain ⟨placed, same, stands, apart⟩ := ih
    -- What follows the first text is moved behind it.
    let behind := (gap ++ text).length
    refine ⟨(gap.length, text) :: placed.map fun spot => (behind + spot.1, spot.2), ?_, ?_, ?_⟩
    · rw [List.map_cons, List.map_map]
      exact congrArg (text :: ·) same
    · intro spot member
      rcases List.mem_cons.1 member with rfl | inRest
      · rw [List.append_assoc]
        have first := cut_after gap (text ++ rest) 0 text.length
        rw [Nat.add_zero] at first
        rw [first, cut, List.drop_zero, Nat.sub_zero, List.take_left]
      · obtain ⟨old, there, rfl⟩ := List.mem_map.1 inRest
        show cut _ (behind + old.1) (behind + old.1 + old.2.length) = old.2
        rw [Nat.add_assoc, cut_after, stands old there]
    · refine List.pairwise_cons.2 ⟨?_, ?_⟩
      · intro spot member
        obtain ⟨old, _, rfl⟩ := List.mem_map.1 member
        refine .inl ?_
        show gap.length + text.length ≤ behind + old.1
        have length : behind = gap.length + text.length := List.length_append
        omega
      · refine List.pairwise_map.2 (apart.imp ?_)
        intro a b apart
        show behind + a.1 + a.2.length ≤ behind + b.1 ∨ behind + b.1 + b.2.length ≤ behind + a.1
        omega

/-- The order of the texts does not matter to their places. -/
theorem Standing.perm {texts others : List Chars} {whole : Chars} (standing : Standing texts whole)
    (perm : texts.Perm others) : Standing others whole := by
  obtain ⟨placed, rfl, stands, apart⟩ := standing
  -- The places are put into the order of the texts.
  have reordered : ∃ moved : List (Nat × Chars), moved.Perm placed ∧ moved.map (·.2) = others := by
    generalize same : placed.map (·.2) = texts at perm
    clear stands apart
    induction perm generalizing placed with
    | nil => exact ⟨placed, .refl _, same⟩
    | cons text _ ih =>
      obtain ⟨spot, rest, rfl, rfl, later⟩ := List.map_eq_cons_iff.1 same
      obtain ⟨moved, perm, found⟩ := ih rest later
      exact ⟨spot :: moved, perm.cons spot, by rw [List.map_cons, found]⟩
    | swap first second texts =>
      obtain ⟨one, rest, rfl, rfl, later⟩ := List.map_eq_cons_iff.1 same
      obtain ⟨two, rest, rfl, rfl, last⟩ := List.map_eq_cons_iff.1 later
      exact ⟨two :: one :: rest, .swap one two rest, by rw [List.map_cons, List.map_cons, last]⟩
    | trans _ _ first second =>
      obtain ⟨moved, perm, found⟩ := first placed same
      obtain ⟨last, again, found⟩ := second moved found
      exact ⟨last, again.trans perm, found⟩
  obtain ⟨moved, perm, found⟩ := reordered
  refine ⟨moved, found, ?_, ?_⟩
  · intro spot member
    exact stands spot (perm.mem_iff.1 member)
  · exact (perm.pairwise_iff fun apart => Or.symm apart).2 apart

end Text

open Text

/-! ## Output under construction -/

namespace Lines

/-- Everything written so far. -/
def written (out : Lines) : Chars :=
  joinLines out.done.reverse ++ out.current

theorem written_newline (out : Lines) : ∃ gap, out.newline.written = out.written ++ gap := by
  unfold newline
  split
  · exact ⟨[], by simp [written]⟩
  · exact ⟨['\n'], by simp [written, joinLines]⟩

/-- A fragment is added as it is, behind what had been asked for. -/
theorem written_append (out : Lines) (fragment : Chars) :
    ∃ gap, (out.append fragment).written = out.written ++ gap ++ fragment := by
  unfold append
  split
  · next empty => exact ⟨[], by simp [List.isEmpty_iff.1 empty]⟩
  split
  · next start =>
    have fresh : out.current = [] := List.isEmpty_iff.1 start
    refine ⟨joinLines out.dueBlanks.reverse ++ replicate out.level out.unit, ?_⟩
    simp [written, fresh, joinLines_append]
  · exact ⟨if out.pendingSpace then [' '] else [], by simp [written]⟩

theorem written_breakTo (out : Lines) (line : Chars) :
    (out.breakTo line).written = out.written ++ '\n' :: line := by
  simp [written, breakTo, restart, joinLines]

theorem written_breaks (out : Lines) (lines : List Chars) :
    (lines.foldl breakTo out).written = out.written ++ lines.flatMap ('\n' :: ·) := by
  induction lines generalizing out with
  | nil => simp
  | cons line rest ih =>
    rw [List.foldl_cons, ih, written_breakTo, List.flatMap_cons, List.append_assoc]

/-- A text of several lines is added as it is, unless it starts with a line break at the start of a
line: that line break is already there. -/
theorem written_raw {out : Lines} {text : Chars}
    (starts : text.head? ≠ some '\n' ∨ out.current ≠ []) :
    ∃ gap, (out.raw text).written = out.written ++ gap ++ text := by
  unfold raw
  split
  · next none => exact absurd none (splitLines_ne_nil text)
  · next first one =>
    have same : text = first := by simpa using eq_of_splitLines one
    rw [same]
    exact written_append out first
  · next first second rest several =>
    have whole := eq_of_splitLines several
    simp only
    split
    · next fresh =>
      rw [Bool.and_eq_true, List.isEmpty_iff] at fresh
      have current : out.current = [] := List.isEmpty_iff.1 fresh.2
      rw [fresh.1] at whole
      rcases starts with other | started
      · exact absurd (by rw [whole]; rfl) other
      · exact absurd current started
    · obtain ⟨gap, appended⟩ := written_append out first
      refine ⟨gap, ?_⟩
      rw [written_breaks, written_breakTo, appended, whole]
      simp

/-- At the start of a line, a leading line break adds no line. -/
theorem written_raw_feed {out : Lines} (fresh : out.current = []) (tail : Chars) :
    (out.raw ('\n' :: tail)).written = out.written ++ tail := by
  unfold raw
  cases found : splitLines tail with
  | nil => exact absurd found (splitLines_ne_nil tail)
  | cons line lines =>
    have split : splitLines ('\n' :: tail) = [] :: line :: lines := by
      rw [splitLines, if_pos rfl, found]
    rw [split, eq_of_splitLines found]
    simp only [List.isEmpty_nil, atLineStart, fresh, Bool.and_self, if_true]
    rw [written_breaks]
    simp [written, restart, fresh]

/-- Whatever is written, what stood there before stays. -/
theorem written_raw_grows (out : Lines) (text : Chars) :
    ∃ more, (out.raw text).written = out.written ++ more := by
  by_cases starts : text.head? ≠ some '\n' ∨ out.current ≠ []
  · obtain ⟨gap, same⟩ := written_raw starts
    exact ⟨gap ++ text, by rw [same, List.append_assoc]⟩
  · rw [not_or, Decidable.not_not, Decidable.not_not] at starts
    obtain ⟨feed, fresh⟩ := starts
    obtain ⟨tail, rfl⟩ := List.head?_eq_some_iff.1 feed
    exact ⟨tail, written_raw_feed fresh tail⟩

/-! ## The line in progress -/

theorem current_ne_nil_of_written {out : Lines} {head : Chars} {c : Char}
    (ends : out.written = head ++ [c]) (other : c ≠ '\n') : out.current ≠ [] := by
  intro fresh
  rw [written, fresh, List.append_nil] at ends
  cases finished : out.done with
  | nil => simp [finished, joinLines] at ends
  | cons last older =>
    rw [finished, List.reverse_cons, joinLines_append, joinLines_cons] at ends
    have lines : joinLines older.reverse ++ last ++ ['\n'] = head ++ [c] := by
      simpa [joinLines] using ends
    obtain ⟨_, feed⟩ := List.append_inj' lines rfl
    exact other (List.cons.inj feed).1.symm

theorem current_append {out : Lines} {fragment : Chars} (some : fragment ≠ []) :
    (out.append fragment).current ≠ [] := by
  unfold append
  rw [if_neg (by simpa using some)]
  split <;> simp [some]

/-- A text that does not end in a line break leaves its last line in progress. -/
theorem current_raw {out : Lines} {text head : Chars} {c : Char}
    (starts : text.head? ≠ .some '\n' ∨ out.current ≠ []) (ends : text = head ++ [c])
    (other : c ≠ '\n') : (out.raw text).current ≠ [] := by
  obtain ⟨gap, same⟩ := written_raw starts
  rw [ends, ← List.append_assoc] at same
  rw [ends]
  exact current_ne_nil_of_written same other

/-! ## What stands in the output -/

/-- The texts stand in the output so far, in some order. -/
def Shows (out : Lines) (texts : List Chars) : Prop :=
  ∃ order : List Chars, order.Perm texts ∧ InOrder order out.written

namespace Shows

variable {out next : Lines} {texts others : List Chars}

theorem perm (shows_ : out.Shows texts) (same : texts.Perm others) : out.Shows others := by
  obtain ⟨order, perm, inOrder⟩ := shows_
  exact ⟨order, perm.trans same, inOrder⟩

theorem grown (shows_ : out.Shows texts)
    (grows : ∃ more, next.written = out.written ++ more) : next.Shows texts := by
  obtain ⟨order, perm, inOrder⟩ := shows_
  obtain ⟨more, same⟩ := grows
  exact ⟨order, perm, same ▸ inOrder.before more⟩

theorem indent (shows_ : out.Shows texts) : out.indent.Shows texts := shows_

theorem dedent (shows_ : out.Shows texts) : out.dedent.Shows texts := shows_

theorem space (shows_ : out.Shows texts) : out.space.Shows texts := by
  unfold Lines.space
  split <;> exact shows_

theorem askBlank (shows_ : out.Shows texts) (count : Nat) : (out.blank count).Shows texts := by
  unfold Lines.blank
  split <;> exact shows_

theorem newline (shows_ : out.Shows texts) : out.newline.Shows texts :=
  shows_.grown (written_newline out)

theorem append (shows_ : out.Shows texts) (fragment : Chars) :
    (out.append fragment).Shows texts := by
  obtain ⟨gap, same⟩ := written_append out fragment
  exact shows_.grown ⟨gap ++ fragment, by rw [same, List.append_assoc]⟩

/-- A text that nothing is asked of. -/
theorem raw (shows_ : out.Shows texts) (text : Chars) : (out.raw text).Shows texts :=
  shows_.grown (written_raw_grows out text)

/-- A text that holds further texts one after the other. -/
theorem rawHolding (shows_ : out.Shows texts) {text : Chars} {order : List Chars}
    (perm : order.Perm others) (inOrder : InOrder order text)
    (starts : text.head? ≠ some '\n' ∨ out.current ≠ []) :
    (out.raw text).Shows (texts ++ others) := by
  obtain ⟨earlier, before, stands⟩ := shows_
  obtain ⟨gap, same⟩ := written_raw starts
  refine ⟨earlier ++ order, before.append perm, ?_⟩
  rw [same]
  exact (stands.before gap).append inOrder

/-- A text that is to stand in the output itself. -/
theorem rawKept (shows_ : out.Shows texts) {text : Chars}
    (starts : text.head? ≠ some '\n' ∨ out.current ≠ []) :
    (out.raw text).Shows (texts ++ [text]) :=
  shows_.rawHolding (.refl _) (.single text) starts

/-- At the end, everything that stands in the output has its place there. -/
theorem standing (shows_ : out.Shows texts) : Standing texts out.build := by
  obtain ⟨order, perm, inOrder⟩ := shows_.newline
  have whole : out.newline.written = out.build := by
    rw [written, current_newline, List.append_nil]
    rfl
  rw [whole] at inOrder
  exact inOrder.standing.perm perm

end Shows

end Lines

end BladeTemplate
