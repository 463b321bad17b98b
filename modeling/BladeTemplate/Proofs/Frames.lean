import BladeTemplate.Tree.Build

/-!
# The frames in sight

Adding to a tree touches the innermost frames only. What the frames further out will become stays as
it is until they are innermost themselves.

* `FrameStack.openings` lists what the open frames will become;
* `Builder.openings_abandonMany` says what is left after frames were given up;
* `openings_of_findIdx` and `openings_of_findElement` say what a search through the frames finds.
-/

namespace BladeTemplate

namespace FrameStack

/-- What the open frames will become, innermost first. -/
def openings (stack : FrameStack) : List Opened :=
  stack.frames.map (·.opened)

/-- Adding a child changes no opening. -/
theorem openings_append (stack : FrameStack) (node : Node) :
    (stack.append node).openings = stack.openings := by
  unfold append openings
  split
  · rfl
  · next frame outer h => simp [h]

theorem openings_pop? {stack rest : FrameStack} {frame : Frame}
    (popped : stack.pop? = some (frame, rest)) : stack.openings = frame.opened :: rest.openings := by
  unfold pop? at popped
  split at popped
  · cases popped
  · next outer h =>
    cases popped
    simp [openings, h]

end FrameStack

namespace Builder

/-- Giving up a frame takes its opening away and touches no other. -/
theorem openings_abandon (builder : Builder) (cause : Option Directive) :
    (builder.abandon cause).stack.openings = builder.stack.openings.tail := by
  unfold abandon
  split
  · next none =>
    unfold FrameStack.pop? at none
    split at none
    · next empty => simp [FrameStack.openings, empty]
    · cases none
  · next frame rest popped =>
    rw [FrameStack.openings_pop? popped, List.tail_cons]
    simp only
    split <;> exact FrameStack.openings_append _ _

theorem openings_abandonMany (builder : Builder) (cause : Option Directive) (count : Nat) :
    (builder.abandonMany cause count).stack.openings = builder.stack.openings.drop count := by
  induction count generalizing builder with
  | zero => rfl
  | succ count ih =>
    rw [abandonMany, ih, openings_abandon, List.drop_tail]

/-- The opening that a search for a frame finds. -/
theorem openings_of_findIdx {builder : Builder} {wanted : Frame → Bool} {above : Nat}
    (found : builder.stack.frames.findIdx? wanted = some above) :
    ∃ frame outer, builder.stack.openings.drop above = frame.opened :: outer ∧
      wanted frame = true := by
  obtain ⟨bound, holds, _⟩ := List.findIdx?_eq_some_iff_getElem.1 found
  refine ⟨builder.stack.frames[above], (builder.stack.frames.drop (above + 1)).map (·.opened), ?_,
    holds⟩
  rw [FrameStack.openings, ← List.map_drop, List.drop_eq_getElem_cons bound, List.map_cons]

theorem length_of_drop_cons {α : Type} {xs ys : List α} {x : α} {n : Nat}
    (h : xs.drop n = x :: ys) : n ≤ xs.length := by
  have := congrArg List.length h
  simp at this
  omega

/-- The element that a search for an end tag's partner finds. -/
theorem openings_of_findElement {name : Chars} {frames : List Frame} {above : Nat}
    (found : FrameStack.findElementIn name frames = some above) :
    ∃ kind markup outer,
      (frames.map (·.opened)).drop above = Opened.element kind markup :: outer ∧
        Tag.closes name markup.tag = true := by
  induction frames generalizing above with
  | nil => cases found
  | cons frame outer ih =>
    unfold FrameStack.findElementIn at found
    split at found
    · cases found
    · next kind markup opened =>
      split at found
      · next closes =>
        cases found
        exact ⟨kind, markup, outer.map (·.opened), by simp [opened], closes⟩
      · obtain ⟨rest, later, rfl⟩ := Option.map_eq_some_iff.1 found
        simpa using ih later

end Builder

end BladeTemplate
