import BladeTemplate.Proofs.ArgumentLists
import BladeTemplate.Proofs.LineMargins

/-!
# Lines of the output

`Lines` takes requests one at a time and keeps in mind what has only been asked for. The lines it
ends up with can be told from the requests at once. What is asked for between two `newline`s makes
up one line, if any of it is text: the indentation of the level at which the first fragment came,
and the fragments, with one space between two of them where one was asked for.

* `LineCall.rows` reads the lines off the requests, and `Lines.Row.text` is the text of one;
* `Lines.Adds` says what requests add to the line in progress, `Lines.performEach_others` for those
  behind its first fragment and `Lines.performEach_row` for those of a whole line;
* `Lines.Lays` says which lines are finished, with the blank lines between them, and is kept by
  every line: `Lines.Lays.segment`, `Lines.Lays.segments`;
* `output_lines` is the result for all requests, with what becomes of a text of several lines.
-/

namespace BladeTemplate

open Text

/-! ## What requests ask for -/

/-- A line that is asked for, with the level at which its first fragment comes. The other fragments
have whether a space goes in front of them. -/
structure Lines.Row where
  level : Nat
  first : Chars
  others : List (Bool × Chars)
  deriving DecidableEq, Repr

namespace Lines.Row

/-- What the fragments behind the first one add to a line. -/
def tail (others : List (Bool × Chars)) : Chars :=
  others.flatMap fun other => (if other.1 then [' '] else []) ++ other.2

/-- The text of the line, where one level is indented with `unit`. -/
def text (unit : Chars) (row : Row) : Chars :=
  Text.replicate row.level unit ++ row.first ++ tail row.others

theorem tail_cons (other : Bool × Chars) (others : List (Bool × Chars)) :
    tail (other :: others) = tail [other] ++ tail others := by
  simp [tail]

/-- The fragments of the line in order. -/
def fragments (row : Row) : List Chars :=
  row.first :: row.others.map (·.2)

end Lines.Row

namespace LineCall

/-- Carry out requests one after another. Going back from level 0 leads nowhere. -/
def performEach (calls : List LineCall) (out : Lines) : Lines :=
  calls.foldl (fun out call => call.perform out) out

/-- The level after a request. -/
def levelAfter (level : Nat) : LineCall → Nat
  | .indent => level + 1
  | .dedent => level - 1
  | .append _ | .raw _ | .space | .newline | .blank _ => level

/-- The text of the request, if any, is on one line and has no white space at its ends. -/
def IsTrimmed (call : LineCall) : Prop :=
  '\n' ∉ call.text ∧ trim call.text = call.text

/-- The fragments that are asked for. A space goes in front of one if it was asked for since the
fragment before it. -/
def others : Bool → List LineCall → List (Bool × Chars)
  | _, [] => []
  | spaced, call :: rest =>
    if call.text = [] then others (spaced || call = .space) rest
    else (spaced, call.text) :: others false rest

/-- The line that requests without `newline` ask for, if one of them is for text. -/
def row? : Nat → List LineCall → Option Lines.Row
  | _, [] => none
  | level, call :: rest =>
    if call.text = [] then row? (call.levelAfter level) rest
    else some ⟨level, call.text, others false rest⟩

/-- The lines that are asked for, given the requests between any two `newline`s. -/
def rowsFrom : Nat → List (List LineCall) → List Lines.Row
  | _, [] => []
  | level, segment :: rest =>
    (row? level segment).toList ++ rowsFrom (segment.foldl levelAfter level) rest

/-- The lines that requests ask for. A `newline` behind another with no text between them ends no
line. -/
def rows (calls : List LineCall) : List Lines.Row :=
  rowsFrom 0 (calls.splitOn .newline)

/-- The texts that requests are for, without the empty ones. -/
def fragments (calls : List LineCall) : List Chars :=
  (calls.map LineCall.text).filter (· ≠ [])

variable {call : LineCall} {rest : List LineCall} {level : Nat} {spaced : Bool}

theorem performEach_append (calls more : List LineCall) (out : Lines) :
    performEach (calls ++ more) out = performEach more (performEach calls out) :=
  List.foldl_append

theorem others_of_idle (idle : call.text = []) :
    others spaced (call :: rest) = others (spaced || call = .space) rest :=
  if_pos idle

theorem others_of_text (some : call.text ≠ []) :
    others spaced (call :: rest) = (spaced, call.text) :: others false rest :=
  if_neg some

theorem row?_of_idle (idle : call.text = []) :
    row? level (call :: rest) = row? (call.levelAfter level) rest :=
  if_pos idle

theorem row?_of_text (some : call.text ≠ []) :
    row? level (call :: rest) = .some ⟨level, call.text, others false rest⟩ :=
  if_neg some

theorem fragments_of_idle (idle : call.text = []) : fragments (call :: rest) = fragments rest := by
  simp [fragments, idle]

theorem fragments_of_text (some : call.text ≠ []) :
    fragments (call :: rest) = call.text :: fragments rest := by
  simp [fragments, some]

theorem fragments_append (calls more : List LineCall) :
    fragments (calls ++ more) = fragments calls ++ fragments more := by
  simp [fragments]

theorem fragments_newline (calls : List LineCall) :
    fragments (calls ++ [.newline]) = fragments calls :=
  (fragments_append calls [.newline]).trans (List.append_nil _)

/-! ## No fragment is lost -/

theorem map_others (spaced : Bool) (calls : List LineCall) :
    (others spaced calls).map (·.2) = fragments calls := by
  induction calls generalizing spaced with
  | nil => rfl
  | cons call rest ih =>
    by_cases idle : call.text = []
    · rw [others_of_idle idle, fragments_of_idle idle, ih]
    · rw [others_of_text idle, fragments_of_text idle, List.map_cons, ih]

theorem fragments_row? (level : Nat) (calls : List LineCall) :
    (row? level calls).toList.flatMap Lines.Row.fragments = fragments calls := by
  induction calls generalizing level with
  | nil => rfl
  | cons call rest ih =>
    by_cases idle : call.text = []
    · rw [row?_of_idle idle, fragments_of_idle idle, ih]
    · rw [row?_of_text idle, fragments_of_text idle, ← map_others false rest]
      simp [Lines.Row.fragments]

theorem fragments_rowsFrom (level : Nat) (segments : List (List LineCall)) :
    (rowsFrom level segments).flatMap Lines.Row.fragments = fragments segments.flatten := by
  induction segments generalizing level with
  | nil => rfl
  | cons segment rest ih =>
    rw [rowsFrom, List.flatMap_append, fragments_row?, ih, List.flatten_cons, fragments_append]

/-- Requests are what stands between any two `newline`s, each followed by one. -/
theorem flatMap_splitOn (calls : List LineCall) :
    (calls.splitOn .newline).flatMap (· ++ [.newline]) = calls ++ [.newline] := by
  induction calls with
  | nil => rfl
  | cons call rest ih =>
    rw [List.splitOn_cons_eq_if_modifyHead]
    split
    · next same =>
      obtain rfl : call = .newline := by simpa using same
      rw [List.flatMap_cons, ih]
      rfl
    · obtain ⟨segment, segments, found⟩ :=
        List.exists_cons_of_ne_nil (List.splitOn_ne_nil .newline rest)
      rw [found, List.flatMap_cons] at ih
      rw [found, List.modifyHead_cons, List.flatMap_cons, List.cons_append, List.cons_append, ih]
      rfl

/-- The lines have all the fragments that are asked for, in order. -/
theorem fragments_rows (calls : List LineCall) :
    (rows calls).flatMap Lines.Row.fragments = fragments calls := by
  have ended (segments : List (List LineCall)) :
      fragments (segments.flatMap (· ++ [.newline])) = fragments segments.flatten := by
    induction segments with
    | nil => rfl
    | cons segment rest ih =>
      rw [List.flatMap_cons, fragments_append, fragments_newline, ih, List.flatten_cons,
        fragments_append]
  rw [rows, fragments_rowsFrom, ← ended, flatMap_splitOn, fragments_newline]

end LineCall

/-! ## The line in progress -/

namespace Lines

open LineCall

variable {start out next : Lines} {call : LineCall} {calls : List LineCall} {added more : Chars}
  {level other : Nat}

/-- The text was added to the line in progress, and no line was finished. -/
structure Adds (start out : Lines) (added : Chars) (level : Nat) : Prop where
  unit : out.unit = start.unit
  maxBlank : out.maxBlank = start.maxBlank
  done : out.done = start.done
  current : out.current = start.current ++ added
  level : out.level = level

theorem Adds.refl (out : Lines) : out.Adds out [] out.level :=
  ⟨rfl, rfl, rfl, (List.append_nil _).symm, rfl⟩

theorem Adds.trans (first : start.Adds out added other) (second : out.Adds next more level) :
    start.Adds next (added ++ more) level where
  unit := second.unit.trans first.unit
  maxBlank := second.maxBlank.trans first.maxBlank
  done := second.done.trans first.done
  current := by rw [second.current, first.current, List.append_assoc]
  level := second.level

/-- A request without text adds nothing, unless it ends a line. -/
theorem adds_of_idle (idle : call.text = []) (stays : call ≠ .newline) (out : Lines) :
    out.Adds (call.perform out) [] (call.levelAfter out.level) := by
  have same : out.Adds out [] out.level := .refl out
  cases call with
  | append fragment =>
    obtain rfl : fragment = [] := idle
    exact same
  | raw text =>
    obtain rfl : text = [] := idle
    exact same
  | space =>
    show out.Adds out.space [] out.level
    unfold space
    split
    · exact same
    · exact ⟨rfl, rfl, rfl, same.current, rfl⟩
  | newline => exact absurd rfl stays
  | blank count =>
    show out.Adds (out.blank count) [] out.level
    unfold blank
    split
    · exact ⟨rfl, rfl, rfl, same.current, rfl⟩
    · exact same
  | indent | dedent => exact ⟨rfl, rfl, rfl, same.current, rfl⟩

/-- On a line that has been started, only `space` asks for a space. -/
theorem pendingSpace_of_idle (idle : call.text = []) (stays : call ≠ .newline)
    (started : out.current ≠ []) :
    (call.perform out).pendingSpace = (out.pendingSpace || call = .space) := by
  have begun : out.atLineStart = false := by simpa [atLineStart] using started
  cases call with
  | append fragment =>
    obtain rfl : fragment = [] := idle
    simp [perform, append]
  | raw text =>
    obtain rfl : text = [] := idle
    simp [perform, raw, splitLines, append]
  | space => simp [perform, space, begun]
  | newline => exact absurd rfl stays
  | blank count =>
    simp only [perform, blank]
    split <;> simp
  | indent | dedent => simp [perform, indent, dedent]

/-- A request for a text on one line writes it as a fragment. -/
theorem perform_of_text (single : '\n' ∉ call.text) (some : call.text ≠ []) (out : Lines) :
    call.perform out = out.append call.text ∧ ∀ level, call.levelAfter level = level := by
  cases call with
  | append fragment => exact ⟨rfl, fun _ => rfl⟩
  | raw text => exact ⟨raw_of_single single, fun _ => rfl⟩
  | space | newline | blank | indent | dedent => exact absurd rfl some

/-- A fragment goes on with a line that has been started. -/
theorem adds_append (started : out.current ≠ []) {fragment : Chars} (some : fragment ≠ []) :
    out.Adds (out.append fragment) (Row.tail [(out.pendingSpace, fragment)]) out.level ∧
      (out.append fragment).pendingSpace = false := by
  have begun : ¬ out.atLineStart = true := by simpa [atLineStart] using started
  rw [append, if_neg (by simpa using some), if_neg begun]
  refine ⟨⟨rfl, rfl, rfl, ?_, rfl⟩, rfl⟩
  simp [Row.tail]

/-- What goes on with a line adds its fragments to it. -/
theorem performEach_others (single : ∀ call ∈ calls, '\n' ∉ call.text) (stays : .newline ∉ calls)
    (started : out.current ≠ []) :
    out.Adds (performEach calls out) (Row.tail (others out.pendingSpace calls))
      (calls.foldl levelAfter out.level) := by
  induction calls generalizing out with
  | nil => exact .refl out
  | cons call rest ih =>
    rw [List.forall_mem_cons] at single
    rw [List.mem_cons, not_or] at stays
    have onward {next : Lines} (added : Chars)
        (adds : out.Adds next added (call.levelAfter out.level)) :
        next.Adds (performEach rest next) (Row.tail (others next.pendingSpace rest))
          (rest.foldl levelAfter (call.levelAfter out.level)) := by
      rw [← adds.level]
      refine ih single.2 stays.2 ?_
      rw [adds.current]
      exact List.append_ne_nil_of_left_ne_nil started _
    by_cases idle : call.text = []
    · have adds := adds_of_idle idle (Ne.symm stays.1) out
      have later := onward _ adds
      rw [pendingSpace_of_idle idle (Ne.symm stays.1) started] at later
      rw [others_of_idle idle]
      exact adds.trans later
    · obtain ⟨performed, flat⟩ := perform_of_text single.1 idle out
      obtain ⟨adds, spaced⟩ := adds_append started idle
      rw [← performed] at adds spaced
      have later := onward _ (by rwa [flat])
      rw [spaced] at later
      rw [others_of_text idle, Row.tail_cons]
      exact adds.trans later

/-- The line was begun with the given row, behind blank lines that had been asked for. -/
structure Begins (start out : Lines) (row : Row) (level : Nat) : Prop where
  unit : out.unit = start.unit
  maxBlank : out.maxBlank = start.maxBlank
  current : out.current = row.text start.unit
  started : out.current ≠ []
  level : out.level = level
  done : ∃ blanks, out.done = List.replicate blanks [] ++ start.done ∧ blanks ≤ start.maxBlank ∧
    (start.done = [] → blanks = 0)

/-- A fragment begins a line at the level of the output. -/
theorem begins_append (fresh : out.current = []) {fragment : Chars} (some : fragment ≠ []) :
    out.Begins (out.append fragment) ⟨out.level, fragment, []⟩ out.level ∧
      (out.append fragment).pendingSpace = false := by
  have begun : out.atLineStart = true := by simp [atLineStart, fresh]
  rw [append, if_neg (by simpa using some), if_pos begun]
  refine ⟨⟨rfl, rfl, by simp [Row.text, Row.tail], by simp [some], rfl, ?_⟩, rfl⟩
  show ∃ blanks, out.dueBlanks ++ out.done = List.replicate blanks [] ++ out.done ∧ _
  unfold dueBlanks
  split
  · exact ⟨0, rfl, Nat.zero_le _, fun _ => rfl⟩
  · next some_ =>
    exact ⟨_, rfl, Nat.min_le_right _ _, fun none => absurd (by rw [none]; rfl) some_⟩

/-- What goes on with a line that was begun. -/
theorem Begins.adds {n : Nat} {first : Chars} {others : List (Bool × Chars)}
    (begins : start.Begins out ⟨n, first, []⟩ other)
    (adds : out.Adds next (Row.tail others) level) :
    start.Begins next ⟨n, first, others⟩ level where
  unit := adds.unit.trans begins.unit
  maxBlank := adds.maxBlank.trans begins.maxBlank
  current := by
    rw [adds.current, begins.current]
    simp [Row.text, Row.tail]
  started := by
    rw [adds.current]
    exact List.append_ne_nil_of_left_ne_nil begins.started _
  level := adds.level
  done := by
    rw [adds.done]
    exact begins.done

theorem Begins.after {row : Row} (begins : out.Begins next row level)
    (adds : start.Adds out [] other) : start.Begins next row level where
  unit := begins.unit.trans adds.unit
  maxBlank := begins.maxBlank.trans adds.maxBlank
  current := by rw [begins.current, adds.unit]
  started := begins.started
  level := begins.level
  done := by
    rw [← adds.done, ← adds.maxBlank]
    exact begins.done

/-- What is asked for at the start of a line, up to the next `newline`, makes up one line at
most. -/
theorem performEach_row (single : ∀ call ∈ calls, '\n' ∉ call.text) (stays : .newline ∉ calls)
    (fresh : out.current = []) :
    match row? out.level calls with
    | none => out.Adds (performEach calls out) [] (calls.foldl levelAfter out.level)
    | some row => out.Begins (performEach calls out) row (calls.foldl levelAfter out.level) := by
  induction calls generalizing out with
  | nil => exact .refl out
  | cons call rest ih =>
    rw [List.forall_mem_cons] at single
    rw [List.mem_cons, not_or] at stays
    by_cases idle : call.text = []
    · have adds := adds_of_idle idle (Ne.symm stays.1) out
      have still : (call.perform out).current = [] := by rw [adds.current, fresh]; rfl
      have later := ih single.2 stays.2 still
      rw [adds.level] at later
      rw [row?_of_idle idle]
      cases found : row? (call.levelAfter out.level) rest with
      | none =>
        rw [found] at later
        exact adds.trans later
      | some row =>
        rw [found] at later
        exact later.after adds
    · obtain ⟨performed, flat⟩ := perform_of_text single.1 idle out
      obtain ⟨begins, spaced⟩ := begins_append fresh idle
      rw [← performed] at begins spaced
      have started : (call.perform out).current ≠ [] := by
        rw [performed]
        exact current_append idle
      have later := performEach_others single.2 stays.2 started
      rw [spaced, begins.level] at later
      rw [row?_of_text idle]
      show out.Begins (performEach rest (call.perform out)) _ (rest.foldl levelAfter _)
      rw [flat]
      exact begins.adds later

/-! ## Finished lines -/

/-- The finished lines are the given ones, with blank lines between them: none in front of the first
one, and no more at a time than there may be. -/
structure Lays (out : Lines) (unit : Chars) (most : Nat) (texts : List Chars) : Prop where
  unit_eq : out.unit = unit
  maxBlank_eq : out.maxBlank = most
  fresh : out.current = []
  texts_eq : out.done.reverse.filter (· ≠ []) = texts
  first : out.done.getLast? ≠ some []
  last : out.done.head? ≠ some []
  blanks : ¬ List.replicate (most + 1) [] <:+: out.done

theorem lays_new (unit : Chars) (most : Nat) : (Lines.new unit most).Lays unit most [] := by
  refine ⟨rfl, rfl, rfl, rfl, ?_, ?_, ?_⟩ <;> simp [Lines.new]

/-- Blank lines between two other lines are as many as were put there. -/
theorem not_infix_of_blanks {text : Chars} {blanks most : Nat} {lines : List Chars}
    (some_ : text ≠ []) (few : blanks ≤ most) (last : lines.head? ≠ some [])
    (none : ¬ List.replicate (most + 1) [] <:+: lines) :
    ¬ List.replicate (most + 1) [] <:+: text :: (List.replicate blanks [] ++ lines) := by
  rw [List.infix_cons_iff, not_or]
  constructor
  · rintro ⟨rest, same⟩
    exact some_ (List.cons.inj same).1.symm
  induction blanks with
  | zero => exact none
  | succ blanks ih =>
    rw [List.replicate_succ (n := blanks), List.cons_append, List.infix_cons_iff, not_or]
    refine ⟨?_, ih (Nat.le_of_succ_le few)⟩
    -- So many blank lines at the front would reach into the finished ones, whose last is not blank.
    rintro ⟨rest, same⟩
    have there : ([] :: (List.replicate blanks [] ++ lines))[blanks + 1]? = some ([] : Chars) := by
      rw [← same, List.getElem?_append_left (by rw [List.length_replicate]; omega),
        List.getElem?_replicate, if_pos (by omega)]
    rw [List.getElem?_cons_succ, List.getElem?_append_right (by simp), List.length_replicate,
      Nat.sub_self, ← List.head?_eq_getElem?] at there
    exact last there

variable {unit : Chars} {most : Nat} {texts : List Chars}

/-- A line is finished behind the others, with the blank lines in front of it. -/
theorem Lays.finish {row : Row} (lays : start.Lays unit most texts)
    (begins : start.Begins out row level) :
    out.newline.Lays unit most (texts ++ [row.text unit]) := by
  obtain ⟨blanks, done, few, atStart⟩ := begins.done
  have started : ¬ out.atLineStart = true := by simpa [atLineStart] using begins.started
  have text : out.current = row.text unit := by rw [begins.current, lays.unit_eq]
  have some_ : row.text unit ≠ [] := text ▸ begins.started
  rw [newline, if_neg started, done, text]
  refine ⟨begins.unit.trans lays.unit_eq, begins.maxBlank.trans lays.maxBlank_eq, rfl, ?_, ?_, ?_,
    ?_⟩
  · show ((row.text unit :: (List.replicate blanks [] ++ start.done)).reverse.filter (· ≠ [])) = _
    rw [← lays.texts_eq]
    simp [some_]
  · show (row.text unit :: (List.replicate blanks [] ++ start.done)).getLast? ≠ some []
    cases finished : start.done with
    | nil =>
      rw [atStart finished]
      simpa using some_
    | cons line older =>
      have first := lays.first
      rw [finished] at first
      rwa [← List.cons_append, List.getLast?_append_cons]
  · simpa using some_
  · refine not_infix_of_blanks some_ ?_ lays.last lays.blanks
    rwa [← lays.maxBlank_eq]

/-- The requests between two `newline`s. -/
theorem Lays.segment (lays : out.Lays unit most texts)
    (single : ∀ call ∈ calls, '\n' ∉ call.text) (stays : .newline ∉ calls) :
    (performEach (calls ++ [.newline]) out).Lays unit most
        (texts ++ (row? out.level calls).toList.map (Row.text unit)) ∧
      (performEach (calls ++ [.newline]) out).level = calls.foldl levelAfter out.level := by
  have made := performEach_row single stays lays.fresh
  rw [performEach_append]
  show (performEach calls out).newline.Lays unit most _ ∧ (performEach calls out).newline.level = _
  rw [level_newline]
  cases found : row? out.level calls with
  | none =>
    rw [found] at made
    have fresh : (performEach calls out).current = [] := by rw [made.current, lays.fresh]; rfl
    refine ⟨?_, made.level⟩
    rw [newline, if_pos (by simp [atLineStart, fresh])]
    obtain ⟨unit_, most_, -, texts_, first, last, blanks⟩ := lays
    rw [← made.done] at texts_ first last blanks
    exact ⟨made.unit.trans unit_, made.maxBlank.trans most_, fresh, by simpa using texts_, first,
      last, blanks⟩
  | some row =>
    rw [found] at made
    exact ⟨lays.finish made, made.level⟩

/-- All the requests, from `newline` to `newline`. -/
theorem Lays.segments {segments : List (List LineCall)} (lays : out.Lays unit most texts)
    (single : ∀ segment ∈ segments, ∀ call ∈ segment, '\n' ∉ call.text)
    (stays : ∀ segment ∈ segments, .newline ∉ segment) :
    (performEach (segments.flatMap (· ++ [.newline])) out).Lays unit most
      (texts ++ (rowsFrom out.level segments).map (Row.text unit)) := by
  induction segments generalizing out texts with
  | nil => simpa [performEach, rowsFrom] using lays
  | cons segment rest ih =>
    rw [List.forall_mem_cons] at single stays
    obtain ⟨first, level⟩ := lays.segment single.1 stays.1
    rw [List.flatMap_cons, performEach_append, rowsFrom, List.map_append, ← List.append_assoc,
      ← level]
    exact ih first single.2 stays.2

/-- The lines that are asked for are laid. -/
theorem lays_calls (unit : Chars) (most : Nat) (single : ∀ call ∈ calls, '\n' ∉ call.text) :
    (performEach calls (.new unit most)).newline.Lays unit most
      ((rows calls).map (Row.text unit)) := by
  have lays := (lays_new unit most).segments
    (fun segment (part : segment ∈ calls.splitOn .newline) call member =>
      single call (mem_of_mem_splitOn part call member).1)
    (fun segment part member => (mem_of_mem_splitOn part _ member).2 rfl)
  rw [flatMap_splitOn, performEach_append] at lays
  exact lays

/-! ## Texts of several lines -/

theorem perform?_of_ne_dedent (forward : call ≠ .dedent) (out : Lines) :
    call.perform? out = some (call.perform out) := by
  cases call with
  | dedent => exact absurd rfl forward
  | append | raw | space | newline | blank | indent => rfl

/-- Nothing that was written is taken back. -/
theorem grows_performEach (calls : List LineCall) (out : Lines) :
    out.written <+: (performEach calls out).written := by
  induction calls generalizing out with
  | nil => exact List.prefix_refl _
  | cons call rest ih =>
    refine List.IsPrefix.trans ?_ (ih (call.perform out))
    by_cases back : call = .dedent
    · rw [back]
      exact List.prefix_refl _
    · exact (GoesOn.perform (perform?_of_ne_dedent back out)).grows

/-- What follows a line break of a text is written as it is. -/
theorem written_raw_behind (out : Lines) (first rest : Chars) :
    ∃ front, (out.raw (first ++ '\n' :: rest)).written = front ++ rest := by
  by_cases starts : (first ++ '\n' :: rest).head? ≠ some '\n' ∨ out.current ≠ []
  · obtain ⟨gap, same⟩ := written_raw starts
    exact ⟨out.written ++ gap ++ (first ++ ['\n']), by rw [same]; simp⟩
  · rw [not_or, Decidable.not_not, Decidable.not_not] at starts
    obtain ⟨feed, fresh⟩ := starts
    cases first with
    | nil => exact ⟨out.written, written_raw_feed fresh rest⟩
    | cons c first =>
      obtain rfl : c = '\n' := by simpa using feed
      refine ⟨out.written ++ (first ++ ['\n']), ?_⟩
      rw [List.cons_append, written_raw_feed fresh]
      simp

/-- It stays where it is, whatever is asked for later. -/
theorem raw_stays (out : Lines) (first rest : Chars) : ∃ front, ∀ after,
    front ++ rest <+: (performEach (.raw (first ++ '\n' :: rest) :: after) out).build := by
  obtain ⟨front, written⟩ := written_raw_behind out first rest
  refine ⟨front, fun after => ?_⟩
  have grown := grows_performEach (after ++ [.newline]) (out.raw (first ++ '\n' :: rest))
  rw [written, performEach_append] at grown
  rw [build_eq]
  exact grown

/-! ## The whole text -/

theorem Row.endsInked_text (unit : Chars) {row : Row}
    (each : ∀ fragment ∈ row.fragments, EndsInked fragment) : EndsInked (row.text unit) := by
  rw [fragments, List.forall_mem_cons] at each
  rcases List.eq_nil_or_concat row.others with none | ⟨front, last, split⟩
  · rw [text, none, tail, List.flatMap_nil, List.append_nil]
    exact each.1.after _
  · have ends : EndsInked last.2 := each.2 last.2 (by rw [split]; simp)
    rw [text, split, tail, List.concat_eq_append, List.flatMap_append, List.flatMap_singleton,
      ← List.append_assoc, ← List.append_assoc]
    exact ends.after _

theorem Row.single_text {unit : Chars} {row : Row} (indent : '\n' ∉ unit)
    (each : ∀ fragment ∈ row.fragments, '\n' ∉ fragment) : '\n' ∉ row.text unit := by
  rw [fragments, List.forall_mem_cons] at each
  have margin : '\n' ∉ Text.replicate row.level unit := by
    intro member
    obtain ⟨piece, copied, inside⟩ := List.mem_flatten.1 member
    rw [List.eq_of_mem_replicate copied] at inside
    exact indent inside
  have behind : '\n' ∉ tail row.others := by
    intro member
    obtain ⟨other, part, inside⟩ := List.mem_flatMap.1 member
    rcases List.mem_append.1 inside with space | text
    · split at space <;> simp at space
    · exact each.2 other.2 (List.mem_map_of_mem part) text
  simp [text, margin, each.1, behind]

/-- Every fragment of a line is the text of a request. -/
theorem exists_of_mem_rows {row : Row} (member : row ∈ rows calls) {fragment : Chars}
    (part : fragment ∈ row.fragments) :
    (∃ call ∈ calls, call.text = fragment) ∧ fragment ≠ [] := by
  have asked : fragment ∈ LineCall.fragments calls := by
    rw [← fragments_rows]
    exact List.mem_flatMap.2 ⟨row, member, part⟩
  simpa [LineCall.fragments] using asked

/-- Where texts are trimmed, the lines that are asked for end in ink, and each is one line. -/
theorem endsInked_of_mem_rows {unit : Chars} (indent : '\n' ∉ unit)
    (trimmed : ∀ call ∈ calls, call.IsTrimmed) :
    ∀ line ∈ (rows calls).map (Row.text unit), EndsInked line ∧ '\n' ∉ line := by
  rintro _ member
  obtain ⟨row, asked, rfl⟩ := List.mem_map.1 member
  constructor
  · refine Row.endsInked_text unit fun fragment part => ?_
    obtain ⟨⟨call, inside, rfl⟩, some_⟩ := exists_of_mem_rows asked part
    have same := (trimmed call inside).2
    rw [← same] at some_ ⊢
    exact (firm_trim some_).ends
  · refine Row.single_text indent fun fragment part => ?_
    obtain ⟨⟨call, inside, rfl⟩, -⟩ := exists_of_mem_rows asked part
    exact (trimmed call inside).1

theorem rows_eq_nil_iff : rows calls = [] ↔ ∀ call ∈ calls, call.text = [] := by
  have none : LineCall.fragments calls = [] ↔ ∀ call ∈ calls, call.text = [] := by
    simp [LineCall.fragments]
  rw [← none, ← fragments_rows, List.flatMap_eq_nil_iff]
  constructor
  · intro empty
    simp [empty]
  · intro each
    refine List.eq_nil_iff_forall_not_mem.2 fun row member => ?_
    exact List.cons_ne_nil _ _ (each row member)

/-- There are finished lines if and only if there is one that is not blank. -/
theorem Lays.done_eq_nil_iff (lays : out.Lays unit most texts) : out.done = [] ↔ texts = [] := by
  rw [← lays.texts_eq]
  constructor
  · intro none
    simp [none]
  · intro none
    cases done : out.done with
    | nil => rfl
    | cons line older =>
      have last := lays.last
      rw [done, List.reverse_cons, List.filter_append, List.append_eq_nil_iff] at none
      rw [done, List.head?_cons] at last
      simp only [List.filter_eq_nil_iff, List.mem_singleton, forall_eq] at none
      exact absurd (by simpa using none.2) last

theorem Lays.mem_texts (lays : out.Lays unit most texts) {line : Chars} (member : line ∈ out.done)
    (some_ : line ≠ []) : line ∈ texts := by
  rw [← lays.texts_eq]
  simp [member, some_]

/-- The text of lines that end in ink ends with one line feed. -/
theorem Lays.ends (lays : out.Lays unit most texts) (each : ∀ text ∈ texts, EndsInked text)
    (some_ : out.done ≠ []) :
    ∃ head c, joinLines out.done.reverse = head ++ [c, '\n'] ∧ c ≠ '\n' := by
  obtain ⟨line, older, done⟩ := List.exists_cons_of_ne_nil some_
  have last : line ≠ [] := by
    rintro rfl
    exact lays.last (by rw [done]; rfl)
  obtain ⟨head, c, rfl, ink⟩ := each line (lays.mem_texts (by simp [done]) last)
  refine ⟨joinLines older.reverse ++ head, c, ?_, ?_⟩
  · rw [done, List.reverse_cons, joinLines_append]
    simp [joinLines]
  · rintro rfl
    cases ink

theorem joinLines_eq_nil_iff {lines : List Chars} : joinLines lines = [] ↔ lines = [] := by
  cases lines <;> simp [joinLines]

end Lines

open Lines LineCall

/-- **The lines of the output.** Let every text that is asked for be on one line without white space
at its ends. Then nothing is written if and only if all the texts are empty. Otherwise the output
ends with one line feed, its first line is not blank, and there are never more blank lines in a row
than there may be. The other lines are those that are asked for: the indentation of the level at
which the first fragment came, and the fragments in order, with one space between two of them if it
was asked for between them. No line ends in white space, and no fragment is lost.

Whatever is asked for, what follows a line break of a text stands in the output as it is from then
on, in one place. -/
theorem output_lines :
    (∀ (unit : Chars) (maxBlank : Nat) (calls : List LineCall), '\n' ∉ unit →
      (∀ call ∈ calls, call.IsTrimmed) →
      let built := (performEach calls (.new unit maxBlank)).build
      (built = [] ↔ ∀ call ∈ calls, call.text = []) ∧
      (built ≠ [] → ∃ head c, built = head ++ [c, '\n'] ∧ c ≠ '\n') ∧
      ∃ lines, built = joinLines lines ∧
        (∀ line ∈ lines, '\n' ∉ line ∧ (line ≠ [] → EndsInked line)) ∧
        lines.head? ≠ some [] ∧ ¬ List.replicate (maxBlank + 1) [] <:+: lines ∧
        lines.filter (· ≠ []) = (rows calls).map (Row.text unit) ∧
        (rows calls).flatMap Row.fragments = LineCall.fragments calls) ∧
    ∀ (unit : Chars) (maxBlank : Nat) (before : List LineCall) (first rest : Chars),
      ∃ front, ∀ after, front ++ rest <+:
        (performEach (before ++ .raw (first ++ '\n' :: rest) :: after)
          (.new unit maxBlank)).build := by
  constructor
  · intro unit maxBlank calls indent trimmed built
    let out := (performEach calls (.new unit maxBlank)).newline
    have lays : out.Lays unit maxBlank ((rows calls).map (Row.text unit)) :=
      lays_calls unit maxBlank fun call member => (trimmed call member).1
    have each := endsInked_of_mem_rows indent trimmed
    have text : built = joinLines out.done.reverse := rfl
    have none : built = [] ↔ out.done = [] := by
      rw [text, joinLines_eq_nil_iff, List.reverse_eq_nil_iff]
    refine ⟨?_, fun some_ => ?_, out.done.reverse, text, fun line member => ?_, ?_, ?_,
      lays.texts_eq, fragments_rows calls⟩
    · rw [none, lays.done_eq_nil_iff, List.map_eq_nil_iff, rows_eq_nil_iff]
    · exact lays.ends (fun line member => (each line member).1) fun empty => some_ (none.2 empty)
    · have asked := lays.mem_texts (List.mem_reverse.1 member)
      refine ⟨?_, fun some_ => (each line (asked some_)).1⟩
      by_cases empty : line = []
      · simp [empty]
      · exact (each line (asked empty)).2
    · rw [List.head?_reverse]
      exact lays.first
    · rw [← List.reverse_replicate, List.reverse_infix]
      exact lays.blanks
  · intro unit maxBlank before first rest
    obtain ⟨front, stays⟩ := raw_stays (performEach before (.new unit maxBlank)) first rest
    refine ⟨front, fun after => ?_⟩
    rw [performEach_append]
    exact stays after

/-- A list with a fragment of two parts, blank lines, and a level that is left within a line. -/
theorem output_lines_list :
    let calls : List LineCall := [.append "<ul>".toList, .newline, .indent, .blank 3,
      .append ['a'], .space, .append [], .raw ['b'], .blank 5, .newline, .newline, .space,
      .append ['c'], .append ['d'], .dedent, .newline, .append "</ul>".toList]
    let built := (performEach calls (.new [' ', ' '] 2)).build
    (∀ call ∈ calls, call.IsTrimmed) ∧ built = "<ul>\n  a b\n\n\n  cd\n</ul>\n".toList ∧
      (rows calls).map (Row.text [' ', ' ']) =
        ["<ul>".toList, "  a b".toList, "  cd".toList, "</ul>".toList] ∧
      (∃ lines, built = joinLines lines ∧ ¬ List.replicate 3 [] <:+: lines ∧
        lines.filter (· ≠ []) =
          ["<ul>".toList, "  a b".toList, "  cd".toList, "</ul>".toList]) ∧
      ∃ front, ∀ after, front ++ "x\n y".toList <+:
        (performEach (calls ++ .raw "z\nx\n y".toList :: after) (.new [' ', ' '] 2)).build := by
  intro calls built
  have trimmed : ∀ call ∈ calls, call.IsTrimmed := by
    unfold IsTrimmed
    decide +kernel
  have asked : (rows calls).map (Row.text [' ', ' ']) =
      ["<ul>".toList, "  a b".toList, "  cd".toList, "</ul>".toList] := by decide +kernel
  obtain ⟨laid, stays⟩ := output_lines
  obtain ⟨-, -, lines, whole, -, -, blanks, rest, -⟩ := laid [' ', ' '] 2 calls (by decide) trimmed
  refine ⟨trimmed, by decide +kernel, asked, ⟨lines, whole, blanks, rest.trans asked⟩, ?_⟩
  exact stays [' ', ' '] 2 calls ['z'] "x\n y".toList

end BladeTemplate
