import BladeTemplate.Proofs.LeftOpen
import BladeTemplate.Proofs.Locality

/-!
# Bracket groups

The end of an argument list is found with a stack of the closing brackets still owed, in which
string literals are passed over. What is found that way is what a grammar says: a group is an
opening bracket, any number of items and the bracket that closes it, where an item is a group, a
closed literal, or a character that is neither bracket nor quote.

* `Text.BracketItem`, `Text.BracketItems` and `Text.BracketGroup` are the grammar;
* `Text.BracketItem.passed` says that the search passes over every item, and `Text.Repays` what the
  brackets still owed demand of the text that the search has gone through;
* `Text.groupLength_eq_some_iff` puts the two together;
* `groups_recognised` is the result for every position of a text, and for the argument lists that
  the reader comes to.
-/

namespace BladeTemplate

namespace Text

/-! ## The grammar -/

/-- What stands between the quotes of a literal: characters other than that quote and the backslash,
and characters behind a backslash. -/
inductive LiteralBody (quote : Char) : Chars → Prop
  | nil : LiteralBody quote []
  | plain {c : Char} {rest : Chars} : c ≠ quote → c ≠ '\\' → LiteralBody quote rest →
      LiteralBody quote (c :: rest)
  | escaped {c : Char} {rest : Chars} : LiteralBody quote rest →
      LiteralBody quote ('\\' :: c :: rest)

/-- An item of a bracket group: a group, a closed literal, or a character that is neither bracket
nor quote. -/
inductive BracketItem : Chars → Prop
  | group {opening closer : Char} {items : List Chars} : closingBracket opening = some closer →
      (∀ item ∈ items, BracketItem item) → BracketItem (opening :: (items.flatten ++ [closer]))
  | literal {quote : Char} {body : Chars} : isQuote quote = true → LiteralBody quote body →
      BracketItem (quote :: (body ++ [quote]))
  | plain {c : Char} : isQuote c = false → closingBracket c = none → isClosingBracket c = false →
      BracketItem [c]

/-- Any number of items, one behind the other. -/
def BracketItems (text : Chars) : Prop :=
  ∃ items : List Chars, (∀ item ∈ items, BracketItem item) ∧ text = items.flatten

/-- An opening bracket, any number of items, and the bracket that closes it. -/
def BracketGroup (text : Chars) : Prop :=
  ∃ opening closer inside, closingBracket opening = some closer ∧ BracketItems inside ∧
    text = opening :: (inside ++ [closer])

theorem BracketItems.nil : BracketItems [] :=
  ⟨[], by simp, rfl⟩

theorem BracketItems.cons {item text : Chars} (first : BracketItem item) (items : BracketItems text) :
    BracketItems (item ++ text) := by
  obtain ⟨items, all, rfl⟩ := items
  exact ⟨item :: items, List.forall_mem_cons.2 ⟨first, all⟩, rfl⟩

theorem BracketItem.of_inside {opening closer : Char} {inside : Chars}
    (closes : closingBracket opening = some closer) (balanced : BracketItems inside) :
    BracketItem (opening :: (inside ++ [closer])) := by
  obtain ⟨items, all, rfl⟩ := balanced
  exact .group closes all

/-! ## One character of the search -/

/-- A closing bracket is no quote and opens nothing. -/
theorem closer_spec {opening closer : Char} (closes : closingBracket opening = some closer) :
    isQuote opening = false ∧ isQuote closer = false ∧ closingBracket closer = none ∧
      isClosingBracket closer = true := by
  unfold closingBracket at closes
  split at closes
  all_goals cases closes
  all_goals decide

section

variable {pending : List Char} {c closer : Char} {rest : Chars}

theorem groupLengthFrom_quote (quote : isQuote c = true) :
    groupLengthFrom pending .code (c :: rest) =
      (groupLengthFrom pending (.literal c) rest).map (· + 1) := by
  simp only [groupLengthFrom, quote, if_true]

theorem groupLengthFrom_opening (closes : closingBracket c = some closer) :
    groupLengthFrom pending .code (c :: rest) =
      (groupLengthFrom (closer :: pending) .code rest).map (· + 1) := by
  simp only [groupLengthFrom, (closer_spec closes).1, closes, Bool.false_eq_true, if_false]

theorem groupLengthFrom_closer {opening : Char} (closes : closingBracket opening = some closer)
    (outer : List Char) :
    groupLengthFrom (closer :: outer) .code (closer :: rest) =
      if outer.isEmpty then some 1 else (groupLengthFrom outer .code rest).map (· + 1) := by
  obtain ⟨-, noQuote, noOpening, closing⟩ := closer_spec closes
  simp only [groupLengthFrom, noQuote, noOpening, closing, Bool.false_eq_true, if_false, if_true,
    ne_eq, not_true_eq_false]

theorem groupLengthFrom_plain (noQuote : isQuote c = false) (noOpening : closingBracket c = none)
    (noClosing : isClosingBracket c = false) :
    groupLengthFrom pending .code (c :: rest) =
      (groupLengthFrom pending .code rest).map (· + 1) := by
  simp only [groupLengthFrom, noQuote, noOpening, noClosing, Bool.false_eq_true, if_false]

theorem groupLengthFrom_literal {quote : Char} :
    groupLengthFrom pending (.literal quote) (c :: rest) =
      (groupLengthFrom pending (Quoting.next (.literal quote) c) rest).map (· + 1) := by
  simp only [groupLengthFrom]

theorem groupLengthFrom_escape {quote : Char} :
    groupLengthFrom pending (.escape quote) (c :: rest) =
      (groupLengthFrom pending (.literal quote) rest).map (· + 1) := by
  simp only [groupLengthFrom, Quoting.next]

theorem map_add_map_add (found : Option Nat) (n m : Nat) :
    (found.map (· + n)).map (· + m) = found.map (· + (n + m)) := by
  cases found <;> simp [Nat.add_assoc]

end

/-! ## Items are passed over -/

/-- A literal is passed over up to its closing quote. -/
theorem LiteralBody.passed {quote : Char} {body : Chars} (literal : LiteralBody quote body)
    (quotes : isQuote quote = true) (pending : List Char) (later : Chars) :
    groupLengthFrom pending (.literal quote) (body ++ quote :: later) =
      (groupLengthFrom pending .code later).map (· + (body.length + 1)) := by
  have noEscape : quote ≠ '\\' := by
    rintro rfl
    revert quotes
    decide
  induction literal with
  | nil =>
    rw [List.nil_append, groupLengthFrom_literal, Quoting.next, if_neg noEscape, if_pos rfl]
    rfl
  | plain other noBackslash _ ih =>
    rw [List.cons_append, groupLengthFrom_literal, Quoting.next, if_neg noBackslash, if_neg other,
      ih, map_add_map_add]
    rfl
  | escaped _ ih =>
    rw [List.cons_append, List.cons_append, groupLengthFrom_literal, Quoting.next, if_pos rfl,
      groupLengthFrom_escape, ih, map_add_map_add, map_add_map_add]
    rfl

/-- Where a bracket is owed, the search passes over the text. -/
def Passed (text : Chars) : Prop :=
  ∀ (owed : Char) (outer : List Char) (later : Chars),
    groupLengthFrom (owed :: outer) .code (text ++ later) =
      (groupLengthFrom (owed :: outer) .code later).map (· + text.length)

theorem Passed.flatten {items : List Chars} (each : ∀ item ∈ items, Passed item) :
    Passed items.flatten := by
  intro owed outer later
  induction items with
  | nil => exact Option.map_id'.symm
  | cons first rest ih =>
    rw [List.forall_mem_cons] at each
    rw [List.flatten_cons, List.append_assoc, each.1, ih each.2, map_add_map_add,
      List.length_append, Nat.add_comm]

theorem BracketItem.passed {text : Chars} (item : BracketItem text) : Passed text := by
  induction item with
  | @group opening closer items closes _ ih =>
    intro owed outer later
    -- Inside the group its own bracket is owed, and behind it the one that was owed before.
    have inside := Passed.flatten ih closer (owed :: outer) (closer :: later)
    rw [List.cons_append, List.append_assoc, groupLengthFrom_opening closes, List.singleton_append,
      inside, groupLengthFrom_closer closes, if_neg (by simp), map_add_map_add, map_add_map_add,
      List.length_cons, List.length_append, Nat.add_comm 1]
    rfl
  | @literal quote body quotes literal =>
    intro owed outer later
    rw [List.cons_append, List.append_assoc, groupLengthFrom_quote quotes, List.singleton_append,
      literal.passed quotes, map_add_map_add, List.length_cons, List.length_append]
    rfl
  | plain noQuote noOpening noClosing =>
    intro owed outer later
    exact groupLengthFrom_plain noQuote noOpening noClosing

/-- A group ends the search at its last bracket. -/
theorem groupLength_of_group {opening closer : Char} {inside : Chars}
    (closes : closingBracket opening = some closer) (items : BracketItems inside) (later : Chars) :
    groupLength (opening :: (inside ++ closer :: later)) = some (inside.length + 2) := by
  obtain ⟨items, all, rfl⟩ := items
  have each : ∀ item ∈ items, Passed item := fun item member => (all item member).passed
  have passed := Passed.flatten each closer [] (closer :: later)
  rw [groupLength, groupLengthFrom_opening closes, passed, groupLengthFrom_closer closes,
    if_pos (by rfl), map_add_map_add, Option.map_some]
  congr 1
  omega

/-! ## What the search has gone through -/

/-- A text with the brackets that are owed, innermost first, each behind any number of items. -/
inductive Repays : List Char → Chars → Prop
  | nil : Repays [] []
  | cons {closer : Char} {outer : List Char} {inside rest : Chars} : BracketItems inside →
      Repays outer rest → Repays (closer :: outer) (inside ++ closer :: rest)

/-- The same from within a literal, where the rest of the literal comes first. -/
def RepaysFrom (pending : List Char) : Quoting → Chars → Prop
  | .code, text => Repays pending text
  | .literal quote, text => ∃ body rest, LiteralBody quote body ∧ Repays pending rest ∧
      text = body ++ quote :: rest
  | .escape quote, text => ∃ c body rest, LiteralBody quote body ∧ Repays pending rest ∧
      text = c :: (body ++ quote :: rest)

theorem Repays.item {owed : Char} {outer : List Char} {item text : Chars}
    (first : BracketItem item) (repays : Repays (owed :: outer) text) :
    Repays (owed :: outer) (item ++ text) := by
  cases repays with
  | cons items later =>
    rw [← List.append_assoc]
    exact .cons (items.cons first) later

/-- A literal that begins is an item. -/
theorem repays_quote {owed quote : Char} {outer : List Char} {text : Chars}
    (quotes : isQuote quote = true) (repays : RepaysFrom (owed :: outer) (.literal quote) text) :
    Repays (owed :: outer) (quote :: text) := by
  obtain ⟨body, rest, literal, later, rfl⟩ := repays
  have item := Repays.item (.literal quotes literal) later
  rw [List.cons_append, List.append_assoc] at item
  exact item

/-- A group that begins is an item, once its own bracket is paid. -/
theorem repays_opening {opening closer owed : Char} {outer : List Char} {text : Chars}
    (opens : closingBracket opening = some closer) (repays : Repays (closer :: owed :: outer) text) :
    Repays (owed :: outer) (opening :: text) := by
  cases repays with
  | cons items later =>
    have item := Repays.item (.of_inside opens items) later
    rw [List.cons_append, List.append_assoc] at item
    exact item

/-- One character more of a literal, or the one behind it. -/
theorem repaysFrom_literal {pending : List Char} {quote c : Char} {text : Chars}
    (repays : RepaysFrom pending (Quoting.next (.literal quote) c) text) :
    RepaysFrom pending (.literal quote) (c :: text) := by
  rw [Quoting.next] at repays
  by_cases backslash : c = '\\'
  · rw [if_pos backslash] at repays
    obtain ⟨d, body, rest, literal, later, rfl⟩ := repays
    subst backslash
    exact ⟨_, rest, .escaped literal, later, rfl⟩
  rw [if_neg backslash] at repays
  by_cases ends : c = quote
  · rw [if_pos ends] at repays
    subst ends
    exact ⟨[], text, .nil, repays, rfl⟩
  · rw [if_neg ends] at repays
    obtain ⟨body, rest, literal, later, rfl⟩ := repays
    exact ⟨_, rest, .plain ends backslash literal, later, rfl⟩

/-- What the search goes through has the brackets that are owed. -/
theorem repays_of_groupLengthFrom {pending : List Char} {state : Quoting} {text : Chars} {n : Nat}
    (due : pending ≠ []) (found : groupLengthFrom pending state text = some n) :
    n ≤ text.length ∧ RepaysFrom pending state (text.take n) := by
  induction text generalizing pending state n with
  | nil => cases state <;> cases pending <;> cases found
  | cons c text ih =>
    -- One character further, with what is owed there.
    have step (owed : List Char) (next : Quoting) (due : owed ≠ [])
        (mapped : (groupLengthFrom owed next text).map (· + 1) = some n)
        (onward : RepaysFrom owed next (text.take (n - 1)) →
          RepaysFrom pending state (c :: text.take (n - 1))) :
        n ≤ (c :: text).length ∧ RepaysFrom pending state ((c :: text).take n) := by
      obtain ⟨m, later, rfl⟩ := Option.map_eq_some_iff.1 mapped
      obtain ⟨bound, repays⟩ := ih due later
      exact ⟨Nat.succ_le_succ bound, onward repays⟩
    obtain ⟨owed, outer, rfl⟩ := List.exists_cons_of_ne_nil due
    cases state with
    | code =>
      cases quotes : isQuote c with
      | true =>
        rw [groupLengthFrom_quote quotes] at found
        exact step _ _ due found (repays_quote quotes)
      | false =>
      cases opens : closingBracket c with
      | some closer =>
        rw [groupLengthFrom_opening opens] at found
        exact step _ .code (List.cons_ne_nil _ _) found (repays_opening opens)
      | none =>
      cases closes : isClosingBracket c with
      | true =>
        simp only [groupLengthFrom, quotes, opens, closes, Bool.false_eq_true, if_false, if_true]
          at found
        split at found
        · cases found
        next same =>
        obtain rfl : c = owed := by simpa using same
        split at found
        -- The bracket closes the outermost group: the search ends here.
        · next last =>
          obtain rfl : outer = [] := by simpa using last
          cases found
          exact ⟨Nat.succ_le_succ (Nat.zero_le _), .cons .nil .nil⟩
        · next more =>
          exact step outer .code (by simpa using more) found fun later => .cons .nil later
      | false =>
        rw [groupLengthFrom_plain quotes opens closes] at found
        exact step _ .code due found fun later => .item (.plain quotes opens closes) later
    | literal quote =>
      rw [groupLengthFrom_literal] at found
      exact step _ _ due found repaysFrom_literal
    | escape quote =>
      rw [groupLengthFrom_escape] at found
      refine step _ _ due found ?_
      rintro ⟨body, rest, literal, later, same⟩
      exact ⟨c, body, rest, literal, later, by rw [same]⟩

/-! ## Groups -/

/-- A text that starts with an opening bracket starts with a group of the length that is found, and
with no other group. -/
theorem groupLength_eq_some_iff {opening : Char} {rest : Chars}
    (opens : (closingBracket opening).isSome = true) (n : Nat) :
    groupLength (opening :: rest) = some n ↔
      n ≤ (opening :: rest).length ∧ BracketGroup ((opening :: rest).take n) := by
  obtain ⟨closer, closes⟩ := Option.isSome_iff_exists.1 opens
  constructor
  · intro found
    rw [groupLength, groupLengthFrom_opening closes] at found
    obtain ⟨m, later, rfl⟩ := Option.map_eq_some_iff.1 found
    obtain ⟨bound, repays⟩ := repays_of_groupLengthFrom (List.cons_ne_nil _ _) later
    refine ⟨Nat.succ_le_succ bound, ?_⟩
    rw [List.take_succ_cons]
    generalize rest.take m = inner at repays ⊢
    cases repays with
    | cons items last =>
      cases last
      exact ⟨opening, closer, _, closes, items, rfl⟩
  · rintro ⟨bound, first, last, inside, firstCloses, items, whole⟩
    have behind := List.take_append_drop n (opening :: rest)
    rw [whole, List.cons_append, List.append_assoc, List.singleton_append] at behind
    rw [← behind, groupLength_of_group firstCloses items, Option.some_inj]
    have length := congrArg List.length whole
    rw [List.length_take, Nat.min_eq_left bound] at length
    simp only [List.length_cons, List.length_append, List.length_nil] at length
    omega

/-- Index just past the bracket group that opens at a position of a text. -/
def groupEnd (text : Chars) (start : Nat) : Option Nat :=
  (groupLength (text.drop start)).map (start + ·)

/-- Behind an opening bracket the end found is that of a group. -/
theorem groupEnd_eq_some_iff {text : Chars} {start : Nat} {opening : Char}
    (here : text[start]? = some opening) (opens : (closingBracket opening).isSome = true)
    (last : Nat) :
    groupEnd text start = some last ↔ last ≤ text.length ∧ BracketGroup (cut text start last) := by
  obtain ⟨inside, same⟩ := List.getElem?_eq_some_iff.1 here
  have ahead : text.drop start = opening :: text.drop (start + 1) := by
    rw [List.drop_eq_getElem_cons inside, same]
  have size := congrArg List.length ahead
  rw [List.length_drop] at size
  unfold groupEnd cut
  rw [ahead, Option.map_eq_some_iff]
  constructor
  · rintro ⟨n, found, rfl⟩
    obtain ⟨bound, group⟩ := (groupLength_eq_some_iff opens n).1 found
    rw [Nat.add_sub_cancel_left]
    exact ⟨by omega, group⟩
  · rintro ⟨bound, group⟩
    have some_ : last - start ≠ 0 := by
      rintro none
      obtain ⟨_, _, _, _, _, empty⟩ := group
      rw [none] at empty
      cases empty
    refine ⟨last - start, (groupLength_eq_some_iff opens _).2 ⟨by omega, group⟩, by omega⟩

/-- Behind an opening bracket no end is found if and only if no group starts there. -/
theorem groupEnd_eq_none_iff {text : Chars} {start : Nat} {opening : Char}
    (here : text[start]? = some opening) (opens : (closingBracket opening).isSome = true) :
    groupEnd text start = none ↔
      ∀ last, last ≤ text.length → ¬ BracketGroup (cut text start last) := by
  rw [Option.eq_none_iff_forall_ne_some]
  refine forall_congr' fun last => ?_
  rw [Ne, groupEnd_eq_some_iff here opens, not_and]

/-- A group behind an opening bracket is that bracket, its items, and the bracket that closes it. -/
theorem items_of_group {text : Chars} {start last : Nat} {opening closer : Char}
    (here : text[start]? = some opening) (closes : closingBracket opening = some closer)
    (group : BracketGroup (cut text start last)) :
    ∃ inside later, text.drop start = opening :: (inside ++ closer :: later) ∧
      BracketItems inside := by
  obtain ⟨first, final, inside, firstCloses, items, whole⟩ := group
  have behind := List.take_append_drop (last - start) (text.drop start)
  rw [show (text.drop start).take (last - start) = _ from whole, List.cons_append,
    List.append_assoc] at behind
  rw [← List.head?_drop, ← behind, List.head?_cons, Option.some_inj] at here
  subst here
  rw [closes, Option.some_inj] at firstCloses
  subst firstCloses
  exact ⟨inside, _, behind.symm, items⟩

end Text

/-! ## Argument lists -/

open Text Lookahead

/-- Kinds and texts of the tokens of an argument list. -/
def argumentTokens (inside : Chars) : List (TokenKind × Chars) :=
  (.argumentsOpen, ['(']) :: (if inside = [] then [] else [(.arguments, inside)]) ++
    [(.argumentsClose, [')'])]

namespace ScanState

variable {dialect : Dialect} {source : Chars} {s : ScanState} {start : Position}
  {outer : List OpenMode}

/-- A registered directive with arguments reads its name and goes on at the parenthesis. -/
theorem step_of_argumentsOffset {descriptor : Descriptor} {offset : Nat}
    (top : s.modes = ⟨.directiveHead, start⟩ :: outer)
    (registered : dialect.registry.lookup
      ((s.rest.drop 1).take (directiveNameLength (s.rest.drop 1))) = some descriptor)
    (found : argumentsOffset (some descriptor) (directiveNameLength (s.rest.drop 1)) s.rest =
      some offset) :
    ∃ list : ScanState, (s.step dialect).next = .ok list ∧ list.rest = s.rest.drop offset ∧
      list.modes = ⟨.arguments, start⟩ :: outer ∧
      (s.step dialect).tokens =
        [s.token .directiveName (1 + directiveNameLength (s.rest.drop 1))] := by
  have behind := (argumentsOffset_spec found).1
  have stepped : s.step dialect = s.stepDirectiveHead dialect := by
    unfold step
    rw [top]
  rw [stepped, stepDirectiveHead]
  simp only [registered, found, Option.isNone_some, Bool.and_false, Option.filter_some,
    Bool.false_eq_true, if_false]
  refine ⟨_, rfl, ?_, ?_, trivial⟩
  · rw [rest_become, rest_skip, rest_skip, List.drop_drop]
    congr 1
    omega
  · rw [become_of_top (s := (s.skip _).skip _) top]

/-- A group at the parenthesis of an argument list is read as its tokens. -/
theorem stepArguments_of_group {inside later : Chars}
    (ahead : s.rest = '(' :: (inside ++ ')' :: later)) (items : BracketItems inside)
    (start : Position) :
    (s.stepArguments start).tokens.map (fun token => (token.kind, token.value)) =
        argumentTokens inside ∧
      ∃ next, (s.stepArguments start).next = .ok next := by
  have found : groupLength s.rest = some (inside.length + 2) := by
    rw [ahead]
    exact groupLength_of_group (by decide) items later
  unfold stepArguments argumentTokens
  simp only [found, Nat.add_sub_cancel, Nat.add_eq_right, List.length_eq_zero_iff]
  refine ⟨?_, _, rfl⟩
  split <;> simp [token, *]

/-- What is known at every state of reading a template: the tokens read so far, and where the
constructs begin that are open. -/
theorem Reached.begun (reached : s.Reached dialect source) :
    ∃ before, (scan dialect source).tokens = before ++ (s.run dialect).tokens ∧
      (scan dialect source).fault = (s.run dialect).fault ∧
      (∀ token ∈ before, token.Sited source) ∧ s.Begun source before := by
  induction reached with
  | start none =>
    refine ⟨[], ?_, ?_, by simp, .between (.text rfl)⟩
    all_goals
      unfold scan
      simp only [none, List.nil_append]
  | @front length some =>
    refine ⟨[(ScanState.start source).token .frontMatter length], ?_, ?_,
      List.forall_mem_singleton.2 ((sited_start source).token .frontMatter length),
      .between (.text (readTo_concat [] _))⟩
    all_goals
      unfold scan
      simp only [some]
      rfl
  | @step s next earlier ahead goes ih =>
    obtain ⟨before, tokens, fault, known, begun⟩ := ih
    have sited := (recalls_of_reached earlier).sited
    obtain ⟨_, place, stands⟩ := stands_of_reached earlier
    rw [run_of_stepped ahead goes] at tokens fault
    refine ⟨before ++ (s.step dialect).tokens, ?_, fault, ?_,
      (proceeds_step dialect sited stands known begun).goesOn next goes⟩
    · rw [tokens, Scan.after, List.append_assoc]
    · exact List.forall_mem_append.2 ⟨known, (stepSited_step dialect sited).tokens⟩

/-- A directive starts where its mode was opened. -/
theorem Begun.start_of_directiveHead {before : List Token} (begun : s.Begun source before)
    (top : s.modes = ⟨.directiveHead, start⟩ :: outer) : start = s.position := by
  cases begun with
  | between around =>
    rw [top] at around
    cases around
  | construct modes _ _ =>
    rw [top] at modes
    cases modes
    rfl
  | verbatim modes _ _ | rawCode modes _ _ | arguments modes _ _ _ _ _ _ | value modes _ _ _ _
  | rawText modes _ _ _ _ _ _ =>
    rw [top] at modes
    cases modes

/-- A list without a group at its parenthesis ends the reading. -/
theorem run_of_no_group (top : s.modes = ⟨.arguments, start⟩ :: outer) (ahead : s.rest ≠ [])
    (none : groupLength s.rest = none) :
    (s.run dialect).fault = some (.argumentList, start) := by
  have failed : (s.step dialect).next = .error (.argumentList, start) := by
    unfold step
    simp only [top, stepArguments, none]
  rw [run_of_failed ahead failed]
  rfl

/-- A group at the parenthesis of a list is read, and the reading goes on. -/
theorem run_of_group (dialect : Dialect) (top : s.modes = ⟨.arguments, start⟩ :: outer)
    {inside later : Chars} (ahead : s.rest = '(' :: (inside ++ ')' :: later))
    (items : BracketItems inside) :
    ∃ list after, (s.run dialect).tokens = list ++ after ∧
      list.map (fun token => (token.kind, token.value)) = argumentTokens inside := by
  obtain ⟨read, next, goes⟩ := stepArguments_of_group ahead items start
  have stepped : s.step dialect = s.stepArguments start := by
    unfold step
    rw [top]
  rw [← stepped] at read goes
  rw [run_of_stepped (by rw [ahead]; exact List.cons_ne_nil _ _) goes]
  exact ⟨_, _, rfl, read⟩

section arguments

variable {descriptor : Descriptor} {offset : Nat} (reached : s.Reached dialect source)
  (top : s.modes = ⟨.directiveHead, start⟩ :: outer)
  (registered : dialect.registry.lookup
    ((s.rest.drop 1).take (directiveNameLength (s.rest.drop 1))) = some descriptor)
  (found : argumentsOffset (some descriptor) (directiveNameLength (s.rest.drop 1)) s.rest =
    some offset)

include reached top registered found

/-- A registered directive with arguments is read up to its parenthesis. -/
theorem Reached.read_name :
    start = s.position ∧ source[s.offset + offset]? = some '(' ∧
      ∃ (before : List Token) (list : ScanState), (scan dialect source).tokens = before ++
          s.token .directiveName (1 + directiveNameLength (s.rest.drop 1)) ::
            (list.run dialect).tokens ∧
        (scan dialect source).fault = (list.run dialect).fault ∧
        list.rest = source.drop (s.offset + offset) ∧
        list.modes = ⟨.arguments, start⟩ :: outer := by
  obtain ⟨before, tokens, fault, _, begun⟩ := reached.begun
  obtain ⟨on, place, stands⟩ := stands_of_reached reached
  obtain ⟨-, _, ahead⟩ := stands.at_sign top
  obtain ⟨list, goes, rest, modes, read⟩ := step_of_argumentsOffset top registered found
  rw [run_of_stepped (by rw [ahead]; exact List.cons_ne_nil _ _) goes] at tokens fault
  have behind : s.rest.drop offset = source.drop (s.offset + offset) := by
    rw [on.rest, List.drop_drop]
  refine ⟨begun.start_of_directiveHead top, ?_, before, list, ?_, fault, rest.trans behind, modes⟩
  · rw [← List.head?_drop, ← behind]
    exact (argumentsOffset_spec found).2.2
  · rw [tokens, Scan.after, read, List.singleton_append]

/-- The tokens of the list are those of the group that starts at its parenthesis. -/
theorem Reached.read_arguments {inside later : Chars}
    (ahead : source.drop (s.offset + offset) = '(' :: (inside ++ ')' :: later))
    (items : BracketItems inside) :
    ∃ before list after, (scan dialect source).tokens = before ++
        s.token .directiveName (1 + directiveNameLength (s.rest.drop 1)) :: (list ++ after) ∧
      list.map (fun token => (token.kind, token.value)) = argumentTokens inside := by
  obtain ⟨-, -, before, state, tokens, -, rest, modes⟩ := reached.read_name top registered found
  obtain ⟨list, after, read, texts⟩ := run_of_group dialect modes (rest.trans ahead) items
  rw [read] at tokens
  exact ⟨before, list, after, tokens, texts⟩

/-- The list is the fault of the template if and only if no group starts at its parenthesis. -/
theorem Reached.fault_arguments_iff :
    (scan dialect source).fault = some (.argumentList, start) ↔
      ∀ last, last ≤ source.length → ¬ BracketGroup (cut source (s.offset + offset) last) := by
  obtain ⟨begins, here, _, state, _, fault, rest, modes⟩ := reached.read_name top registered found
  constructor
  · intro failed last _ group
    obtain ⟨inside, later, ahead, items⟩ := items_of_group here (by rfl) group
    obtain ⟨before, list, after, tokens, texts⟩ :=
      reached.read_arguments top registered found ahead items
    -- With such a fault the last token is the name of the directive, but those of the list follow it.
    obtain ⟨-, leftOpen⟩ := leftOpen_scan dialect source failed
    obtain ⟨-, _, stands⟩ := stands_of_reached reached
    obtain ⟨-, _, written⟩ := stands.at_sign top
    have longer := offset_lt_skip (s := s) (by rw [written]; exact List.cons_ne_nil _ _)
      (show 0 < 1 + directiveNameLength (s.rest.drop 1) by omega)
    cases leftOpen with
    | @argumentList earlier name _ _ _ _ _ split _ sited =>
      have ordered := (Place.covers_of_reads (reads_scan dialect source)).covered.ordered
      have some_ : list ++ after ≠ [] := by
        rintro empty
        rw [(List.append_eq_nil_iff.1 empty).1] at texts
        cases texts
      have last := congrArg List.getLast? (tokens.symm.trans split)
      rw [List.getLast?_append_cons, List.getLast?_cons_of_ne_nil some_, List.getLast?_concat]
        at last
      have member := List.mem_of_getLast? last
      rw [tokens, List.pairwise_append, List.pairwise_cons] at ordered
      have less := ordered.2.1.1 name member
      rw [sited, begins] at less
      exact absurd longer (Nat.not_lt.2 less)
  · intro none
    rw [fault]
    refine run_of_no_group modes ?_ ?_
    · rw [rest]
      intro empty
      rw [← List.head?_drop, empty] at here
      cases here
    · rw [rest]
      exact Option.map_eq_none_iff.1 ((groupEnd_eq_none_iff here (by rfl)).2 none)

end arguments

end ScanState

/-- **Bracket groups are recognised.** From an opening bracket at any position of a text, an end is
found if and only if a group starts there; that group ends at it, and no other group starts there.

So an argument list of a registered directive is the fault of a template if and only if no group
starts at its parenthesis; and if one does, behind the name come the tokens of the list, with what
is inside that group for its text. -/
theorem groups_recognised (dialect : Dialect) (source : Chars) :
    (∀ start opening, source[start]? = some opening → (closingBracket opening).isSome = true →
      (∀ last, groupEnd source start = some last ↔
        last ≤ source.length ∧ BracketGroup (cut source start last)) ∧
      (∀ last other, last ≤ source.length → BracketGroup (cut source start last) →
        other ≤ source.length → BracketGroup (cut source start other) → last = other) ∧
      (groupEnd source start = none ↔
        ∀ last, last ≤ source.length → ¬ BracketGroup (cut source start last))) ∧
    ∀ (s : ScanState) (start : Position) (outer : List OpenMode) (descriptor : Descriptor)
      (offset : Nat), s.Reached dialect source → s.modes = ⟨.directiveHead, start⟩ :: outer →
      let nameLength := directiveNameLength (s.rest.drop 1)
      dialect.registry.lookup ((s.rest.drop 1).take nameLength) = some descriptor →
      argumentsOffset (some descriptor) nameLength s.rest = some offset →
      start = s.position ∧ source[s.offset + offset]? = some '(' ∧
      ((scan dialect source).fault = some (.argumentList, start) ↔
        ∀ last, last ≤ source.length → ¬ BracketGroup (cut source (s.offset + offset) last)) ∧
      ∀ inside later, source.drop (s.offset + offset) = '(' :: (inside ++ ')' :: later) →
        BracketItems inside →
        ∃ before list after, (scan dialect source).tokens =
            before ++ s.token .directiveName (1 + nameLength) :: (list ++ after) ∧
          list.map (fun token => (token.kind, token.value)) = argumentTokens inside := by
  refine ⟨fun start opening here opens => ?_, ?_⟩
  · have found := groupEnd_eq_some_iff here opens
    refine ⟨found, ?_, groupEnd_eq_none_iff here opens⟩
    intro last other bound group otherBound otherGroup
    have first := (found last).2 ⟨bound, group⟩
    rw [(found other).2 ⟨otherBound, otherGroup⟩, Option.some_inj] at first
    exact first.symm
  · intro s start outer descriptor offset reached top nameLength registered found
    obtain ⟨begins, here, -⟩ := reached.read_name top registered found
    exact ⟨begins, here, reached.fault_arguments_iff top registered found, fun inside later =>
      reached.read_arguments top registered found⟩

/-- A parenthesis inside a literal ends no list, and a bracket that does not match leaves it
open. -/
theorem groups_recognised_literal :
    let dialect : Dialect := ⟨.builtin, true, true⟩
    let closed := "@if ([')'])".toList
    let unclosed := "@if ([')')]".toList
    groupEnd closed 4 = some 11 ∧ BracketGroup (cut closed 4 11) ∧
      (∃ before list after, (scan dialect closed).tokens =
          before ++ (ScanState.start closed).token .directiveName 3 :: (list ++ after) ∧
        list.map (fun token => (token.kind, token.value)) = argumentTokens "[')']".toList) ∧
      (scan dialect unclosed).fault = some (.argumentList, .start) ∧
      ∀ last, last ≤ unclosed.length → ¬ BracketGroup (cut unclosed 4 last) := by
  intro dialect closed unclosed
  have reached (source : Chars) (front : frontMatterLength source = none) (ahead : source ≠ [])
      (enters : ((ScanState.start source).step dialect).next =
        .ok ((ScanState.start source).push .directiveHead)) :
      ((ScanState.start source).push .directiveHead).Reached dialect source :=
    .step (.start front) ahead enters
  have last : groupEnd closed 4 = some 11 := by decide +kernel
  have failed : (scan dialect unclosed).fault = some (.argumentList, .start) := by decide +kernel
  have literal : BracketItem (apostrophe :: ([')'] ++ [apostrophe])) :=
    .literal (by decide) (.plain (by decide) (by decide) .nil)
  have items : BracketItems "[')']".toList :=
    BracketItems.cons (.of_inside (by rfl) (BracketItems.cons literal .nil)) .nil
  obtain ⟨found, read⟩ := groups_recognised dialect closed
  have group := (((found 4 '(' (by decide) (by decide)).1 11).1 last).2
  obtain ⟨-, -, -, tokens⟩ := read _ .start [] (.opener "if") 4
    (reached closed (by decide +kernel) (by decide) (by decide +kernel)) rfl
    (by decide +kernel) (by decide +kernel)
  obtain ⟨-, -, fault, -⟩ := (groups_recognised dialect unclosed).2 _ .start [] (.opener "if") 4
    (reached unclosed (by decide +kernel) (by decide) (by decide +kernel)) rfl
    (by decide +kernel) (by decide +kernel)
  exact ⟨last, group, tokens "[')']".toList [] (by decide +kernel) items, failed, fault.1 failed⟩

end BladeTemplate
