import BladeTemplate.Proofs.Ink

/-!
# Where closing delimiters stand

A search for the closing delimiter of an echo passes over string literals, and takes the first
delimiter there is if they hide them all. Both searches are one, with and without regard to
literals, and what they answer depends on where the delimiter stands in a text and on the state of
the automaton there.

* `Quoting.after` is the state after a text; `Quoting.after_of_inert` says that characters without
  meaning to the automaton only end an escape;
* `Text.Closes` says that a delimiter stands in a text, `Text.search_eq_some_iff` when it is found;
* `Text.Quieter` compares the texts that can follow a place: the second one shows no delimiter that
  the first one does not.
-/

namespace BladeTemplate.Text

/-! ## States -/

namespace Quoting

variable {state : Quoting}

/-- The state after a text. -/
def after (state : Quoting) (text : Chars) : Quoting :=
  text.foldl next state

/-- The state in which no escape is pending any more. -/
def settle : Quoting → Quoting
  | .escape quote => .literal quote
  | state => state

/-- Literals end with a quote. -/
def Proper : Quoting → Prop
  | .code => True
  | .literal quote | .escape quote => isQuote quote = true

/-- Whether a character neither bounds a literal nor starts an escape. -/
def isInert (c : Char) : Bool :=
  !isQuote c && c ≠ '\\'

@[simp]
theorem after_nil : state.after [] = state := rfl

@[simp]
theorem after_cons (c : Char) (text : Chars) :
    state.after (c :: text) = (state.next c).after text := rfl

@[simp]
theorem after_append (first second : Chars) :
    state.after (first ++ second) = (state.after first).after second :=
  List.foldl_append

@[simp]
theorem settle_settle : state.settle.settle = state.settle := by
  cases state <;> rfl

theorem proper_code : code.Proper := trivial

theorem Proper.settle (proper : state.Proper) : state.settle.Proper := by
  cases state <;> exact proper

theorem Proper.next (proper : state.Proper) (c : Char) : (state.next c).Proper := by
  cases state with
  | code =>
    rw [Quoting.next]
    split
    · next quote => exact quote
    · trivial
  | literal quote =>
    rw [Quoting.next]
    split
    · exact proper
    · split
      · trivial
      · exact proper
  | escape quote => exact proper

theorem Proper.after (proper : state.Proper) (text : Chars) : (state.after text).Proper := by
  induction text generalizing state with
  | nil => exact proper
  | cons c rest ih => exact ih (proper.next c)

theorem next_of_inert (proper : state.Proper) {c : Char} (inert : isInert c = true) :
    state.next c = state.settle := by
  simp only [isInert, Bool.and_eq_true, Bool.not_eq_true', decide_eq_true_eq] at inert
  obtain ⟨notQuote, notBackslash⟩ := inert
  cases state with
  | code => simp [next, notQuote, settle]
  | literal quote =>
    have other : c ≠ quote := by
      rintro rfl
      rw [proper] at notQuote
      cases notQuote
    simp [next, notBackslash, other, settle]
  | escape quote => rfl

theorem after_of_inert (proper : state.Proper) {text : Chars} (some_ : text ≠ [])
    (inert : ∀ c ∈ text, isInert c = true) : state.after text = state.settle := by
  induction text generalizing state with
  | nil => exact absurd rfl some_
  | cons c rest ih =>
    rw [after_cons, next_of_inert proper (inert c List.mem_cons_self)]
    cases rest with
    | nil => rfl
    | cons d more =>
      have later := ih proper.settle (List.cons_ne_nil d more) fun e member =>
        inert e (List.mem_cons_of_mem c member)
      rw [later, settle_settle]

/-- Characters that mean nothing neither lead out of code nor into it. -/
theorem after_eq_code_iff (proper : state.Proper) {text : Chars}
    (inert : ∀ c ∈ text, isInert c = true) : state.after text = .code ↔ state = .code := by
  cases text with
  | nil => rfl
  | cons c rest =>
    rw [after_of_inert proper (List.cons_ne_nil c rest) inert]
    cases state <;> simp [settle]

theorem isInert_of_isBlank {c : Char} (blank : isBlank c = true) : isInert c = true := by
  have noQuote : isQuote c = false := by
    rw [← Bool.not_eq_true]
    intro quote
    simp only [isQuote, Bool.or_eq_true, decide_eq_true_eq] at quote
    rcases quote with rfl | rfl <;> cases blank
  have noBackslash : c ≠ '\\' := by
    rintro rfl
    cases blank
  simp [isInert, noQuote, noBackslash]

end Quoting

/-! ## Delimiters in a text -/

/-- The delimiter stands in the text, outside literals if that counts. -/
def Closes (aware : Bool) (closer : Chars) (state : Quoting) (text : Chars) : Prop :=
  ∃ before rest, text = before ++ closer ++ rest ∧ (aware = true → state.after before = .code)

section Closes

variable {aware : Bool} {closer : Chars} {state : Quoting} {text : Chars}

theorem not_closes_of_length_lt (short : text.length < closer.length) :
    ¬ Closes aware closer state text := by
  rintro ⟨before, rest, rfl, _⟩
  simp at short
  omega

theorem closes_cons_iff {c : Char} :
    Closes aware closer state (c :: text) ↔
      (startsWith closer (c :: text) = true ∧ (aware = true → state = .code)) ∨
        Closes aware closer (state.next c) text := by
  constructor
  · rintro ⟨before, rest, split, code⟩
    cases before with
    | nil => exact .inl ⟨startsWith_iff.2 ⟨rest, split⟩, code⟩
    | cons d before =>
      injection split with same later
      subst same
      exact .inr ⟨before, rest, later, code⟩
  · rintro (⟨starts, code⟩ | ⟨before, rest, rfl, code⟩)
    · obtain ⟨rest, split⟩ := startsWith_iff.1 starts
      exact ⟨[], rest, split, code⟩
    · exact ⟨c :: before, rest, rfl, code⟩

theorem Closes.append_left (lead : Chars) (closes : Closes aware closer (state.after lead) text) :
    Closes aware closer state (lead ++ text) := by
  obtain ⟨before, rest, rfl, code⟩ := closes
  exact ⟨lead ++ before, rest, by simp, by simpa using code⟩

theorem Closes.append_right (closes : Closes aware closer state text) (rest : Chars) :
    Closes aware closer state (text ++ rest) := by
  obtain ⟨before, more, rfl, code⟩ := closes
  exact ⟨before, more ++ rest, by simp, code⟩

/-- The delimiter stands behind characters that it does not have. -/
theorem Closes.of_append {lead : Chars} (closes : Closes aware closer state (lead ++ text))
    (other : ∀ c ∈ lead, c ∉ closer) (some_ : closer ≠ []) :
    Closes aware closer (state.after lead) text := by
  induction lead generalizing state with
  | nil => exact closes
  | cons c lead ih =>
    rcases closes_cons_iff.1 closes with ⟨starts, _⟩ | later
    · obtain ⟨rest, split⟩ := startsWith_iff.1 starts
      cases closer with
      | nil => exact absurd rfl some_
      | cons d closer =>
        injection split with same
        exact absurd (same ▸ List.mem_cons_self) (other c List.mem_cons_self)
    · exact ih later fun d member => other d (List.mem_cons_of_mem c member)

end Closes

/-! ## Searches -/

/-- Index of the first delimiter in a text, outside literals if that counts. -/
def search (aware : Bool) (closer : Chars) : Quoting → Chars → Option Nat
  | _, [] => none
  | state, c :: rest =>
    if startsWith closer (c :: rest) = true ∧ (aware = true → state = .code) then some 0
    else (search aware closer (state.next c) rest).map (· + 1)

section Search

variable {aware : Bool} {closer : Chars} {state : Quoting}

theorem search_eq_none_iff (some_ : closer ≠ []) {text : Chars} :
    search aware closer state text = none ↔ ¬ Closes aware closer state text := by
  induction text generalizing state with
  | nil =>
    have short := List.length_pos_iff.2 some_
    have never : ¬ Closes aware closer state [] := not_closes_of_length_lt short
    simp [search, never]
  | cons c rest ih =>
    rw [search, closes_cons_iff]
    split
    · next here => exact iff_of_false nofun fun never => never (.inl here)
    · next other => simp only [Option.map_eq_none_iff, ih, other, false_or]

/-- A delimiter is found if it stands outside literals, should that count, and none stands or starts
before it. -/
theorem search_eq_some_iff (some_ : closer ≠ []) {body rest : Chars} :
    search aware closer state (body ++ closer ++ rest) = some body.length ↔
      (aware = true → state.after body = .code) ∧
        ¬ Closes aware closer state (body ++ closer.dropLast) := by
  induction body generalizing state with
  | nil =>
    have shorter : ¬ Closes aware closer state ([] ++ closer.dropLast) :=
      not_closes_of_length_lt (by
        have := List.length_pos_iff.2 some_
        simp
        omega)
    have starts : startsWith closer (closer ++ rest) = true := startsWith_iff.2 ⟨rest, rfl⟩
    cases closer with
    | nil => exact absurd rfl some_
    | cons d closer =>
      rw [List.nil_append, List.cons_append, search]
      simp only [← List.cons_append, starts, shorter]
      split <;> simp_all
  | cons c body ih =>
    -- Whether the delimiter starts here does not depend on what follows the one that is found.
    have starts : startsWith closer (c :: (body ++ closer ++ rest)) =
        startsWith closer (c :: (body ++ closer.dropLast)) := by
      have whole : closer = closer.dropLast ++ [closer.getLast some_] :=
        (List.dropLast_concat_getLast some_).symm
      have cut : c :: (body ++ closer ++ rest) =
          c :: (body ++ closer.dropLast) ++ (closer.getLast some_ :: rest) := by
        conv => lhs; rw [whole]
        simp
      have fits : closer.length ≤ (c :: (body ++ closer.dropLast)).length := by
        simp
        omega
      rw [Bool.eq_iff_iff, startsWith, startsWith, List.isPrefixOf_iff_prefix,
        List.isPrefixOf_iff_prefix, cut]
      exact ⟨fun lead => List.prefix_of_prefix_length_le lead (List.prefix_append _ _) fits,
        fun lead => lead.trans (List.prefix_append _ _)⟩
    rw [List.cons_append, List.cons_append, search, List.cons_append, closes_cons_iff, starts,
      Quoting.after_cons]
    split
    · next here => exact iff_of_false nofun fun ⟨_, never⟩ => never (.inl here)
    · next other =>
      simp only [other, false_or, ← ih, List.length_cons, Option.map_eq_some_iff,
        Nat.add_right_cancel_iff, exists_eq_right]

/-- A search without regard to literals is a plain one. -/
theorem search_plain (some_ : closer ≠ []) (text : Chars) :
    search false closer state text = indexOf closer text := by
  induction text generalizing state with
  | nil => simp [search, indexOf, some_]
  | cons c rest ih => simp [search, indexOf, ih]

/-- A search with regard to literals is one outside of them. -/
theorem search_aware (bare : ∀ c ∈ closer, isQuote c = false) (some_ : closer ≠ [])
    (text : Chars) : search true closer state text = findOutsideLiterals closer state text := by
  induction text generalizing state with
  | nil => cases state <;> rfl
  | cons c rest ih =>
    cases state with
    | code =>
      rw [search, findOutsideLiterals, Quoting.next]
      by_cases quote : isQuote c = true
      · have other : startsWith closer (c :: rest) = false := by
          rw [← Bool.not_eq_true, startsWith_iff]
          rintro ⟨more, split⟩
          cases closer with
          | nil => exact absurd rfl some_
          | cons d closer =>
            injection split with same
            rw [same, bare d List.mem_cons_self] at quote
            cases quote
        simp [quote, other, ih]
      · simp [quote, ih]
    | literal quote => simp [search, findOutsideLiterals, ih]
    | escape quote => simp [search, findOutsideLiterals, ih]

end Search

/-! ## Closing delimiters of echoes -/

variable {style : EchoStyle} {state : Quoting}

theorem closer_ne_nil (style : EchoStyle) : style.closer ≠ [] := by
  cases style <;> decide

theorem mem_closer {c : Char} (member : c ∈ style.closer) : c = '}' ∨ c = '!' := by
  cases style with
  | escaped => exact .inl (by simpa [EchoStyle.closer] using member)
  | raw => exact Or.symm (by simpa [EchoStyle.closer] using member)

theorem isInert_of_mem_closer {c : Char} (member : c ∈ style.closer) :
    Quoting.isInert c = true := by
  rcases mem_closer member with rfl | rfl <;> decide

theorem isQuote_of_mem_closer {c : Char} (member : c ∈ style.closer) : isQuote c = false := by
  rcases mem_closer member with rfl | rfl <;> decide

theorem not_mem_closer_of_isBlank {c : Char} (blank : isBlank c = true) : c ∉ style.closer := by
  intro member
  rcases mem_closer member with rfl | rfl <;> cases blank

theorem findDelimiter_eq (style : EchoStyle) (text : Chars) :
    findDelimiter style.closer text =
      (search true style.closer .code text).or (search false style.closer .code text) := by
  rw [findDelimiter, search_plain (closer_ne_nil style),
    search_aware (fun _ => isQuote_of_mem_closer) (closer_ne_nil style)]

/-- What a text with a delimiter in it can be cut into. -/
theorem exists_of_findDelimiter {text : Chars} {n : Nat}
    (found : findDelimiter style.closer text = some n) :
    ∃ body rest, text = body ++ style.closer ++ rest ∧ body.length = n := by
  obtain ⟨fits, rest, split⟩ := findDelimiter_spec found
  refine ⟨text.take n, rest, ?_, List.length_take_of_le fits⟩
  rw [List.append_assoc, ← split, List.take_append_drop]

/-! ## Texts that can follow -/

/-- The other text shows no delimiter that the text does not show, neither inside nor, together
with what precedes, at its start. -/
structure Quieter (closer : Chars) (state : Quoting) (text other : Chars) : Prop where
  starts : ∀ lead, (∀ c ∈ lead, c ∈ closer) → startsWith lead other = true →
    startsWith lead text = true
  closes : ∀ aware, Closes aware closer state other → Closes aware closer state text

namespace Quieter

variable {closer text other : Chars}

theorem refl (closer : Chars) (state : Quoting) (text : Chars) : Quieter closer state text text :=
  ⟨fun _ _ starts => starts, fun _ closes => closes⟩

theorem of_isPrefix (lead : other <+: text) : Quieter closer state text other := by
  obtain ⟨rest, rfl⟩ := lead
  refine ⟨fun lead _ starts => ?_, fun aware closes => closes.append_right rest⟩
  obtain ⟨more, rfl⟩ := startsWith_iff.1 starts
  exact startsWith_iff.2 ⟨more ++ rest, List.append_assoc ..⟩

theorem cons {c : Char} (later : Quieter closer (state.next c) text other) :
    Quieter closer state (c :: text) (c :: other) := by
  have starts (lead : Chars) (inside : ∀ d ∈ lead, d ∈ closer)
      (starts : startsWith lead (c :: other) = true) : startsWith lead (c :: text) = true := by
    cases lead with
    | nil => rfl
    | cons d lead =>
      obtain ⟨more, split⟩ := startsWith_iff.1 starts
      injection split with same tail
      subst same
      obtain ⟨rest, rfl⟩ := startsWith_iff.1 (later.starts lead
        (fun e member => inside e (List.mem_cons_of_mem c member)) (startsWith_iff.2 ⟨more, tail⟩))
      exact startsWith_iff.2 ⟨rest, rfl⟩
  refine ⟨starts, fun aware closes => closes_cons_iff.2 ?_⟩
  rcases closes_cons_iff.1 closes with ⟨here, code⟩ | inside
  · exact .inl ⟨starts closer (fun _ member => member) here, code⟩
  · exact .inr (later.closes aware inside)

theorem append (lead : Chars) (later : Quieter closer (state.after lead) text other) :
    Quieter closer state (lead ++ text) (lead ++ other) := by
  induction lead generalizing state with
  | nil => exact later
  | cons c lead ih => exact (ih later).cons

end Quieter

/-- A delimiter that is found is found as well where a quieter text follows it. -/
theorem findDelimiter_of_quieter {body other rest more : Chars}
    (found : findDelimiter style.closer (body ++ style.closer ++ rest) = some body.length)
    (code : Quoting.code.after body = .code → Quoting.code.after other = .code)
    (inside : Quieter style.closer .code (body ++ style.closer.dropLast)
      (other ++ style.closer.dropLast))
    (whole : Quieter style.closer .code (body ++ style.closer ++ rest)
      (other ++ style.closer ++ more)) :
    findDelimiter style.closer (other ++ style.closer ++ more) = some other.length := by
  have some_ := closer_ne_nil style
  rw [findDelimiter_eq, Option.or_eq_some_iff, search_eq_some_iff some_, search_eq_some_iff some_,
    search_eq_none_iff some_] at found ⊢
  rcases found with ⟨outside, first⟩ | ⟨hidden, _, first⟩
  · exact .inl ⟨fun aware => code (outside aware), fun closes => first (inside.closes _ closes)⟩
  · exact .inr ⟨fun closes => hidden (whole.closes _ closes), nofun,
      fun closes => first (inside.closes _ closes)⟩

end BladeTemplate.Text
