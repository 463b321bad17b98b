import BladeTemplate.Proofs.Registration
import BladeTemplate.Proofs.Transcript

/-!
# Bodies kept up to a closer

A directive whose body is kept is read as one token, from its sign to the end of the closer that
is searched for. The search knows two closers, those of the built-in `@php` and `@verbatim`, and
the descriptor only chooses between them.

* `Descriptor.bodySearch` is the search that a descriptor leads to, `run_keptBody` what the reader
  makes of it;
* `indexOf_closer` says where a closer is found behind a body without one;
* `takesWhole_iff` says for which descriptors the body ends at the directive's own closer.
-/

namespace BladeTemplate

open Text Lookahead

/-! ## Texts with a closer in them -/

section Closer

variable {sign : Char} {body : Chars}

/-- What a closer starts with does not come again in it, so none that starts in the body goes on
behind it. -/
theorem indexOf_closer {word : Chars} (single : sign ∉ word) (absent : ¬ sign :: word <:+: body)
    (rest : Chars) : indexOf (sign :: word) (body ++ sign :: word ++ rest) = some body.length := by
  induction body with
  | nil =>
    rw [List.nil_append, List.cons_append, indexOf, ← List.cons_append,
      if_pos (startsWith_iff.2 ⟨rest, rfl⟩)]
    rfl
  | cons c body ih =>
    have later := ih fun inside => absent (List.infix_cons_iff.2 (.inr inside))
    have other : ¬ startsWith (sign :: word) (c :: (body ++ sign :: word ++ rest)) = true := by
      rw [startsWith_iff]
      rintro ⟨more, split⟩
      obtain ⟨rfl, tail⟩ := List.cons.inj split
      have front : word <+: body ++ c :: (word ++ rest) := ⟨more, by simpa using tail.symm⟩
      have signed : body ++ [c] <+: body ++ c :: (word ++ rest) := ⟨word ++ rest, by simp⟩
      -- The closer would end in the body, or have its first character once more.
      rcases List.prefix_or_prefix_of_prefix front signed with inside | beyond
      · rcases List.prefix_concat_iff.1 inside with same | inside
        · exact single (by simp [same])
        · exact absent (List.IsPrefix.isInfix ((List.prefix_cons_inj c).2 inside))
      · exact single (beyond.subset (by simp))
    simp only [List.cons_append] at later other ⊢
    rw [indexOf, if_neg other, later]
    rfl

/-- A text has one part behind the last occurrence of a character. -/
theorem eq_of_last {before before' after after' : Chars}
    (same : before ++ sign :: after = before' ++ sign :: after') (last : sign ∉ after)
    (last' : sign ∉ after') : after = after' := by
  have behind {before after : Chars} (last : sign ∉ after) :
      (before ++ sign :: after).reverse.takeWhile (· ≠ sign) = after.reverse := by
    rw [List.reverse_append, List.reverse_cons, List.append_assoc,
      List.takeWhile_append_of_pos (by
        intro c member
        simp only [ne_eq, decide_eq_true_eq]
        rintro rfl
        exact last (List.mem_reverse.1 member))]
    simp
  rw [← List.reverse_inj, ← behind last, ← behind last', same]

end Closer

/-! ## Names of directives -/

namespace Lookahead

/-- A run of characters goes no further than to one that is not of their kind. -/
theorem countWhile_append_cons {keep : Char → Bool} {stop : Char} (stops : keep stop = false)
    (text rest : Chars) : countWhile keep (text ++ stop :: rest) = countWhile keep text := by
  unfold countWhile
  induction text with
  | nil => simp [stops]
  | cons c text ih =>
    simp only [List.cons_append, List.takeWhile_cons]
    split
    · rw [List.length_cons, List.length_cons, ih]
    · rfl

/-- A directive name ends before the next directive at the latest. -/
theorem directiveNameLength_append (text rest : Chars) :
    directiveNameLength (text ++ '@' :: rest) = directiveNameLength text := by
  have sign : isWordChar '@' = false := by decide
  have within := countWhile_le isWordChar text
  have behind : (text ++ '@' :: rest).drop (countWhile isWordChar text) =
      text.drop (countWhile isWordChar text) ++ '@' :: rest := List.drop_append_of_le_length within
  unfold directiveNameLength
  simp only [countWhile_append_cons sign, behind]
  split
  · next later same =>
    -- Both colons stand before the sign.
    rcases shape : text.drop (countWhile isWordChar text) with _ | ⟨c, _ | ⟨d, word⟩⟩
    · simp [shape] at same
    · simp [shape] at same
    · simp only [shape, List.cons_append, List.cons.injEq] at same
      obtain ⟨rfl, rfl, rfl⟩ := same
      simp only [countWhile_append_cons sign]
  · next other =>
    split
    · next word same => exact absurd (by simp [same]) (other (word ++ '@' :: rest))
    · rfl

theorem directiveNameLength_le (text : Chars) : directiveNameLength text ≤ text.length := by
  have within := countWhile_le isWordChar text
  unfold directiveNameLength
  simp only
  split
  · next rest colons =>
    have size := congrArg List.length colons
    have word := countWhile_le isWordChar rest
    simp only [List.length_drop, List.length_cons] at size
    split <;> omega
  · exact within

/-- A directive name has no sign in it. -/
theorem sign_not_mem_name {name later : Chars}
    (whole : directiveNameLength (name ++ later) = name.length) : '@' ∉ name := by
  intro member
  obtain ⟨before, after, rfl⟩ := List.append_of_mem member
  rw [List.append_assoc, List.cons_append, directiveNameLength_append] at whole
  have short := directiveNameLength_le before
  simp only [List.length_append, List.length_cons] at whole
  omega

/-- No argument list starts behind a body that starts none. -/
theorem argumentsOffset_eq_none {descriptor : Descriptor} {name body : Chars}
    (bare : descriptor.acceptsArguments = true →
      (body.dropWhile isInlineSpace).head? ≠ some '(') (rest : Chars) :
    argumentsOffset (some descriptor) name.length ('@' :: (name ++ (body ++ '@' :: rest))) =
      none := by
  have behind : ('@' :: (name ++ (body ++ '@' :: rest))).drop (1 + name.length) =
      body ++ '@' :: rest := by
    rw [Nat.add_comm, List.drop_succ_cons, List.drop_left]
  have sign : isInlineSpace '@' = false := by decide
  have spaces := countWhile_append_cons sign body rest
  have within := countWhile_le isInlineSpace body
  have after : body.drop (countWhile isInlineSpace body) = body.dropWhile isInlineSpace := by
    conv => lhs; arg 2; rw [← List.takeWhile_append_dropWhile (p := isInlineSpace) (l := body)]
    exact List.drop_left
  unfold argumentsOffset
  simp only [behind, spaces, List.drop_append_of_le_length within, after]
  rw [if_neg]
  simp only [Bool.and_eq_true, decide_eq_true_eq, not_and]
  intro accepts first
  cases left : body.dropWhile isInlineSpace with
  | nil => simp [left] at first
  | cons c more => exact bare accepts (by simpa [left] using first)

end Lookahead

/-! ## The search for the end of a body -/

/-- How the end of a kept body is searched for: behind the sign and the name, which lead. -/
structure BodySearch where
  kind : TokenKind
  lead : Nat
  closer : Chars
  fault : LexFault

/-- The search for the end of the body of a directive. -/
def Descriptor.bodySearch (descriptor : Descriptor) : BodySearch :=
  if descriptor.name = "verbatim".toList then ⟨.verbatim, 9, "@endverbatim".toList, .verbatim⟩
  else ⟨.rawCode, 4, "@endphp".toList, .rawCode⟩

namespace Descriptor

theorem kind_bodySearch (descriptor : Descriptor) :
    descriptor.bodySearch.kind = .verbatim ∨ descriptor.bodySearch.kind = .rawCode := by
  unfold bodySearch
  split
  · exact .inl rfl
  · exact .inr rfl

/-- The search for the body of a directive that is called as a built-in one passes over its sign and
its name, and looks for its own closer. -/
theorem bodySearch_of_called {descriptor : Descriptor}
    (called : descriptor.name = "php".toList ∨ descriptor.name = "verbatim".toList) :
    descriptor.bodySearch.lead = 1 + descriptor.name.length ∧
      descriptor.bodySearch.closer = '@' :: descriptor.bodyCloser ∧
      '@' ∉ descriptor.bodyCloser := by
  rcases called with php | verbatim
  · simp [bodySearch, bodyCloser, php]
  · simp [bodySearch, bodyCloser, verbatim]

/-- Any other search is for the closer of `@php`. -/
theorem closer_of_not_verbatim {descriptor : Descriptor}
    (other : descriptor.name ≠ "verbatim".toList) :
    descriptor.bodySearch.closer = '@' :: "endphp".toList := by
  unfold bodySearch
  rw [if_neg other]
  rfl

/-- A name that is spelled with the letters of another has a sign only if that one has. -/
theorem sign_not_mem_of_spelled {descriptor : Descriptor} {name : Chars}
    (spelled : sameLetters descriptor.name name = true) (free : '@' ∉ name) :
    '@' ∉ descriptor.name := by
  have count : descriptor.name.count '@' = name.count '@' := by
    rw [← count_lower _ (by decide), of_decide_eq_true spelled, count_lower _ (by decide)]
  rw [← List.count_eq_zero] at free ⊢
  exact count.trans free

/-- However the name of a built-in directive is spelled, it is as long. -/
theorem length_of_spelled {descriptor : Descriptor} {name : Chars}
    (called : descriptor.name = "php".toList ∨ descriptor.name = "verbatim".toList)
    (spelled : sameLetters descriptor.name name = true) :
    name.length = descriptor.name.length := by
  have plain : dotAbove ∉ lower descriptor.name := by
    rcases called with php | verbatim
    · rw [php]; decide
    · rw [verbatim]; decide
  have same : lower descriptor.name = lower name := of_decide_eq_true spelled
  rw [← length_of_lower (same ▸ plain), ← same, length_of_lower plain]

end Descriptor

namespace BodySearch

/-- The construct up to its closer as one token, then what comes behind it; or the fault. -/
def scanFrom (search : BodySearch) (dialect : Dialect) (s : ScanState) : Scan :=
  match indexOf search.closer (s.rest.drop search.lead) with
  | none => { fault := some (search.fault, s.position) }
  | some length =>
    let length := search.lead + length + search.closer.length
    .after (s.take search.kind length) ((s.skip length).run dialect)

end BodySearch

namespace ScanState

variable {dialect : Dialect} {s : ScanState}

/-- A step that yields nothing leads to the same scan. -/
theorem run_of_silent (ahead : s.rest ≠ []) {next : ScanState}
    (stepped : s.step dialect = { next := .ok next }) : s.run dialect = next.run dialect := by
  rw [run_of_stepped ahead (by rw [stepped]), stepped]
  rfl

theorem step_body {descriptor : Descriptor} {outer : List OpenMode} {start : Position}
    {later : Chars} (ahead : s.rest = '@' :: later)
    (top : s.modes =
      ⟨if descriptor.name = "verbatim".toList then .verbatim else .rawCode, start⟩ :: outer) :
    s.step dialect = s.takeBody descriptor.bodySearch.kind descriptor.bodySearch.lead
      descriptor.bodySearch.closer descriptor.bodySearch.fault start := by
  unfold step Descriptor.bodySearch
  rw [top]
  by_cases verbatim : descriptor.name = "verbatim".toList
  · simp only [if_pos verbatim]
  · simp only [if_neg verbatim]
    unfold stepRawCode
    rw [if_neg (by simp [ahead, startsWith])]

/-- A directive whose body is kept, at the start of a template. -/
theorem run_keptBody {descriptor : Descriptor} {name later : Chars} (inText : s.modes = [])
    (first : s.previous = none) (ahead : s.rest = '@' :: (name ++ later))
    (named : (name.head?.map isNameStart).getD false = true)
    (whole : directiveNameLength (name ++ later) = name.length)
    (known : dialect.registry.lookup name = some descriptor)
    (keeps : descriptor.keepsBody = true)
    (bare : argumentsOffset (some descriptor) name.length s.rest = none) :
    s.run dialect = descriptor.bodySearch.scanFrom dialect s := by
  have nonempty : s.rest ≠ [] := by simp [ahead]
  obtain ⟨c, letters, rfl, starts⟩ : ∃ c letters, name = c :: letters ∧ isNameStart c = true := by
    cases name with
    | nil => simp at named
    | cons c letters => exact ⟨c, letters, rfl, by simpa using named⟩
  -- Plain text ends at once, and the directive is entered.
  have noText : textRunLength s.previous s.rest = 0 := by
    have other : c ≠ '@' ∧ c ≠ '{' := by
      constructor <;> rintro rfl <;> exact absurd starts (by decide)
    have noEcho (rest : Chars) : EchoStyle.startOf (c :: rest) = none := by
      simp [EchoStyle.startOf, startsWith, EchoStyle.opener, other.2.symm]
    rw [ahead, first, List.cons_append, textRunLength]
    simp [other.1, noEcho, startsDirective, starts]
  have entered : s.step dialect = { next := .ok (s.push .directiveHead) } := by
    have text : s.step dialect = s.stepText := by
      unfold step
      rw [inText]
    rw [text, stepText]
    simp only [noText, if_true]
    exact stepConstruct_directive ahead
  -- The name is read, and the mode of the body takes the place of the directive.
  obtain ⟨mode, isMode⟩ : ∃ mode : Mode,
      mode = if descriptor.name = "verbatim".toList then .verbatim else .rawCode := ⟨_, rfl⟩
  let inside : ScanState := { s with modes := ⟨mode, s.position⟩ :: s.modes }
  have replaced : (s.push .directiveHead).step dialect = { next := .ok inside } := by
    show (s.push .directiveHead).stepDirectiveHead dialect = _
    have length : directiveNameLength ((s.push .directiveHead).rest.drop 1) =
        (c :: letters).length := by
      rw [rest_push, ahead]
      exact whole
    have read : ((s.push .directiveHead).rest.drop 1).take (c :: letters).length =
        c :: letters := by
      simp [ahead]
    have noList : argumentsOffset (some descriptor) (c :: letters).length
        (s.push .directiveHead).rest = none := bare
    unfold stepDirectiveHead
    simp only [length, read, known, noList, Option.filter, keeps, Option.isNone_none,
      Bool.and_self, if_true, ← isMode]
    rfl
  rw [run_of_silent nonempty entered, run_of_silent (s := s.push .directiveHead) nonempty replaced]
  have body : inside.step dialect = _ :=
    step_body (s := inside) ahead
      (congrArg (fun mode => OpenMode.mk mode s.position :: s.modes) isMode)
  unfold takeBody at body
  unfold BodySearch.scanFrom
  cases found : indexOf descriptor.bodySearch.closer (s.rest.drop descriptor.bodySearch.lead) with
  | none =>
    simp only [inside, found] at body
    rw [run_of_failed (s := inside) nonempty (by rw [body]), body]
    rfl
  | some length =>
    simp only [inside, found] at body
    rw [run_of_stepped (s := inside) nonempty (by rw [body]), body]
    rfl

end ScanState

/-! ## Whole constructs -/

/-- The reader takes a text in front as one token of a kept body, and goes on in plain text. -/
def TakesWhole (dialect : Dialect) (construct after : Chars) : Prop :=
  ∃ kind, (kind = .verbatim ∨ kind = .rawCode) ∧
    scan dialect (construct ++ after) =
      .after ((ScanState.start (construct ++ after)).take kind construct.length)
        (((ScanState.start (construct ++ after)).skip construct.length).run dialect)

/-- Front matter starts with a dash. -/
theorem scan_of_sign (dialect : Dialect) (rest : Chars) :
    scan dialect ('@' :: rest) = (ScanState.start ('@' :: rest)).run dialect := by
  have noFrontMatter : frontMatterLength ('@' :: rest) = none := by
    unfold frontMatterLength
    rw [if_neg (by simp [startsWith, dashes])]
  unfold scan
  simp only [noFrontMatter, ite_self]

/-- What is taken up to a closer that was searched for ends with it. -/
theorem BodySearch.ends_of_takesWhole {search : BodySearch} {dialect : Dialect}
    {construct after : Chars} (takes : TakesWhole dialect construct after)
    (scanned : scan dialect (construct ++ after) =
      search.scanFrom dialect (ScanState.start (construct ++ after))) :
    ∃ before, construct = before ++ search.closer := by
  obtain ⟨kind, _, taken⟩ := takes
  have tokens := congrArg Scan.tokens (taken.symm.trans scanned)
  unfold scanFrom at tokens
  have text : (ScanState.start (construct ++ after)).rest = construct ++ after := rfl
  rw [text] at tokens
  split at tokens
  · cases tokens
  · next length found =>
    obtain ⟨-, rest, split⟩ := indexOf_spec found
    rw [List.drop_drop] at split
    have values := congrArg Token.value (List.cons.inj tokens).1
    refine ⟨(construct ++ after).take (search.lead + length), ?_⟩
    calc construct = (construct ++ after).take construct.length := List.take_left.symm
      _ = (construct ++ after).take (search.lead + length + search.closer.length) := values
      _ = (construct ++ after).take (search.lead + length) ++ search.closer := by
        rw [List.take_add, split, List.take_left]

section Opaque

variable {dialect : Dialect} {descriptor : Descriptor} {name body : Chars}

/-- A registered directive whose body is kept and ends in the directive's own closer is read as one
token exactly if it is called as one of the built-in ones: the closers searched for are theirs. -/
theorem takesWhole_iff (built : dialect.registry.Built)
    (registered : descriptor ∈ dialect.registry.descriptors)
    (keeps : descriptor.keepsBody = true) (spelled : sameLetters descriptor.name name = true)
    (named : (name.head?.map isNameStart).getD false = true)
    (whole : directiveNameLength (name ++ body) = name.length)
    (bare : descriptor.acceptsArguments = true →
      (body.dropWhile isInlineSpace).head? ≠ some '(')
    (absent : ¬ '@' :: descriptor.bodyCloser <:+: body) (after : Chars) :
    TakesWhole dialect ('@' :: name ++ body ++ '@' :: descriptor.bodyCloser) after ↔
      descriptor.name = "php".toList ∨ descriptor.name = "verbatim".toList := by
  have known := Registry.lookup_of_mem built registered spelled
  obtain ⟨construct, isConstruct⟩ : ∃ construct,
      construct = '@' :: name ++ body ++ '@' :: descriptor.bodyCloser := ⟨_, rfl⟩
  have text : construct ++ after =
      '@' :: (name ++ (body ++ '@' :: (descriptor.bodyCloser ++ after))) := by
    simp [isConstruct]
  have scanned : scan dialect (construct ++ after) =
      descriptor.bodySearch.scanFrom dialect (ScanState.start (construct ++ after)) := by
    rw [text, scan_of_sign]
    refine ScanState.run_keptBody rfl rfl rfl named ?_ known keeps ?_
    · rw [← List.append_assoc, directiveNameLength_append, whole]
    · exact argumentsOffset_eq_none bare _
  rw [← isConstruct]
  constructor
  · intro takes
    by_cases verbatim : descriptor.name = "verbatim".toList
    · exact .inr verbatim
    -- The name stands behind the last sign, in the closer that was found as in the construct.
    obtain ⟨before, ends⟩ := descriptor.bodySearch.ends_of_takesWhole takes scanned
    have unsigned := Descriptor.sign_not_mem_of_spelled spelled (sign_not_mem_name whole)
    rw [isConstruct, Descriptor.closer_of_not_verbatim verbatim] at ends
    have behind : descriptor.bodyCloser = "endphp".toList :=
      eq_of_last ends (by simp [Descriptor.bodyCloser, unsigned]) (by decide)
    exact .inl (@List.append_cancel_left _ "end".toList _ _ behind)
  · intro called
    -- The lead is the sign and the name, and the closer is the directive's own.
    obtain ⟨lead, closer, unsigned⟩ := Descriptor.bodySearch_of_called called
    rw [← Descriptor.length_of_spelled called spelled] at lead
    have found : indexOf descriptor.bodySearch.closer
        ((ScanState.start (construct ++ after)).rest.drop descriptor.bodySearch.lead) =
          some body.length := by
      have behind : (ScanState.start (construct ++ after)).rest.drop descriptor.bodySearch.lead =
          body ++ '@' :: descriptor.bodyCloser ++ after := by
        show (construct ++ after).drop _ = _
        rw [lead, text, Nat.add_comm, List.drop_succ_cons, List.drop_left]
        simp
      rw [behind, closer]
      exact indexOf_closer unsigned absent after
    have length : descriptor.bodySearch.lead + body.length + descriptor.bodySearch.closer.length =
        construct.length := by
      rw [lead, closer, isConstruct]
      simp
      omega
    refine ⟨_, descriptor.kind_bodySearch, ?_⟩
    rw [scanned]
    unfold BodySearch.scanFrom
    simp only [found, length]

/-- The built-in directive, in capitals, has its body kept up to its closer. One that is registered
with the same role has not: the closer of the built-in one is searched for. -/
theorem takesWhole_iff_called :
    let php : Descriptor :=
      { Descriptor.opener "php" with inlineArity := 1, keepsBody := true }
    let raw : Descriptor := { Descriptor.opener "raw" with keepsBody := true }
    let body := "\n\x7b\x7b$x\x7d\x7d\n".toList
    TakesWhole ⟨.builtin, true, true⟩ ('@' :: "PHP".toList ++ body ++ '@' :: php.bodyCloser) [] ∧
      ¬ TakesWhole ⟨⟨[raw]⟩, true, true⟩ ('@' :: "raw".toList ++ body ++ '@' :: raw.bodyCloser)
        [] := by
  intro php raw body
  have built : Registry.Built ⟨[raw]⟩ := @Registry.Built.register .empty _ raw false .empty rfl
  constructor
  · refine (takesWhole_iff .builtin ?_ rfl ?_ ?_ ?_ ?_ ?_ []).2 (.inl rfl)
    all_goals decide +kernel
  · rw [takesWhole_iff built (List.mem_singleton_self _) rfl]
    all_goals decide +kernel

end Opaque

end BladeTemplate
