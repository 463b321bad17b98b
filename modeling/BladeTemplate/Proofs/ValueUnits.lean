import BladeTemplate.Proofs.EchoSpacing
import BladeTemplate.Proofs.Reading
import BladeTemplate.Proofs.Standing
import BladeTemplate.Stability

/-!
# Comments in attribute values

An attribute value is read in units: echoes and template comments are passed over as wholes, the
rest one character at a time. Normalizing the value goes by its echoes alone. So the comments stay
as they are if the two agree about where echoes start: inside what is not normalized there is none,
and in a value without quotes, where raw echoes are no units, there are no raw ones.

* `Lookahead.valueUnits` are the units of a value, and `Lookahead.quiet` says that no echo starts
  anywhere else;
* `Text.Passes` is what both kinds of values have in common;
* `Text.inOrder_comments` follows the normalizer from unit to unit;
* `comments_of_values` is the statement about the values of a template.
-/

namespace BladeTemplate

open Text

/-! ## Units -/

namespace Lookahead

/-- The units of the rest of a quoted value, its closing quote included. -/
def quotedUnits (quote : Char) (text : Chars) : List Chars :=
  match text with
  | [] => []
  | c :: rest =>
    if c = quote then [[c]]
    else
      match embeddedLength (c :: rest) with
      | some length => (c :: rest).take length :: quotedUnits quote (rest.drop (length - 1))
      | none => [c] :: quotedUnits quote rest
termination_by text.length
decreasing_by all_goals simp only [List.length_cons, List.length_drop]; omega

/-- The units of a value without quotes. -/
def bareUnits (text : Chars) : List Chars :=
  match text with
  | [] => []
  | c :: rest =>
    if isTagSpace c || c = '>' then []
    else if startsWith EchoStyle.escaped.opener (c :: rest) then
      match closedEchoLength .escaped (c :: rest) with
      | some length => (c :: rest).take length :: bareUnits (rest.drop (length - 1))
      | none => [c] :: bareUnits rest
    else [c] :: bareUnits rest
termination_by text.length
decreasing_by all_goals simp only [List.length_cons, List.length_drop]; omega

/-- Whether a value starts with a quote. -/
def isQuoted (text : Chars) : Bool :=
  (text.head?.map isQuote).getD false

/-- The units of the attribute value at the front of a text. -/
def valueUnits (text : Chars) : List Chars :=
  match text with
  | [] => []
  | c :: rest => if isQuote c then [c] :: quotedUnits c rest else bareUnits text

/-- Whether a unit is a template comment. -/
def isComment (unit : Chars) : Bool :=
  startsWith commentOpener unit && commentCloser.isSuffixOf unit

/-- Whether no echo to normalize starts behind the first character of a text. -/
def silent : Chars → Bool
  | [] => true
  | c :: rest => (echoToNormalize (some c) rest).isNone && silent rest

/-- Whether echoes to normalize start nowhere but where units do, and those that are no units of a
value without quotes nowhere at all. -/
def quiet (quoted : Bool) : Option Char → List Chars → Bool
  | _, [] => true
  | previous, unit :: rest =>
    (match echoToNormalize previous (unit ++ rest.flatten) with
      | none => silent unit
      | some style => quoted || style = .escaped) &&
    quiet quoted unit.getLast? rest

end Lookahead

/-! ## Passing over units -/

namespace Text

open Lookahead

/-- Units that the text ahead starts with: comments, echoes with their closing delimiter, and single
characters at which no closed echo starts, or at most a raw one in a value without quotes. -/
inductive Passes (quoted : Bool) : Chars → List Chars → Prop
  | nil (text : Chars) : Passes quoted text []
  | char {c : Char} {rest : Chars} {units : List Chars} :
      (∀ style, EchoStyle.startOf (c :: rest) = some style →
        startsWith commentOpener (c :: rest) = false → (quoted || style = .escaped) = true →
        closedEchoLength style (c :: rest) = none) →
      Passes quoted rest units → Passes quoted (c :: rest) ([c] :: units)
  | comment {unit rest : Chars} {units : List Chars} : startsWith commentOpener unit = true →
      unit.getLast? = some '}' → Passes quoted rest units →
      Passes quoted (unit ++ rest) (unit :: units)
  | echo (style : EchoStyle) {body rest : Chars} {units : List Chars} :
      findDelimiter style.closer (body ++ style.closer ++ rest) = some body.length →
      Passes quoted rest units →
      Passes quoted (style.opener ++ body ++ style.closer ++ rest)
        ((style.opener ++ body ++ style.closer) :: units)

variable {quoted : Bool} {text : Chars} {units : List Chars}

theorem Passes.isPrefix (passes : Passes quoted text units) : units.flatten <+: text := by
  induction passes with
  | nil => exact List.nil_prefix
  | @char c rest units _ _ ih =>
    rw [List.flatten_cons]
    exact (List.prefix_append_right_inj [c]).2 ih
  | @comment unit rest units _ _ _ ih =>
    rw [List.flatten_cons]
    exact (List.prefix_append_right_inj unit).2 ih
  | echo style _ _ ih =>
    rw [List.flatten_cons]
    exact (List.prefix_append_right_inj _).2 ih

/-- A text that starts with a closed echo, cut behind it. -/
theorem exists_of_closedEchoLength {style : EchoStyle} {length : Nat}
    (starts : startsWith style.opener text = true)
    (closed : closedEchoLength style text = some length) :
    ∃ body rest, text = style.opener ++ body ++ style.closer ++ rest ∧
      length = (style.opener ++ body ++ style.closer).length ∧
      findDelimiter style.closer (body ++ style.closer ++ rest) = some body.length := by
  obtain ⟨after, rfl⟩ := startsWith_iff.1 starts
  obtain ⟨n, found, rfl⟩ := Option.map_eq_some_iff.1 closed
  rw [← style.length_opener, List.drop_left] at found
  obtain ⟨body, rest, rfl, rfl⟩ := exists_of_findDelimiter found
  refine ⟨body, rest, by simp only [List.append_assoc], ?_, found⟩
  rw [List.length_append, List.length_append, style.length_opener, style.length_closer]

theorem startsWith_opener_of_startOf {style : EchoStyle}
    (starts : EchoStyle.startOf text = some style) : startsWith style.opener text = true :=
  startsWith_iff.2 (startOf_spec starts)

theorem startOf_of_isQuote {c : Char} (quote : isQuote c = true) (rest : Chars) :
    EchoStyle.startOf (c :: rest) = none := by
  have other : c ≠ '{' := by
    rintro rfl
    cases quote
  simp [EchoStyle.startOf, startsWith, EchoStyle.opener, other.symm]

/-- A closed comment or echo of a quoted value is a unit. -/
theorem exists_of_embeddedLength {length : Nat} (found : embeddedLength text = some length) :
    ∃ unit rest, text = unit ++ rest ∧ length = unit.length ∧ unit ≠ [] ∧
      ∀ units, Passes true rest units → Passes true (unit ++ rest) (unit :: units) := by
  unfold embeddedLength at found
  split at found
  · next comment =>
    obtain ⟨after, rfl⟩ := startsWith_iff.1 comment
    obtain ⟨n, closes, rfl⟩ := Option.map_eq_some_iff.1 found
    rw [show (commentOpener ++ after).drop 4 = after from rfl] at closes
    obtain ⟨fits, rest, ends⟩ := indexOf_spec closes
    refine ⟨commentOpener ++ after.take n ++ commentCloser, rest, ?_, ?_, by simp [commentOpener],
      fun units => .comment (startsWith_iff.2 ⟨_, List.append_assoc ..⟩) (by simp [commentCloser])⟩
    · rw [List.append_assoc, List.append_assoc, ← ends, List.take_append_drop]
    · simp [commentOpener, commentCloser, List.length_take_of_le fits]
      omega
  · split at found
    · next style starts =>
      obtain ⟨body, rest, rfl, rfl, closes⟩ :=
        exists_of_closedEchoLength (startsWith_opener_of_startOf starts) found
      refine ⟨_, rest, rfl, rfl, ?_, fun units => .echo style closes⟩
      cases style <;> simp [EchoStyle.opener]
    · cases found

/-- The first unit of a text and what follows it. -/
theorem take_drop_unit {c : Char} {rest unit after : Chars} (split : c :: rest = unit ++ after)
    (some_ : unit ≠ []) :
    (c :: rest).take unit.length = unit ∧ rest.drop (unit.length - 1) = after := by
  cases unit with
  | nil => exact absurd rfl some_
  | cons d unit =>
    injection split with same later
    subst same later
    simp

theorem passes_quotedUnits {quote : Char} (isQuote_ : isQuote quote = true) (text : Chars) :
    Passes true text (quotedUnits quote text) := by
  induction text using quotedUnits.induct quote with
  | case1 => rw [quotedUnits]; exact .nil []
  | case2 rest =>
    rw [quotedUnits, if_pos rfl]
    refine .char (fun style starts => ?_) (.nil rest)
    rw [startOf_of_isQuote isQuote_] at starts
    cases starts
  | case3 c rest other length found ih =>
    rw [quotedUnits, if_neg other]
    simp only [found]
    obtain ⟨unit, after, split, rfl, some_, step⟩ := exists_of_embeddedLength found
    obtain ⟨taken, dropped⟩ := take_drop_unit split some_
    rw [dropped] at ih
    rw [taken, dropped, split]
    exact step _ ih
  | case4 c rest other none ih =>
    rw [quotedUnits, if_neg other]
    simp only [none]
    refine .char (fun style starts plain _ => ?_) ih
    simpa [embeddedLength, plain, starts] using none

theorem passes_bareUnits (text : Chars) : Passes false text (bareUnits text) := by
  induction text using bareUnits.induct with
  | case1 => rw [bareUnits]; exact .nil []
  | case2 c rest stops =>
    rw [bareUnits, if_pos stops]
    exact .nil _
  | case3 c rest goesOn starts length found ih =>
    rw [bareUnits, if_neg goesOn, if_pos starts]
    simp only [found]
    obtain ⟨body, after, split, rfl, closes⟩ := exists_of_closedEchoLength starts found
    obtain ⟨taken, dropped⟩ := take_drop_unit split (by simp [EchoStyle.opener])
    rw [dropped] at ih
    rw [taken, dropped, split]
    exact .echo .escaped closes ih
  | case4 c rest goesOn starts none ih =>
    rw [bareUnits, if_neg goesOn, if_pos starts]
    simp only [none]
    refine .char (fun style _ _ escaped => ?_) ih
    obtain rfl : style = .escaped := by simpa using escaped
    exact none
  | case5 c rest goesOn other ih =>
    rw [bareUnits, if_neg goesOn, if_neg other]
    refine .char (fun style starts _ escaped => ?_) ih
    obtain rfl : style = .escaped := by simpa using escaped
    exact absurd (startsWith_opener_of_startOf starts) other

/-! ## What can be seen of an echo -/

theorem startsWith_of_isPrefix {lead other : Chars} (front : other <+: text)
    (starts : startsWith lead other = true) : startsWith lead text = true := by
  rw [startsWith, List.isPrefixOf_iff_prefix] at starts ⊢
  exact starts.trans front

theorem startOf_opener (style : EchoStyle) (text : Chars) :
    EchoStyle.startOf (style.opener ++ text) = some style := by
  cases style <;> simp [EchoStyle.startOf, EchoStyle.opener, startsWith]

theorem startOf_of_isPrefix {style : EchoStyle} {other : Chars} (front : other <+: text)
    (starts : EchoStyle.startOf other = some style) : EchoStyle.startOf text = some style := by
  obtain ⟨rest, rfl⟩ := startOf_spec starts
  obtain ⟨more, rfl⟩ := front
  rw [List.append_assoc, startOf_opener]

theorem findDelimiter_eq_none_of_isPrefix {style : EchoStyle} {other : Chars}
    (front : other <+: text) (none : findDelimiter style.closer text = none) :
    findDelimiter style.closer other = .none := by
  have quieter : Quieter style.closer .code text other := .of_isPrefix front
  rw [findDelimiter_eq, Option.or_eq_none_iff, search_eq_none_iff (closer_ne_nil style),
    search_eq_none_iff (closer_ne_nil style)] at none ⊢
  exact ⟨fun closes => none.1 (quieter.closes _ closes),
    fun closes => none.2 (quieter.closes _ closes)⟩

/-- Where the delimiter of an echo is found, it is found in every text that ends behind it. -/
theorem findDelimiter_of_isPrefix {style : EchoStyle} {body rest other : Chars}
    (found : findDelimiter style.closer (body ++ style.closer ++ rest) = some body.length)
    (front : other <+: rest) :
    findDelimiter style.closer (body ++ style.closer ++ other) = some body.length :=
  findDelimiter_of_quieter found id (.refl _ _ _)
    (.of_isPrefix ((List.prefix_append_right_inj _).2 front))

theorem not_comment_of_echoToNormalize {previous : Option Char} {style : EchoStyle}
    (starts : echoToNormalize previous text = some style) :
    startsWith commentOpener text = false := by
  unfold echoToNormalize at starts
  split at starts
  · cases starts
  · next noneOf =>
    simp only [Bool.or_eq_true, not_or, Bool.not_eq_true] at noneOf
    exact noneOf.2

/-- What is silent and ends with a brace is left alone, whatever follows it. -/
theorem normalizeEchoesAfter_of_silent {previous : Option Char} {unit rest : Chars}
    (quiet_ : silent unit = true) (ends : unit.getLast? = some '}')
    (none : echoToNormalize previous (unit ++ rest) = none) :
    normalizeEchoesAfter previous (unit ++ rest) =
      unit ++ normalizeEchoesAfter (some '}') rest := by
  -- The last brace keeps what follows it from making an echo of what precedes it.
  have visible {previous : Option Char} {unit : Chars} (ends : unit.getLast? = some '}') :
      echoToNormalize previous (unit ++ rest) = echoToNormalize previous unit := by
    match unit with
    | [] => cases ends
    | [a] | [a, b] | [a, b, c] =>
      obtain rfl := Option.some.inj ends
      simp [echoToNormalize, EchoStyle.startOf, startsWith, EchoStyle.opener, commentOpener]
    | _ :: _ :: _ :: _ :: _ =>
      simp [echoToNormalize, EchoStyle.startOf, startsWith, EchoStyle.opener, commentOpener]
  induction unit generalizing previous with
  | nil => cases ends
  | cons c unit ih =>
    rw [List.cons_append] at none ⊢
    rw [normalizeEchoesAfter_of_none none]
    cases unit with
    | nil =>
      obtain rfl := Option.some.inj ends
      rfl
    | cons d more =>
      rw [silent, Bool.and_eq_true, Option.isNone_iff_eq_none] at quiet_
      rw [List.getLast?_cons_cons] at ends
      rw [ih quiet_.2 ends ((visible ends).trans quiet_.1)]
      rfl

/-- A unit in front of a text, among the units in which some of them stand. -/
theorem inOrder_filter_cons (keep : Chars → Bool) (unit : Chars) {units : List Chars}
    {later : Chars} (inOrder : InOrder (units.filter keep) later) :
    InOrder ((unit :: units).filter keep) (unit ++ later) := by
  rw [List.filter_cons]
  split
  · exact (InOrder.single unit).append inOrder
  · exact inOrder.after unit

/-- The comments among units stand in the text that the units make up. -/
theorem inOrder_flatten (keep : Chars → Bool) (units : List Chars) :
    InOrder (units.filter keep) units.flatten := by
  induction units with
  | nil => exact .nil []
  | cons unit rest ih =>
    rw [List.flatten_cons]
    exact inOrder_filter_cons keep unit ih

/-- An echo that is not closed in the text ahead is not closed in the front part of it that is
normalized. -/
theorem unclosed_of_isPrefix {previous : Option Char} {style : EchoStyle} {after ahead : Chars}
    (front : style.opener ++ after <+: ahead)
    (starts : echoToNormalize previous (style.opener ++ after) = some style)
    (open_ : startsWith commentOpener ahead = false → closedEchoLength style ahead = none) :
    findDelimiter style.closer after = none := by
  cases closes : findDelimiter style.closer after with
  | none => rfl
  | some n =>
    -- The closed echo is as long as the start of a comment, so no comment starts here.
    obtain ⟨body, more, cut, _⟩ := exists_of_findDelimiter closes
    have plain : startsWith commentOpener ahead = false := by
      rw [← Bool.not_eq_true]
      intro comment
      have fits : commentOpener.length ≤ (style.opener ++ after).length := by
        rw [cut]
        cases style <;> simp [commentOpener, EchoStyle.opener, EchoStyle.closer] <;> omega
      rw [startsWith, List.isPrefixOf_iff_prefix] at comment
      have seen := List.prefix_of_prefix_length_le comment front fits
      have none := not_comment_of_echoToNormalize starts
      rw [startsWith, List.isPrefixOf_iff_prefix.2 seen] at none
      cases none
    have behind : after <+: ahead.drop style.width := by
      obtain ⟨tail, whole⟩ := front
      rw [← whole, List.append_assoc, ← style.length_opener, List.drop_left]
      exact List.prefix_append _ _
    have none := findDelimiter_eq_none_of_isPrefix behind
      (Option.map_eq_none_iff.1 (open_ plain))
    rw [closes] at none
    cases none

/-- In a value in which echoes to normalize start only where units do, the comments are left
alone. -/
theorem inOrder_comments (passes : Passes quoted text units) :
    ∀ previous, quiet quoted previous units = true →
      InOrder (units.filter isComment) (normalizeEchoesAfter previous units.flatten) := by
  induction passes with
  | nil => exact fun _ _ => .nil _
  | @char c rest units open_ passes ih =>
    intro previous quiet_
    rw [quiet, Bool.and_eq_true, List.singleton_append] at quiet_
    rw [List.flatten_cons, List.singleton_append]
    cases starts : echoToNormalize previous (c :: units.flatten) with
    | none =>
      rw [normalizeEchoesAfter_of_none starts]
      exact inOrder_filter_cons isComment [c] (ih _ quiet_.2)
    | some style =>
      -- An echo that is closed in the value is closed in the text ahead, so it would be a unit.
      have front : c :: units.flatten <+: c :: rest :=
        (List.prefix_append_right_inj [c]).2 passes.isPrefix
      have start := startOf_of_echoToNormalize starts
      obtain ⟨after, split⟩ := startOf_spec start
      rw [starts] at quiet_
      have unclosed := open_ style (startOf_of_isPrefix front start)
      rw [split] at starts front
      have none := unclosed_of_isPrefix front starts fun plain => unclosed plain quiet_.1
      rw [split, normalizeEchoesAfter_of_unclosed starts none, ← split]
      exact inOrder_filter_cons isComment [c] (inOrder_flatten isComment units)
  | @comment unit rest units starts ends passes ih =>
    intro previous quiet_
    rw [quiet, Bool.and_eq_true] at quiet_
    have none : echoToNormalize previous (unit ++ units.flatten) = none := by
      simp [echoToNormalize, startsWith_of_isPrefix (List.prefix_append _ _) starts]
    rw [none] at quiet_
    rw [List.flatten_cons, normalizeEchoesAfter_of_silent quiet_.1 ends none]
    exact inOrder_filter_cons isComment unit (ih _ (by rw [← ends]; exact quiet_.2))
  | @echo style body rest units found passes ih =>
    intro previous quiet_
    rw [quiet, Bool.and_eq_true] at quiet_
    have ends : (style.opener ++ body ++ style.closer).getLast? = some '}' := by
      cases style <;> simp [EchoStyle.closer]
    rw [ends] at quiet_
    rw [List.flatten_cons]
    cases starts : echoToNormalize previous
        (style.opener ++ body ++ style.closer ++ units.flatten) with
    | none =>
      rw [starts] at quiet_
      rw [normalizeEchoesAfter_of_silent quiet_.1 ends starts]
      exact inOrder_filter_cons isComment _ (ih _ quiet_.2)
    | some other =>
      have same : other = style := by
        have start := startOf_of_echoToNormalize starts
        rw [List.append_assoc, List.append_assoc, startOf_opener] at start
        exact (Option.some.inj start).symm
      subst same
      have plain : isComment (other.opener ++ body ++ other.closer) = false := by
        rw [isComment, Bool.and_eq_false_iff, ← Bool.not_eq_true]
        refine .inl fun comment => ?_
        have none := not_comment_of_echoToNormalize starts
        rw [startsWith_of_isPrefix (List.prefix_append _ _) comment] at none
        cases none
      rw [normalizeEchoesAfter_of_echo starts (findDelimiter_of_isPrefix found passes.isPrefix),
        List.filter_cons, plain]
      exact (ih _ quiet_.2).after _

/-! ## The units of a value make it up -/

theorem flatten_quotedUnits {quote : Char} {length : Nat}
    (found : quotedTailLength quote text = some length) :
    (quotedUnits quote text).flatten = text.take length := by
  induction text using quotedUnits.induct quote generalizing length with
  | case1 => rw [quotedUnits, List.take_nil, List.flatten_nil]
  | case2 rest =>
    rw [quotedTailLength, if_pos rfl] at found
    cases found
    rw [quotedUnits, if_pos rfl]
    rfl
  | case3 c rest other first embedded ih =>
    rw [quotedTailLength, if_neg other] at found
    simp only [embedded, Option.map_eq_some_iff] at found
    obtain ⟨later, found, rfl⟩ := found
    rw [quotedUnits, if_neg other]
    simp only [embedded]
    obtain ⟨unit, after, split, rfl, some_, _⟩ := exists_of_embeddedLength embedded
    obtain ⟨taken, dropped⟩ := take_drop_unit split some_
    rw [List.flatten_cons, taken, ih found, dropped, split, List.take_length_add_append]
  | case4 c rest other none ih =>
    rw [quotedTailLength, if_neg other] at found
    simp only [none, Option.map_eq_some_iff] at found
    obtain ⟨later, found, rfl⟩ := found
    rw [quotedUnits, if_neg other]
    simp only [none]
    rw [List.flatten_cons, ih found, Nat.add_comm, List.take_succ_cons, List.singleton_append]

theorem flatten_bareUnits (text : Chars) :
    (bareUnits text).flatten = text.take (bareValueLength text) := by
  induction text using bareUnits.induct with
  | case1 => rw [bareUnits, List.take_nil, List.flatten_nil]
  | case2 c rest stops =>
    rw [bareUnits, if_pos stops, bareValueLength, if_pos stops]
    rfl
  | case3 c rest goesOn starts length found ih =>
    rw [bareUnits, if_neg goesOn, if_pos starts, bareValueLength, if_neg goesOn, if_pos starts]
    simp only [found]
    obtain ⟨body, after, split, rfl, _⟩ := exists_of_closedEchoLength starts found
    obtain ⟨taken, dropped⟩ := take_drop_unit split (by simp [EchoStyle.opener])
    rw [List.flatten_cons, taken, ih, dropped, split, List.take_length_add_append]
  | case4 c rest goesOn starts none ih =>
    rw [bareUnits, if_neg goesOn, if_pos starts, bareValueLength, if_neg goesOn, if_pos starts]
    simp only [none]
    rw [List.flatten_cons, ih, Nat.add_comm, List.take_succ_cons, List.singleton_append]
  | case5 c rest goesOn other ih =>
    rw [bareUnits, if_neg goesOn, if_neg other, bareValueLength, if_neg goesOn, if_neg other,
      List.flatten_cons, ih, Nat.add_comm, List.take_succ_cons, List.singleton_append]

theorem flatten_valueUnits {length : Nat} (found : valueLength text = some length) :
    (valueUnits text).flatten = text.take length := by
  unfold valueLength at found
  unfold valueUnits
  split at found
  · rw [List.take_nil, List.flatten_nil]
  · split at found
    · next quote =>
      obtain ⟨later, tail, rfl⟩ := Option.map_eq_some_iff.1 found
      simp only [quote, if_true]
      rw [List.flatten_cons, flatten_quotedUnits tail, Nat.add_comm, List.take_succ_cons,
        List.singleton_append]
    · next bare =>
      cases found
      simp only [bare]
      exact flatten_bareUnits _

/-- A value starts with a quote if the text ahead does. -/
theorem isQuoted_take {length : Nat} (found : valueLength text = some length) :
    isQuoted (text.take length) = isQuoted text := by
  unfold valueLength at found
  split at found
  · rw [List.take_nil]
  · next c rest =>
    split at found
    · obtain ⟨later, _, rfl⟩ := Option.map_eq_some_iff.1 found
      rw [Nat.add_comm, List.take_succ_cons]
      rfl
    · next bare =>
      cases length with
      | zero => simpa [isQuoted] using bare
      | succ n => rfl

theorem passes_valueUnits (text : Chars) : Passes (isQuoted text) text (valueUnits text) := by
  unfold valueUnits isQuoted
  split
  · exact .nil []
  · next c rest =>
    split
    · next quote =>
      rw [List.head?_cons, Option.map_some, Option.getD_some, quote]
      refine .char (fun style starts => ?_) (passes_quotedUnits quote rest)
      rw [startOf_of_isQuote quote] at starts
      cases starts
    · next bare =>
      rw [List.head?_cons, Option.map_some, Option.getD_some, eq_false_of_ne_true bare]
      exact passes_bareUnits (c :: rest)

end Text

/-! ## Values of a template -/

open Lookahead

namespace ScanState

/-- Whether tokens are no attribute values. -/
def noValues (tokens : List Token) : Bool :=
  tokens.all (·.kind ≠ .attributeValue)

theorem noValues_stepConstruct (s : ScanState) : noValues s.stepConstruct.tokens = true := by
  unfold stepConstruct stepEndTag stepBang takeThrough
  simp only
  repeat' split
  all_goals simp [noValues, take, enter, failHere, token]

theorem noValues_stepText (s : ScanState) : noValues s.stepText.tokens = true := by
  unfold stepText
  simp only
  split
  · exact noValues_stepConstruct s
  · split
    · simp [noValues, take, token]
    · exact Bool.and_eq_true_iff.2 ⟨rfl, noValues_stepConstruct _⟩

/-- Only the step that reads a value yields one. -/
theorem noValues_step (dialect : Dialect) (s : ScanState)
    (other : ∀ name start outer, s.modes ≠ ⟨.attributeValue name, start⟩ :: outer) :
    noValues (s.step dialect).tokens = true := by
  unfold step
  split
  · exact noValues_stepText s
  · next mode start outer top =>
    cases mode with
    | attributeValue name => exact absurd top (other name start outer)
    | directiveHead =>
      unfold stepDirectiveHead
      simp only
      split <;> simp [noValues, token]
    | arguments =>
      unfold stepArguments
      simp only
      repeat' split
      all_goals simp [noValues, token]
    | echo =>
      unfold stepEcho takeTriple
      simp only
      split <;> simp [noValues, token]
    | comment =>
      unfold stepComment takeTriple
      simp only
      split <;> simp [noValues, token]
    | tagStart => simp [stepTagStart, noValues, token]
    | tag name =>
      unfold stepTag stepAttribute
      simp only
      repeat' split
      all_goals simp [noValues, token, enter]
    | verbatim =>
      unfold takeBody
      simp only
      split <;> simp [noValues, token]
    | rawCode =>
      unfold stepRawCode takeBody
      simp only
      repeat' split
      all_goals simp [noValues, token]
    | rawText tag =>
      unfold stepRawText
      simp only
      repeat' split
      all_goals simp [noValues, token]

/-- A token that is an attribute value is as long as one is measured to be. -/
theorem value_step (dialect : Dialect) (s : ScanState) {token : Token}
    (member : token ∈ (s.step dialect).tokens) (kind : token.kind = .attributeValue) :
    ∃ length, valueLength s.rest = some length ∧ token = s.token .attributeValue length := by
  by_cases reads : ∃ name start outer, s.modes = ⟨.attributeValue name, start⟩ :: outer
  · obtain ⟨name, start, outer, top⟩ := reads
    unfold step at member
    simp only [top, stepValue] at member
    split at member
    · cases member
    · next length found => exact ⟨length, found, List.mem_singleton.1 member⟩
  · have none := noValues_step dialect s fun name start outer top => reads ⟨name, start, outer, top⟩
    have other := List.all_eq_true.1 none token member
    simp [kind] at other

/-- The token is an attribute value of the text. -/
def IsValue (source : Chars) (token : Token) : Prop :=
  ∃ length, valueLength (source.drop token.start.offset) = some length ∧
    token.value = (source.drop token.start.offset).take length

theorem isValue_run (dialect : Dialect) {source : Chars} (s : ScanState) :
    ∀ place, s.On source → s.Stands place → ∀ token ∈ (s.run dialect).tokens,
      token.kind = .attributeValue → IsValue source token := by
  have step {s : ScanState} (on : s.On source) {token : Token}
      (member : token ∈ (s.step dialect).tokens) (kind : token.kind = .attributeValue) :
      IsValue source token := by
    obtain ⟨length, found, rfl⟩ := value_step dialect s member kind
    rw [on.rest] at found
    exact ⟨length, found, congrArg (List.take length) on.rest⟩
  induction s using run_induction dialect with
  | ended s atEnd =>
    intro place on stands token member kind
    unfold finish at member
    split at member
    · obtain rfl := List.mem_singleton.1 member
      cases kind
    · cases member
  | failed s fault ahead h => exact fun place on stands token => step on
  | stepped s next ahead h ih =>
    intro place on stands token member kind
    obtain ⟨onNext, after, standsNext, _⟩ := (leads_step dialect on ahead stands).goesOn next h
    rcases List.mem_append.1 member with here | later
    · exact step on here kind
    · exact ih after onNext standsNext token later kind

end ScanState

theorem isValue_scan (dialect : Dialect) (source : Chars) {token : Token}
    (member : token ∈ (scan dialect source).tokens) (kind : token.kind = .attributeValue) :
    ScanState.IsValue source token := by
  have on := ScanState.on_start source
  unfold scan at member
  simp only at member
  split at member
  · rcases List.mem_cons.1 member with rfl | later
    · cases kind
    · exact ScanState.isValue_run dialect _ .content (on.skip _) (.text rfl) token later kind
  · exact ScanState.isValue_run dialect _ .content on (.text rfl) token member kind

/-- Every attribute value of a template is made up of the units it was read in, and if echoes to
normalize start nowhere else, its template comments stand in the normalized value as they are and
in their order. -/
theorem comments_of_values (dialect : Dialect) (source : Chars) (token : Token)
    (member : token ∈ (scan dialect source).tokens) (kind : token.kind = .attributeValue) :
    let units := valueUnits (source.drop token.start.offset)
    units.flatten = token.value ∧
      (quiet (isQuoted token.value) none units = true →
        InOrder (units.filter isComment) (normalizeEchoes token.value)) := by
  intro units
  obtain ⟨length, found, value⟩ := isValue_scan dialect source member kind
  have whole : units.flatten = token.value := (flatten_valueUnits found).trans value.symm
  refine ⟨whole, fun quiet_ => ?_⟩
  rw [value, isQuoted_take found] at quiet_
  rw [normalizeEchoes, ← whole]
  exact inOrder_comments (passes_valueUnits _) none quiet_

/-- A value with a comment between two echoes. -/
theorem comments_of_values_between :
    let value := "\"\x7b\x7b$x\x7d\x7d\x7b\x7b-- $y --\x7d\x7d\x7b!!$z!!\x7d\"".toList
    let source := "<a t=".toList ++ value ++ ['>']
    let token : Token := ⟨.attributeValue, value, ⟨5, 1, 6⟩, ⟨33, 1, 34⟩⟩
    token ∈ (scan (Config.dialect {}) source).tokens ∧
      InOrder ["\x7b\x7b-- $y --\x7d\x7d".toList] (normalizeEchoes value) := by
  intro value source token
  have member : token ∈ (scan (Config.dialect {}) source).tokens := by decide +kernel
  have comments : (valueUnits (source.drop token.start.offset)).filter isComment =
      ["\x7b\x7b-- $y --\x7d\x7d".toList] := by decide +kernel
  have inOrder := (comments_of_values (Config.dialect {}) source token member rfl).2
    (by decide +kernel)
  rw [comments] at inOrder
  exact ⟨member, inOrder⟩

/-- Inside a comment, an echo is normalized. -/
example :
    normalizeEchoes "\x7b\x7b-- \x7b\x7b$x\x7d\x7d --\x7d\x7d".toList =
      "\x7b\x7b-- \x7b\x7b $x \x7d\x7d --\x7d\x7d".toList := by
  decide +kernel

end BladeTemplate
