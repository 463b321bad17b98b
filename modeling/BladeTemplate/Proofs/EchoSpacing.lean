import BladeTemplate.Proofs.Closers

/-!
# Normalized echoes stay as they are

White space next to the delimiters of an echo is all that normalizing changes. It hides no
delimiter and shows none that was hidden: after an opening delimiter no escape is pending, and
before a closing one an escape would take either white space or a character of the delimiter, and
be over. So what is an echo stays one, with the same text inside.

* `echoBody` is the text between the delimiters of a canonical echo;
* `quieter_echoBody` and `findDelimiter_echoBody` say that respacing an echo moves its end and
  nothing else;
* `normalizeEchoes_induction` follows the normalizer through a text;
* `normalizeEchoes_stable` is the statement about values.
-/

namespace BladeTemplate.Text

variable {closer style : EchoStyle} {state : Quoting}

/-! ## The body of a canonical echo -/

/-- What stands between the delimiters of an echo in canonical form. -/
def echoBody (body : Chars) : Chars :=
  if isMultiline body then body
  else if (trim body).isEmpty then [' ']
  else ' ' :: trim body ++ [' ']

theorem formatEcho_eq (style : EchoStyle) (body : Chars) :
    formatEcho style body = style.opener ++ echoBody body ++ style.closer := by
  unfold formatEcho echoBody
  simp only
  split
  · rfl
  · split <;> simp

/-- Only white space is trimmed. -/
theorem exists_trim (text : Chars) : ∃ lead trail, text = lead ++ trim text ++ trail ∧
    isBlankText lead = true ∧ isBlankText trail = true := by
  refine ⟨text.takeWhile isBlank, ((trimLeft text).reverse.takeWhile isBlank).reverse, ?_,
    List.all_takeWhile, ?_⟩
  · rw [trim, trimRight, List.append_assoc, ← List.reverse_append, List.takeWhile_append_dropWhile,
      List.reverse_reverse, trimLeft, List.takeWhile_append_dropWhile]
  · rw [isBlankText, List.all_reverse]
    exact List.all_takeWhile

theorem trim_trim (text : Chars) : trim (trim text) = trim text := by
  obtain ⟨lead, trail, split, leadBlank, trailBlank⟩ := exists_trim text
  have trimmed := congrArg trim split
  rw [trim_append_blank _ trailBlank, trim_blank_append leadBlank] at trimmed
  exact trimmed.symm

theorem not_isMultiline_trim {body : Chars} (single : isMultiline body = false) :
    '\n' ∉ trim body := by
  obtain ⟨lead, trail, split, _⟩ := exists_trim body
  intro member
  have inside : '\n' ∈ body := by
    rw [split]
    simp [member]
  simp [isMultiline, inside] at single

/-- The body of a canonical echo is canonical. -/
@[simp]
theorem echoBody_echoBody (body : Chars) : echoBody (echoBody body) = echoBody body := by
  cases multiline : isMultiline body with
  | true => simp [echoBody, multiline]
  | false =>
    have feed := not_isMultiline_trim multiline
    by_cases empty : trim body = []
    · have short : echoBody body = [' '] := by simp [echoBody, multiline, empty]
      rw [short]
      decide
    · have spaced : echoBody body = ' ' :: trim body ++ [' '] := by
        simp [echoBody, multiline, empty]
      have again : trim (' ' :: trim body ++ [' ']) = trim body := by
        rw [trim_append_blank _ (by decide), ← List.singleton_append,
          trim_blank_append (by decide), trim_trim]
      rw [spaced, echoBody, again]
      simp [isMultiline, feed, empty]

@[simp]
theorem formatEcho_echoBody (style : EchoStyle) (body : Chars) :
    formatEcho style (echoBody body) = formatEcho style body := by
  rw [formatEcho_eq, echoBody_echoBody, ← formatEcho_eq]

/-! ## White space before and after -/

theorem isInert_of_isBlankText {text : Chars} (blank : isBlankText text = true) :
    ∀ c ∈ text, Quoting.isInert c = true :=
  fun c member => Quoting.isInert_of_isBlank (List.all_eq_true.1 blank c member)

/-- No run of characters of a delimiter starts with white space. -/
theorem startsWith_blank {lead blank : Chars} (inside : ∀ c ∈ lead, c ∈ closer.closer)
    (isBlank_ : isBlankText blank = true) (some_ : blank ≠ []) {text other : Chars}
    (starts : startsWith lead (blank ++ text) = true) : startsWith lead other = true := by
  cases lead with
  | nil => rfl
  | cons c lead =>
    cases blank with
    | nil => exact absurd rfl some_
    | cons d blank =>
      obtain ⟨rest, split⟩ := startsWith_iff.1 starts
      injection split with same
      subst same
      exact absurd (inside d List.mem_cons_self)
        (not_mem_closer_of_isBlank (List.all_eq_true.1 isBlank_ d List.mem_cons_self))

namespace Closes

variable {aware : Bool} {text blank : Chars}

/-- White space before a delimiter does not count. -/
theorem of_blank_append (closes : Closes aware closer.closer state (blank ++ text))
    (isBlank_ : isBlankText blank = true) :
    Closes aware closer.closer (state.after blank) text :=
  closes.of_append (fun c member => not_mem_closer_of_isBlank
    (List.all_eq_true.1 isBlank_ c member)) (closer_ne_nil closer)

/-- A pending escape takes one character without meaning, and a delimiter that starts with this
character is hidden anyway. -/
theorem of_settle (proper : state.Proper) {c : Char} (inert : Quoting.isInert c = true)
    (closes : Closes aware closer.closer state.settle (c :: text)) :
    Closes aware closer.closer state (c :: text) := by
  rcases closes_cons_iff.1 closes with ⟨starts, code⟩ | later
  · refine closes_cons_iff.2 (.inl ⟨starts, fun counts => ?_⟩)
    have settled := code counts
    cases state with
    | code => rfl
    | literal quote | escape quote => cases settled
  · refine closes_cons_iff.2 (.inr ?_)
    rwa [Quoting.next_of_inert proper.settle inert, Quoting.settle_settle,
      ← Quoting.next_of_inert proper inert] at later

end Closes

namespace Quieter

variable {blank other text more : Chars}

/-- White space where no escape is pending can be exchanged for other white space. -/
theorem lead (proper : state.Proper) (settled : state.settle = state)
    (blank_ : isBlankText blank = true) (other_ : isBlankText other = true) (some_ : other ≠ [])
    (later : Quieter closer.closer state text more) :
    Quieter closer.closer state (blank ++ text) (other ++ more) := by
  have stays {blank : Chars} (blank_ : isBlankText blank = true) :
      state.after blank = state := by
    cases blank with
    | nil => rfl
    | cons c rest =>
      rw [Quoting.after_of_inert proper (List.cons_ne_nil c rest) (isInert_of_isBlankText blank_),
        settled]
  refine ⟨fun lead inside => startsWith_blank inside other_ some_, fun aware closes => ?_⟩
  have inside := closes.of_blank_append other_
  rw [stays other_] at inside
  exact .append_left blank (by rw [stays blank_]; exact later.closes aware inside)

/-- White space before a character without meaning can be exchanged for other white space. -/
theorem trail (proper : state.Proper) {c : Char} (inert : Quoting.isInert c = true)
    (blank_ : isBlankText blank = true) (other_ : isBlankText other = true) (some_ : other ≠ [])
    (later : Quieter closer.closer state.settle text more) :
    Quieter closer.closer state (blank ++ c :: text) (other ++ c :: more) := by
  refine ⟨fun lead inside => startsWith_blank inside other_ some_, fun aware closes => ?_⟩
  have inside := closes.of_blank_append other_
  rw [Quoting.after_of_inert proper some_ (isInert_of_isBlankText other_)] at inside
  have next : state.settle.next c = state.settle := by
    rw [Quoting.next_of_inert proper.settle inert, Quoting.settle_settle]
  have shown : Closes aware closer.closer state.settle (c :: text) :=
    (cons (by rwa [next])).closes aware inside
  refine .append_left blank ?_
  cases blank with
  | nil => exact .of_settle proper inert shown
  | cons d rest =>
    rwa [Quoting.after_of_inert proper (List.cons_ne_nil d rest) (isInert_of_isBlankText blank_)]

end Quieter

/-! ## Respacing an echo -/

/-- Between an opening delimiter and characters without meaning, the body of an echo can be
respaced. -/
theorem quieter_echoBody (proper : state.Proper) (settled : state.settle = state) (body : Chars)
    {c : Char} {tail rest other : Chars} (inert : ∀ d ∈ c :: tail, Quoting.isInert d = true)
    (later : ∀ state : Quoting, state.Proper → Quieter closer.closer state rest other) :
    Quieter closer.closer state (body ++ c :: (tail ++ rest))
      (echoBody body ++ c :: (tail ++ other)) := by
  have follows (state : Quoting) (proper : state.Proper) :
      Quieter closer.closer state (tail ++ rest) (tail ++ other) :=
    .append tail (later _ (proper.after tail))
  have keeps (state : Quoting) (proper : state.Proper) :
      Quieter closer.closer state (c :: (tail ++ rest)) (c :: (tail ++ other)) :=
    .cons (follows _ (proper.next c))
  unfold echoBody
  split
  · exact .append body (keeps _ (proper.after body))
  · obtain ⟨lead, trail, split_, lead_, trail_⟩ := exists_trim body
    split
    · next empty =>
      have blank : isBlankText body = true := by
        rw [split_, List.isEmpty_iff.1 empty, List.append_nil, isBlankText, List.all_append]
        exact Bool.and_eq_true_iff.2 ⟨lead_, trail_⟩
      exact .lead proper settled blank (by decide) (by decide) (keeps _ proper)
    · have spaced : Quieter closer.closer (state.after (trim body)) (trail ++ c :: (tail ++ rest))
          ([' '] ++ c :: (tail ++ other)) :=
        .trail (proper.after (trim body)) (inert c List.mem_cons_self) trail_ (by decide)
          (by decide) (follows _ (proper.after _).settle)
      have whole : Quieter closer.closer state
          (lead ++ (trim body ++ (trail ++ c :: (tail ++ rest))))
          ([' '] ++ (trim body ++ ([' '] ++ c :: (tail ++ other)))) :=
        .lead proper settled lead_ (by decide) (by decide) (.append (trim body) spaced)
      conv => lhs; rw [split_]
      simpa using whole

/-- Inside an opened echo no escape is pending. -/
theorem after_opener (proper : state.Proper) (style : EchoStyle) :
    state.after style.opener = state.settle :=
  Quoting.after_of_inert proper (by cases style <;> decide)
    (by cases style <;> simp [EchoStyle.opener, Quoting.isInert, isQuote, apostrophe, doubleQuote])

/-- The first delimiter of an echo, and what stands before its last character. -/
theorem exists_closer (style : EchoStyle) :
    ∃ c tail last, style.closer = c :: (tail ++ [last]) ∧ style.closer.dropLast = c :: tail := by
  cases style with
  | escaped => exact ⟨'}', [], '}', rfl, rfl⟩
  | raw => exact ⟨'!', ['!'], '}', rfl, rfl⟩

/-- Writing an echo in canonical form shows no delimiter that was hidden. -/
theorem quieter_formatEcho (proper : state.Proper) (style : EchoStyle) (body : Chars)
    {rest other : Chars}
    (later : ∀ state : Quoting, state.Proper → Quieter closer.closer state rest other) :
    Quieter closer.closer state (style.opener ++ body ++ style.closer ++ rest)
      (formatEcho style body ++ other) := by
  obtain ⟨c, tail, last, whole, _⟩ := exists_closer style
  have inert : ∀ d ∈ c :: (tail ++ [last]), Quoting.isInert d = true := by
    rw [← whole]
    exact fun d => isInert_of_mem_closer
  rw [formatEcho_eq, whole]
  simp only [List.append_assoc, List.cons_append]
  refine .append style.opener ?_
  rw [after_opener proper]
  simpa using quieter_echoBody proper.settle Quoting.settle_settle body inert later

theorem after_echoBody {body : Chars} (code : Quoting.code.after body = .code) :
    Quoting.code.after (echoBody body) = .code := by
  have white {blank : Chars} (blank_ : isBlankText blank = true) (state : Quoting)
      (proper : state.Proper) : state.after blank = .code ↔ state = .code :=
    Quoting.after_eq_code_iff proper (isInert_of_isBlankText blank_)
  unfold echoBody
  split
  · exact code
  split
  · exact (white (by decide) .code Quoting.proper_code).2 rfl
  · obtain ⟨lead, trail, split_, lead_, trail_⟩ := exists_trim body
    have start : Quoting.code.after lead = .code := (white lead_ .code Quoting.proper_code).2 rfl
    have space : Quoting.code.next ' ' = .code := by decide
    rw [split_, Quoting.after_append, Quoting.after_append, start,
      white trail_ _ (Quoting.proper_code.after _)] at code
    rw [List.cons_append, Quoting.after_cons, space, Quoting.after_append, code]
    decide

/-- The delimiter that ends an echo ends it in canonical form too. -/
theorem findDelimiter_echoBody {body rest other : Chars}
    (found : findDelimiter style.closer (body ++ style.closer ++ rest) = some body.length)
    (later : ∀ state : Quoting, state.Proper → Quieter style.closer state rest other) :
    findDelimiter style.closer (echoBody body ++ style.closer ++ other) =
      some (echoBody body).length := by
  obtain ⟨c, tail, last, whole, short⟩ := exists_closer style
  have inert : ∀ d ∈ c :: (tail ++ [last]), Quoting.isInert d = true := by
    rw [← whole]
    exact fun d => isInert_of_mem_closer
  refine findDelimiter_of_quieter found after_echoBody ?_ ?_
  · have shorter : ∀ d ∈ c :: tail, Quoting.isInert d = true :=
      fun d member => inert d (by rw [← List.cons_append]; exact List.mem_append_left _ member)
    rw [short]
    simpa using quieter_echoBody Quoting.proper_code rfl body shorter
      fun state _ => Quieter.refl style.closer state []
  · have respaced := quieter_echoBody Quoting.proper_code rfl body inert later
    simpa [whole] using respaced

/-! ## Following the normalizer -/

theorem normalizeEchoesAfter_of_unclosed {previous : Option Char} {rest : Chars}
    (starts : echoToNormalize previous (style.opener ++ rest) = some style)
    (open_ : findDelimiter style.closer rest = none) :
    normalizeEchoesAfter previous (style.opener ++ rest) = style.opener ++ rest := by
  have dropped : (style.opener.tail ++ rest).drop (style.width - 1) = rest := by
    cases style <;> rfl
  have first : style.opener = '{' :: style.opener.tail := by cases style <;> rfl
  rw [first, List.cons_append] at starts ⊢
  rw [normalizeEchoesAfter]
  simp only [starts, dropped, open_]

theorem normalizeEchoesAfter_of_echo {previous : Option Char} {body rest : Chars}
    (starts : echoToNormalize previous (style.opener ++ body ++ style.closer ++ rest) = some style)
    (found : findDelimiter style.closer (body ++ style.closer ++ rest) = some body.length) :
    normalizeEchoesAfter previous (style.opener ++ body ++ style.closer ++ rest) =
      formatEcho style body ++ normalizeEchoesAfter (some '}') rest := by
  have dropped (after : Chars) : (style.opener.tail ++ after).drop (style.width - 1) = after := by
    cases style <;> rfl
  have first : style.opener = '{' :: style.opener.tail := by cases style <;> rfl
  have behind : (body ++ style.closer ++ rest).drop (body.length + style.width) = rest := by
    rw [← style.length_closer, ← List.length_append, List.drop_left]
  rw [List.append_assoc] at found behind
  rw [List.append_assoc, List.append_assoc, first, List.cons_append] at starts ⊢
  rw [normalizeEchoesAfter]
  simp only [starts, dropped, found, behind, List.take_left]

theorem normalizeEchoesAfter_of_none {previous : Option Char} {c : Char} {rest : Chars}
    (none : echoToNormalize previous (c :: rest) = none) :
    normalizeEchoesAfter previous (c :: rest) = c :: normalizeEchoesAfter (some c) rest := by
  rw [normalizeEchoesAfter]
  simp only [none]

/-- What holds of an empty text, of a character that starts no echo to normalize, of an echo that
is not closed and of one that is, each with what holds of the text behind it, holds of every text
and its normal form. -/
theorem normalizeEchoes_induction {P : Option Char → Chars → Chars → Prop}
    (nil : ∀ previous, P previous [] [])
    (keep : ∀ previous c rest, echoToNormalize previous (c :: rest) = none →
      P (some c) rest (normalizeEchoesAfter (some c) rest) →
      P previous (c :: rest) (c :: normalizeEchoesAfter (some c) rest))
    (unclosed : ∀ previous (style : EchoStyle) rest,
      echoToNormalize previous (style.opener ++ rest) = some style →
      findDelimiter style.closer rest = none →
      P previous (style.opener ++ rest) (style.opener ++ rest))
    (echo : ∀ previous (style : EchoStyle) body rest,
      echoToNormalize previous (style.opener ++ body ++ style.closer ++ rest) = some style →
      findDelimiter style.closer (body ++ style.closer ++ rest) = some body.length →
      P (some '}') rest (normalizeEchoesAfter (some '}') rest) →
      P previous (style.opener ++ body ++ style.closer ++ rest)
        (formatEcho style body ++ normalizeEchoesAfter (some '}') rest))
    (previous : Option Char) (text : Chars) :
    P previous text (normalizeEchoesAfter previous text) := by
  induction previous, text using normalizeEchoesAfter.induct with
  | case1 previous =>
    rw [normalizeEchoesAfter]
    exact nil previous
  | case2 previous c rest none ih =>
    rw [normalizeEchoesAfter_of_none none]
    exact keep previous c rest none ih
  | case3 previous c rest style starts after open_ =>
    have split := opener_split (startOf_of_echoToNormalize starts)
    rw [split] at starts ⊢
    rw [normalizeEchoesAfter_of_unclosed starts open_]
    exact unclosed previous style _ starts open_
  | case4 previous c rest style starts after length closed ih =>
    have split := opener_split (startOf_of_echoToNormalize starts)
    rw [split] at starts ⊢
    obtain ⟨body, later, cut, rfl⟩ := exists_of_findDelimiter closed
    have behind : after.drop (body.length + style.width) = later := by
      rw [cut, ← style.length_closer, ← List.length_append, List.drop_left]
    rw [behind] at ih
    rw [show rest.drop (style.width - 1) = _ from cut, ← List.append_assoc,
      ← List.append_assoc] at starts ⊢
    rw [cut] at closed
    rw [normalizeEchoesAfter_of_echo starts closed]
    exact echo previous style body later starts closed ih

/-- Normalizing a text shows no delimiter that was hidden. -/
theorem quieter_normalizeEchoesAfter (closer : EchoStyle) (previous : Option Char) (text : Chars) :
    ∀ state : Quoting, state.Proper →
      Quieter closer.closer state text (normalizeEchoesAfter previous text) := by
  refine normalizeEchoes_induction (P := fun _ text result => ∀ state : Quoting, state.Proper →
    Quieter closer.closer state text result) ?_ ?_ ?_ ?_ previous text
  · exact fun _ state _ => .refl _ state []
  · exact fun _ c rest _ later state proper => .cons (later _ (proper.next c))
  · exact fun _ style rest _ _ state _ => .refl _ state _
  · exact fun _ style body rest _ _ later state proper => quieter_formatEcho proper style body later

/-! ## Once and for all -/

theorem startsWith_cons {d c : Char} {lead text : Chars} :
    startsWith (d :: lead) (c :: text) = true ↔ d = c ∧ startsWith lead text = true := by
  simp [startsWith]

/-- Normalizing leaves the first character alone. -/
theorem head?_normalizeEchoesAfter (previous : Option Char) (text : Chars) :
    (normalizeEchoesAfter previous text).head? = text.head? := by
  refine normalizeEchoes_induction (P := fun _ text result => result.head? = text.head?)
    (fun _ => rfl) (fun _ _ _ _ _ => rfl) (fun _ _ _ _ _ => rfl) ?_ previous text
  intro _ style body rest _ _ _
  rw [formatEcho_eq]
  cases style <;> rfl

/-- Normalizing changes no last character. -/
theorem getLast?_normalizeEchoesAfter (previous : Option Char) (text : Chars) :
    (normalizeEchoesAfter previous text).getLast? = text.getLast? := by
  induction previous, text using normalizeEchoes_induction with
  | nil => rfl
  | keep previous c rest none ih => rw [List.getLast?_cons, List.getLast?_cons, ih]
  | unclosed => rfl
  | echo previous style body rest starts closes ih =>
    rw [List.getLast?_append, List.getLast?_append, ih, formatEcho_eq]
    have closed (lead : Chars) : (lead ++ style.closer).getLast? = some '}' := by
      rw [List.getLast?_append]
      cases style <;> rfl
    rw [closed, closed]

theorem normalizeEchoesAfter_of_ne {previous : Option Char} {c : Char} (other : c ≠ '{')
    (rest : Chars) :
    normalizeEchoesAfter previous (c :: rest) = c :: normalizeEchoesAfter (some c) rest := by
  refine normalizeEchoesAfter_of_none ?_
  simp [echoToNormalize, EchoStyle.startOf, startsWith, EchoStyle.opener, Ne.symm other]

/-- No echo comes about where there was none. -/
theorem startOf_of_normalized {previous : Option Char} {c : Char} {rest : Chars}
    (starts : EchoStyle.startOf (c :: normalizeEchoesAfter previous rest) = some style) :
    EchoStyle.startOf (c :: rest) = some style := by
  have marks : startsWith ['!', '!'] (normalizeEchoesAfter previous rest) = true →
      startsWith ['!', '!'] rest = true :=
    (quieter_normalizeEchoesAfter .raw previous rest .code Quoting.proper_code).starts _
      (by simp [EchoStyle.closer])
  have first := head?_normalizeEchoesAfter previous rest
  obtain ⟨more, split⟩ := startOf_spec starts
  cases style with
  | raw =>
    injection split with brace later
    have raw := marks (startsWith_iff.2 ⟨more, later⟩)
    have opens : startsWith EchoStyle.raw.opener (c :: rest) = true :=
      startsWith_cons.2 ⟨brace.symm, raw⟩
    simp [EchoStyle.startOf, opens]
  | escaped =>
    injection split with brace later
    rw [later] at first
    cases rest with
    | nil => cases first
    | cons d tail =>
      injection first with same
      subst brace same
      rfl

/-- Comments stay comments. -/
theorem startsWith_commentOpener {previous : Option Char} {c : Char} {rest : Chars}
    (comment : startsWith commentOpener (c :: rest) = true) :
    startsWith commentOpener (c :: normalizeEchoesAfter previous rest) = true := by
  obtain ⟨more, split⟩ := startsWith_iff.1 comment
  injection split with brace later
  have none : echoToNormalize previous ('{' :: '-' :: '-' :: more) = none := by
    simp [echoToNormalize, EchoStyle.startOf, startsWith, EchoStyle.opener]
  rw [brace, later]
  change startsWith commentOpener
    ('{' :: normalizeEchoesAfter previous ('{' :: '-' :: '-' :: more)) = true
  rw [normalizeEchoesAfter_of_none none, normalizeEchoesAfter_of_ne (by decide),
    normalizeEchoesAfter_of_ne (by decide)]
  rfl

/-- No echo to normalize comes about where there was none. -/
theorem echoToNormalize_of_none {previous : Option Char} {c : Char} {rest : Chars}
    (none : echoToNormalize previous (c :: rest) = none) :
    echoToNormalize previous (c :: normalizeEchoesAfter (some c) rest) = .none := by
  rw [← Option.not_isSome_iff_eq_none]
  intro again
  obtain ⟨style, again⟩ := Option.isSome_iff_exists.1 again
  have starts := startOf_of_normalized (startOf_of_echoToNormalize again)
  unfold echoToNormalize at none again
  split at again
  · cases again
  · next noneOf =>
    simp only [Bool.or_eq_true, decide_eq_true_eq, not_or] at noneOf
    have notComment : ¬ startsWith commentOpener (c :: rest) = true :=
      fun comment => noneOf.2 (startsWith_commentOpener comment)
    simp [noneOf.1, notComment, starts] at none

/-- Respacing an echo does not make a comment of it. -/
theorem startsWith_dashes_echoBody {body rest other : Chars}
    (dashes : startsWith ['-', '-'] (echoBody body ++ '}' :: other) = true) :
    startsWith ['-', '-'] (body ++ '}' :: rest) = true := by
  unfold echoBody at dashes
  split at dashes
  · match body with
    | [] | [_] => simp [startsWith] at dashes
    | _ :: _ :: _ => simpa [startsWith] using dashes
  · split at dashes <;> simp [startsWith] at dashes

/-- An echo to normalize is one to normalize in canonical form. -/
theorem echoToNormalize_formatEcho {previous : Option Char} {body rest : Chars}
    (starts : echoToNormalize previous (style.opener ++ body ++ style.closer ++ rest) =
      some style) (other : Chars) :
    echoToNormalize previous (style.opener ++ echoBody body ++ style.closer ++ other) =
      some style := by
  cases style with
  | raw => exact starts
  | escaped =>
    have opened (text : Chars) : echoToNormalize previous ('{' :: '{' :: text) =
        if previous = some '@' || startsWith ['-', '-'] text then none else some .escaped := by
      simp [echoToNormalize, EchoStyle.startOf, startsWith, EchoStyle.opener, commentOpener]
    simp only [EchoStyle.opener, EchoStyle.closer, List.cons_append, List.nil_append,
      List.append_assoc, opened] at starts ⊢
    split at starts
    · cases starts
    · next noneOf =>
      simp only [Bool.or_eq_true, decide_eq_true_eq, not_or] at noneOf
      have notComment : ¬ startsWith ['-', '-'] (echoBody body ++ '}' :: '}' :: other) = true :=
        fun dashes => noneOf.2 (startsWith_dashes_echoBody dashes)
      simp [noneOf.1, notComment]

theorem normalizeEchoesAfter_normalizeEchoesAfter (previous : Option Char) (text : Chars) :
    normalizeEchoesAfter previous (normalizeEchoesAfter previous text) =
      normalizeEchoesAfter previous text := by
  refine normalizeEchoes_induction (P := fun previous _ result =>
    normalizeEchoesAfter previous result = result) ?_ ?_ ?_ ?_ previous text
  · intro previous
    rw [normalizeEchoesAfter]
  · intro previous c rest none ih
    rw [normalizeEchoesAfter_of_none (echoToNormalize_of_none none), ih]
  · intro previous style rest starts open_
    exact normalizeEchoesAfter_of_unclosed starts open_
  · intro previous style body rest starts found ih
    have quieter := quieter_normalizeEchoesAfter style (some '}') rest
    rw [formatEcho_eq, normalizeEchoesAfter_of_echo (echoToNormalize_formatEcho starts _)
      (findDelimiter_echoBody found quieter), formatEcho_echoBody, formatEcho_eq, ih]

/-- Normalizing the echoes of a value a second time changes nothing, normalizing them changes
nothing but white space, and whatever an echo holds and whatever follows it: in canonical form its
closing delimiter is the one at its very end, and formatting what precedes that changes nothing. -/
theorem normalizeEchoes_stable (value : Chars) :
    normalizeEchoes (normalizeEchoes value) = normalizeEchoes value ∧
      squeeze (normalizeEchoes value) = squeeze value ∧
      ∀ (style : EchoStyle) (text : Chars) (length : Nat),
        findDelimiter style.closer text = some length →
        let echo := formatEcho style (text.take length)
        findDelimiterFrom style.closer echo style.width =
            .foundAt (echo.length - style.width) ∧
          formatEcho style (slice echo style.width (echo.length - style.width : Nat)) = echo := by
  refine ⟨normalizeEchoesAfter_normalizeEchoesAfter none value, squeeze_normalizeEchoes value, ?_⟩
  intro style text length found echo
  obtain ⟨body, rest, split, rfl⟩ := exists_of_findDelimiter found
  have taken : text.take body.length = body := by rw [split, List.append_assoc, List.take_left]
  have canonical : echo = style.opener ++ (echoBody body ++ style.closer) := by
    simp only [echo, taken, formatEcho_eq, List.append_assoc]
  have opened : echo.drop style.width = echoBody body ++ style.closer := by
    rw [canonical, ← style.length_opener, List.drop_left]
  have total : echo.length - style.width = style.width + (echoBody body).length := by
    rw [canonical]
    simp only [List.length_append, style.length_opener, style.length_closer]
    omega
  rw [split] at found
  have ends := findDelimiter_echoBody found fun state _ => Quieter.of_isPrefix rest.nil_prefix
  rw [List.append_nil] at ends
  constructor
  · rw [findDelimiterFrom, opened, ends, total]
    cases style <;> rfl
  · rw [slice_natCast, opened, total, Nat.add_sub_cancel_left, List.take_left, formatEcho_echoBody,
      canonical, formatEcho_eq, List.append_assoc]

/-- A raw echo whose closing delimiter is hidden by a quote that never closes. -/
theorem normalizeEchoes_stable_hidden :
    findDelimiter EchoStyle.raw.closer "$a ' !!\x7d b".toList = some 5 ∧
      findDelimiterFrom EchoStyle.raw.closer (formatEcho .raw "$a ' ".toList) 3 = .foundAt 9 := by
  have found : findDelimiter EchoStyle.raw.closer "$a ' !!\x7d b".toList = some 5 := by
    decide +kernel
  exact ⟨found, ((normalizeEchoes_stable []).2.2 .raw _ 5 found).1⟩

end BladeTemplate.Text
