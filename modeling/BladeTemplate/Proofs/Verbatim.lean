import BladeTemplate.Proofs.Edges
import BladeTemplate.Proofs.Standing

/-!
# What is kept as it is

Some texts of a template are not layout's to change: comments, regions, directives it does not
know, blocks that were never closed, and the entries of start tags. An element that is not read as
markup is copied, but for the indentation of its end tag.

* `Node.keptTexts` lists the texts at a node and below it that are kept as they are;
* `Text.dropBlankLine` is a text without the indentation behind it, and `Text.Endures` says that a
  text that ends at an offset loses nothing where such indentation is dropped;
* `Text.Copied` says that texts stand in a part of a template, each where it endures.
-/

namespace BladeTemplate

open Text

/-! ## What is kept -/

/-- Whether code was closed, rather than left open to the end of the template. -/
def Text.isClosedCode (content : Chars) : Bool :=
  "?>".toList.isSuffixOf content || "@endphp".toList.isSuffixOf content

/-- The text without its last line, if that is blank. A single line stays. -/
def Text.dropBlankLine (text : Chars) : Chars :=
  let last := text.reverse.takeWhile (· != '\n')
  if isMultiline text && isBlankText last then text.take (text.length - last.length) else text

/-- What is kept of a region: all of it, but for white space at the end of code that was left open,
and for the indentation of an end tag behind a body that is `reindented`. -/
def RegionKind.keptText (reindented : Bool) (kind : RegionKind) (content : Chars) : Chars :=
  match kind with
  | .rawCode => if isClosedCode content then content else trimRight content
  | .rawText => if reindented then dropBlankLine content else content
  | .verbatim | .markupComment | .declaration | .frontMatter => content

/-- What is kept of a directive: one that is not registered, or belongs to no block, is not put into
the spelling of the registry. -/
def Directive.keptTexts (directive : Directive) : List Chars :=
  if directive.orphan || !directive.registered then [directive.source] else []

/-- What is kept of an entry of a start tag: a comment, wherever the tag is. Of a tag that is not
copied with the body around it, also every other entry that holds no echo, without the white space
around its equals sign. -/
def Attribute.keptTexts (copied : Bool) (entry : Attribute) : List Chars :=
  if entry.comment then [entry.name]
  else if copied || entry.echo.isSome then []
  else
    match entry.value with
    | none => [entry.name]
    | some value => if value.contains '{' then [] else [entry.name ++ '=' :: value]

/-- What is kept of a start tag. -/
def Markup.keptTexts (copied : Bool) (markup : Markup) : List Chars :=
  markup.attributes.flatMap (·.keptTexts copied)

/-- Whether the body of an element is copied. -/
def Markup.copiesBody (markup : Markup) : Bool :=
  markup.closed && Tag.isOneOf Tag.rawTextNames markup.tag

namespace Node

mutual

/-- The texts at a node and below it that are kept as they are, for a node that is `copied` with the
body around it or not, and in a body that is `reindented` or not. Of a block that was never closed
everything is kept but the white space at its end. -/
def keptTexts (source : Chars) (copied reindented : Bool) : Node → List Chars
  | .comment _ content | .endTag _ _ content => [content]
  | .region _ kind content => [kind.keptText reindented content]
  | .directive found => found.keptTexts
  | .block location opener _ children closer _ =>
    match closer with
    | none => [trimRight (location.slice source)]
    | some last =>
      opener.keptTexts ++ keptTextsAll source copied false children ++ last.keptTexts
  | .element markup _ children =>
    markup.keptTexts copied ++ keptTextsAll source (copied || markup.copiesBody)
      (Tag.isOneOf Tag.reindentedNames markup.tag) children
  | .component markup slots children =>
    markup.keptTexts copied ++ (keptTextsAll source copied false slots ++
      keptTextsAll source copied false children)
  | .slot _ markup children =>
    markup.keptTexts copied ++ keptTextsAll source copied false children
  | .text .. | .echo .. | .attr .. | .document .. => []

/-- The texts at several nodes and below them that are kept as they are. -/
def keptTextsAll (source : Chars) (copied reindented : Bool) : List Node → List Chars
  | [] => []
  | node :: rest =>
    keptTexts source copied reindented node ++ keptTextsAll source copied reindented rest

end

theorem keptTextsAll_eq (source : Chars) (copied reindented : Bool) (nodes : List Node) :
    keptTextsAll source copied reindented nodes =
      nodes.flatMap (keptTexts source copied reindented) := by
  induction nodes with
  | nil => rfl
  | cons node rest ih => rw [keptTextsAll, ih, List.flatMap_cons]

end Node

/-- The texts of a template that are kept as they are. -/
def Document.keptTexts (document : Document) : List Chars :=
  Node.keptTextsAll document.source false false document.children

/-! ## Lines that are dropped -/

namespace Text

theorem getElem?_cut (text : Chars) (a b i : Nat) :
    (cut text a b)[i]? = if i < b - a then text[a + i]? else none := by
  rw [cut, List.getElem?_take, List.getElem?_drop]

/-- The character at an index of a part. -/
theorem getElem?_of_cut {text head tail : Chars} {c : Char} {a b : Nat}
    (found : cut text a b = head ++ c :: tail) :
    head.length < b - a ∧ text[a + head.length]? = some c := by
  have here : (cut text a b)[head.length]? = some c := by simp [found]
  rw [getElem?_cut] at here
  split at here
  · next inside => exact ⟨inside, here⟩
  · cases here

theorem mem_cut {text : Chars} {a b i : Nat} {c : Char} (found : text[i]? = some c) (after : a ≤ i)
    (before : i < b) : c ∈ cut text a b := by
  refine List.mem_of_getElem? (i := i - a) ?_
  rw [getElem?_cut, if_pos (by omega), Nat.add_sub_cancel' after]
  exact found

/-- A part made of two is those two parts. -/
theorem cut_split {text front back : Chars} {a b : Nat} (ordered : a ≤ b)
    (whole : cut text a b = front ++ back) :
    a + front.length ≤ b ∧ cut text a (a + front.length) = front ∧
      cut text (a + front.length) b = back := by
  have length : front.length ≤ b - a := by
    have shorter := List.length_take_le (b - a) (text.drop a)
    rw [← cut, whole, List.length_append] at shorter
    omega
  have first : cut text a (a + front.length) = front := by
    have taken := congrArg (List.take front.length) whole
    rw [List.take_left, cut, List.take_take, Nat.min_eq_left length] at taken
    rw [cut, Nat.add_sub_cancel_left]
    exact taken
  refine ⟨by omega, first, ?_⟩
  rw [← cut_append text (Nat.le_add_right a front.length) (by omega : _ ≤ b), first] at whole
  exact List.append_cancel_left whole

/-- From the offset `k` up to the offset `n` there is only white space, on a line that starts at
`k`; and what follows is not the end tag of an element that is copied with the white space before
it. -/
structure BlankTail (source : Chars) (k n : Nat) : Prop where
  feed : 0 < k ∧ source[k - 1]? = some '\n'
  blank : ∀ c ∈ cut source k n, isBlank c = true ∧ c ≠ '\n'
  ahead : ∀ name, Tag.isOneOf Tag.rawTextNames name = true →
    Tag.isOneOf Tag.reindentedNames name = false → ¬EndTagAhead source (lower name) n

/-- Wherever white space is dropped in front of an end tag, a text that ends at the offset stays. -/
def Endures (source : Chars) (q : Nat) : Prop :=
  ∀ k n, BlankTail source k n → q ≤ n → q ≤ k

variable {source : Chars} {p q : Nat}

/-- A text with ink on its last line. -/
theorem endures_of_inked {head tail : Chars} {c : Char}
    (found : cut source p q = head ++ c :: tail) (inked : isBlank c = false)
    (line : '\n' ∉ tail) : Endures source q := by
  intro k n dropped within
  obtain ⟨inside, here⟩ := getElem?_of_cut found
  refine Nat.le_of_not_lt ?_
  intro beyond
  by_cases before : k ≤ p + head.length
  · -- The ink is on the line that is dropped.
    have blank := (dropped.blank c (mem_cut here before (by omega))).1
    rw [inked] at blank
    cases blank
  · -- The line feed before the dropped line stands behind the ink.
    have feed : (cut source p q)[k - 1 - p]? = some '\n' := by
      rw [getElem?_cut, if_pos (by omega), show p + (k - 1 - p) = k - 1 by omega]
      exact dropped.feed.2
    rw [found, List.getElem?_append_right (by omega)] at feed
    rcases List.mem_cons.1 (List.mem_of_getElem? feed) with rfl | inTail
    · cases inked
    · exact line inTail

theorem endures_of_endsInked (ends : EndsInked (cut source p q)) : Endures source q := by
  obtain ⟨head, c, found, inked⟩ := ends
  exact endures_of_inked found inked List.not_mem_nil

/-- A text that ends in a line feed. -/
theorem endures_of_feed (some : 0 < q) (feed : source[q - 1]? = .some '\n') :
    Endures source q := by
  intro k n dropped within
  refine Nat.le_of_not_lt ?_
  intro beyond
  exact (dropped.blank _ (mem_cut feed (by omega) (by omega))).2 rfl

/-- A body in front of its end tag. -/
theorem endures_of_endTag {name : Chars} (raw : Tag.isOneOf Tag.rawTextNames name = true)
    (kept : Tag.isOneOf Tag.reindentedNames name = false)
    (ends : EndTagAhead source (lower name) q) : Endures source q := by
  intro k n dropped within
  refine Nat.le_of_not_lt ?_
  intro beyond
  by_cases last : q = n
  · exact dropped.ahead name raw kept (last ▸ ends)
  · obtain ⟨c, rest, ahead, _⟩ := ends
    have bracket : source[q]? = some '<' := by
      rw [← List.head?_drop, ahead]
      rfl
    have blank := (dropped.blank _ (mem_cut bracket (by omega) (by omega))).1
    cases blank

/-! ## Texts without the white space at their ends -/

theorem trimRight_cases (text : Chars) :
    ∃ blank, text = trimRight text ++ blank ∧
      (trimRight text = [] ∨ EndsInked (trimRight text)) := by
  refine ⟨(text.reverse.takeWhile isBlank).reverse, ?_, ?_⟩
  · rw [trimRight, ← List.reverse_append, List.takeWhile_append_dropWhile, List.reverse_reverse]
  · unfold trimRight
    cases found : text.reverse.dropWhile isBlank with
    | nil => exact .inl rfl
    | cons c rest =>
      refine .inr ⟨rest.reverse, c, List.reverse_cons, ?_⟩
      have stops := List.head?_dropWhile_not isBlank text.reverse
      rw [found] at stops
      simpa using stops

/-- A text of several lines is what precedes its last line, and that line. -/
theorem exists_lastLine {text : Chars} (several : '\n' ∈ text) :
    ∃ head last, text = head ++ '\n' :: last ∧ '\n' ∉ last := by
  obtain ⟨last, head, found, line⟩ := List.eq_append_cons_of_mem (List.mem_reverse.2 several)
  refine ⟨head.reverse, last.reverse, ?_, by simpa using line⟩
  rw [← List.reverse_reverse text, found]
  simp

theorem dropBlankLine_append (head : Chars) {last : Chars} (line : '\n' ∉ last) :
    dropBlankLine (head ++ '\n' :: last) =
      if isBlankText last then head ++ ['\n'] else head ++ '\n' :: last := by
  have found : (head ++ '\n' :: last).reverse.takeWhile (· != '\n') = last.reverse := by
    rw [List.reverse_append, List.reverse_cons, List.append_assoc, List.takeWhile_append_of_pos]
    · simp
    · intro c member
      simp only [bne_iff_ne, ne_eq]
      rintro rfl
      exact line (List.mem_reverse.1 member)
  have several : isMultiline (head ++ '\n' :: last) = true := by simp [isMultiline]
  have length : (head ++ '\n' :: last).length - last.length = (head ++ ['\n']).length := by
    rw [List.append_cons head '\n' last, List.length_append, Nat.add_sub_cancel]
  have turned : isBlankText last.reverse = isBlankText last := by simp [isBlankText]
  have front : (head ++ '\n' :: last).take (head ++ ['\n']).length = head ++ ['\n'] := by
    rw [List.append_cons head '\n' last, List.take_left]
  unfold dropBlankLine
  simp only [found, several, Bool.true_and, turned, List.length_reverse, length, front]

theorem dropBlankLine_single {text : Chars} (line : '\n' ∉ text) : dropBlankLine text = text := by
  simp [dropBlankLine, isMultiline, line]

/-- The body without the indentation of its end tag is the body without its last line, if that is
blank. -/
theorem withoutLastIndent_eq (body : Chars) : Page.withoutLastIndent body = dropBlankLine body := by
  unfold Page.withoutLastIndent
  cases split : splitLastLine body with
  | none =>
    have single : isMultiline body = false := by simpa [splitLastLine] using split
    exact (dropBlankLine_single (by simpa [isMultiline] using single)).symm
  | some parts =>
    obtain ⟨head, last⟩ := parts
    have line : '\n' ∉ last := by
      simp only [splitLastLine] at split
      split at split
      · cases split
        intro member
        have all := List.all_takeWhile (p := (· != '\n')) (l := body.reverse)
        have other := List.all_eq_true.1 all _ (List.mem_reverse.1 member)
        simp at other
      · cases split
    simp only
    rw [splitLastLine_spec split, dropBlankLine_append head line]

/-- The last line of a text is dropped if it is blank. Otherwise it has ink, or is the only line. -/
theorem dropBlankLine_cases (text : Chars) :
    (dropBlankLine text = text ∧ ('\n' ∉ text ∨
      ∃ head c tail, text = head ++ c :: tail ∧ isBlank c = false ∧ '\n' ∉ tail)) ∨
    ∃ head last, text = head ++ '\n' :: last ∧ dropBlankLine text = head ++ ['\n'] ∧
      ∀ c ∈ last, isBlank c = true ∧ c ≠ '\n' := by
  by_cases several : '\n' ∈ text
  · obtain ⟨head, last, rfl, line⟩ := exists_lastLine several
    rw [dropBlankLine_append head line]
    split
    · next blank =>
      refine .inr ⟨head, last, rfl, rfl, ?_⟩
      intro c member
      refine ⟨List.all_eq_true.1 blank c member, ?_⟩
      rintro rfl
      exact line member
    · next inked =>
      obtain ⟨c, member, notBlank⟩ : ∃ c ∈ last, isBlank c = false := by
        simpa [isBlankText] using inked
      obtain ⟨before, after, rfl⟩ := List.append_of_mem member
      refine .inl ⟨rfl, .inr ⟨head ++ '\n' :: before, c, after, by simp, notBlank, ?_⟩⟩
      intro inAfter
      exact line (by simp [inAfter])
  · exact .inl ⟨dropBlankLine_single several, .inl several⟩

/-- The same for a part of a template: what is left of it ends behind the line feed that stands at
`k - 1`. -/
theorem dropBlankLine_cut (ordered : p ≤ q) :
    (dropBlankLine (cut source p q) = cut source p q ∧ ('\n' ∉ cut source p q ∨
      ∃ head c tail, cut source p q = head ++ c :: tail ∧ isBlank c = false ∧ '\n' ∉ tail)) ∨
    ∃ k, p ≤ k ∧ k ≤ q ∧ dropBlankLine (cut source p q) = cut source p k ∧
      (0 < k ∧ source[k - 1]? = some '\n') ∧
      ∀ c ∈ cut source k q, isBlank c = true ∧ c ≠ '\n' := by
  rcases dropBlankLine_cases (cut source p q) with kept | ⟨head, last, whole, dropped, blank⟩
  · exact .inl kept
  · rw [List.append_cons] at whole
    obtain ⟨within, front, behind⟩ := cut_split ordered whole
    obtain ⟨_, feed⟩ := getElem?_of_cut front
    refine .inr ⟨_, Nat.le_add_right _ _, within, dropped.trans front.symm, ?_, behind ▸ blank⟩
    rw [List.length_append, List.length_singleton, ← Nat.add_assoc]
    exact ⟨Nat.succ_pos _, feed⟩

/-! ## Texts along a template -/

/-- The texts stand in a template one after the other between two offsets, each where it endures. An
empty text may stand anywhere. -/
inductive Along (source : Chars) : List Chars → Nat → Nat → Prop
  | nil {a b : Nat} : a ≤ b → Along source [] a b
  | empty {texts : List Chars} {a b : Nat} : Along source texts a b →
      Along source ([] :: texts) a b
  | cons {texts : List Chars} {a p q b : Nat} : a ≤ p → p ≤ q → Endures source q →
      Along source texts q b → Along source (cut source p q :: texts) a b

namespace Along

variable {texts more : List Chars} {a b c d k : Nat}

theorem ordered (along : Along source texts a b) : a ≤ b := by
  induction along with
  | nil ordered => exact ordered
  | empty _ ih => exact ih
  | cons before forward _ _ ih => omega

theorem earlier (along : Along source texts b c) (ab : a ≤ b) : Along source texts a c := by
  induction along with
  | nil bc => exact .nil (Nat.le_trans ab bc)
  | empty _ ih => exact .empty (ih ab)
  | cons before forward endures rest => exact .cons (Nat.le_trans ab before) forward endures rest

theorem append (first : Along source texts a b) (second : Along source more c d) (bc : b ≤ c) :
    Along source (texts ++ more) a d := by
  induction first with
  | nil ab => exact second.earlier (Nat.le_trans ab bc)
  | empty _ ih => exact .empty (ih bc)
  | cons before forward endures _ ih => exact .cons before forward endures (ih bc)

/-- Where the end of the last line is dropped, all texts are left. -/
theorem shorten (along : Along source texts a b) (ak : a ≤ k)
    (dropped : BlankTail source k b) : Along source texts a k := by
  induction along with
  | nil => exact .nil ak
  | empty _ ih => exact .empty (ih ak dropped)
  | @cons _ _ p q b before forward endures rest ih =>
    have within : q ≤ k := endures k b dropped rest.ordered
    exact .cons before forward endures (ih within dropped)

theorem inOrder (along : Along source texts a b) : InOrder texts (cut source a b) := by
  induction along with
  | nil => exact .nil _
  | empty _ ih => exact .cons [] ih
  | @cons _ a p q b before forward _ rest ih =>
    have later := rest.ordered
    rw [← cut_append source before (by omega : p ≤ b), ← cut_append source forward later,
      ← List.append_assoc]
    exact .cons (cut source a p) ih

end Along

/-- The texts stand in the template between two offsets, in some order. -/
def Copied (source : Chars) (texts : List Chars) (a b : Nat) : Prop :=
  ∃ order : List Chars, order.Perm texts ∧ Along source order a b

namespace Copied

variable {texts more : List Chars} {a b c d : Nat}

theorem nil (ab : a ≤ b) : Copied source [] a b := ⟨[], .refl _, .nil ab⟩

theorem single (pq : p ≤ q) (endures : Endures source q) : Copied source [cut source p q] p q :=
  ⟨_, .refl _, .cons (Nat.le_refl _) pq endures (.nil (Nat.le_refl _))⟩

theorem perm (copied : Copied source texts a b) (same : texts.Perm more) :
    Copied source more a b := by
  obtain ⟨order, perm, along⟩ := copied
  exact ⟨order, perm.trans same, along⟩

theorem append (first : Copied source texts a b) (second : Copied source more c d)
    (bc : b ≤ c) : Copied source (texts ++ more) a d := by
  obtain ⟨order, perm, along⟩ := first
  obtain ⟨later, samePerm, behind⟩ := second
  exact ⟨order ++ later, perm.append samePerm, along.append behind bc⟩

theorem widen (copied : Copied source texts b c) (ab : a ≤ b) (cd : c ≤ d) :
    Copied source texts a d := by
  have wide := ((@nil source _ _ ab).append copied (Nat.le_refl b)).append (nil cd)
    (Nat.le_refl c)
  rwa [List.nil_append, List.append_nil] at wide

/-- A leading part that ends in ink, or is empty. -/
theorem trimmed (ordered : p ≤ q) : Copied source [trimRight (cut source p q)] p q := by
  obtain ⟨blank, whole, none | ends⟩ := trimRight_cases (cut source p q)
  · rw [none]
    exact ⟨_, .refl _, .empty (.nil ordered)⟩
  · obtain ⟨within, front, _⟩ := cut_split ordered whole
    rw [← front] at ends ⊢
    exact (single (Nat.le_add_right _ _) (endures_of_endsInked ends)).widen (Nat.le_refl _) within

end Copied

end Text

end BladeTemplate
