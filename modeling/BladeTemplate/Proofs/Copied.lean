import BladeTemplate.Proofs.NodeEdges
import BladeTemplate.Proofs.Verbatim
import BladeTemplate.Proofs.WhiteSpace

/-!
# What is copied with a body

The body of an element that is not read as markup is copied. What is kept of a node inside it stands
where it stood in the template, and is not on the line of the end tag, which may be dropped.

* `Node.Copies` says that what is kept of a node is copied with it, and `Node.copies` that it holds
  of every node of a template, one case per kind of node;
* `inOrder_body` is what follows for the body of an element.
-/

namespace BladeTemplate

open Text Lookahead

/-! ## What is copied with a node -/

variable {registry : Registry} {source : Chars} {a b m n : Nat}

theorem Text.endsInked_of_closedCode {content : Chars} (closed : isClosedCode content = true) :
    EndsInked content := by
  simp only [isClosedCode, Bool.or_eq_true, List.isSuffixOf_iff_suffix] at closed
  rcases closed with ⟨code, rfl⟩ | ⟨code, rfl⟩
  · exact .after code ⟨['?'], '>', rfl, by decide⟩
  · exact .after code ⟨"@endph".toList, 'p', rfl, by decide⟩

theorem Directive.Written.endsInked {directive : Directive}
    (written : directive.Written source a b) (edged : directive.Edged) :
    EndsInked (cut source a b) := by
  rcases written.shape with ⟨_, shape⟩ | ⟨gap, inside, _, _, shape⟩
  · rw [shape]
    refine endsInked_of_all (List.cons_ne_nil _ _) ?_
    intro c member
    rcases List.mem_cons.1 member with rfl | inName
    · decide
    · exact edged c inName
  · rw [shape]
    exact ⟨_, ')', rfl, by decide⟩

theorem copied_directive {directive : Directive} (written : directive.Written source a b)
    (edged : directive.Edged) : Copied source directive.keptTexts a b := by
  unfold Directive.keptTexts
  split
  · rw [written.text]
    exact .single written.spans.ordered (endures_of_endsInked (written.endsInked edged))
  · exact .nil written.spans.ordered

theorem copied_region {location : Location} {kind : RegionKind} (reindented : Bool)
    (spans : location.Spans a b) (inside : 0 < a) (edged : kind.Edged location (cut source a b))
    (other : kind ≠ .rawText) :
    Copied source [kind.keptText reindented (cut source a b)] a b := by
  have whole (ends : EndsInked (cut source a b)) : Copied source [cut source a b] a b :=
    .single spans.ordered (endures_of_endsInked ends)
  cases kind with
  | verbatim | markupComment | declaration => exact whole edged.ends
  | rawText => exact absurd rfl other
  | frontMatter =>
    -- Front matter stands at the start of the template, and so in no body.
    have start := edged.2.2
    rw [spans.offset] at start
    omega
  | rawCode =>
    simp only [RegionKind.keptText]
    split
    · next closed => exact whole (endsInked_of_closedCode closed)
    · exact .trimmed spans.ordered

/-- The body of an element in front of its end tag. -/
theorem copied_rawText {markup : Markup} (opens : markup.Opens source a m) (mn : m ≤ n)
    (raw : Tag.isOneOf Tag.rawTextNames markup.tag = true)
    (ends : EndTagAhead source (lower markup.tag) n) :
    Copied source [RegionKind.rawText.keptText (Tag.isOneOf Tag.reindentedNames markup.tag)
      (cut source m n)] m n := by
  unfold RegionKind.keptText
  simp only
  split
  · rcases dropBlankLine_cut mn with ⟨same, single | inked⟩ | dropped
    · -- A single line follows the start tag, which ends in ink.
      obtain ⟨before, bracket⟩ := opens.ends
      have whole : cut source a n = before ++ '>' :: cut source m n := by
        rw [← cut_append source opens.ordered mn, bracket]
        simp
      rw [same]
      exact .single mn (endures_of_inked whole (by decide) single)
    · obtain ⟨head, c, tail, whole, notBlank, line⟩ := inked
      rw [same]
      exact .single mn (endures_of_inked whole notBlank line)
    · obtain ⟨k, mk, kn, left, ⟨some, feed⟩, _⟩ := dropped
      rw [left]
      exact (Copied.single mk (endures_of_feed some feed)).widen (Nat.le_refl _) kn
  · next kept => exact .single mn (endures_of_endTag raw (eq_false_of_ne_true kept) ends)

theorem copied_entries {entries : List Attribute} (spaced : Attribute.Spaced source entries a b)
    (edged : ∀ entry ∈ entries, entry.Edged) :
    Copied source (entries.flatMap (·.keptTexts true)) a b := by
  induction spaced with
  | nil => exact .nil (Nat.le_refl _)
  | @cons entry entries a b c d gap written later ih =>
    have rest := ih fun other member => edged other (List.mem_cons_of_mem _ member)
    rw [List.flatMap_cons]
    cases comment : entry.comment with
    | false =>
      have none : entry.keptTexts true = [] := by simp [Attribute.keptTexts, comment]
      rw [none, List.nil_append]
      have before := written.ordered
      exact rest.widen (Nat.le_trans gap.ordered before) (Nat.le_refl _)
    | true =>
      obtain ⟨ends, _, noValue⟩ := (edged entry List.mem_cons_self).comment comment
      have name : entry.name = cut source b c := by
        cases written with
        | echo _ _ _ name | bare _ _ name => exact name
        | valued _ _ _ _ _ _ value =>
          rw [noValue] at value
          cases value
      have whole : entry.keptTexts true = [cut source b c] := by
        simp [Attribute.keptTexts, comment, name]
      rw [whole]
      rw [name] at ends
      exact ((Copied.single written.ordered (endures_of_endsInked ends)).append rest
        (Nat.le_refl c)).widen gap.ordered (Nat.le_refl _)

/-- What is copied with markup: the comments of its start tag, and what is copied with its
content. -/
theorem copied_markup {markup : Markup} {void : Bool} {content : List Node} {texts : List Chars}
    (shaped : markup.Shaped source void content a b)
    (edged : ∀ entry ∈ markup.attributes, entry.Edged)
    (body : ∀ m n, markup.Opens source a m → Node.Laid content m n → Copied source texts m n) :
    Copied source (markup.keptTexts true ++ texts) a b := by
  have tag {m : Nat} (opens : markup.Opens source a m) :
      Copied source (markup.keptTexts true) a m := by
    obtain ⟨name, entries, close, first, _, spaced, gap, last, _⟩ := opens.parts
    exact (copied_entries spaced edged).widen first (Nat.le_trans gap.ordered last)
  cases shaped with
  | single opens _ _ none =>
    exact (tag opens).append (body b b opens (none ▸ .nil b)) (Nat.le_refl b)
  | closed _ opens _ _ laid ordered =>
    exact ((tag opens).append (body _ _ opens laid) (Nat.le_refl _)).widen (Nat.le_refl a) ordered
  | unclosed opens _ _ laid => exact (tag opens).append (body _ _ opens laid) (Nat.le_refl _)

namespace Node

/-- What is kept of a node is copied with its part of the template, if that is inside a body. -/
def Copies (source : Chars) (node : Node) : Prop :=
  ∀ reindented a b, node.isRawText = false → node.location.Spans a b → 0 < a →
    Copied source (node.keptTexts source true reindented) a b

theorem copied_nodes {nodes : List Node} (reindented : Bool)
    (copies : ∀ node ∈ nodes, node.Copies source)
    (others : ∀ node ∈ nodes, node.isRawText = false) (laid : Laid nodes m n) (inside : 0 < m) :
    Copied source (nodes.flatMap (keptTexts source true reindented)) m n := by
  induction laid with
  | nil => exact .nil (Nat.le_refl _)
  | @cons node rest a b c spans _ ih =>
    have first := copies node List.mem_cons_self reindented a b (others node List.mem_cons_self)
      spans inside
    have later := ih (fun other member => copies other (List.mem_cons_of_mem _ member))
      (fun other member => others other (List.mem_cons_of_mem _ member))
      (Nat.lt_of_lt_of_le inside spans.ordered)
    exact first.append later (Nat.le_refl b)

/-- The children of an element, of which the first may be a body that is not read as markup. -/
theorem copied_children {markup : Markup} {children : List Node}
    (opens : markup.Opens source a m)
    (wholes : ∀ node ∈ children, node.Whole registry source)
    (rawFirst : RawFirst source (some markup.tag) children)
    (copies : ∀ node ∈ children, node.Copies source) (laid : Laid children m n) :
    Copied source (children.flatMap
      (keptTexts source true (Tag.isOneOf Tag.reindentedNames markup.tag))) m n := by
  have inside : 0 < m := Nat.lt_of_le_of_lt (Nat.zero_le a) opens.nonempty
  cases laid with
  | nil => exact .nil (Nat.le_refl _)
  | @cons node rest _ b _ spans later =>
    have restCopies := fun other member => copies other (List.mem_cons_of_mem node member)
    have behind := copied_nodes (Tag.isOneOf Tag.reindentedNames markup.tag) restCopies
      rawFirst.rest later (Nat.lt_of_lt_of_le inside spans.ordered)
    rw [List.flatMap_cons]
    refine Copied.append ?_ behind (Nat.le_refl b)
    cases raw : node.isRawText with
    | false => exact copies node List.mem_cons_self _ m b raw spans inside
    | true =>
      obtain ⟨name, stop, tagged, isRaw, ends, ahead⟩ := rawFirst.first node rfl raw
      obtain rfl : markup.tag = name := by simpa using tagged
      obtain rfl : stop = b := by
        have last := spans.endOffset
        rw [ends] at last
        omega
      unfold isRawText at raw
      split at raw
      · next location content =>
        cases wholes _ List.mem_cons_self with
        | region found =>
          obtain ⟨rfl, rfl⟩ := spans.unique found
          rw [keptTexts]
          exact copied_rawText opens spans.ordered isRaw ahead
      · cases raw

/-- Every node inside a body is copied with what is kept of it. -/
theorem copies {node : Node} (whole : node.Whole registry source) :
    (∀ part ∈ node.walk, part.Edged source) → node.Copies source := by
  induction whole with
  | text | echo =>
    intro _ _ a b _ spans _
    exact .nil spans.ordered
  | @comment location m n found =>
    intro edged _ a b _ spans _
    obtain ⟨rfl, rfl⟩ := spans.unique found
    have firm : Firm (cut source a b) := edged (.comment location _) (mem_walk_self _)
    exact .single spans.ordered (endures_of_endsInked firm.ends)
  | @endTag location name m n found =>
    intro edged _ a b _ spans _
    obtain ⟨rfl, rfl⟩ := spans.unique found
    have firm : Firm (cut source a b) := edged (.endTag location name _) (mem_walk_self _)
    exact .single spans.ordered (endures_of_endsInked firm.ends)
  | @region location kind m n found =>
    intro edged reindented a b other spans inside
    obtain ⟨rfl, rfl⟩ := spans.unique found
    have edges : kind.Edged location (cut source a b) :=
      edged (.region location kind _) (mem_walk_self _)
    refine copied_region reindented spans inside edges ?_
    rintro rfl
    cases other
  | @directive found _ _ placed =>
    intro edged _ a b _ spans _
    obtain ⟨rfl, rfl⟩ := spans.unique placed.written.spans
    exact copied_directive placed.written (edged (.directive found) (mem_walk_self _))
  | @openBlock location =>
    intro _ _ a b _ spans _
    have found : location.Spans a b := spans
    rw [keptTexts, found.slice]
    exact .trimmed spans.ordered
  | @block location opener closer family children indentsMiddles _ _ _ _ found opens laid _ closes
      ih =>
    intro edged _ a b _ spans inside
    obtain ⟨rfl, rfl⟩ := spans.unique found
    have self : RawFirst source none children :=
      edged (.block location opener family children (some closer) indentsMiddles) (mem_walk_self _)
    have copies : ∀ node ∈ children, node.Copies source := fun node member =>
      ih node member fun part below => edged part
        (mem_walk_of_child (List.mem_append_left _ (List.mem_cons_of_mem _ member)) below)
    have body := copied_nodes false copies self.none_of_noTag laid
      (Nat.lt_of_lt_of_le inside opens.written.spans.ordered)
    have first := copied_directive opens.written
      (edged (.directive opener) (by simp [Node.walk]))
    have last := copied_directive closes.written
      (edged (.directive closer) (by simp [Node.walk]))
    rw [keptTexts, keptTextsAll_eq]
    exact (first.append body (Nat.le_refl _)).append last (Nat.le_refl _)
  | @element markup void children _ _ found shaped wholes ih =>
    intro edged _ a b _ spans _
    obtain ⟨rfl, rfl⟩ := spans.unique found
    obtain ⟨entries, _, rawFirst⟩ : Node.Edged source (.element markup void children) :=
      edged _ (mem_walk_self _)
    have copies : ∀ node ∈ children, node.Copies source := fun node member =>
      ih node member fun part below => edged part (mem_walk_of_child member below)
    rw [keptTexts, keptTextsAll_eq, Bool.true_or]
    exact copied_markup shaped entries fun m n opens laid =>
      copied_children opens wholes rawFirst copies laid
  | @slot name markup children _ _ found shaped _ ih =>
    intro edged _ a b _ spans inside
    obtain ⟨rfl, rfl⟩ := spans.unique found
    obtain ⟨entries, rawFirst⟩ : Node.Edged source (.slot name markup children) :=
      edged _ (mem_walk_self _)
    have copies : ∀ node ∈ children, node.Copies source := fun node member =>
      ih node member fun part below => edged part (mem_walk_of_child member below)
    rw [keptTexts, keptTextsAll_eq]
    exact copied_markup shaped entries fun m n opens laid =>
      copied_nodes false copies rawFirst.none_of_noTag laid (Nat.lt_trans inside opens.nonempty)
  | @component markup children _ _ found shaped _ ih =>
    intro edged _ a b _ spans inside
    obtain ⟨rfl, rfl⟩ := spans.unique found
    obtain ⟨entries, slotsFirst, othersFirst⟩ : Node.Edged source (.component markup
        (children.filter Builder.isSlotChild) (children.filter (!Builder.isSlotChild ·))) :=
      edged _ (mem_walk_self _)
    -- Taken apart or not, these are the same nodes.
    have perm := List.filter_append_perm Builder.isSlotChild children
    have copies : ∀ node ∈ children, node.Copies source := fun node member =>
      ih node member fun part below => edged part
        (mem_walk_of_child (perm.mem_iff.2 member) below)
    have none : ∀ node ∈ children, node.isRawText = false := fun node member =>
      List.forall_mem_append.2 ⟨slotsFirst.none_of_noTag, othersFirst.none_of_noTag⟩ node
        (perm.mem_iff.2 member)
    rw [keptTexts, keptTextsAll_eq, keptTextsAll_eq, ← List.flatMap_append]
    refine copied_markup shaped entries fun m n opens laid => ?_
    exact (copied_nodes false copies none laid (Nat.lt_trans inside opens.nonempty)).perm
      (perm.symm.flatMap_right _)

end Node

/-! ## Bodies that are copied -/

namespace Text

/-- The end tag of an element that keeps its white space does not close one that does not. -/
theorem not_endTagAhead {tag name inside : Chars} {n b : Nat}
    (shape : cut source n b = ['<', '/'] ++ inside ++ ['>']) (some : firstWord inside ≠ [])
    (closes : Tag.closes (firstWord inside) tag = true)
    (reindented : Tag.isOneOf Tag.reindentedNames tag = true)
    (raw : Tag.isOneOf Tag.rawTextNames name = true)
    (kept : Tag.isOneOf Tag.reindentedNames name = false) :
    ¬EndTagAhead source (lower name) n := by
  rintro ⟨c, rest, ahead, letter⟩
  -- The two elements have names that start with different letters.
  have initial : (lower tag).head? = .some 's' := by
    obtain ⟨known, member, same⟩ := List.any_eq_true.1 reindented
    rw [← of_decide_eq_true same]
    simp only [Tag.reindentedNames, List.mem_cons, List.not_mem_nil, or_false] at member
    rcases member with rfl | rfl <;> rfl
  have other : foldLetter c = 'p' ∨ foldLetter c = 't' := by
    obtain ⟨known, member, same⟩ := List.any_eq_true.1 raw
    rw [Tag.isOneOf, List.any_eq_false] at kept
    rw [← of_decide_eq_true same] at letter kept
    simp only [Tag.rawTextNames, List.mem_cons, List.not_mem_nil, or_false] at member
    rcases member with rfl | rfl | rfl | rfl
    · exact absurd (by decide) (kept "script" (by decide))
    · exact absurd (by decide) (kept "style" (by decide))
    · exact .inl (Option.some.inj letter).symm
    · exact .inr (Option.some.inj letter).symm
  have alpha : c.isAlpha = true := by
    unfold foldLetter at other
    split at other
    · rcases other with same | same <;> exact absurd same (by decide)
    split at other
    · rcases other with same | same <;> exact absurd same (by decide)
    · refine Lookahead.isAlpha_of_toLower ?_
      rcases other with same | same <;> rw [same] <;> decide
  have starts : (firstWord inside).head? = .some c := by
    cases inside with
    | nil => exact absurd rfl some
    | cons d tail =>
      obtain ⟨_, third⟩ := @getElem?_of_cut source ['<', '/'] (tail ++ ['>']) d n b shape
      have same : source[n + 2]? = .some c := by
        rw [← List.getElem?_drop, ahead]
        rfl
      obtain rfl : d = c := Option.some.inj (third.symm.trans same)
      have inked : isBlank d = false := by
        refine isBlank_of_nameChar ?_
        simp [Tag.isNameChar, Char.isAlphanum, alpha]
      simp [firstWord, trimLeft, inked]
  obtain ⟨more, word⟩ := List.head?_eq_some_iff.1 starts
  rw [word, Tag.closes] at closes
  simp only [Bool.or_eq_true, Bool.and_eq_true, decide_eq_true_eq] at closes
  rcases closes with same | ⟨_, slot⟩
  · rw [same, head_lower alpha] at initial
    rcases other with letter | letter <;> rw [letter] at initial <;> cases initial
  · obtain ⟨tail, long⟩ := List.isPrefixOf_iff_prefix.1 slot
    rw [← long] at initial
    cases initial

end Text

/-- In the body of a closed element that is not read as markup, everything that is kept of its
children stands in the order of the template; also without the indentation of the end tag. -/
theorem inOrder_body {page : Page} {markup : Markup} {void : Bool} {children : List Node}
    (closed : markup.closed = true) (shaped : markup.Shaped page.source void children a b)
    (wholes : ∀ node ∈ children, node.Whole registry page.source)
    (edged : Node.Edged page.source (.element markup void children))
    (parts : ∀ part ∈ Node.walkAll children, part.Edged page.source) :
    ∃ order : List Chars, order.Perm (children.flatMap (Node.keptTexts page.source true
        (Tag.isOneOf Tag.reindentedNames markup.tag))) ∧
      InOrder order (if Tag.isOneOf Tag.reindentedNames markup.tag then
        Page.withoutLastIndent (Page.bodyText page.source children)
      else Page.bodyText page.source children) := by
  obtain ⟨_, named, rawFirst⟩ := edged
  rw [bodyText_eq wholes]
  cases shaped with
  | single _ _ _ none =>
    rw [none]
    exact ⟨[], .refl _, .nil _⟩
  | unclosed _ _ _ _ notClosed =>
    rw [closed] at notClosed
    cases notClosed
  | @closed m n _ inside opens _ _ laid ordered shape _ _ some endTag =>
    obtain ⟨order, perm, along⟩ := Node.copied_children opens wholes rawFirst
      (fun node member => Node.copies (wholes node member) (Node.forall_mem_walk parts member)) laid
    rw [laid.flatMap_slice]
    refine ⟨order, perm, ?_⟩
    split
    · next reindented =>
      rw [withoutLastIndent_eq]
      rcases dropBlankLine_cut laid.ordered with ⟨same, _⟩ | ⟨k, mk, _, left, feed, blank⟩
      · rw [same]
        exact along.inOrder
      · rw [left]
        refine (along.shorten mk ⟨feed, blank, ?_⟩).inOrder
        intro name raw kept
        exact not_endTagAhead shape some (named _ endTag) reindented raw kept
    · exact along.inOrder

end BladeTemplate
