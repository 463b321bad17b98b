import BladeTemplate.Proofs.Lossless
import BladeTemplate.Stability

/-!
# The text of every node

A parsed tree is lossless: the text of each node is put together from the texts of its parts, and
the texts of the outermost nodes are the template.

* `Node.byOffset` puts nodes in the order of the template, and `Laid.byOffset_filter` says that
  the slots of a component and the rest of its content come back in the order of the template;
* `Markup.Lossless` and `Node.Lossless` say how a node's text is made of its parts;
* `parse_lossless` is the result for whole trees.
-/

namespace BladeTemplate

open Text

/-! ## No node is empty -/

section nonempty

variable {registry : Registry} {source : Chars} {a b : Nat}

theorem Directive.Written.nonempty {directive : Directive}
    (written : directive.Written source a b) : a < b := by
  apply lt_of_cut_ne_nil
  rcases written.shape with ⟨_, shape⟩ | ⟨gap, inside, _, _, shape⟩
  · rw [shape]
    exact List.cons_ne_nil _ _
  · rw [shape]
    exact List.cons_ne_nil _ _

theorem Echo.Written.nonempty {echo : Echo} (written : echo.Written source a b) : a < b := by
  apply lt_of_cut_ne_nil
  rw [written.shape]
  cases echo.style <;> exact List.cons_ne_nil _ _

theorem Markup.Shaped.nonempty {markup : Markup} {void : Bool} {children : List Node}
    (shaped : markup.Shaped source void children a b) : a < b := by
  cases shaped with
  | single opens => exact opens.nonempty
  | closed _ opens _ _ laid ordered =>
    have start := opens.nonempty
    have inside := laid.ordered
    omega
  | unclosed opens _ _ laid =>
    have start := opens.nonempty
    have inside := laid.ordered
    omega

theorem Markup.Shaped.laid {markup : Markup} {void : Bool} {children : List Node}
    (shaped : markup.Shaped source void children a b) : ∃ m n, Node.Laid children m n := by
  cases shaped with
  | single _ _ _ none =>
    rw [none]
    exact ⟨b, b, .nil b⟩
  | closed _ _ _ _ laid => exact ⟨_, _, laid⟩
  | unclosed _ _ _ laid => exact ⟨_, _, laid⟩

/-- Every node of a tree stands for something. -/
theorem Node.Whole.nonempty {node : Node} (whole : node.Whole registry source)
    (spans : node.location.Spans a b) : a < b := by
  cases whole with
  | text found some | comment found some | region found some | endTag found some =>
    obtain ⟨rfl, rfl⟩ := spans.unique found
    exact some
  | echo written =>
    obtain ⟨rfl, rfl⟩ := spans.unique written.spans
    exact written.nonempty
  | directive placed =>
    obtain ⟨rfl, rfl⟩ := spans.unique placed.written.spans
    exact placed.written.nonempty
  | openBlock found opens laid =>
    obtain ⟨rfl, rfl⟩ := spans.unique found
    exact Nat.lt_of_lt_of_le opens.written.nonempty laid.ordered
  | block found opens laid _ closes =>
    obtain ⟨rfl, rfl⟩ := spans.unique found
    have first := opens.written.nonempty
    have inside := laid.ordered
    have last := closes.written.nonempty
    omega
  | element found shaped | slot found shaped | component found shaped =>
    obtain ⟨rfl, rfl⟩ := spans.unique found
    exact shaped.nonempty

end nonempty

/-! ## The order of the template -/

namespace Node

variable {registry : Registry} {source : Chars} {nodes : List Node} {m n : Nat}

/-- Nodes in the order in which they start. -/
def byOffset (nodes : List Node) : List Node :=
  nodes.mergeSort fun a b => a.location.offset ≤ b.location.offset

/-- Nodes end to end start one after the other. -/
theorem Laid.pairwise (laid : Laid nodes m n)
    (wholes : ∀ node ∈ nodes, node.Whole registry source) :
    (∀ node ∈ nodes, (m : Int) ≤ node.location.offset) ∧
      nodes.Pairwise fun a b => a.location.offset < b.location.offset := by
  induction laid with
  | nil => simp
  | @cons node rest a b c spans _ ih =>
    obtain ⟨later, sorted⟩ := ih fun node member => wholes node (List.mem_cons_of_mem _ member)
    have some := (wholes node List.mem_cons_self).nonempty spans
    have start := spans.offset
    refine ⟨?_, List.pairwise_cons.2 ⟨?_, sorted⟩⟩
    · intro other member
      rcases List.mem_cons.1 member with rfl | inRest
      · omega
      · have := later other inRest
        omega
    · intro other member
      have := later other member
      omega

theorem Laid.byOffset_eq (laid : Laid nodes m n)
    (wholes : ∀ node ∈ nodes, node.Whole registry source) : byOffset nodes = nodes :=
  List.mergeSort_of_pairwise
    ((laid.pairwise wholes).2.imp fun less => decide_eq_true (Int.le_of_lt less))

/-- Of nodes that start one after the other, no two start at the same offset. -/
theorem eq_of_offset (sorted : nodes.Pairwise fun a b => a.location.offset < b.location.offset)
    {a b : Node} (first : a ∈ nodes) (second : b ∈ nodes)
    (same : a.location.offset = b.location.offset) : a = b := by
  induction sorted with
  | nil => cases first
  | @cons node rest after _ ih =>
    rcases List.mem_cons.1 first with rfl | inRest <;>
      rcases List.mem_cons.1 second with rfl | later
    · rfl
    · have := after b later
      omega
    · have := after a inRest
      omega
    · exact ih inRest later

/-- Nodes that were taken apart come back in the order of the template. -/
theorem Laid.byOffset_filter (laid : Laid nodes m n)
    (wholes : ∀ node ∈ nodes, node.Whole registry source) (keep : Node → Bool) :
    byOffset (nodes.filter keep ++ nodes.filter (!keep ·)) = nodes := by
  obtain ⟨_, sorted⟩ := laid.pairwise wholes
  have perm := (List.mergeSort_perm (nodes.filter keep ++ nodes.filter (!keep ·))
    fun a b => a.location.offset ≤ b.location.offset).trans (List.filter_append_perm keep nodes)
  refine List.Perm.eq_of_pairwise ?_ (List.pairwise_mergeSort ?_ ?_ _)
    (sorted.imp fun less => decide_eq_true (Int.le_of_lt less)) perm
  · intro a b inMerged inNodes ab ba
    rw [decide_eq_true_eq] at ab ba
    exact eq_of_offset sorted (perm.mem_iff.1 inMerged) inNodes (Int.le_antisymm ab ba)
  · intro a b c ab bc
    rw [decide_eq_true_eq] at ab bc ⊢
    exact Int.le_trans ab bc
  · intro a b
    rw [Bool.or_eq_true, decide_eq_true_eq, decide_eq_true_eq]
    exact Int.le_total _ _

end Node

/-! ## Texts made of parts -/

/-- The text of an echo is its expression between its delimiters. -/
def Echo.Lossless (source : Chars) (echo : Echo) : Prop :=
  echo.location.slice source = echo.style.opener ++ echo.expression ++ echo.style.closer

/-- The text of markup is its start tag, then its content, then its end tag; there is only the start
tag if it closes itself or is void, and no end tag if it was never closed. -/
def Markup.Lossless (source : Chars) (markup : Markup) (void : Bool) (content : List Node) : Prop :=
  ∃ first stop last, markup.location.Spans first last ∧ markup.Opens source first stop ∧
    (∀ entry ∈ markup.attributes, ∀ echo, entry.echo = some echo → echo.Lossless source) ∧
    let opening := cut source first stop
    let inside := content.flatMap fun node => node.location.slice source
    if markup.selfClosing || void then markup.location.slice source = opening ∧ content = []
    else if markup.closed then
      ∃ ending,
        markup.location.slice source = opening ++ inside ++ (['<', '/'] ++ ending ++ ['>']) ∧
        '>' ∉ ending ∧ markup.endTag = some (firstWord ending)
    else markup.location.slice source = opening ++ inside ∧ markup.endTag = none

/-- The text of a node is made of its parts. The slots of a component stand among the rest of its
content in the order of their offsets. -/
def Node.Lossless (source : Chars) : Node → Prop
  | .text location content | .comment location content | .region location _ content
  | .endTag location _ content => content = location.slice source
  | .echo read => read.Lossless source
  | .directive found => found.source = found.location.slice source
  | .block location opener _ children closer _ =>
    location.slice source =
      opener.source ++ (children.flatMap fun node => node.location.slice source) ++
        (closer.map Directive.source).getD []
  | .element markup void children => markup.Lossless source void children
  | .slot _ markup children => markup.Lossless source false children
  | .component markup slots children =>
    let content := byOffset (slots ++ children)
    markup.Lossless source false content ∧ content.filter Builder.isSlotChild = slots ∧
      content.filter (!Builder.isSlotChild ·) = children
  | .attr _ | .document .. => False

section parts

variable {registry : Registry} {source : Chars} {a b : Nat}

theorem Echo.Written.lossless {echo : Echo} (written : echo.Written source a b) :
    echo.Lossless source :=
  (written.spans.slice source).trans written.shape

theorem Attribute.Spaced.lossless {entries : List Attribute}
    (spaced : Attribute.Spaced source entries a b) :
    ∀ entry ∈ entries, ∀ echo, entry.echo = some echo → echo.Lossless source := by
  induction spaced with
  | nil => simp
  | cons _ written _ ih =>
    intro entry member echo found
    rcases List.mem_cons.1 member with rfl | later
    · cases written with
      | echo _ same read =>
        rw [found] at same
        cases same
        exact read.lossless
      | bare _ none | valued _ none =>
        rw [found] at none
        cases none
    · exact ih entry later echo found

theorem Markup.Opens.lossless {markup : Markup} (opens : markup.Opens source a b) :
    ∀ entry ∈ markup.attributes, ∀ echo, entry.echo = some echo → echo.Lossless source := by
  obtain ⟨_, _, _, _, _, spaced, _⟩ := opens.parts
  exact spaced.lossless

theorem Markup.Shaped.lossless {markup : Markup} {void : Bool} {children : List Node}
    (spans : markup.location.Spans a b) (shaped : markup.Shaped source void children a b) :
    markup.Lossless source void children := by
  cases shaped with
  | single opens alone _ none =>
    refine ⟨a, b, b, spans, opens, opens.lossless, ?_⟩
    have ends : (markup.selfClosing || void) = true := by simpa using alone
    simp only [ends, if_true]
    exact ⟨spans.slice source, none⟩
  | closed inside opens notSelf notVoid laid ordered shape notInside closed _ endTag =>
    have am := opens.ordered
    have mn := laid.ordered
    refine ⟨a, _, b, spans, opens, opens.lossless, ?_⟩
    simp only [notSelf, notVoid, closed, Bool.or_self, Bool.false_eq_true, if_false, if_true]
    refine ⟨inside, ?_, notInside, endTag⟩
    rw [spans.slice, laid.flatMap_slice, ← shape, cut_append _ am mn,
      cut_append _ (Nat.le_trans am mn) ordered]
  | unclosed opens notSelf notVoid laid closed noEnd =>
    refine ⟨a, _, b, spans, opens, opens.lossless, ?_⟩
    simp only [notSelf, notVoid, closed, Bool.or_self, Bool.false_eq_true, if_false]
    refine ⟨?_, noEnd⟩
    rw [spans.slice, laid.flatMap_slice, cut_append _ opens.ordered laid.ordered]

/-- A node that is what the template holds at its location has a text made of its parts. -/
theorem Node.Whole.lossless {node : Node} (whole : node.Whole registry source) :
    node.Lossless source := by
  cases whole with
  | text spans | comment spans | region spans | endTag spans => exact (spans.slice source).symm
  | echo written => exact written.lossless
  | directive placed =>
    exact placed.written.text.trans (placed.written.spans.slice source).symm
  | openBlock spans opens laid =>
    show Location.slice _ source = _
    rw [spans.slice, opens.written.text, laid.flatMap_slice,
      cut_append _ opens.written.spans.ordered laid.ordered]
    simp
  | block spans opens laid _ closes =>
    have first := opens.written.spans.ordered
    have inside := laid.ordered
    have last := closes.written.spans.ordered
    show Location.slice _ source = _
    rw [spans.slice, Option.map_some, Option.getD_some, opens.written.text, closes.written.text,
      laid.flatMap_slice, cut_append _ first inside, cut_append _ (Nat.le_trans first inside) last]
  | element spans shaped => exact shaped.lossless spans
  | slot spans shaped => exact shaped.lossless spans
  | @component markup children _ _ spans shaped wholes =>
    obtain ⟨m, n, laid⟩ := shaped.laid
    show Markup.Lossless source markup false _ ∧ _
    rw [laid.byOffset_filter wholes]
    exact ⟨shaped.lossless spans, rfl, rfl⟩

end parts

/-! ## Whole trees -/

theorem parse_of_read {dialect : Dialect} (file : Option String) {source : Chars}
    (read : (scan dialect source).fault = none) :
    ∃ document, (parse dialect file source).outcome = .ok document := by
  unfold parse
  simp only [read]
  exact ⟨_, rfl⟩

/-- Every template that can be read has a lossless tree: the texts of its outermost nodes are the
template, and the text of every node is made of its parts. -/
theorem parse_lossless (dialect : Dialect) (file : Option String) (source : Chars)
    (read : (scan dialect source).fault = none) :
    ∃ document, (parse dialect file source).outcome = .ok document ∧
      (document.children.flatMap fun node => node.location.slice source) = source ∧
      ∀ node ∈ Node.walkAll document.children, node.Lossless source := by
  obtain ⟨document, parsed⟩ := parse_of_read file read
  obtain ⟨laid, wholes⟩ := whole_of_parse parsed
  refine ⟨document, parsed, ?_, ?_⟩
  · rw [laid.flatMap_slice, cut_all]
  · intro node member
    exact (Node.whole_of_mem_walkAll document.children wholes node member).lossless

/-- A component whose slot comes after an echo, in a block that is never closed. -/
theorem parse_lossless_slot :
    let source := "@if($a)\n<x-card>{{ $b }}<x-slot:top>t</x-slot></x-card>".toList
    (scan (Config.dialect {}) source).fault = none ∧
    ∃ document, (parse (Config.dialect {}) none source).outcome = .ok document ∧
      (document.children.flatMap fun node => node.location.slice source) = source ∧
      ∀ node ∈ Node.walkAll document.children, node.Lossless source := by
  intro source
  have read : (scan (Config.dialect {}) source).fault = none := by decide +kernel
  exact ⟨read, parse_lossless (Config.dialect {}) none source read⟩

end BladeTemplate
