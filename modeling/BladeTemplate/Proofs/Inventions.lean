import BladeTemplate.Fingerprint
import BladeTemplate.Proofs.Balance

/-!
# Invented end tags show in fingerprints

An element that is not read as markup and closes itself is printed with an end tag that its template
does not have. Whether a tree has such an element among those printed from their parts can be read
off its fingerprints, so two trees with the same fingerprints invent equally often.

* `Mark.watch` reads marks one by one and counts the inventions outside of copied constructs;
* `watch_fingerprints` says that the count is that of the nodes printed from their parts.
-/

namespace BladeTemplate

open Text

namespace Mark

/-- Whether a mark starts a construct that ends with a mark of its own. -/
def opens : Mark → Bool
  | .block .. | .element .. | .component .. | .slot .. => true
  | _ => false

/-- Whether a mark starts a construct whose content is copied. -/
def copies : Mark → Bool
  | .block _ closed => !closed
  | .element tag closed _ _ => closed && Tag.rawTextNames.any (·.toList = tag)
  | _ => false

/-- Whether a mark starts an element that gets an end tag although it closes itself. -/
def invents : Mark → Bool
  | .element tag closed selfClosing entries =>
    (Mark.element tag closed selfClosing entries).copies && selfClosing
  | _ => false

/-- The depth below a copied construct, and the inventions outside of such constructs so far. -/
structure Watch where
  depth : Nat
  count : Nat

/-- Read one more mark. -/
def watch (state : Watch) (mark : Mark) : Watch :=
  match state.depth with
  | 0 => if mark.copies then ⟨1, state.count + if mark.invents then 1 else 0⟩ else state
  | depth + 1 =>
    if mark.opens then ⟨depth + 2, state.count⟩
    else if mark = .close then ⟨depth, state.count⟩
    else state

/-- Whether a mark neither starts nor ends a construct. -/
def isLeaf (mark : Mark) : Bool :=
  !mark.opens && mark ≠ .close

theorem watch_of_leaf {mark : Mark} (leaf : mark.isLeaf = true) (state : Watch) :
    watch state mark = state := by
  have copied : mark.copies = false := by
    cases mark with
    | block | element => simp [isLeaf, opens] at leaf
    | _ => rfl
  obtain ⟨depth, count⟩ := state
  simp only [isLeaf, Bool.and_eq_true, Bool.not_eq_true', decide_eq_true_eq] at leaf
  cases depth <;> simp [watch, leaf, copied]

theorem watch_ofDirective (state : Watch) (directive : Directive) :
    watch state (.ofDirective directive) = state :=
  watch_of_leaf (by simp [isLeaf, opens, ofDirective]) state

/-- A construct inside a copied one. -/
theorem watch_nested {start : Mark} {content : List Mark} {depth count : Nat}
    (starts : start.opens = true)
    (inside : content.foldl watch ⟨depth + 2, count⟩ = ⟨depth + 2, count⟩) :
    (start :: (content ++ [.close])).foldl watch ⟨depth + 1, count⟩ = ⟨depth + 1, count⟩ := by
  have first : watch ⟨depth + 1, count⟩ start = ⟨depth + 2, count⟩ := by simp [watch, starts]
  rw [List.foldl_cons, List.foldl_append, first, inside]
  simp [watch, opens]

/-- A construct that is copied, and not inside of another. -/
theorem watch_copied {start : Mark} {content : List Mark} {count : Nat}
    (copied : start.copies = true)
    (inside : ∀ count, content.foldl watch ⟨1, count⟩ = ⟨1, count⟩) :
    (start :: (content ++ [.close])).foldl watch ⟨0, count⟩ =
      ⟨0, count + if start.invents then 1 else 0⟩ := by
  have first : watch ⟨0, count⟩ start = ⟨1, count + if start.invents then 1 else 0⟩ := by
    simp [watch, copied]
  rw [List.foldl_cons, List.foldl_append, first, inside]
  simp [watch, opens]

/-- A construct that is printed from its parts. -/
theorem watch_built {start : Mark} {content : List Mark} {count last : Nat}
    (notCopied : start.copies = false)
    (inside : content.foldl watch ⟨0, count⟩ = ⟨0, last⟩) :
    (start :: (content ++ [.close])).foldl watch ⟨0, count⟩ = ⟨0, last⟩ := by
  have first : watch ⟨0, count⟩ start = ⟨0, count⟩ := by simp [watch, notCopied]
  rw [List.foldl_cons, List.foldl_append, first, inside]
  simp [watch, copies]

/-- Joining texts changes nothing for the watch. -/
theorem watch_join (marks : List Mark) (state : Watch) :
    (join marks).foldl watch state = marks.foldl watch state := by
  have text (content : Chars) (state : Watch) : watch state (.text content) = state :=
    watch_of_leaf (by simp [isLeaf, opens]) state
  fun_induction join marks generalizing state with
  | case1 => rfl
  | case2 content rest more joined found ih =>
    have later := ih state
    rw [found, List.foldl_cons, text] at later
    rw [List.foldl_cons, List.foldl_cons, text, text, later]
  | case3 content rest notText ih => rw [List.foldl_cons, List.foldl_cons, ih]
  | case4 mark rest notText ih => rw [List.foldl_cons, List.foldl_cons, ih]

end Mark

namespace Node

open Mark

/-- Whether a node has no nodes below it. -/
def isLeaf : Node → Bool
  | .block .. | .element .. | .component .. | .slot .. | .document .. => false
  | _ => true

theorem watch_marks_leaf (sort : Bool) {node : Node} (leaf : node.isLeaf = true) (state : Watch) :
    (node.marks sort).foldl watch state = state := by
  have single {mark : Mark} (leaf : mark.isLeaf = true) : [mark].foldl watch state = state :=
    watch_of_leaf leaf state
  cases node with
  | text location content =>
    rw [marks]
    split
    · rfl
    · exact single (by simp [Mark.isLeaf, Mark.opens])
  | echo | comment | region | endTag =>
    rw [marks]
    exact single (by simp [Mark.isLeaf, Mark.opens])
  | directive directive =>
    rw [marks]
    exact watch_ofDirective state directive
  | attr => rfl
  | block | element | component | slot | document => simp [isLeaf] at leaf

/-- The marks of a block between its first and its last one. -/
theorem foldl_watch_block (opener : Directive) (content : List Mark) (closer : Option Directive)
    (state : Watch) :
    (ofDirective opener :: content ++ (closer.map ofDirective).toList).foldl watch state =
      content.foldl watch state := by
  rw [List.foldl_append, List.foldl_cons, watch_ofDirective]
  cases closer with
  | none => rfl
  | some last => exact watch_ofDirective _ last

mutual

/-- Inside a copied construct, nothing counts, and a subtree ends at the depth it starts at. -/
theorem watch_marks_copied (sort : Bool) (depth count : Nat) : (node : Node) →
    (node.marks sort).foldl watch ⟨depth + 1, count⟩ = ⟨depth + 1, count⟩
  | .text .. | .echo .. | .comment .. | .region .. | .directive .. | .endTag .. | .attr .. =>
    watch_marks_leaf sort rfl _
  | .block location opener family children closer indentsMiddles => by
    rw [marks, List.cons_append, List.cons_append]
    refine watch_nested rfl ?_
    rw [foldl_watch_block]
    exact watch_marksAll_copied sort (depth + 1) count children
  | .element markup void children => by
    rw [marks, List.cons_append]
    exact watch_nested rfl (watch_marksAll_copied sort (depth + 1) count children)
  | .component markup slots children => by
    rw [marks, List.cons_append, List.cons_append]
    refine watch_nested rfl ?_
    rw [List.foldl_append, watch_marksAll_copied sort (depth + 1) count slots,
      watch_marksAll_copied sort (depth + 1) count children]
  | .slot name markup children => by
    rw [marks, List.cons_append]
    exact watch_nested rfl (watch_marksAll_copied sort (depth + 1) count children)
  | .document _ children _ _ => watch_marksAll_copied sort depth count children

theorem watch_marksAll_copied (sort : Bool) (depth count : Nat) : (nodes : List Node) →
    (marksAll sort nodes).foldl watch ⟨depth + 1, count⟩ = ⟨depth + 1, count⟩
  | [] => rfl
  | node :: rest => by
    rw [marksAll, List.foldl_append, watch_marks_copied sort depth count node,
      watch_marksAll_copied sort depth count rest]

end

variable {registry : Registry} {source : Chars}

/-- The watch counts on from node to node. -/
theorem watch_nodes {sort : Bool} {nodes : List Node}
    (each : ∀ node ∈ nodes, ∀ count,
      (node.marks sort).foldl watch ⟨0, count⟩ = ⟨0, count + node.built.countP invents⟩)
    (count : Nat) :
    (marksAll sort nodes).foldl watch ⟨0, count⟩ =
      ⟨0, count + (builtAll nodes).countP invents⟩ := by
  induction nodes generalizing count with
  | nil => rfl
  | cons node rest ih =>
    rw [List.forall_mem_cons] at each
    rw [marksAll, List.foldl_append, each.1, ih each.2, builtAll, List.countP_append, Nat.add_assoc]

/-- The watch counts the inventions among the nodes that are printed from their parts. -/
theorem watch_marks (sort : Bool) {node : Node} (whole : node.Whole registry source) :
    ∀ count, (node.marks sort).foldl watch ⟨0, count⟩ =
      ⟨0, count + node.built.countP invents⟩ := by
  induction whole with
  | text | echo | comment | region | directive | endTag =>
    intro count
    exact watch_marks_leaf sort rfl _
  | @openBlock _ _ _ children =>
    intro count
    rw [marks, List.cons_append, List.cons_append]
    refine watch_copied rfl ?_
    intro count
    rw [foldl_watch_block]
    exact watch_marksAll_copied sort 0 count children
  | block _ _ _ _ _ ih =>
    intro count
    rw [marks, List.cons_append]
    refine watch_built rfl ?_
    rw [foldl_watch_block, watch_nodes ih]
    simp [built, invents]
  | @element markup void children _ _ _ _ _ ih =>
    intro count
    rw [marks, built, List.cons_append]
    -- A mark has its tag in lower case, which is how tags are compared with the names.
    have copies : (Mark.element (lower markup.tag) markup.closed markup.selfClosing
        (ofEntries sort markup)).copies =
        (markup.closed && Tag.isOneOf Tag.rawTextNames markup.tag) := rfl
    split
    · next raw =>
      rw [watch_copied (copies.trans raw) fun count => watch_marksAll_copied sort 0 count children]
      simp [invents, Mark.invents, copies, raw]
    · next notRaw =>
      rw [watch_built (copies.trans (by simpa using notRaw)) (watch_nodes ih count)]
      simp [invents, notRaw]
  | slot _ _ _ ih =>
    intro count
    rw [marks, List.cons_append, watch_built rfl (watch_nodes ih count)]
    simp [built, invents]
  | component _ _ _ ih =>
    intro count
    -- The marks of the slots come first; the count goes on with those of the other children.
    rw [marks, built, List.cons_append, List.cons_append]
    refine watch_built rfl ?_
    rw [List.foldl_append, watch_nodes fun node member => ih node (List.mem_filter.1 member).1,
      watch_nodes fun node member => ih node (List.mem_filter.1 member).1]
    simp [invents, Nat.add_assoc]

/-- To the watch, the fingerprints of several subtrees are their marks. -/
theorem watch_fingerprint_all (sort : Bool) (nodes : List Node) (state : Watch) :
    ((nodes.filter (!·.isBlank)).map fun node => node.fingerprint sort).flatten.foldl watch state =
      (marksAll sort nodes).foldl watch state := by
  induction nodes generalizing state with
  | nil => rfl
  | cons node rest ih =>
    rw [marksAll, List.foldl_append]
    cases blank : node.isBlank with
    | true =>
      rw [List.filter_cons_of_neg (by simp [blank]), ih, marks_of_isBlank sort blank]
      rfl
    | false =>
      have first : (node.fingerprint sort).foldl watch state = (node.marks sort).foldl watch state :=
        watch_join _ state
      rw [List.filter_cons_of_pos (by simp [blank]), List.map_cons, List.flatten_cons,
        List.foldl_append, first, ih]

end Node

/-- The fingerprints of a tree tell how many of its nodes get an end tag of their own. -/
theorem watch_fingerprints {registry : Registry} {source : Chars} (sort : Bool)
    {document : Document} (wholes : ∀ node ∈ document.children, node.Whole registry source) :
    ((document.fingerprints sort).map (·.2)).flatten.foldl Mark.watch ⟨0, 0⟩ =
      ⟨0, (Node.builtAll document.children).countP Node.invents⟩ := by
  have all := Node.watch_nodes (fun node member => Node.watch_marks sort (wholes node member)) 0
  rw [Nat.zero_add, ← Node.watch_fingerprint_all] at all
  unfold Document.fingerprints
  rw [List.map_map]
  exact all

end BladeTemplate
