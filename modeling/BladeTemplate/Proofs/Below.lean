import BladeTemplate.Node

/-!
# Nodes below nodes

Walking through a tree visits a node, and then its children and what is below them. What holds of a
node whenever it holds of its children holds of every node.

* `Node.walk_eq` and `Node.mem_walk` say how walking goes on with the children;
* `Node.induction_children` is the induction over a tree, and `Node.mem_walk_trans` a first use of
  it.
-/

namespace BladeTemplate

namespace Node

theorem walkAll_eq (nodes : List Node) : walkAll nodes = nodes.flatMap walk := by
  induction nodes with
  | nil => rfl
  | cons node rest ih => rw [walkAll, ih, List.flatMap_cons]

/-- What holds of everything below several nodes holds of everything below each of them. -/
theorem forall_mem_walk {nodes : List Node} {holds : Node → Prop}
    (all : ∀ part ∈ walkAll nodes, holds part) {node : Node} (member : node ∈ nodes) :
    ∀ part ∈ node.walk, holds part := by
  rw [walkAll_eq, List.forall_mem_flatMap] at all
  exact all node member

/-- Walking visits a node, and then its children and what is below them. -/
theorem walk_eq (node : Node) : node.walk = node :: node.childNodes.flatMap walk := by
  cases node with
  | block location opener family children closer indentsMiddles =>
    cases closer <;> simp [walk, childNodes, walkAll_eq]
  | _ => simp [walk, childNodes, walkAll_eq]

theorem mem_walk {node part : Node} :
    part ∈ node.walk ↔ part = node ∨ ∃ child ∈ node.childNodes, part ∈ child.walk := by
  rw [walk_eq, List.mem_cons, List.mem_flatMap]

theorem mem_walk_self (node : Node) : node ∈ node.walk :=
  mem_walk.2 (.inl rfl)

theorem mem_walk_of_child {node child part : Node} (below : child ∈ node.childNodes)
    (member : part ∈ child.walk) : part ∈ node.walk :=
  mem_walk.2 (.inr ⟨child, below, member⟩)

theorem sizeOf_lt_of_child {node child : Node} (below : child ∈ node.childNodes) :
    sizeOf child < sizeOf node := by
  cases node with
  | block location opener family children closer indentsMiddles =>
    simp only [childNodes, List.cons_append, List.mem_cons, List.mem_append, Option.mem_toList,
      Option.map_eq_some_iff] at below
    -- The location of the block makes room for the constructors around opener and closer.
    cases location
    rcases below with rfl | inside | ⟨last, rfl, rfl⟩
    · simp only [block.sizeOf_spec, directive.sizeOf_spec, Location.mk.sizeOf_spec]
      omega
    · have smaller := List.sizeOf_lt_of_mem inside
      simp only [block.sizeOf_spec]
      omega
    · simp only [block.sizeOf_spec, directive.sizeOf_spec, Option.some.sizeOf_spec,
        Location.mk.sizeOf_spec]
      omega
  | component markup slots children =>
    rcases List.mem_append.1 below with inSlots | inRest
    · have smaller := List.sizeOf_lt_of_mem inSlots
      simp only [component.sizeOf_spec]
      omega
    · have smaller := List.sizeOf_lt_of_mem inRest
      simp only [component.sizeOf_spec]
      omega
  | element markup void children =>
    have smaller := List.sizeOf_lt_of_mem (show child ∈ children from below)
    simp only [element.sizeOf_spec]
    omega
  | slot name markup children =>
    have smaller := List.sizeOf_lt_of_mem (show child ∈ children from below)
    simp only [slot.sizeOf_spec]
    omega
  | document location children diagnostics source =>
    have smaller := List.sizeOf_lt_of_mem (show child ∈ children from below)
    simp only [document.sizeOf_spec]
    omega
  | _ => cases below

/-- What holds of a node whenever it holds of its children holds of every node. -/
@[elab_as_elim]
theorem induction_children {motive : Node → Prop}
    (step : ∀ node, (∀ child ∈ node.childNodes, motive child) → motive node) (node : Node) :
    motive node :=
  step node fun child _ => induction_children step child
termination_by sizeOf node
decreasing_by exact sizeOf_lt_of_child ‹_›

/-- What is below a node below another is below that one, too. -/
theorem mem_walk_trans (node : Node) : ∀ inner ∈ node.walk, ∀ part ∈ inner.walk,
    part ∈ node.walk := by
  induction node using induction_children with
  | step node ih =>
    intro inner member part below
    rcases mem_walk.1 member with rfl | ⟨child, inChildren, inside⟩
    · exact below
    · exact mem_walk_of_child inChildren (ih child inChildren inner inside part below)

end Node

end BladeTemplate
