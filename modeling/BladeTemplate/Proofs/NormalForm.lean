import BladeTemplate.Proofs.Inventions

/-!
# What fingerprints tell apart

A fingerprint is a flat list, but nothing about a tree is lost in it that counts: it determines the
normal form of the tree, in which texts are free of white space, blank texts are gone, texts that
stand side by side are one, and every other node keeps its own mark and the normal forms of its
child nodes.

* `Shape` is a tree of marks, and `Shape.marks` lists it with a mark at the end of each construct;
* `Shape.marksAll_inj` reads the list back: no list of marks has two shapes;
* `Node.normalForm` is the normal form, and `Node.fingerprint_eq` says that fingerprints list it;
* `Node.bare` removes white space where it does not count;
* `fingerprint_faithful` is the statement about any two trees.
-/

namespace BladeTemplate

open Text

/-! ## Shapes -/

/-- A tree of marks. -/
inductive Shape where
  | leaf (mark : Mark) (stands : mark.isLeaf = true)
  | nest (mark : Mark) (opens : mark.opens = true) (inside : List Shape)

namespace Shape

def directive (d : Directive) : Shape :=
  .leaf (.ofDirective d) (by simp [Mark.isLeaf, Mark.opens, Mark.ofDirective])

mutual

/-- The marks of a shape in visiting order, with a mark at the end of each construct. -/
def marks : Shape → List Mark
  | .leaf mark _ => [mark]
  | .nest mark _ inside => mark :: marksAll inside ++ [.close]

def marksAll : List Shape → List Mark
  | [] => []
  | shape :: rest => shape.marks ++ marksAll rest

end

/-- Put a shape before others. A text and the text that it comes to stand before are one. -/
def before : Shape → List Shape → List Shape
  | .leaf (.text content) _, .leaf (.text more) _ :: rest =>
    .leaf (.text (content ++ more)) rfl :: rest
  | shape, rest => shape :: rest

mutual

/-- The shape with texts that stand side by side joined everywhere inside. -/
def tidy : Shape → Shape
  | .leaf mark stands => .leaf mark stands
  | .nest mark opens inside => .nest mark opens (tidyAll inside)

/-- Shapes with texts that stand side by side joined, among them and inside. -/
def tidyAll : List Shape → List Shape
  | [] => []
  | shape :: rest => before shape.tidy (tidyAll rest)

end

@[simp]
theorem marksAll_append (first second : List Shape) :
    marksAll (first ++ second) = marksAll first ++ marksAll second := by
  induction first with
  | nil => rfl
  | cons shape rest ih => rw [List.cons_append, marksAll, marksAll, ih, List.append_assoc]

/-! ## Reading marks back -/

/-- What may follow the marks of everything inside a construct: its end, or nothing at the top. -/
def Ends (marks : List Mark) : Prop :=
  marks = [] ∨ ∃ rest, marks = .close :: rest

/-- The marks of a shape start with one that ends nothing. -/
theorem marks_eq_cons (shape : Shape) :
    ∃ mark rest, shape.marks = mark :: rest ∧ mark ≠ .close := by
  cases shape with
  | leaf mark stands =>
    refine ⟨mark, [], rfl, ?_⟩
    rintro rfl
    cases stands
  | nest mark opens inside =>
    refine ⟨mark, marksAll inside ++ [.close], rfl, ?_⟩
    rintro rfl
    cases opens

theorem not_ends_marks_append (shape : Shape) (rest : List Mark) :
    ¬ Ends (shape.marks ++ rest) := by
  obtain ⟨mark, more, starts, notClose⟩ := shape.marks_eq_cons
  rw [starts, List.cons_append]
  rintro (none | ⟨_, close⟩)
  · cases none
  · injection close with same
    exact notClose same

mutual

/-- Where marks start with those of a shape, that is the only shape they start with. -/
theorem marks_inj : (shape other : Shape) → {rest more : List Mark} →
    shape.marks ++ rest = other.marks ++ more → shape = other ∧ rest = more
  | .leaf mark stands, .leaf second _, rest, more, same => by
    injection same with mark_eq rest_eq
    subst mark_eq
    exact ⟨rfl, rest_eq⟩
  | .leaf mark stands, .nest second opens _, rest, more, same => by
    injection same with mark_eq
    subst mark_eq
    simp [Mark.isLeaf, opens] at stands
  | .nest mark opens _, .leaf second stands, rest, more, same => by
    injection same with mark_eq
    subst mark_eq
    simp [Mark.isLeaf, opens] at stands
  | .nest mark opens inside, .nest second _ content, rest, more, same => by
    simp only [marks, List.cons_append, List.append_assoc, List.nil_append] at same
    injection same with mark_eq later
    subst mark_eq
    obtain ⟨rfl, ended⟩ := marksAll_inj inside content (.inr ⟨rest, rfl⟩) (.inr ⟨more, rfl⟩) later
    injection ended with _ rest_eq
    exact ⟨rfl, rest_eq⟩

/-- Up to the end of the construct they stand in, marks determine the shapes. -/
theorem marksAll_inj : (shapes others : List Shape) → {rest more : List Mark} →
    Ends rest → Ends more → marksAll shapes ++ rest = marksAll others ++ more →
    shapes = others ∧ rest = more
  | [], [], rest, more, _, _, same => ⟨rfl, same⟩
  | [], other :: others, rest, more, ends, _, same => by
    rw [marksAll, marksAll, List.nil_append, List.append_assoc] at same
    exact absurd (same ▸ ends) (other.not_ends_marks_append _)
  | shape :: shapes, [], rest, more, _, ends, same => by
    rw [marksAll, marksAll, List.nil_append, List.append_assoc] at same
    exact absurd (same ▸ ends) (shape.not_ends_marks_append _)
  | shape :: shapes, other :: others, rest, more, ends, moreEnds, same => by
    rw [marksAll, marksAll, List.append_assoc, List.append_assoc] at same
    obtain ⟨rfl, later⟩ := marks_inj shape other same
    obtain ⟨rfl, rest_eq⟩ := marksAll_inj shapes others ends moreEnds later
    exact ⟨rfl, rest_eq⟩

end

end Shape

/-! ## Joined texts -/

namespace Mark

/-- Only texts are joined to what follows. -/
theorem join_cons_of_not_text {mark : Mark} (notText : ∀ content, mark ≠ .text content)
    (rest : List Mark) : join (mark :: rest) = mark :: join rest := by
  cases mark with
  | text content => exact absurd rfl (notText content)
  | _ => rw [join]; exact notText

/-- Nothing is joined across the end of a construct. -/
theorem join_append_close (inside rest : List Mark) :
    join (inside ++ .close :: rest) = join inside ++ .close :: join rest := by
  have close : join (.close :: rest) = .close :: join rest := join_cons_of_not_text (by nofun) rest
  fun_induction join inside with
  | case1 => exact close
  | case2 content later more joined found ih =>
    rw [List.cons_append, join, ih, found]
    rfl
  | case3 content later notText ih =>
    rw [List.cons_append, join, ih]
    cases joined : join later with
    | nil => rfl
    | cons mark marks =>
      cases mark with
      | text more => exact absurd joined (notText more marks)
      | _ => rfl
  | case4 mark later notText ih =>
    rw [List.cons_append, join_cons_of_not_text notText, ih, List.cons_append]

end Mark

namespace Shape

open Mark

/-- A leaf before shapes, and its mark before theirs. -/
theorem marksAll_before_leaf (mark : Mark) (stands : mark.isLeaf = true) {shapes : List Shape}
    {rest : List Mark} (joined : join rest = marksAll shapes) :
    marksAll (before (.leaf mark stands) shapes) = join (mark :: rest) := by
  cases mark with
  | text content =>
    rw [join, joined]
    cases shapes with
    | nil => rfl
    | cons shape others =>
      cases shape with
      | leaf first _ => cases first <;> rfl
      | nest first opens inside =>
        cases first with
        | block | element | component | slot => rfl
        | _ => cases opens
  | close => cases stands
  | _ =>
    simp only [join, joined]
    rfl

mutual

theorem marksAll_before_tidy : (shape : Shape) → {rest : List Mark} → {shapes : List Shape} →
    join rest = marksAll shapes →
    marksAll (before shape.tidy shapes) = join (shape.marks ++ rest)
  | .leaf mark stands, _, _, joined => marksAll_before_leaf mark stands joined
  | .nest mark opens inside, rest, shapes, joined => by
    have notText : ∀ content, mark ≠ .text content := by
      rintro content rfl
      cases opens
    simp only [tidy, before, marksAll, marks, List.cons_append, List.append_assoc, List.nil_append,
      join_cons_of_not_text notText, join_append_close, marksAll_tidyAll inside, joined]

/-- Joining texts in shapes is joining texts among their marks. -/
theorem marksAll_tidyAll : (shapes : List Shape) →
    marksAll (tidyAll shapes) = join (marksAll shapes)
  | [] => rfl
  | shape :: rest => marksAll_before_tidy shape (marksAll_tidyAll rest).symm

end

end Shape

/-! ## Normal forms -/

namespace Node

mutual

/-- The shapes of a tree: a blank text has none, any other node one that keeps what counts about it
and the shapes of its child nodes. A template is no more than what is in it. -/
def shapes (sort : Bool) : Node → List Shape
  | .text _ content =>
    let squeezed := Text.squeeze content
    if squeezed.isEmpty then [] else [.leaf (.text squeezed) rfl]
  | .echo e => [.leaf (.echo e.raw (Text.squeeze e.expression)) rfl]
  | .comment _ content => [.leaf (.comment content) rfl]
  | .region _ kind content =>
    [.leaf (.region kind (if kind = .rawText then Text.squeeze content else content)) rfl]
  | .directive d => [.directive d]
  | .block _ opener family children closer _ =>
    [.nest (.block family closer.isSome) rfl
      (.directive opener :: shapesAll sort children ++ (closer.map Shape.directive).toList)]
  | .element markup _ children =>
    [.nest (.element (Text.lower markup.tag) markup.closed markup.selfClosing
      (Mark.ofEntries sort markup)) rfl (shapesAll sort children)]
  | .component markup slots children =>
    [.nest (.component (Text.lower markup.tag) markup.closed markup.selfClosing
      (Mark.ofEntries sort markup)) rfl (shapesAll sort slots ++ shapesAll sort children)]
  | .slot name markup children =>
    [.nest (.slot name markup.closed (Mark.ofEntries sort markup)) rfl (shapesAll sort children)]
  | .endTag _ tag _ => [.leaf (.endTag (Text.lower tag)) rfl]
  | .attr _ => []
  | .document _ children _ _ => shapesAll sort children

def shapesAll (sort : Bool) : List Node → List Shape
  | [] => []
  | node :: rest => node.shapes sort ++ shapesAll sort rest

end

variable (sort : Bool)

/-- The normal form of a tree: its shapes, with texts that stand side by side joined. -/
def normalForm (node : Node) : List Shape :=
  Shape.tidyAll (node.shapes sort)

theorem shapesAll_eq (nodes : List Node) : shapesAll sort nodes = nodes.flatMap (shapes sort) := by
  induction nodes with
  | nil => rfl
  | cons node rest ih => rw [shapesAll, ih, List.flatMap_cons]

/-- What a construct holds are the shapes of its child nodes in visiting order. -/
theorem inside_of_shapes {node : Node} {mark : Mark} {opens : mark.opens = true}
    {inside : List Shape} (holds : node.shapes sort = [.nest mark opens inside])
    (construct : ∀ location children diagnostics source,
      node ≠ .document location children diagnostics source) :
    inside = node.childNodes.flatMap (shapes sort) := by
  cases node with
  | text location content =>
    rw [shapes] at holds
    split at holds <;> cases holds
  | block location opener family children closer indentsMiddles =>
    cases holds
    simp only [childNodes, List.cons_append, List.flatMap_cons, List.flatMap_append,
      ← shapesAll_eq]
    cases closer <;> rfl
  | element | slot =>
    cases holds
    exact shapesAll_eq sort _
  | component =>
    cases holds
    rw [childNodes, List.flatMap_append, shapesAll_eq, shapesAll_eq]
  | document => exact absurd rfl (construct _ _ _ _)
  | echo | comment | region | directive | endTag | attr => cases holds

mutual

theorem marksAll_shapes : (node : Node) → Shape.marksAll (node.shapes sort) = node.marks sort
  | .text .. => by
    rw [shapes, marks]
    split <;> rfl
  | .echo .. | .comment .. | .region .. | .directive .. | .endTag .. | .attr .. => rfl
  | .block _ _ _ children closer _ => by
    simp only [shapes, marks, Shape.marksAll, Shape.marks, Shape.marksAll_append, List.cons_append,
      List.append_nil, marksAll_shapesAll children]
    cases closer <;> rfl
  | .element _ _ children | .slot _ _ children => by
    simp only [shapes, marks, Shape.marksAll, Shape.marks, List.append_nil,
      marksAll_shapesAll children]
  | .component _ slots children => by
    simp only [shapes, marks, Shape.marksAll, Shape.marks, Shape.marksAll_append, List.append_nil,
      List.cons_append, marksAll_shapesAll slots, marksAll_shapesAll children]
  | .document _ children _ _ => marksAll_shapesAll children

theorem marksAll_shapesAll :
    (nodes : List Node) → Shape.marksAll (shapesAll sort nodes) = marksAll sort nodes
  | [] => rfl
  | node :: rest => by
    rw [shapesAll, Shape.marksAll_append, marksAll_shapes node, marksAll_shapesAll rest, marksAll]

end

/-- A fingerprint lists the normal form. -/
theorem fingerprint_eq (node : Node) :
    node.fingerprint sort = Shape.marksAll (node.normalForm sort) := by
  rw [normalForm, Shape.marksAll_tidyAll, marksAll_shapes, fingerprint]

end Node

/-! ## White space that does not count -/

@[simp]
theorem Text.squeeze_squeeze (text : Chars) : squeeze (squeeze text) = squeeze text :=
  squeeze_of_inked fun _ member => by simpa using (List.mem_filter.1 member).2

theorem Text.squeeze_optional (text : Option Chars) :
    (text.map squeeze).map squeeze = text.map squeeze := by
  cases text <;> simp

/-- The echo without white space in it. -/
def Echo.bare (echo : Echo) : Echo :=
  { echo with location := default, expression := squeeze echo.expression }

/-- The directive without white space in its arguments. -/
def Directive.bare (directive : Directive) : Directive :=
  { directive with
    location := default
    arguments := directive.arguments.map squeeze
    source := squeeze directive.source }

namespace Attribute

/-- The entry without white space in its value or echo. An echo that stands as an entry has its
text for a name; where it would be sorted by that, the name is left as it is. -/
def bare (entry : Attribute) : Attribute :=
  { entry with
    location := default
    name := if entry.echo.isSome && entry.isFence then squeeze entry.name else entry.name
    value := entry.value.map squeeze
    echo := entry.echo.map Echo.bare }

/-- A map that leaves fences and the names of other entries alone can be applied before or after
sorting. -/
theorem arrange_map {f : Attribute → Attribute} (fence : ∀ entry, (f entry).isFence = entry.isFence)
    (name : ∀ entry : Attribute, entry.isFence = false →
      Text.lower (f entry).name = Text.lower entry.name)
    {run : List Attribute} (inner : ∀ entry ∈ run, entry.isFence = false)
    (entries : List Attribute) :
    arrange (run.map f) (entries.map f) = (arrange run entries).map f := by
  have sorted {run : List Attribute} (inner : ∀ entry ∈ run, entry.isFence = false) :
      sortRun (run.map f).reverse = (sortRun run.reverse).map f := by
    rw [← List.map_reverse]
    refine (List.map_mergeSort fun a inA b inB => ?_).symm
    rw [name a (inner a (List.mem_reverse.1 inA)), name b (inner b (List.mem_reverse.1 inB))]
  induction entries generalizing run with
  | nil => exact sorted inner
  | cons entry rest ih =>
    rw [List.map_cons, arrange, arrange, fence]
    split
    · have fresh := @ih [] (by simp)
      rw [List.map_nil] at fresh
      rw [sorted inner, fresh, List.map_append, List.map_cons]
    · next notFence =>
      refine @ih (entry :: run) fun other member => ?_
      rcases List.mem_cons.1 member with rfl | member
      · simpa using notFence
      · exact inner other member

theorem order_map {f : Attribute → Attribute} (fence : ∀ entry, (f entry).isFence = entry.isFence)
    (name : ∀ entry : Attribute, entry.isFence = false →
      Text.lower (f entry).name = Text.lower entry.name)
    (entries : List Attribute) (sort : Bool) :
    order (entries.map f) sort = (order entries sort).map f := by
  unfold order
  split
  · exact @arrange_map f fence name [] (by simp) entries
  · rfl

end Attribute

/-- The start tag without white space in its entries. -/
def Markup.bare (markup : Markup) : Markup :=
  { markup with location := default, attributes := markup.attributes.map Attribute.bare }

@[simp]
theorem Markup.tag_bare (markup : Markup) : markup.bare.tag = markup.tag := rfl

@[simp]
theorem Markup.closed_bare (markup : Markup) : markup.bare.closed = markup.closed := rfl

@[simp]
theorem Markup.selfClosing_bare (markup : Markup) :
    markup.bare.selfClosing = markup.selfClosing := rfl

namespace Node

mutual

/-- The tree without white space in its texts, echoes, arguments, values and raw texts, and in what
it keeps as written; where its constructs stand is left out. -/
def bare : Node → Node
  | .text _ content => .text default (squeeze content)
  | .echo e => .echo e.bare
  | .comment _ content => .comment default content
  | .region _ kind content =>
    .region default kind (if kind = .rawText then squeeze content else content)
  | .directive d => .directive d.bare
  | .block _ opener family children closer indentsMiddles =>
    .block default opener.bare family (bareAll children) (closer.map Directive.bare) indentsMiddles
  | .element markup void children => .element markup.bare void (bareAll children)
  | .component markup slots children => .component markup.bare (bareAll slots) (bareAll children)
  | .slot name markup children => .slot name markup.bare (bareAll children)
  | .endTag _ tag content => .endTag default tag (squeeze content)
  | .attr entry => .attr entry.bare
  | .document _ children _ _ => .document default (bareAll children) [] []

/-- Several trees without white space. -/
def bareAll : List Node → List Node
  | [] => []
  | node :: rest => node.bare :: bareAll rest

end

end Node

namespace Mark

@[simp]
theorem ofDirective_bare (d : Directive) : ofDirective d.bare = ofDirective d :=
  congrArg (Mark.directive (if d.registered then Text.lower d.name else d.name) · d.pairing
    d.orphan) (squeeze_optional d.arguments)

theorem ofEntry_bare (entry : Attribute) : ofEntry entry.bare = ofEntry entry := by
  obtain ⟨location, name, value, kind, ambiguous, echo, comment⟩ := entry
  cases echo with
  | none => exact congrArg (EntryMark.entry kind name) (squeeze_optional value)
  | some e => exact congrArg (EntryMark.echo e.raw) (squeeze_squeeze e.expression)

@[simp]
theorem ofEntries_bare (sort : Bool) (markup : Markup) :
    ofEntries sort markup.bare = ofEntries sort markup := by
  have name (entry : Attribute) (notFence : entry.isFence = false) :
      Text.lower entry.bare.name = Text.lower entry.name := by
    simp [Attribute.bare, notFence]
  have attributes : markup.bare.attributes = markup.attributes.map Attribute.bare := rfl
  unfold ofEntries
  rw [attributes, Attribute.order_map (f := Attribute.bare) (fun _ => rfl) name, List.map_map]
  exact List.map_congr_left fun entry _ => ofEntry_bare entry

end Mark

namespace Node

variable (sort : Bool)

mutual

theorem marks_bare : (node : Node) → node.bare.marks sort = node.marks sort
  | .text .. | .echo .. => by simp [bare, marks, Echo.bare]
  | .comment .. | .endTag .. | .attr .. => rfl
  | .directive .. => by simp [bare, marks]
  | .region _ kind content => by
    rw [bare, marks, marks]
    split <;> simp
  | .block _ opener _ children closer _ => by
    cases closer <;> simp [bare, marks, marksAll_bare children]
  | .element _ _ children | .slot _ _ children => by
    simp [bare, marks, marksAll_bare children]
  | .component _ slots children => by
    simp [bare, marks, marksAll_bare slots, marksAll_bare children]
  | .document _ children _ _ => marksAll_bare children

theorem marksAll_bare : (nodes : List Node) → marksAll sort (bareAll nodes) = marksAll sort nodes
  | [] => rfl
  | node :: rest => by rw [bareAll, marksAll, marksAll, marks_bare node, marksAll_bare rest]

end

end Node

/-- Two trees have the same fingerprint exactly if they have the same normal form, and trees that
differ in nothing but white space in texts, echoes, arguments, values and raw texts have the same
fingerprint. -/
theorem fingerprint_faithful (sort : Bool) (a b : Node) :
    (a.fingerprint sort = b.fingerprint sort ↔ a.normalForm sort = b.normalForm sort) ∧
      (a.bare = b.bare → a.fingerprint sort = b.fingerprint sort) := by
  refine ⟨⟨fun same => ?_, fun same => ?_⟩, fun same => ?_⟩
  · rw [Node.fingerprint_eq, Node.fingerprint_eq, ← List.append_nil (Shape.marksAll _),
      ← List.append_nil (Shape.marksAll (b.normalForm sort))] at same
    exact (Shape.marksAll_inj _ _ (.inl rfl) (.inl rfl) same).1
  · rw [Node.fingerprint_eq, Node.fingerprint_eq, same]
  · rw [Node.fingerprint, Node.fingerprint, ← Node.marks_bare sort a, same, Node.marks_bare]

/-- An element on one line and on three. -/
theorem fingerprint_faithful_spaced :
    let entry (value : Chars) : Attribute := { location := default, name := ['b'], value := value }
    let element (value content : Chars) (line : Int) : Node :=
      .element ⟨⟨line, 1, 0, 0, none, none, none⟩, ['P'], [entry value], false, true, none⟩ false
        [.text default content, .echo ⟨default, value, true⟩]
    let tight := element ['$', 'a'] ['x', ' ', 'y'] 1
    let spaced := element [' ', '$', 'a'] ['\n', 'x', 'y', '\n'] 7
    tight.bare = spaced.bare ∧ tight.fingerprint true = spaced.fingerprint true := by
  intro entry element tight spaced
  have same : tight.bare = spaced.bare := rfl
  exact ⟨same, (fingerprint_faithful true tight spaced).2 same⟩

end BladeTemplate
