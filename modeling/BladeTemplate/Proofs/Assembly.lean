import BladeTemplate.Proofs.Frames
import BladeTemplate.Proofs.Transcript
import BladeTemplate.Tree.Build

/-!
# Building the trees of drafts

The items of a draft match without a word: every end tag and every closer finds its construct on top
of the stack.

* `Flow.Builds` relates a flow to the nodes it becomes, wherever they stand in a template;
* `Builder.exists_builds` is the matching of items: it only adds nodes to the innermost frame;
* `exists_parse` is the tree of a whole template.
-/

namespace BladeTemplate

open Text

/-- A directive in the role it plays in a draft. -/
structure Directive.Plays (directive : Directive) (name : Chars) (arguments : Option Chars)
    (pairing : Pairing) (spaced : Bool) : Prop where
  named : directive.name = name
  written : directive.writtenName = name
  arguments : directive.arguments = arguments
  pairing : directive.pairing = pairing
  spaced : directive.spacedArguments = spaced
  registered : directive.registered = true
  inBlock : directive.orphan = false

/-- A closed element without entries. -/
structure Markup.Ended (markup : Markup) (tag : TagName) : Prop where
  bare : markup.Bare tag
  endTag : markup.endTag = some tag.text

namespace Flow

/-- The nodes of a text: none if it is empty. -/
inductive Leaves : Chars → List Node → Prop
  | none : Leaves [] []
  | some {gap : Chars} {location : Location} : gap ≠ [] → Leaves gap [.text location gap]

/-- The nodes that a flow becomes. -/
inductive Builds : Flow → List Node → Prop
  | plain {gap : Chars} {nodes : List Node} : Leaves gap nodes → Builds (.plain gap) nodes
  | echo {gap : Chars} {braced : Interpolation} {rest : Flow} {before more : List Node}
      {location : Location} : Leaves gap before → Builds rest more →
      Builds (.echo gap braced rest) (before ++ .echo ⟨location, braced.body, false⟩ :: more)
  | element {gap : Chars} {tag : TagName} {inside rest : Flow} {before kids more : List Node}
      {markup : Markup} : Leaves gap before → markup.Ended tag → Builds inside kids →
      Builds rest more →
      Builds (.element gap tag inside rest) (before ++ .element markup false kids :: more)
  | block {gap : Chars} {opening : Opening} {inside rest : Flow} {before kids more : List Node}
      {location : Location} {opener closer : Directive} : Leaves gap before →
      opener.Plays opening.keyword.name.toList (some opening.arguments) .opens
        (Descriptor.opener opening.keyword.name).spacedArguments →
      Builds inside kids → closer.Plays opening.keyword.endName.toList none .closes false →
      Builds rest more →
      Builds (.block gap opening inside rest)
        (before ++
          .block location opener opening.keyword.name.toList kids (some closer) false :: more)
  | otherwise {gap : Chars} {rest : Flow} {before more : List Node} {middle : Directive} :
      Leaves gap before → middle.Plays "else".toList none .middle false → Builds rest more →
      Builds (.otherwise gap rest) (before ++ .directive middle :: more)

/-- Whether middles stand directly in a block that may have branches. -/
def branched (branches : Bool) : Flow → Bool
  | .plain _ => true
  | .echo _ _ rest => rest.branched branches
  | .element _ _ inside rest => inside.branched false && rest.branched branches
  | .block _ opening inside rest =>
    inside.branched opening.keyword.branches && rest.branched branches
  | .otherwise _ rest => branches && rest.branched branches

end Flow

/-! ## Bodies -/

namespace Body

/-- Whether the last child is a text. -/
def endsInText (body : Body) : Bool :=
  match body.nodes with
  | .text .. :: _ => true
  | _ => false

theorem children_append {body : Body} (apart : body.endsInText = false) (node : Node) :
    (body.append node).children = body.children ++ [node] := by
  unfold append
  split
  · next found =>
    simp [endsInText, found] at apart
  · simp [children]

theorem endsInText_append (body : Body) {node : Node} (construct : ∀ location content,
    node ≠ .text location content) : (body.append node).endsInText = false := by
  unfold append
  split
  · next location content _ _ _ _ => exact absurd rfl (construct location content)
  · unfold endsInText
    split
    · next found =>
      simp only [List.cons.injEq] at found
      exact absurd found.1 (construct _ _)
    · rfl

end Body

namespace Flow

theorem Leaves.children {gap : Chars} {before : List Node} (leaves : Leaves gap before)
    {body : Body} (apart : body.endsInText = false) :
    (before.foldl Body.append body).children = body.children ++ before := by
  cases leaves with
  | none => simp
  | some _ => exact Body.children_append apart _

/-- A construct after a text is not joined to it, and nothing is joined to the construct. -/
theorem Leaves.construct {gap : Chars} {before : List Node} (leaves : Leaves gap before)
    {body : Body} (apart : body.endsInText = false) {node : Node}
    (construct : ∀ location content, node ≠ .text location content) :
    ((before.foldl Body.append body).append node).children = body.children ++ before ++ [node] := by
  rw [← leaves.children apart]
  unfold Body.append
  split
  · next location content _ _ _ _ => exact absurd rfl (construct location content)
  · simp [Body.children]

/-- Texts and constructs take turns, so that nothing is joined. -/
theorem Builds.children {flow : Flow} {nodes : List Node} (builds : flow.Builds nodes)
    {body : Body} (apart : body.endsInText = false) :
    (nodes.foldl Body.append body).children = body.children ++ nodes := by
  have step {gap : Chars} {before more : List Node} {node : Node} (leaves : Leaves gap before)
      {body : Body} (apart : body.endsInText = false)
      (construct : ∀ location content, node ≠ .text location content)
      (ih : ∀ body : Body, body.endsInText = false →
        (more.foldl Body.append body).children = body.children ++ more) :
      ((before ++ node :: more).foldl Body.append body).children =
        body.children ++ (before ++ node :: more) := by
    rw [List.foldl_append, List.foldl_cons, ih _ (Body.endsInText_append _ construct),
      leaves.construct apart construct]
    simp
  induction builds generalizing body with
  | plain leaves => exact leaves.children apart
  | echo leaves _ ih | otherwise leaves _ _ ih =>
    exact step leaves apart (by simp) fun _ apart => ih apart
  | element leaves _ _ _ _ ih | block leaves _ _ _ _ _ ih =>
    exact step leaves apart (by simp) fun _ apart => ih apart

end Flow

/-! ## Frames -/

theorem TagName.endTagName_closing (tag : TagName) : Tag.endTagName tag.closing = tag.text := by
  have inked : ∀ c ∈ tag.text, isBlank c = false := fun c member =>
    inked_of_isTagChar (tag.tagged c member)
  -- A name has no bracket in it, so only the closing one is cut off.
  have brackets : ((tag.text ++ ['>']).reverse.dropWhile (· = '>')).reverse = tag.text := by
    cases last : tag.text.reverse with
    | nil => simp [List.reverse_eq_nil_iff.1 last]
    | cons c more =>
      have member : c ∈ tag.text := List.mem_reverse.1 (by simp [last])
      have notBracket : c ≠ '>' := by
        rintro rfl
        exact absurd (tag.tagged _ member) (by decide)
      have whole : tag.text = (c :: more).reverse := by rw [← last, List.reverse_reverse]
      rw [whole]
      simp [notBracket]
  have noLead : trimLeft tag.text = tag.text := by
    cases found : tag.text with
    | nil => rfl
    | cons c more => simp [trimLeft, inked c (by simp [found])]
  have word : firstWord tag.text = tag.text := by
    have whole := @List.takeWhile_append_of_pos _ (!isBlank ·) tag.text []
      fun c member => by simp [inked c member]
    unfold firstWord
    simpa [noLead] using whole
  unfold Tag.endTagName TagName.closing
  simp only [List.cons_append, List.nil_append, List.drop_succ_cons, List.drop_zero]
  rw [brackets, word]

namespace Builder

/-- Adding nodes to an open frame. -/
theorem foldl_append_frame (nodes : List Node) {builder : Builder} {frame : Frame}
    {outer : List Frame} (top : builder.stack.frames = frame :: outer) :
    nodes.foldl append builder =
      { builder with
        stack := { builder.stack with
          frames := { frame with body := nodes.foldl Body.append frame.body } :: outer } } := by
  induction nodes generalizing builder frame with
  | nil =>
    obtain ⟨⟨frames, root⟩, diagnostics, events⟩ := builder
    simp only at top
    simp [top]
  | cons node rest ih =>
    rw [List.foldl_cons, @ih (builder.append node) { frame with body := frame.body.append node }]
    · simp [append, FrameStack.append, top]
    · simp [append, FrameStack.append, top]

/-- Adding nodes to the template itself. -/
theorem foldl_append_root (nodes : List Node) {builder : Builder}
    (bottom : builder.stack.frames = []) :
    nodes.foldl append builder =
      { builder with
        stack := { builder.stack with root := nodes.foldl Body.append builder.stack.root } } := by
  induction nodes generalizing builder with
  | nil => rfl
  | cons node rest ih =>
    rw [List.foldl_cons, ih]
    · simp [append, FrameStack.append, bottom]
    · simp [append, FrameStack.append, bottom]

/-- The innermost frame is a block that may have branches. -/
def InBranches (builder : Builder) : Prop :=
  ∃ frame outer, builder.stack.frames = frame :: outer ∧
    ∃ keyword : Keyword, keyword.branches = true ∧ frame.family? = some keyword.name.toList

theorem InBranches.append {builder : Builder} (inside : builder.InBranches) (nodes : List Node) :
    (nodes.foldl append builder).InBranches := by
  obtain ⟨frame, outer, top, keyword, branches, family⟩ := inside
  rw [foldl_append_frame nodes top]
  exact ⟨_, outer, rfl, keyword, branches, family⟩

/-- A directive whose role does not depend on its arguments. -/
theorem plays_settle {descriptor : Descriptor} {openFamily family : Option Chars}
    {pairing : Pairing} {directive : Directive} {name : Chars} {arguments : Option Chars}
    (raw : directive.Raw name arguments) (named : descriptor.name = name)
    (resolves : ∀ count, descriptor.resolve count openFamily = (pairing, family)) :
    (settle descriptor openFamily directive).Plays name arguments pairing
        descriptor.spacedArguments ∧
      (settle descriptor openFamily directive).family = family := by
  unfold settle
  simp only [resolves]
  exact ⟨⟨named, raw.written, raw.arguments, rfl, rfl, rfl, raw.inBlock⟩, trivial⟩

variable {registry : Registry}

/-- An opener opens a frame. -/
theorem add_opener (structural : registry.Structural) (builder : Builder) {keyword : Keyword}
    {directive : Directive} {arguments : Option Chars}
    (raw : directive.Raw keyword.name.toList arguments) :
    ∃ opener : Directive, opener.Plays keyword.name.toList arguments .opens
        (Descriptor.opener keyword.name).spacedArguments ∧
      builder.add registry (.directive directive) =
        { builder with
          stack := builder.stack.push
            (.mk (.block opener keyword.name.toList false) opener.location {}) } := by
  have known := structural.opener keyword
  rw [← raw.written] at known
  obtain ⟨plays, family⟩ := @plays_settle (.opener keyword.name) builder.stack.openFamily
    (some keyword.name.toList) .opens directive _ _ raw rfl (fun _ => rfl)
  refine ⟨_, plays, ?_⟩
  simp only [add, addDirective, known, plays.pairing, family]
  rfl

/-- A closer closes the frame of its block when it is on top. -/
theorem add_closer (structural : registry.Structural) (builder : Builder) {keyword : Keyword}
    {directive opener : Directive} (raw : directive.Raw keyword.endName.toList none)
    {start : Location} {body : Body} {outer : List Frame}
    (top : builder.stack.frames =
      ⟨.block opener keyword.name.toList false, start, body⟩ :: outer) :
    ∃ (closer : Directive) (location : Location),
      closer.Plays keyword.endName.toList none .closes false ∧
      builder.add registry (.directive directive) =
        append { builder with stack := { builder.stack with frames := outer } }
          (.block location opener keyword.name.toList body.children (some closer) false) := by
  have known := structural.closer keyword
  rw [← raw.written] at known
  obtain ⟨plays, family⟩ := @plays_settle (.closer keyword.endName keyword.name)
    builder.stack.openFamily (some keyword.name.toList) .closes directive _ _ raw rfl (fun _ => rfl)
  have found : builder.stack.findBlock keyword.name.toList = some 0 := by
    simp [FrameStack.findBlock, top, Frame.family?, List.findIdx?_cons]
  refine ⟨_, start.spanTo directive.location, plays, ?_⟩
  simp only [add, addDirective, known, plays.pairing, family, addCloser, found, abandonMany,
    closeBlock, FrameStack.pop?, top]
  rfl

/-- A middle in a block that may have branches is a node of its own. -/
theorem add_otherwise (structural : registry.Structural) {builder : Builder}
    (inside : builder.InBranches) {directive : Directive} (raw : directive.Raw "else".toList none) :
    ∃ middle : Directive, middle.Plays "else".toList none .middle false ∧
      builder.add registry (.directive directive) = builder.append (.directive middle) := by
  obtain ⟨frame, outer, top, keyword, branches, family⟩ := inside
  have known := structural.otherwise
  rw [← raw.written] at known
  have isBlock : frame.isBlock = true := by simp [Frame.isBlock, family]
  have openFamily : builder.stack.openFamily = some keyword.name.toList := by
    simp [FrameStack.openFamily, top, isBlock, family]
  have nearest : builder.stack.nearestBlock = some 0 := by
    simp [FrameStack.nearestBlock, top, isBlock, List.findIdx?_cons]
  have separates : keyword.name.toList ∈ Registry.conditionalFamilies.map String.toList := by
    cases keyword with
    | count | each | loop => cases branches
    | _ => decide
  obtain ⟨plays, settled⟩ := @plays_settle
    (Descriptor.separator "else" Registry.conditionalFamilies).bare builder.stack.openFamily
    (some keyword.name.toList) .middle directive _ _ raw rfl (by
      intro count
      rw [openFamily]
      simp [Descriptor.resolve, Descriptor.bare, Descriptor.separator, separates])
  refine ⟨_, plays, ?_⟩
  simp only [add, addDirective, known, plays.pairing, addMiddle, settled, nearest, abandonMany]

/-- A start tag opens a frame. -/
theorem add_startTag (builder : Builder) {tag : TagName} {markup : Markup} (bare : markup.Bare tag) :
    builder.add registry (.startTag .element markup) =
      { builder with
        stack := builder.stack.push (.mk (.element .element markup) markup.location {}) } := by
  simp [add, addStartTag, bare.selfClosing, bare.tag, tag.notVoid]

/-- An end tag closes the frame of its element when it is on top. -/
theorem add_endTag (builder : Builder) {tag : TagName} {markup : Markup} (bare : markup.Bare tag)
    {start location : Location} {body : Body} {outer : List Frame}
    (top : builder.stack.frames = ⟨.element .element markup, start, body⟩ :: outer) :
    ∃ ended : Markup, ended.Ended tag ∧ builder.add registry (.endTag location tag.closing) =
      append { builder with stack := { builder.stack with frames := outer } }
        (.element ended false body.children) := by
  have found : builder.stack.findElement tag.text = some 0 := by
    simp [FrameStack.findElement, top, FrameStack.findElementIn, Tag.closes, bare.tag]
  refine ⟨{ markup with location := start.spanTo location, endTag := some tag.text },
    ⟨⟨bare.tag, bare.attributes, bare.selfClosing, bare.closed⟩, rfl⟩, ?_⟩
  simp only [add, addEndTag, tag.endTagName_closing, found, abandonMany, closeElement,
    FrameStack.pop?, top]
  rfl

/-- The items of a text. -/
theorem exists_leaves {gap : Chars} {items : List Item} (texts : Flow.Texts gap items) :
    ∃ nodes, Flow.Leaves gap nodes ∧
      ∀ builder : Builder, items.foldl (add registry) builder = nodes.foldl append builder := by
  cases texts with
  | none => exact ⟨[], .none, fun _ => rfl⟩
  | @some _ location nonempty => exact ⟨[.text location gap], .some nonempty, fun _ => rfl⟩

/-- An element from its start tag to its end tag, given its content. -/
theorem foldl_element {tag : TagName} {markup : Markup} (bare : markup.Bare tag)
    {location : Location} {kids more : List Item} {children : List Node} {builder : Builder}
    (content : kids.foldl (add registry) (builder.add registry (.startTag .element markup)) =
      children.foldl append (builder.add registry (.startTag .element markup)))
    (flat : (children.foldl Body.append {}).children = children) :
    ∃ ended : Markup, ended.Ended tag ∧
      (.startTag .element markup :: (kids ++ .endTag location tag.closing :: more)).foldl
          (add registry) builder =
        more.foldl (add registry) (builder.append (.element ended false children)) := by
  rw [add_startTag builder bare, foldl_append_frame children rfl] at content
  obtain ⟨ended, isEnded, closed⟩ := @add_endTag registry _ tag markup bare _ location _ _
    (congrArg (·.stack.frames) content)
  refine ⟨ended, isEnded, ?_⟩
  rw [content] at closed
  rw [List.foldl_cons, List.foldl_append, List.foldl_cons, add_startTag builder bare, content,
    closed, flat]
  rfl

/-- A block from its opener to its closer, given its content. -/
theorem foldl_block (structural : registry.Structural) {keyword : Keyword}
    {directive last : Directive} {arguments : Option Chars}
    (raw : directive.Raw keyword.name.toList arguments)
    (rawLast : last.Raw keyword.endName.toList none) {kids more : List Item}
    {children : List Node} {builder : Builder}
    (content : kids.foldl (add registry) (builder.add registry (.directive directive)) =
      children.foldl append (builder.add registry (.directive directive)))
    (flat : (children.foldl Body.append {}).children = children) :
    ∃ (opener closer : Directive) (location : Location),
      opener.Plays keyword.name.toList arguments .opens
        (Descriptor.opener keyword.name).spacedArguments ∧
      closer.Plays keyword.endName.toList none .closes false ∧
      (.directive directive :: (kids ++ .directive last :: more)).foldl (add registry) builder =
        more.foldl (add registry) (builder.append
          (.block location opener keyword.name.toList children (some closer) false)) := by
  obtain ⟨opener, plays, opened⟩ := add_opener structural builder raw
  rw [opened, foldl_append_frame children rfl] at content
  obtain ⟨closer, location, playsLast, closed⟩ := add_closer structural _ rawLast
    (congrArg (·.stack.frames) content)
  refine ⟨opener, closer, location, plays, playsLast, ?_⟩
  rw [content] at closed
  rw [List.foldl_cons, List.foldl_append, List.foldl_cons, opened, content, closed, flat]
  rfl

/-- The items of a flow add its nodes to the innermost frame, and do nothing else. The frame of an
element or a block is opened and closed in between. -/
theorem exists_builds (structural : registry.Structural) {flow : Flow} {items : List Item}
    (itemized : flow.Itemized items) {branches : Bool} (branched : flow.branched branches = true)
    (builder : Builder) (inside : branches = true → builder.InBranches) :
    ∃ nodes, flow.Builds nodes ∧
      items.foldl (add registry) builder = nodes.foldl append builder := by
  -- A text, a construct that adds one node, and the rest.
  have assemble {before construct more : List Item} {first nodes : List Node} {node : Node}
      {builder : Builder}
      (added : ∀ builder : Builder, before.foldl (add registry) builder = first.foldl append builder)
      (one : construct.foldl (add registry) (first.foldl append builder) =
        more.foldl (add registry) ((first.foldl append builder).append node))
      (later : more.foldl (add registry) ((first.foldl append builder).append node) =
        nodes.foldl append ((first.foldl append builder).append node)) :
      (before ++ construct).foldl (add registry) builder =
        (first ++ node :: nodes).foldl append builder := by
    rw [List.foldl_append, added, one, later, List.foldl_append, List.foldl_cons]
  induction itemized generalizing branches builder with
  | plain texts =>
    obtain ⟨nodes, leaves, added⟩ := @exists_leaves registry _ _ texts
    exact ⟨nodes, .plain leaves, added builder⟩
  | @echo gap braced rest before more location texts _ ih =>
    obtain ⟨first, leaves, added⟩ := @exists_leaves registry _ _ texts
    obtain ⟨nodes, builds, later⟩ := ih branched
      ((first.foldl append builder).append (.echo ⟨location, braced.body, false⟩))
      (fun inBlock => ((inside inBlock).append first).append [_])
    exact ⟨first ++ .echo ⟨location, braced.body, false⟩ :: nodes, .echo leaves builds,
      assemble added rfl later⟩
  | element texts bare _ _ ihInside ih =>
    rw [Flow.branched, Bool.and_eq_true] at branched
    obtain ⟨first, leaves, added⟩ := @exists_leaves registry _ _ texts
    obtain ⟨children, buildsInside, content⟩ := ihInside branched.1 _ (by simp)
    obtain ⟨ended, isEnded, one⟩ := foldl_element bare content (buildsInside.children rfl)
    obtain ⟨nodes, builds, later⟩ := ih branched.2
      ((first.foldl append builder).append (.element ended false children))
      (fun inBlock => ((inside inBlock).append first).append [_])
    exact ⟨_, .element leaves isEnded buildsInside builds, assemble added one later⟩
  | @block gap opening within rest before kids more opener closer texts raw _ rawLast _ ihInside ih =>
    rw [Flow.branched, Bool.and_eq_true] at branched
    obtain ⟨first, leaves, added⟩ := @exists_leaves registry _ _ texts
    -- The frame of the opener is the one that middles in the content look for.
    have inBlock : opening.keyword.branches = true →
        ((first.foldl append builder).add registry (.directive opener)).InBranches := by
      intro branches
      obtain ⟨settled, _, opened⟩ := add_opener structural (first.foldl append builder) raw
      rw [opened]
      exact ⟨_, _, rfl, opening.keyword, branches, rfl⟩
    obtain ⟨children, buildsInside, content⟩ := ihInside branched.1 _ inBlock
    obtain ⟨opener, closer, location, plays, playsLast, one⟩ :=
      foldl_block structural raw rawLast content (buildsInside.children rfl)
    obtain ⟨nodes, builds, later⟩ := ih branched.2
      ((first.foldl append builder).append
        (.block location opener opening.keyword.name.toList children (some closer) false))
      (fun inBlock => ((inside inBlock).append first).append [_])
    exact ⟨_, .block leaves plays buildsInside playsLast builds, assemble added one later⟩
  | otherwise texts raw _ ih =>
    rw [Flow.branched, Bool.and_eq_true] at branched
    obtain ⟨first, leaves, added⟩ := @exists_leaves registry _ _ texts
    obtain ⟨middle, plays, one⟩ :=
      add_otherwise structural ((inside branched.1).append first) raw
    obtain ⟨nodes, builds, later⟩ := ih branched.2
      ((first.foldl append builder).append (.directive middle))
      (fun inBlock => ((inside inBlock).append first).append [_])
    refine ⟨_, .otherwise leaves plays builds, assemble added ?_ later⟩
    rw [List.foldl_cons, one]

end Builder

/-- A readable flow is parsed into its nodes, without a diagnostic. -/
theorem exists_parse {dialect : Dialect} (structural : dialect.registry.Structural)
    (file : Option String) {flow : Flow} (readable : flow.Readable true false)
    (branched : flow.branched false = true)
    (noFrontMatter : dialect.frontMatter = true →
      Lookahead.frontMatterLength flow.text = none) :
    ∃ document, (parse dialect file flow.text).outcome = .ok document ∧
      document.diagnostics = [] ∧ flow.Builds document.children := by
  obtain ⟨fault, quiet, itemized⟩ := itemized_scan structural readable noFrontMatter
    ⟨dialect.registry, file, flow.text⟩
  obtain ⟨nodes, builds, added⟩ := Builder.exists_builds structural itemized branched {} (by simp)
  rw [Builder.foldl_append_root nodes rfl] at added
  have built : Builder.build dialect.registry
      (Item.ofTokens ⟨dialect.registry, file, flow.text⟩ (scan dialect flow.text).tokens) =
      { stack := { root := nodes.foldl Body.append {} } } := by
    unfold Builder.build
    rw [added]
    rfl
  have children := builds.children (rfl : ({} : Body).endsInText = false)
  unfold parse
  simp only [fault, quiet, built]
  refine ⟨_, rfl, by simp [Diagnostic.sort], ?_⟩
  rw [children]
  exact builds

end BladeTemplate
