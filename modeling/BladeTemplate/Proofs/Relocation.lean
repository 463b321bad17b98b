import BladeTemplate.Proofs.Counted

/-!
# Trees of the same text in another file

The file of a template is written into every location and read nowhere while the tree is built.

* `Location.inFile` and its relatives put a construct into another file;
* `Item.ofTokens_inFile` and `Builder.build_inFile` say that putting together and matching items
  commute with that, one lemma per definition, by the recursion of the definition;
* `parse_inFile` is the result: in another file a template has the same tree there, and the same
  fault.
-/

namespace BladeTemplate

variable (file : Option String)

/-! ## Constructs in another file -/

/-- The location in another file. -/
def Location.inFile (location : Location) : Location :=
  { location with file }

namespace Location

variable {file} (location : Location)

@[simp]
theorem inFile_line : (location.inFile file).line = location.line := rfl

@[simp]
theorem inFile_column : (location.inFile file).column = location.column := rfl

@[simp]
theorem inFile_offset : (location.inFile file).offset = location.offset := rfl

@[simp]
theorem slice_inFile (source : Chars) :
    (location.inFile file).slice source = location.slice source := rfl

@[simp]
theorem spanTo_inFile (last : Location) :
    (location.inFile file).spanTo (last.inFile file) = (location.spanTo last).inFile file := rfl

end Location

def Echo.inFile (echo : Echo) : Echo :=
  { echo with location := echo.location.inFile file }

def Directive.inFile (directive : Directive) : Directive :=
  { directive with location := directive.location.inFile file }

namespace Directive

variable {file} (directive : Directive)

@[simp]
theorem inFile_writtenName : (directive.inFile file).writtenName = directive.writtenName := rfl

@[simp]
theorem inFile_pairing : (directive.inFile file).pairing = directive.pairing := rfl

@[simp]
theorem inFile_family : (directive.inFile file).family = directive.family := rfl

end Directive

def Attribute.inFile (entry : Attribute) : Attribute :=
  { entry with location := entry.location.inFile file, echo := entry.echo.map (·.inFile file) }

def Markup.inFile (markup : Markup) : Markup :=
  { markup with
    location := markup.location.inFile file
    attributes := markup.attributes.map (·.inFile file) }

namespace Node

mutual

/-- The node in another file, with everything below it. -/
def inFile : Node → Node
  | .text location content => .text (location.inFile file) content
  | .echo found => .echo (found.inFile file)
  | .comment location content => .comment (location.inFile file) content
  | .region location kind content => .region (location.inFile file) kind content
  | .directive found => .directive (found.inFile file)
  | .block location opener family children closer indentsMiddles =>
    .block (location.inFile file) (opener.inFile file) family (inFileAll children)
      (closer.map (·.inFile file)) indentsMiddles
  | .element markup void children => .element (markup.inFile file) void (inFileAll children)
  | .component markup slots children =>
    .component (markup.inFile file) (inFileAll slots) (inFileAll children)
  | .slot name markup children => .slot name (markup.inFile file) (inFileAll children)
  | .endTag location tag content => .endTag (location.inFile file) tag content
  | .attr entry => .attr (entry.inFile file)
  | .document location children diagnostics source =>
    .document (location.inFile file) (inFileAll children) diagnostics source

def inFileAll : List Node → List Node
  | [] => []
  | node :: rest => node.inFile :: inFileAll rest

end

variable {file}

theorem inFileAll_eq (nodes : List Node) : inFileAll file nodes = nodes.map (inFile file) := by
  induction nodes with
  | nil => rfl
  | cons node rest ih => rw [inFileAll, ih, List.map_cons]

@[simp]
theorem location_inFile (node : Node) :
    (node.inFile file).location = node.location.inFile file := by
  cases node <;> rfl

@[simp]
theorem isSlotChild_inFile (node : Node) :
    Builder.isSlotChild (node.inFile file) = Builder.isSlotChild node := by
  cases node <;> rfl

end Node

def Document.inFile (document : Document) : Document :=
  { document with
    location := document.location.inFile file
    children := document.children.map (Node.inFile file) }

def LexError.inFile (error : LexError) : LexError :=
  { error with file }

/-! ## Items -/

namespace Item

def inFile : Item → Item
  | .text location content => .text (location.inFile file) content
  | .echo found => .echo (found.inFile file)
  | .comment location content => .comment (location.inFile file) content
  | .region location kind content => .region (location.inFile file) kind content
  | .directive found => .directive (found.inFile file)
  | .startTag kind markup => .startTag kind (markup.inFile file)
  | .endTag location content => .endTag (location.inFile file) content

variable {file} (origin : Origin)

theorem readEcho_inFile (style : EchoStyle) (opening : Token) (rest : List Token) :
    readEcho { origin with file } style opening rest =
      ((readEcho origin style opening rest).1.inFile file,
        (readEcho origin style opening rest).2) := by
  unfold readEcho
  split <;> rfl

theorem readComment_inFile (opening : Token) (rest : List Token) :
    readComment { origin with file } opening rest =
      ((readComment origin opening rest).1.inFile file,
        (readComment origin opening rest).2) := by
  unfold readComment
  split <;> rfl

theorem readDirective_inFile (name : Token) (rest : List Token) :
    readDirective { origin with file } name rest =
      ((readDirective origin name rest).1.inFile file, (readDirective origin name rest).2) := by
  unfold readDirective
  split <;> rfl

theorem readEntries_inFile (tokens : List Token) :
    readEntries { origin with file } tokens =
      ((readEntries origin tokens).1.map (·.inFile file), (readEntries origin tokens).2) := by
  fun_induction readEntries origin tokens with
  | case1 => rw [readEntries]; rfl
  | case2 token rest kind => rw [readEntries, kind]; rfl
  | case3 token rest kind isName value used later ih =>
    rw [readEntries]
    simp only [isName]
    rw [ih]
    rfl
  | case4 token rest style isEcho read later ih =>
    rw [readEntries]
    simp only [isEcho]
    rw [readEcho_inFile, ih]
    rfl
  | case5 token rest isComment read later ih =>
    rw [readEntries]
    simp only [isComment]
    rw [readComment_inFile, ih]
    rfl
  | case6 token rest other =>
    rw [readEntries]
    simp_all

theorem readStartTag_inFile (opening : Token) (rest : List Token) :
    readStartTag { origin with file } opening rest =
      ((readStartTag origin opening rest).1.inFile file,
        (readStartTag origin opening rest).2) := by
  unfold readStartTag
  rw [readEntries_inFile]
  rfl

/-- Tokens are put together to the same items, which stand in the other file. -/
theorem ofTokens_inFile (tokens : List Token) :
    ofTokens { origin with file } tokens = (ofTokens origin tokens).map (inFile file) := by
  fun_induction ofTokens origin tokens with
  | case1 => rw [ofTokens]; rfl
  | case2 token rest kind => rw [ofTokens, kind]; rfl
  | case3 token rest kind read ih =>
    rw [ofTokens]
    simp only [kind]
    rw [readDirective_inFile, ih]
    rfl
  | case4 token rest style kind read ih =>
    rw [ofTokens]
    simp only [kind]
    rw [readEcho_inFile, ih]
    rfl
  | case5 token rest kind read ih =>
    rw [ofTokens]
    simp only [kind]
    rw [readComment_inFile, ih]
    rfl
  | case6 token rest tagKind kind read ih =>
    rw [ofTokens]
    simp only [kind]
    rw [readStartTag_inFile, ih]
    rfl
  | case7 token rest tag kind ih =>
    rw [ofTokens]
    simp only [kind]
    rw [ih]
    rfl
  | case8 token rest kind _ _ _ _ _ _ held ih =>
    rw [ofTokens]
    split <;> simp_all [inFile, Token.location, Location.inFile, Location.between]
  | case9 token rest _ _ _ _ _ _ none ih =>
    rw [ofTokens]
    split <;> simp_all [inFile, Token.location, Location.inFile, Location.between]

end Item

/-! ## Trees under construction -/

/-- The children of a frame in another file. -/
def Body.inFile (body : Body) : Body :=
  ⟨body.nodes.map (Node.inFile file), body.last.map (·.inFile file)⟩

/-- What an open frame will become, in another file. -/
def Opened.inFile : Opened → Opened
  | .block opener family indentsMiddles => .block (opener.inFile file) family indentsMiddles
  | .element kind markup => .element kind (markup.inFile file)

def Frame.inFile (frame : Frame) : Frame :=
  ⟨frame.opened.inFile file, frame.start.inFile file, frame.body.inFile file⟩

def FrameStack.inFile (stack : FrameStack) : FrameStack :=
  ⟨stack.frames.map (Frame.inFile file), stack.root.inFile file⟩

/-- The tree under construction in another file. -/
def Builder.inFile (builder : Builder) : Builder :=
  { builder with stack := builder.stack.inFile file }

variable {file}

namespace Body

theorem append_inFile (body : Body) (node : Node) :
    (body.inFile file).append (node.inFile file) = (body.append node).inFile file := by
  obtain ⟨nodes, last⟩ := body
  cases node with
  | text =>
    cases nodes with
    | nil => rfl
    | cons head older => cases head <;> rfl
  | _ => rfl

theorem children_inFile (body : Body) :
    (body.inFile file).children = body.children.map (Node.inFile file) :=
  List.map_reverse.symm

end Body

namespace Frame

@[simp]
theorem family?_inFile (frame : Frame) : (frame.inFile file).family? = frame.family? := by
  obtain ⟨opened, start, body⟩ := frame
  cases opened <;> rfl

@[simp]
theorem isBlock_inFile (frame : Frame) : (frame.inFile file).isBlock = frame.isBlock := by
  rw [isBlock, family?_inFile, isBlock]

theorem span_inFile (frame : Frame) : (frame.inFile file).span = frame.span.inFile file := by
  obtain ⟨opened, start, nodes, last⟩ := frame
  cases last <;> rfl

end Frame

namespace FrameStack

variable (stack : FrameStack)

theorem append_inFile (node : Node) :
    (stack.inFile file).append (node.inFile file) = (stack.append node).inFile file := by
  obtain ⟨frames, root⟩ := stack
  cases frames with
  | nil => simp only [append, inFile, List.map_nil, Body.append_inFile]
  | cons frame outer =>
    simp only [append, inFile, List.map_cons, Frame.inFile, Body.append_inFile]

theorem pop?_inFile :
    (stack.inFile file).pop? =
      stack.pop?.map fun (frame, outer) => (frame.inFile file, outer.inFile file) := by
  obtain ⟨frames, root⟩ := stack
  cases frames <;> rfl

@[simp]
theorem nearestBlock_inFile : (stack.inFile file).nearestBlock = stack.nearestBlock := by
  unfold nearestBlock inFile
  rw [List.findIdx?_map]
  exact congrArg (List.findIdx? · _) (funext Frame.isBlock_inFile)

@[simp]
theorem openFamily_inFile : (stack.inFile file).openFamily = stack.openFamily := by
  unfold openFamily inFile
  rw [List.find?_map, Option.bind_map]
  have same : Frame.isBlock ∘ Frame.inFile file = Frame.isBlock := funext Frame.isBlock_inFile
  have family : Frame.family? ∘ Frame.inFile file = Frame.family? := funext Frame.family?_inFile
  rw [same, family]

@[simp]
theorem findBlock_inFile (family : Chars) :
    (stack.inFile file).findBlock family = stack.findBlock family := by
  unfold findBlock inFile
  rw [List.findIdx?_map]
  refine congrArg (List.findIdx? · _) (funext fun frame => ?_)
  simp

theorem findElementIn_inFile (name : Chars) (frames : List Frame) :
    findElementIn name (frames.map (Frame.inFile file)) = findElementIn name frames := by
  induction frames with
  | nil => rfl
  | cons frame outer ih =>
    obtain ⟨opened, start, body⟩ := frame
    cases opened with
    | block => rfl
    | element kind markup =>
      rw [List.map_cons, findElementIn, ih]
      rfl

@[simp]
theorem findElement_inFile (name : Chars) :
    (stack.inFile file).findElement name = stack.findElement name :=
  findElementIn_inFile name stack.frames

end FrameStack

namespace Builder

variable (builder : Builder)

theorem inFile_stack : (builder.inFile file).stack = builder.stack.inFile file := rfl

theorem append_inFile (node : Node) :
    (builder.inFile file).append (node.inFile file) = (builder.append node).inFile file := by
  simp only [append, inFile, FrameStack.append_inFile]

theorem slotName_inFile (tag : Chars) (attributes : List Attribute) :
    slotName tag (attributes.map (·.inFile file)) = slotName tag attributes := by
  unfold slotName
  rw [List.find?_map]
  split
  · rfl
  · simp only [Option.bind_map]
    rfl

theorem markupNode_inFile (kind : TagKind) (markup : Markup) (void : Bool) (children : List Node) :
    markupNode kind (markup.inFile file) void (children.map (Node.inFile file)) =
      (markupNode kind markup void children).inFile file := by
  have filtered (keep : Node → Bool) (same : ∀ node, keep (node.inFile file) = keep node) :
      (children.map (Node.inFile file)).filter keep =
        (children.filter keep).map (Node.inFile file) := by
    rw [List.filter_map]
    exact congrArg (fun keep => (children.filter keep).map _) (funext same)
  cases kind with
  | element => rw [markupNode, markupNode, Node.inFile, Node.inFileAll_eq]
  | slot =>
    rw [markupNode, markupNode, Node.inFile, Node.inFileAll_eq]
    exact congrArg (Node.slot · _ _) (slotName_inFile _ _)
  | component =>
    rw [markupNode, markupNode, Node.inFile, Node.inFileAll_eq, Node.inFileAll_eq,
      filtered _ Node.isSlotChild_inFile, filtered _ (by simp)]

theorem blockNode_inFile (frame : Frame) (opener : Directive) (family : Chars)
    (indentsMiddles : Bool) (closer : Option Directive) :
    blockNode (frame.inFile file) (opener.inFile file) family indentsMiddles
        (closer.map (·.inFile file)) =
      (blockNode frame opener family indentsMiddles closer).inFile file := by
  obtain ⟨opened, start, nodes, last⟩ := frame
  simp only [blockNode, Node.inFile, Node.inFileAll_eq, ← Body.children_inFile]
  cases closer <;> cases last <;> rfl

theorem abandon_inFile (cause : Option Directive) :
    (builder.inFile file).abandon (cause.map (·.inFile file)) =
      (builder.abandon cause).inFile file := by
  unfold abandon
  rw [inFile_stack, FrameStack.pop?_inFile]
  cases builder.stack.pop? with
  | none => rfl
  | some pair =>
    obtain ⟨⟨opened, start, body⟩, outer⟩ := pair
    cases opened with
    | block opener family indentsMiddles =>
      have node := @blockNode_inFile file ⟨.block opener family indentsMiddles, start, body⟩ opener
        family indentsMiddles none
      simp only [Option.map_some, Frame.inFile, Opened.inFile, Option.map_none] at node ⊢
      rw [node, ← append_inFile]
      cases cause <;> rfl
    | element kind markup =>
      have node := @markupNode_inFile file kind
        { markup with location := Frame.span ⟨.element kind markup, start, body⟩, closed := false }
        false body.children
      have span := @Frame.span_inFile file ⟨.element kind markup, start, body⟩
      simp only [Option.map_some, Frame.inFile, Opened.inFile] at node span ⊢
      rw [← append_inFile, ← node, Body.children_inFile, span]
      rfl

theorem abandonMany_inFile (cause : Option Directive) (count : Nat) :
    (builder.inFile file).abandonMany (cause.map (·.inFile file)) count =
      (builder.abandonMany cause count).inFile file := by
  induction count generalizing builder with
  | zero => rfl
  | succ count ih => rw [abandonMany, abandon_inFile, ih, abandonMany]

theorem addStartTag_inFile (kind : TagKind) (markup : Markup) :
    (builder.inFile file).addStartTag kind (markup.inFile file) =
      (builder.addStartTag kind markup).inFile file := by
  rw [addStartTag, addStartTag, apply_ite (Builder.inFile file), ← append_inFile,
    ← markupNode_inFile]
  rfl

theorem closeElement_inFile (location : Location) (name : Chars) :
    (builder.inFile file).closeElement (location.inFile file) name =
      (builder.closeElement location name).inFile file := by
  unfold closeElement
  rw [inFile_stack, FrameStack.pop?_inFile]
  cases builder.stack.pop? with
  | none => rfl
  | some pair =>
    obtain ⟨⟨opened, start, body⟩, outer⟩ := pair
    cases opened with
    | block => rfl
    | element kind markup =>
      simp only [Option.map_some, Frame.inFile, Opened.inFile, Body.children_inFile]
      rw [← append_inFile, ← markupNode_inFile]
      rfl

theorem addEndTag_inFile (location : Location) (content : Chars) :
    (builder.inFile file).addEndTag (location.inFile file) content =
      (builder.addEndTag location content).inFile file := by
  have element := @FrameStack.findElement_inFile file builder.stack (Tag.endTagName content)
  unfold addEndTag
  cases found : builder.stack.findElement (Tag.endTagName content) with
  | none =>
    simp only [inFile_stack, element, found]
    rw [← append_inFile]
    rfl
  | some above =>
    have given := @abandonMany_inFile file builder none above
    rw [Option.map_none] at given
    simp only [inFile_stack, element, found, given, closeElement_inFile]

theorem addOrphan_inFile (directive : Directive) (complaint : String) :
    (builder.inFile file).addOrphan (directive.inFile file) complaint =
      (builder.addOrphan directive complaint).inFile file := by
  rw [addOrphan, addOrphan, ← append_inFile]
  rfl

theorem addMiddle_inFile (directive : Directive) :
    (builder.inFile file).addMiddle (directive.inFile file) =
      (builder.addMiddle directive).inFile file := by
  have nearest := @FrameStack.nearestBlock_inFile file builder.stack
  unfold addMiddle
  rw [inFile_stack, nearest, Directive.inFile_family]
  cases directive.family with
  | none => exact addOrphan_inFile _ _ _
  | some family =>
    cases builder.stack.nearestBlock with
    | none => exact addOrphan_inFile _ _ _
    | some above =>
      have given := @abandonMany_inFile file builder (some directive) above
      rw [← append_inFile, ← given]
      rfl

theorem closeBlock_inFile (closer : Directive) :
    (builder.inFile file).closeBlock (closer.inFile file) =
      (builder.closeBlock closer).inFile file := by
  unfold closeBlock
  rw [inFile_stack, FrameStack.pop?_inFile]
  cases builder.stack.pop? with
  | none => rfl
  | some pair =>
    obtain ⟨⟨opened, start, body⟩, outer⟩ := pair
    cases opened with
    | element => rfl
    | block opener family indentsMiddles =>
      have node := @blockNode_inFile file ⟨.block opener family indentsMiddles, start, body⟩ opener
        family indentsMiddles (some closer)
      simp only [Option.map_some, Frame.inFile, Opened.inFile] at node ⊢
      rw [← append_inFile, ← node]
      rfl

theorem addCloser_inFile (directive : Directive) (family : Chars) :
    (builder.inFile file).addCloser (directive.inFile file) family =
      (builder.addCloser directive family).inFile file := by
  have block := @FrameStack.findBlock_inFile file builder.stack family
  unfold addCloser
  cases found : builder.stack.findBlock family with
  | none =>
    simp only [inFile_stack, block, found]
    exact addOrphan_inFile _ _ _
  | some above =>
    have given := @abandonMany_inFile file builder (some directive) above
    rw [Option.map_some] at given
    simp only [inFile_stack, block, found, given, closeBlock_inFile]

theorem addDirective_inFile (registry : Registry) (directive : Directive) :
    (builder.inFile file).addDirective registry (directive.inFile file) =
      (builder.addDirective registry directive).inFile file := by
  have openFamily := @FrameStack.openFamily_inFile file builder.stack
  unfold addDirective
  rw [inFile_stack, openFamily, Directive.inFile_writtenName]
  cases registry.lookup directive.writtenName with
  | none => exact append_inFile builder (.directive directive)
  | some descriptor =>
    have settled : settle descriptor builder.stack.openFamily (directive.inFile file) =
        (settle descriptor builder.stack.openFamily directive).inFile file := rfl
    simp only [settled]
    generalize settle descriptor builder.stack.openFamily directive = role
    rw [Directive.inFile_pairing, Directive.inFile_family]
    cases role.pairing with
    | standalone => exact append_inFile builder (.directive role)
    | middle => exact addMiddle_inFile builder role
    | opens =>
      cases role.family with
      | none => exact append_inFile builder (.directive role)
      | some family => rfl
    | closes =>
      cases role.family with
      | none => exact append_inFile builder (.directive role)
      | some family => exact addCloser_inFile builder role family

theorem add_inFile (registry : Registry) (item : Item) :
    add registry (builder.inFile file) (item.inFile file) =
      (add registry builder item).inFile file := by
  cases item with
  | text location content => exact append_inFile builder (.text location content)
  | echo found => exact append_inFile builder (.echo found)
  | comment location content => exact append_inFile builder (.comment location content)
  | region location kind content => exact append_inFile builder (.region location kind content)
  | directive found => exact addDirective_inFile builder registry found
  | startTag kind markup => exact addStartTag_inFile builder kind markup
  | endTag location content => exact addEndTag_inFile builder location content

theorem foldl_add_inFile (registry : Registry) (items : List Item) :
    (items.map (Item.inFile file)).foldl (add registry) (builder.inFile file) =
      (items.foldl (add registry) builder).inFile file := by
  induction items generalizing builder with
  | nil => rfl
  | cons item rest ih => rw [List.map_cons, List.foldl_cons, add_inFile, ih, List.foldl_cons]

/-- Items are matched to the same tree, which stands in the other file. -/
theorem build_inFile (registry : Registry) (items : List Item) :
    build registry (items.map (Item.inFile file)) = (build registry items).inFile file := by
  have built := @foldl_add_inFile file {} registry items
  have finished := @abandonMany_inFile file (items.foldl (add registry) {}) none
    (items.foldl (add registry) {}).stack.frames.length
  rw [show inFile file {} = {} from rfl] at built
  rw [build, finish, built, inFile_stack, FrameStack.inFile, List.length_map]
  exact finished

end Builder

/-- In another file a template has the same tree there, or the same fault. -/
theorem parse_inFile (dialect : Dialect) (origin : Option String) (source : Chars) :
    (parse dialect file source).outcome =
      ((parse dialect origin source).outcome.map (·.inFile file)).mapError (·.inFile file) := by
  have items := @Item.ofTokens_inFile file ⟨dialect.registry, origin, source⟩
    (scan dialect source).tokens
  unfold parse
  cases fault : (scan dialect source).fault with
  | some fault =>
    simp only [fault]
    rfl
  | none =>
    simp only [fault, items, Builder.build_inFile, Builder.inFile_stack, FrameStack.inFile,
      Body.children_inFile]
    rfl

end BladeTemplate
