import BladeTemplate.Format
import BladeTemplate.Proofs.NormalForm
import BladeTemplate.Proofs.Relocation

/-!
# The file does not matter

Layout and fingerprints read the text of a tree, not its file. So what formatting a template comes
to is the same whatever file it is said to be from.

* `Page.isInline_inFile` and `Page.print_inFile` carry this through decisions and printing;
* `Node.marks_inFile` carries it through fingerprints;
* `format_inFile` is the statement for a whole run.
-/

namespace BladeTemplate

variable {file : Option String}

/-! ## Start tags -/

namespace Attribute

theorem order_inFile (entries : List Attribute) (sort : Bool) :
    order (entries.map (·.inFile file)) sort = (order entries sort).map (·.inFile file) :=
  order_map (f := Attribute.inFile file) (fun _ => rfl) (fun _ _ => rfl) entries sort

end Attribute

namespace Page

variable (page : Page)

@[simp]
theorem attributeText_inFile (entry : Attribute) :
    attributeText (entry.inFile file) = attributeText entry := by
  obtain ⟨location, name, value, kind, ambiguous, echo, comment⟩ := entry
  cases echo <;> rfl

theorem orderedAttributes_inFile (markup : Markup) :
    page.orderedAttributes (markup.inFile file) =
      (page.orderedAttributes markup).map (·.inFile file) :=
  Attribute.order_inFile markup.attributes page.config.sortAttributes

@[simp]
theorem startTagText_inFile (markup : Markup) :
    page.startTagText (markup.inFile file) = page.startTagText markup := by
  unfold startTagText
  rw [orderedAttributes_inFile, List.flatMap_map]
  simp only [attributeText_inFile]
  rfl

@[simp]
theorem wraps_inFile (markup : Markup) (level : Nat) :
    page.wraps (markup.inFile file) level = page.wraps markup level := by
  unfold wraps
  rw [startTagText_inFile, Markup.inFile, List.length_map]

/-! ## Decisions -/

@[simp]
theorem isHollow_inFile (slots children : List Node) :
    isHollow (slots.map (Node.inFile file)) (children.map (Node.inFile file)) =
      isHollow slots children := by
  have blank (node : Node) : (node.inFile file).isBlank = node.isBlank := by cases node <;> rfl
  simp [isHollow, List.all_map, Function.comp_def, blank]

@[simp]
theorem breaks_inFile (level : Nat) (markup : Markup) (slots children : List Node)
    (childrenInline : Bool) :
    page.breaks level (markup.inFile file) (slots.map (Node.inFile file))
        (children.map (Node.inFile file)) childrenInline =
      page.breaks level markup slots children childrenInline := by
  have structural (node : Node) : isStructural (node.inFile file) = isStructural node := by
    cases node <;> rfl
  have tag : (markup.inFile file).tag = markup.tag := rfl
  simp [breaks, List.any_map, Function.comp_def, structural, tag]

@[simp]
theorem markupInline_inFile (level : Nat) (markup : Markup) (rawBody : Bool)
    (slots children : List Node) (slotsInline childrenInline : Bool) :
    page.markupInline level (markup.inFile file) rawBody (slots.map (Node.inFile file))
        (children.map (Node.inFile file)) slotsInline childrenInline =
      page.markupInline level markup rawBody slots children slotsInline childrenInline := by
  simp only [markupInline, startTagText_inFile, wraps_inFile, isHollow_inFile, breaks_inFile]
  rfl

mutual

theorem isInline_inFile (level : Nat) :
    (node : Node) → page.isInline level (node.inFile file) = page.isInline level node
  | .text .. | .comment .. | .region .. | .endTag .. => by
    rw [Node.inFile, isInline, isInline]
  | .echo .. | .directive .. | .attr .. | .document .. => by
    rw [Node.inFile, isInline, isInline]
    rfl
  | .block _ _ _ children closer _ => by
    simp only [Node.inFile, isInline, Node.inFileAll_eq, allInline_inFile level children,
      Location.slice_inFile, Option.isNone_map]
  | .element _ _ children => by
    simp only [Node.inFile, isInline, Node.inFileAll_eq, allInline_inFile level children]
    exact page.markupInline_inFile level _ _ [] children _ _
  | .component _ slots children => by
    simp only [Node.inFile, isInline, Node.inFileAll_eq, allInline_inFile level slots,
      allInline_inFile level children, markupInline_inFile]
  | .slot _ _ children => by
    simp only [Node.inFile, isInline, Node.inFileAll_eq, allInline_inFile level children]
    exact page.markupInline_inFile level _ _ [] children _ _

theorem allInline_inFile (level : Nat) :
    (nodes : List Node) →
      page.allInline level (nodes.map (Node.inFile file)) = page.allInline level nodes
  | [] => rfl
  | node :: rest => by
    rw [List.map_cons, allInline, allInline, isInline_inFile level node,
      allInline_inFile level rest]

end

/-! ## Printing -/

end Page

/-- The piece with its node in another file; what prints it is the same. -/
def Piece.inFile (file : Option String) (piece : Piece) : Piece :=
  { piece with node := piece.node.inFile file }

namespace Page

variable (page : Page)

@[simp]
theorem middle?_inFile (node : Node) :
    (node.inFile file).middle? = node.middle?.map (·.inFile file) := by
  cases node with
  | directive found =>
    have separates : (found.inFile file).separates = found.separates := rfl
    simp only [Node.inFile, Node.middle?, separates]
    split <;> rfl
  | _ => rfl

@[simp]
theorem map_node_inFile (pieces : List Piece) :
    (pieces.map (Piece.inFile file)).map (·.node) =
      (pieces.map (·.node)).map (Node.inFile file) := by
  simp only [List.map_map]
  rfl

@[simp]
theorem printAll_inFile (pieces : List Piece) (out : Lines) :
    printAll (pieces.map (Piece.inFile file)) out = printAll pieces out :=
  List.foldl_map

@[simp]
theorem printBranches_inFile (pieces : List Piece) (out : Lines) :
    page.printBranches (pieces.map (Piece.inFile file)) out = page.printBranches pieces out := by
  unfold printBranches
  rw [List.foldl_map]
  refine congrArg (fun step => pieces.foldl step out) (funext₂ fun out piece => ?_)
  simp only [Piece.inFile, middle?_inFile]
  cases piece.node.middle? <;> rfl

@[simp]
theorem printLabels_inFile (inBranch : Bool) (pieces : List Piece) (out : Lines) :
    page.printLabels inBranch (pieces.map (Piece.inFile file)) out =
      page.printLabels inBranch pieces out := by
  induction pieces generalizing inBranch out with
  | nil => rfl
  | cons piece rest ih =>
    simp only [List.map_cons, printLabels, Piece.inFile, middle?_inFile]
    cases piece.node.middle? with
    | none => exact ih _ _
    | some middle => exact ih _ _

@[simp]
theorem printBlock_inFile (inline : Bool) (opener closer : Directive) (indentsMiddles : Bool)
    (pieces : List Piece) (out : Lines) :
    page.printBlock inline (opener.inFile file) (closer.inFile file) indentsMiddles
        (pieces.map (Piece.inFile file)) out =
      page.printBlock inline opener closer indentsMiddles pieces out := by
  simp only [printBlock, printAll_inFile, printBranches_inFile, printLabels_inFile]
  rfl

@[simp]
theorem printWrapped_inFile (markup : Markup) (closing : Chars) (out : Lines) :
    page.printWrapped (markup.inFile file) closing out = page.printWrapped markup closing out := by
  simp only [printWrapped, orderedAttributes_inFile, List.foldl_map, attributeText_inFile]
  rfl

@[simp]
theorem printStartTag_inFile (markup : Markup) (wrapped : Bool) (out : Lines) :
    page.printStartTag (markup.inFile file) wrapped out =
      page.printStartTag markup wrapped out := by
  simp only [printStartTag, printWrapped_inFile, startTagText_inFile]
  rfl

@[simp]
theorem bodyText_inFile (source : Chars) (children : List Node) :
    bodyText source (children.map (Node.inFile file)) = bodyText source children := by
  unfold bodyText
  rw [List.flatMap_map]
  refine congrArg (children.flatMap ·) (funext fun node => ?_)
  cases node <;> rfl

@[simp]
theorem printRawText_inFile (markup : Markup) (children : List Node) (out : Lines) :
    page.printRawText (markup.inFile file) (children.map (Node.inFile file)) out =
      page.printRawText markup children out := by
  simp only [printRawText, bodyText_inFile, wraps_inFile, printStartTag_inFile]
  rfl

theorem printContent_inFile (out : Lines) (piece : Piece) :
    printContent out (piece.inFile file) = printContent out piece := by
  obtain ⟨node, print⟩ := piece
  cases node <;> rfl

@[simp]
theorem printUnclosed_inFile (markup : Markup) (pieces : List Piece) (out : Lines) :
    page.printUnclosed (markup.inFile file) (pieces.map (Piece.inFile file)) out =
      page.printUnclosed markup pieces out := by
  have sorted := List.map_mergeSort
    (r := fun a b : Piece => decide (a.node.location.offset ≤ b.node.location.offset))
    (s := fun a b : Piece => decide (a.node.location.offset ≤ b.node.location.offset))
    (f := Piece.inFile file) (l := pieces) fun a _ b _ => by simp [Piece.inFile]
  unfold printUnclosed
  rw [← sorted, printAll_inFile, startTagText_inFile]

@[simp]
theorem printClosed_inFile (markup : Markup) (void : Bool) (slots children : List Piece)
    (childrenInline : Bool) (out : Lines) :
    page.printClosed (markup.inFile file) void (slots.map (Piece.inFile file))
        (children.map (Piece.inFile file)) childrenInline out =
      page.printClosed markup void slots children childrenInline out := by
  have content (out : Lines) : (slots.map (Piece.inFile file) ++
      children.map (Piece.inFile file)).foldl printContent out =
        (slots ++ children).foldl printContent out := by
    rw [← List.map_append, List.foldl_map]
    simp only [printContent_inFile]
  simp only [printClosed, map_node_inFile, isHollow_inFile, breaks_inFile, wraps_inFile,
    printWrapped_inFile, printStartTag_inFile, startTagText_inFile, printAll_inFile, content]
  rfl

@[simp]
theorem printMarkup_inFile (markup : Markup) (void : Bool) (slots children : List Piece)
    (out : Lines) :
    page.printMarkup (markup.inFile file) void (slots.map (Piece.inFile file))
        (children.map (Piece.inFile file)) out =
      page.printMarkup markup void slots children out := by
  simp only [printMarkup, ← List.map_append, printUnclosed_inFile, printClosed_inFile,
    map_node_inFile, allInline_inFile]
  rfl

mutual

theorem print_inFile : (node : Node) → page.print (node.inFile file) = page.print node
  | .text .. | .comment .. | .region .. | .endTag .. => by
    rw [Node.inFile, print, print]
  | .echo .. | .directive .. | .attr .. | .document .. => by
    rw [Node.inFile, print, print]
    rfl
  | .block location opener family children closer indentsMiddles => by
    have inline (level : Nat) := @isInline_inFile file page level
      (.block location opener family children closer indentsMiddles)
    funext out
    simp only [Node.inFile, Node.inFileAll_eq] at inline ⊢
    simp only [print, pieces_inFile children, inline]
    cases closer with
    | none => rfl
    | some last => exact page.printBlock_inFile _ opener last indentsMiddles _ out
  | .element markup void children => by
    have closed : (markup.inFile file).closed = markup.closed := rfl
    have tag : (markup.inFile file).tag = markup.tag := rfl
    funext out
    simp only [Node.inFile, Node.inFileAll_eq, print, pieces_inFile children,
      printRawText_inFile, closed, tag]
    split
    · rfl
    · exact page.printMarkup_inFile markup void [] _ out
  | .component _ slots children => by
    funext out
    simp only [Node.inFile, Node.inFileAll_eq, print, pieces_inFile slots,
      pieces_inFile children, printMarkup_inFile]
  | .slot _ markup children => by
    funext out
    simp only [Node.inFile, Node.inFileAll_eq, print, pieces_inFile children]
    exact page.printMarkup_inFile markup false [] _ out

theorem pieces_inFile : (nodes : List Node) →
    page.pieces (nodes.map (Node.inFile file)) = (page.pieces nodes).map (Piece.inFile file)
  | [] => rfl
  | node :: rest => by
    rw [List.map_cons, pieces, pieces, print_inFile node, pieces_inFile rest]
    rfl

end

end Page

/-- A tree prints the same in another file. -/
theorem render_inFile (config : Config) (document : Document) :
    render config (document.inFile file) = render config document := by
  unfold render
  simp only [Document.inFile, Page.pieces_inFile, Page.printAll_inFile]

/-! ## Fingerprints -/

theorem Mark.ofEntries_inFile (sort : Bool) (markup : Markup) :
    ofEntries sort (markup.inFile file) = ofEntries sort markup := by
  have entry (entry : Attribute) : ofEntry (entry.inFile file) = ofEntry entry := by
    obtain ⟨location, name, value, kind, ambiguous, echo, comment⟩ := entry
    cases echo <;> rfl
  simp only [ofEntries, Markup.inFile, Attribute.order_inFile, List.map_map, Function.comp_def,
    entry]

namespace Node

mutual

theorem marks_inFile (sort : Bool) :
    (node : Node) → (node.inFile file).marks sort = node.marks sort
  | .text .. | .comment .. | .region .. | .endTag .. | .attr .. => by
    rw [inFile, marks, marks]
  | .echo .. | .directive .. => by
    rw [inFile, marks, marks]
    rfl
  | .block _ _ _ children closer _ => by
    simp only [inFile, marks, inFileAll_eq, marksAll_inFile sort children, Option.map_map,
      Option.isSome_map]
    rfl
  | .element markup _ children => by
    simp only [inFile, marks, inFileAll_eq, marksAll_inFile sort children,
      Mark.ofEntries_inFile sort markup]
    rfl
  | .component markup slots children => by
    simp only [inFile, marks, inFileAll_eq, marksAll_inFile sort slots,
      marksAll_inFile sort children, Mark.ofEntries_inFile sort markup]
    rfl
  | .slot _ markup children => by
    simp only [inFile, marks, inFileAll_eq, marksAll_inFile sort children,
      Mark.ofEntries_inFile sort markup]
    rfl
  | .document _ children _ _ => by
    simp only [inFile, marks, inFileAll_eq, marksAll_inFile sort children]

theorem marksAll_inFile (sort : Bool) :
    (nodes : List Node) → marksAll sort (nodes.map (inFile file)) = marksAll sort nodes
  | [] => rfl
  | node :: rest => by
    rw [List.map_cons, marksAll, marksAll, marks_inFile sort node, marksAll_inFile sort rest]

end

end Node

theorem Document.fingerprints_inFile (document : Document) (sort : Bool) :
    (document.inFile file).fingerprints sort = document.fingerprints sort := by
  have blank (node : Node) : (node.inFile file).isBlank = node.isBlank := by cases node <;> rfl
  simp only [fingerprints, Document.inFile, List.filter_map, List.map_map, Function.comp_def,
    blank, Node.location_inFile, Location.inFile_line, Node.fingerprint, Node.marks_inFile]

/-! ## Runs -/

/-- A result that is said to be from another file gets the same verdict, as does the tree it is
compared with. -/
theorem Stability.verdict_inFile (ambient config : Config) (document : Document)
    (origin : Option String) (formatted : Chars) :
    (check ambient config (document.inFile file) file formatted).verdict =
      (check ambient config document origin formatted).verdict := by
  unfold check
  simp only [@parse_inFile file (ambient.recheckDialect config) origin,
    Document.fingerprints_inFile]
  cases (parse (ambient.recheckDialect config) origin formatted).outcome with
  | error error => rfl
  | ok again =>
    simp only [Except.map, Except.mapError, Document.fingerprints_inFile, render_inFile]
    cases compare 1 (document.fingerprints config.sortAttributes)
        (again.fingerprints config.sortAttributes) with
    | error violation => rfl
    | ok same =>
      simp only
      split <;> rfl

/-- What formatting a template comes to is the same for every file. -/
theorem format_inFile (config : Config) (origin : Option String) (source : Chars) :
    format config file source = format config origin source := by
  unfold format Format.run
  simp only [@parse_inFile file config.dialect origin source]
  cases (parse config.dialect origin source).outcome with
  | error error => rfl
  | ok document =>
    have verdict := @Stability.verdict_inFile file config config document origin
      (render config document)
    simp only [Except.map, Except.mapError, render_inFile] at verdict ⊢
    split
    · rw [verdict]
      split <;> rfl
    · rfl

end BladeTemplate
