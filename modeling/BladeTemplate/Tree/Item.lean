import BladeTemplate.Node
import BladeTemplate.Token

/-!
# Items

Before blocks and elements are matched, the tokens of each construct are put together into one
item: a directive with its arguments, an echo, a comment, a start tag with all its entries.
-/

namespace BladeTemplate

/-- A construct whose tokens have been put together. The role of a directive is not settled yet. -/
inductive Item where
  | text (location : Location) (content : Chars)
  | echo (echo : Echo)
  | comment (location : Location) (content : Chars)
  | region (location : Location) (kind : RegionKind) (content : Chars)
  | directive (directive : Directive)
  | startTag (kind : TagKind) (markup : Markup)
  | endTag (location : Location) (content : Chars)

/-- What items are put together from besides tokens. -/
structure Origin where
  registry : Registry
  file : Option String
  source : Chars

namespace Item

/-- The first token, if it is of the given kind. -/
def nextIs (kind : TokenKind) : List Token → Option Token
  | [] => none
  | token :: _ => if token.kind = kind then some token else none

/-- The span from the start of one token to the end of another. -/
def span (origin : Origin) (first last : Token) : Location :=
  (first.location origin.file).spanTo (last.location origin.file)

/-- The echo whose opening token is given, and how many of the tokens after it belong to it. -/
def readEcho (origin : Origin) (style : EchoStyle) (opening : Token) (rest : List Token) :
    Echo × Nat :=
  match nextIs (.echoContent style) rest, nextIs (.echoClose style) (rest.drop 1) with
  | some content, some closing =>
    (⟨span origin opening closing, content.value, style = .raw⟩, 2)
  | _, _ => (⟨span origin opening opening, [], style = .raw⟩, 0)

/-- The span of the comment whose opening token is given, and how many of the tokens after it
belong to it. -/
def readComment (origin : Origin) (opening : Token) (rest : List Token) : Location × Nat :=
  match nextIs .commentContent rest, nextIs .commentClose (rest.drop 1) with
  | some _, some closing => (span origin opening closing, 2)
  | _, _ => (span origin opening opening, 0)

/-- The argument list at the front of the tokens: its text, its last token, and how many tokens it
takes. -/
def readArguments (rest : List Token) : Option (Chars × Token × Nat) :=
  match nextIs .argumentsOpen rest with
  | none => none
  | some _ =>
    match nextIs .arguments (rest.drop 1) with
    | some inside => (nextIs .argumentsClose (rest.drop 2)).map (inside.value, ·, 3)
    | none => (nextIs .argumentsClose (rest.drop 1)).map ([], ·, 2)

/-- The directive whose name token is given, and how many of the tokens after it belong to it. -/
def readDirective (origin : Origin) (name : Token) (rest : List Token) : Directive × Nat :=
  let written := name.value.drop 1
  match readArguments rest with
  | some (inside, last, count) =>
    let location := span origin name last
    ({ location, name := written, writtenName := written, arguments := some inside,
       source := location.slice origin.source }, count)
  | none =>
    let location := span origin name name
    ({ location, name := written, writtenName := written, arguments := none,
       source := location.slice origin.source }, 0)

/-- The attribute of a name token and its value token, if it has one. -/
def readAttribute (origin : Origin) (kind : AttributeKind) (name : Token)
    (value : Option Token) : Attribute where
  location := span origin name (value.getD name)
  name := name.value
  value := value.map (·.value)
  kind := kind
  ambiguous := (classifyAttribute origin.registry name.value value.isSome).2

/-- The entry of an echo among the attributes. -/
def echoEntry (origin : Origin) (read : Echo) : Attribute where
  location := read.location
  name := read.location.slice origin.source
  kind := .hostEcho
  echo := some read

/-- The entry of a comment among the attributes. -/
def commentEntry (origin : Origin) (location : Location) : Attribute where
  location := location
  name := location.slice origin.source
  comment := true

/-- The entries of a start tag, its closing token, and how many tokens they take together. -/
def readEntries (origin : Origin) (tokens : List Token) : List Attribute × Option Token × Nat :=
  match tokens with
  | [] => ([], none, 0)
  | token :: rest =>
    match token.kind with
    | .tagClose => ([], some token, 1)
    | .attributeName kind =>
      let value := nextIs .attributeValue rest
      let used := value.toList.length
      let later := readEntries origin (rest.drop used)
      (readAttribute origin kind token value :: later.1, later.2.1, 1 + used + later.2.2)
    | .echoOpen style =>
      let read := readEcho origin style token rest
      let later := readEntries origin (rest.drop read.2)
      (echoEntry origin read.1 :: later.1, later.2.1, 1 + read.2 + later.2.2)
    | .commentOpen =>
      let read := readComment origin token rest
      let later := readEntries origin (rest.drop read.2)
      (commentEntry origin read.1 :: later.1, later.2.1, 1 + read.2 + later.2.2)
    | _ => ([], none, 0)
termination_by tokens.length
decreasing_by all_goals simp only [List.length_cons, List.length_drop]; omega

/-- The start tag whose opening token is given, and how many of the tokens after it belong to
it. -/
def readStartTag (origin : Origin) (opening : Token) (rest : List Token) : Markup × Nat :=
  let read := readEntries origin rest
  ({ location := span origin opening (read.2.1.getD opening)
     tag := opening.value.drop 1
     attributes := read.1
     selfClosing := (read.2.1.map (·.value)) = some ['/', '>'] }, read.2.2)

/-- The region of a token that is kept as it is. -/
def regionKind? : TokenKind → Option RegionKind
  | .frontMatter => some .frontMatter
  | .verbatim => some .verbatim
  | .rawCode => some .rawCode
  | .rawText _ => some .rawText
  | .markupComment => some .markupComment
  | .declaration => some .declaration
  | _ => none

/-- Put the tokens of a template together, up to its end. A token outside its construct counts as
text. -/
def ofTokens (origin : Origin) (tokens : List Token) : List Item :=
  match tokens with
  | [] => []
  | token :: rest =>
    match token.kind with
    | .eof => []
    | .directiveName =>
      let read := readDirective origin token rest
      .directive read.1 :: ofTokens origin (rest.drop read.2)
    | .echoOpen style =>
      let read := readEcho origin style token rest
      .echo read.1 :: ofTokens origin (rest.drop read.2)
    | .commentOpen =>
      let read := readComment origin token rest
      .comment read.1 (read.1.slice origin.source) :: ofTokens origin (rest.drop read.2)
    | .tagOpen kind =>
      let read := readStartTag origin token rest
      .startTag kind read.1 :: ofTokens origin (rest.drop read.2)
    | .endTag _ => .endTag (token.location origin.file) token.value :: ofTokens origin rest
    | kind =>
      match regionKind? kind with
      | some held =>
        .region (token.location origin.file) held token.value :: ofTokens origin rest
      | none => .text (token.location origin.file) token.value :: ofTokens origin rest
termination_by tokens.length
decreasing_by all_goals simp only [List.length_cons, List.length_drop]; omega

end Item
end BladeTemplate
