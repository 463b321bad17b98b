import BladeTemplate.Diagnostic
import BladeTemplate.Event
import BladeTemplate.Token.Lookahead
import BladeTemplate.Token.State

/-!
# Steps of the reader

One step reads one construct, or a part of one, in the innermost mode. `ScanState.step` chooses
the step; the functions before it are the steps themselves, a group for each kind of construct.
-/

namespace BladeTemplate

open Text Lookahead

/-- What the reading of tokens depends on besides the text: the directives known, whether front
matter is, and whether unregistered directives are reported. -/
structure Dialect where
  registry : Registry
  frontMatter : Bool
  reportUnknown : Bool

/-- What one step yields: tokens, diagnostics and events, then the next state or a fault. -/
structure Step where
  tokens : List Token := []
  diagnostics : List Diagnostic := []
  events : List Event := []
  next : Except (LexFault × Position) ScanState

namespace ScanState

/-! ## Constructs in plain text -/

/-- Read a construct of the given length as one token. -/
def take (s : ScanState) (kind : TokenKind) (length : Nat) : Step where
  tokens := [s.token kind length]
  next := .ok (s.skip length)

def enter (s : ScanState) (mode : Mode) : Step where
  next := .ok (s.push mode)

/-- Give up at the current position. -/
def failHere (s : ScanState) (fault : LexFault) : Step where
  next := .error (fault, s.position)

/-- Read up to the end of the first `closer` that follows the next `lead` characters. -/
def takeThrough (s : ScanState) (kind : TokenKind) (lead : Nat) (closer : Chars)
    (fault : LexFault) : Step :=
  match indexOf closer (s.rest.drop lead) with
  | some length => s.take kind (lead + length + closer.length)
  | none => s.failHere fault

def stepEndTag (s : ScanState) : Step :=
  let nameLength := Tag.nameLength (s.rest.drop 2)
  let kind := Tag.kindOf ((s.rest.drop 2).take nameLength)
  s.takeThrough (.endTag kind) (2 + nameLength) ['>'] .endTag

/-- Read a comment, a section of character data, a declaration or a code block of the markup. An
angle bracket that starts none of these is plain text. -/
def stepBang (s : ScanState) : Step :=
  if startsWith "<!--".toList s.rest then
    s.takeThrough .markupComment 4 "-->".toList .markupComment
  else if startsWith "<![CDATA[".toList s.rest then
    s.takeThrough .declaration 9 "]]>".toList .characterData
  else if startsWith "<!".toList s.rest && ((s.rest.drop 2).head?.map isLetter).getD false then
    s.takeThrough .declaration 2 ['>'] .declaration
  else if startsWith "<?".toList s.rest then s.enter .rawCode
  else { s.take .text 1 with events := [.loneAngle s.position.offset] }

/-- Read the construct that ends a run of plain text. -/
def stepConstruct (s : ScanState) : Step :=
  if startsWith commentOpener s.rest then s.enter .comment
  else if s.rest.head? = some '{' then s.enter .echo
  else if s.rest.head? = some '@' then s.enter .directiveHead
  else if startsWith "</".toList s.rest then s.stepEndTag
  else if startsWith "<!".toList s.rest || startsWith "<?".toList s.rest then s.stepBang
  else s.enter .tagStart

/-- Read a run of plain text and the construct after it. -/
def stepText (s : ScanState) : Step :=
  let length := textRunLength s.previous s.rest
  if length = 0 then s.stepConstruct
  else
    let next := s.skip length
    if next.rest.isEmpty then s.take .text length
    else
      let step := next.stepConstruct
      { step with tokens := s.token .text length :: step.tokens }

/-! ## Directives -/

/-- Read the name of a directive. A directive whose body is kept goes on with the body instead,
unless it has arguments. -/
def stepDirectiveHead (dialect : Dialect) (s : ScanState) : Step :=
  let nameLength := directiveNameLength (s.rest.drop 1)
  let name := (s.rest.drop 1).take nameLength
  let descriptor := dialect.registry.lookup name
  let arguments := argumentsOffset descriptor nameLength s.rest
  let keptBody := descriptor.filter fun d => d.keepsBody && arguments.isNone
  match keptBody with
  | some d =>
    { next := .ok (s.become (if d.name = "verbatim".toList then .verbatim else .rawCode)) }
  | none =>
    let shown := String.ofList name
    { tokens := [s.token .directiveName (1 + nameLength)]
      diagnostics :=
        if descriptor.isNone && dialect.reportUnknown then
          [.info s.here .unknownDirective s!"unknown directive '@{shown}' kept as written"]
        else []
      next :=
        match arguments with
        | none => .ok (s.skip (1 + nameLength)).pop
        | some offset =>
          .ok (((s.skip (1 + nameLength)).skip (offset - (1 + nameLength))).become .arguments) }

/-- Read an argument list: its parentheses and, between them, its text. -/
def stepArguments (s : ScanState) (start : Position) : Step :=
  match groupLength s.rest with
  | none => { next := .error (.argumentList, start) }
  | some length =>
    let inside := s.skip 1
    let closing := inside.skip (length - 2)
    { tokens :=
        s.token .argumentsOpen 1 ::
          (if length = 2 then [] else [inside.token .arguments (length - 2)]) ++
          [closing.token .argumentsClose 1]
      next := .ok (closing.skip 1).pop }

/-! ## Echoes and comments -/

/-- Read a delimited construct as three tokens: its opening delimiter, a content of the given
length, and its closing delimiter. -/
def takeTriple (s : ScanState) (opening content closing : TokenKind) (width length : Nat) :
    Step :=
  let inside := s.skip width
  let after := inside.skip length
  { tokens := [s.token opening width, inside.token content length, after.token closing width]
    next := .ok (after.skip width).pop }

def stepEcho (s : ScanState) (start : Position) : Step :=
  let style := (EchoStyle.startOf s.rest).getD .escaped
  match findDelimiter style.closer (s.rest.drop style.width) with
  | none => { next := .error (.echo style, start) }
  | some length =>
    s.takeTriple (.echoOpen style) (.echoContent style) (.echoClose style) style.width length

def stepComment (s : ScanState) (start : Position) : Step :=
  match indexOf commentCloser (s.rest.drop 4) with
  | none => { next := .error (.comment, start) }
  | some length => s.takeTriple .commentOpen .commentContent .commentClose 4 length

/-! ## Start tags -/

/-- Read the angle bracket and the name of a start tag. -/
def stepTagStart (s : ScanState) : Step :=
  let nameLength := Tag.nameLength (s.rest.drop 1)
  let name := (s.rest.drop 1).take nameLength
  { tokens := [s.token (.tagOpen (Tag.kindOf name)) (1 + nameLength)]
    next := .ok ((s.skip (1 + nameLength)).become (.tag name)) }

/-- Read the name of an attribute and the equals sign after it, if there is one. -/
def stepAttribute (dialect : Dialect) (s : ScanState) : Step :=
  let length := attributeNameLength dialect.registry s.rest
  let name := s.rest.take length
  let after := s.skip length
  let spaces := countWhile isTagSpace after.rest
  let hasValue := (after.rest.drop spaces).head? = some '='
  let found := classifyAttribute dialect.registry name hasValue
  let shown := String.ofList name
  let base := String.ofList (Attribute.baseName name)
  { tokens := [s.token (.attributeName found.1) length]
    diagnostics :=
      if found.2 then
        [.info s.here .ambiguousAttribute
          (s!"'{shown}' in an attribute list collides with directive '@{base}'; " ++
            "kept as a plain attribute")]
      else []
    next :=
      if hasValue then
        let equals := after.skip (spaces + 1)
        .ok ((equals.skip (countWhile isTagSpace equals.rest)).push (.attributeValue name))
      else .ok after }

/-- Read the next part of a start tag: its end, an echo, a comment or an attribute. -/
def stepTag (dialect : Dialect) (s : ScanState) (name : Chars) : Step :=
  let s := s.skip (countWhile isTagSpace s.rest)
  if s.rest.isEmpty then { next := .ok s }
  else if startsWith "/>".toList s.rest then
    { tokens := [s.token .tagClose 2], next := .ok (s.skip 2).pop }
  else if s.rest.head? = some '>' then
    let after := (s.skip 1).pop
    { tokens := [s.token .tagClose 1]
      next :=
        .ok (if Tag.isOneOf Tag.rawTextNames name then after.push (.rawText name) else after) }
  else if startsWith commentOpener s.rest then s.enter .comment
  else if (EchoStyle.startOf s.rest).isSome then s.enter .echo
  else s.stepAttribute dialect

def stepValue (s : ScanState) (start : Position) : Step :=
  match valueLength s.rest with
  | none => { next := .error (.attributeValue, start) }
  | some length =>
    { tokens := [s.token .attributeValue length], next := .ok (s.skip length).pop }

/-! ## Bodies kept as they are -/

/-- Read a block up to the end of the first `closer` that follows the next `lead` characters. -/
def takeBody (s : ScanState) (kind : TokenKind) (lead : Nat) (closer : Chars) (fault : LexFault)
    (start : Position) : Step :=
  match indexOf closer (s.rest.drop lead) with
  | none => { next := .error (fault, start) }
  | some length =>
    let length := lead + length + closer.length
    { tokens := [s.token kind length], next := .ok (s.skip length).pop }

/-- Read a code block. One of the markup may be left open to the end of the template. -/
def stepRawCode (s : ScanState) (start : Position) : Step :=
  if startsWith "<?".toList s.rest then
    let length :=
      match indexOf "?>".toList (s.rest.drop 2) with
      | some length => 2 + length + 2
      | none => s.rest.length
    { tokens := [s.token .rawCode length], next := .ok (s.skip length).pop }
  else s.takeBody .rawCode 4 "@endphp".toList .rawCode start

/-- Read the body of an element up to its end tag. -/
def stepRawText (s : ScanState) (tag : Chars) (start : Position) : Step :=
  match rawTextLength tag s.rest with
  | none => { next := .error (.rawText tag, start) }
  | some length =>
    { tokens := if length = 0 then [] else [s.token (.rawText (lower tag)) length]
      next := .ok (s.skip length).pop }

/-! ## The machine -/

/-- Read one construct, or a part of one, in the innermost mode. -/
def step (dialect : Dialect) (s : ScanState) : Step :=
  match s.modes with
  | [] => s.stepText
  | ⟨mode, start⟩ :: _ =>
    match mode with
    | .directiveHead => s.stepDirectiveHead dialect
    | .arguments => s.stepArguments start
    | .echo => s.stepEcho start
    | .comment => s.stepComment start
    | .tagStart => s.stepTagStart
    | .tag name => s.stepTag dialect name
    | .attributeValue _ => s.stepValue start
    | .verbatim => s.takeBody .verbatim 9 "@endverbatim".toList .verbatim start
    | .rawCode => s.stepRawCode start
    | .rawText tag => s.stepRawText tag start

end ScanState
end BladeTemplate
