import BladeTemplate.Location
import BladeTemplate.Markup.Attribute
import BladeTemplate.Markup.Tag
import BladeTemplate.Text.Echo

/-!
# Tokens

A template is read into a flat list of tokens. Each token holds its exact text and the positions
at both ends; what is left between two tokens is white space inside a construct and the equals
sign of an attribute.
-/

namespace BladeTemplate

/-- The kinds of token. An end tag, a comment of the markup, a verbatim block, a code block and a
raw text are one token each; an attribute value has its quotes. -/
inductive TokenKind where
  | eof
  | text
  | frontMatter
  | directiveName
  | argumentsOpen
  | arguments
  | argumentsClose
  | echoOpen (style : EchoStyle)
  | echoContent (style : EchoStyle)
  | echoClose (style : EchoStyle)
  | commentOpen
  | commentContent
  | commentClose
  | tagOpen (kind : TagKind)
  | tagClose
  | endTag (kind : TagKind)
  | attributeName (kind : AttributeKind)
  | attributeValue
  | markupComment
  | declaration
  | verbatim
  | rawCode
  | rawText (element : Chars)
  deriving DecidableEq, Repr

namespace TokenKind

/-- The name of a kind, without its refinement. -/
def name : TokenKind → String
  | .eof => "EOF"
  | .text => "TEXT"
  | .frontMatter => "FRONT_MATTER"
  | .directiveName => "DIRECTIVE_NAME"
  | .argumentsOpen => "DIRECTIVE_ARGS_OPEN"
  | .arguments => "DIRECTIVE_ARGS"
  | .argumentsClose => "DIRECTIVE_ARGS_CLOSE"
  | .echoOpen _ => "ECHO_OPEN"
  | .echoContent _ => "ECHO_CONTENT"
  | .echoClose _ => "ECHO_CLOSE"
  | .commentOpen => "COMMENT_OPEN"
  | .commentContent => "COMMENT_CONTENT"
  | .commentClose => "COMMENT_CLOSE"
  | .tagOpen _ => "TAG_OPEN"
  | .tagClose => "TAG_CLOSE"
  | .endTag _ => "END_TAG"
  | .attributeName _ => "ATTRIBUTE_NAME"
  | .attributeValue => "ATTRIBUTE_VALUE"
  | .markupComment => "HTML_COMMENT"
  | .declaration => "DECLARATION"
  | .verbatim => "VERBATIM_SPAN"
  | .rawCode => "RAW_CODE_SPAN"
  | .rawText _ => "RAW_TEXT"

def styleName : EchoStyle → String
  | .escaped => "escaped"
  | .raw => "raw"

/-- The name of a tag kind; plain elements have none. -/
def tagKindName : TagKind → Option String
  | .element => none
  | .component => some "component"
  | .slot => some "slot"

/-- The refinement of a kind. -/
def subkind : TokenKind → Option Chars
  | .echoOpen style | .echoContent style | .echoClose style => some (styleName style).toList
  | .tagOpen kind | .endTag kind => (tagKindName kind).map String.toList
  | .attributeName kind => some kind.name.toList
  | .rawText element => some element
  | _ => none

end TokenKind

/-- A token: its kind, its exact text, and the positions where it starts and stops. -/
structure Token where
  kind : TokenKind
  value : Chars
  start : Position
  stop : Position
  deriving DecidableEq, Repr

namespace Token

def location (token : Token) (file : Option String) : Location :=
  .between file token.start token.stop

/-- A text of at most twenty characters: a longer one is cut, with dots for the rest. -/
def abbreviate (text : Chars) : Chars :=
  if 20 < text.length then text.take 17 ++ ['.', '.', '.'] else text

/-- The token as it is shown in reports. -/
def display (token : Token) : String :=
  let kind := token.kind.name
  let refinement :=
    match token.kind.subkind with
    | none => ""
    | some subkind =>
      let subkind := String.ofList subkind
      s!"[{subkind}]"
  let value := String.ofList (Text.quoted (abbreviate token.value))
  let line := token.start.line
  let column := token.start.column
  s!"Token({kind}{refinement}, {value}, {line}:{column})"

end Token
end BladeTemplate
