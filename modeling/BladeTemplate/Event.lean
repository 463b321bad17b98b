import BladeTemplate.Text.Chars

/-!
# Log events

What a formatting run reports about its own progress. Every event belongs to a channel, a
dot-separated name under the program's own.
-/

namespace BladeTemplate

inductive LogLevel where
  | debug
  | info
  deriving DecidableEq, Repr

def LogLevel.name : LogLevel → String
  | .debug => "DEBUG"
  | .info => "INFO"

/-- The channel of a name: the name itself under the program's root channel, and below the root
channel otherwise. -/
def channelName (name : Chars) : Chars :=
  if name = "bladefmt".toList || Text.startsWith "bladefmt.".toList name then name
  else "bladefmt.".toList ++ name

/-- An event of a formatting run. An implied close is that of a block with no closer, opened at the
line; the numbers of nodes are those of top-level nodes. -/
inductive Event where
  | frontMatter (length : Nat)
  | loneAngle (offset : Nat)
  | scanned (tokens : Nat)
  | impliedClose (family : Chars) (line : Int)
  | built (nodes : Nat)
  | stable (nodes : Nat)
  | notFormatted (name reason : String)
  | formatted (name : String) (diagnostics : Nat)
  deriving DecidableEq, Repr

namespace Event

/-- The channel an event is reported on. -/
def channel : Event → String
  | .frontMatter _ => "bladefmt.lexer.core"
  | .loneAngle _ => "bladefmt.lexer.scanners.opaque"
  | .scanned _ => "bladefmt.parser"
  | .impliedClose _ _ => "bladefmt.parsing.blocks"
  | .built _ => "bladefmt.parser"
  | .stable _ => "bladefmt.guard"
  | .notFormatted _ _ => "bladefmt"
  | .formatted _ _ => "bladefmt"

def level : Event → LogLevel
  | .notFormatted _ _ => .info
  | _ => .debug

def message : Event → String
  | .frontMatter length => s!"front matter spans {length} characters"
  | .loneAngle offset => s!"lone '<' at offset {offset} kept as text"
  | .scanned tokens => s!"scanned {tokens} tokens"
  | .impliedClose family line =>
    let family := String.ofList family
    s!"implicitly closed {family} block opened at line {line}"
  | .built nodes => s!"built {nodes} top-level nodes"
  | .stable nodes => s!"idempotence check passed ({nodes} top-level nodes)"
  | .notFormatted name reason => s!"{name}: not formatted: {reason}"
  | .formatted name diagnostics => s!"{name}: formatted ({diagnostics} diagnostics)"

end Event
end BladeTemplate
