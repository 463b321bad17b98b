import BladeTemplate.Directive.Registry

/-!
# Attribute names

Directives never start at an attribute name. A leading `@` or `:` inside a start tag belongs to a
client-side framework, and so does the name that follows it, whatever directive it collides with.
`classifyAttribute` tells the kinds apart and notes the collisions.
-/

namespace BladeTemplate

/-- What stands at an attribute name: a binding of a client-side framework, an echo, or an ordinary
attribute. -/
inductive AttributeKind where
  | foreignEvent
  | foreignProperty
  | hostEcho
  | plain
  deriving DecidableEq, Repr

namespace AttributeKind

def all : List AttributeKind := [.foreignEvent, .foreignProperty, .hostEcho, .plain]

def name : AttributeKind → String
  | .foreignEvent => "foreign-event"
  | .foreignProperty => "foreign-property"
  | .hostEcho => "host-echo"
  | .plain => "plain"

def named (text : Chars) : Except UnknownName AttributeKind :=
  nameIn "AttributeKind" all name text

/-- Whether the attribute is a binding of a client-side framework. -/
def isForeign : AttributeKind → Bool
  | .foreignEvent | .foreignProperty => true
  | .hostEcho | .plain => false

end AttributeKind

namespace Attribute

/-- Events that live components bind. -/
def wireEvents : List String :=
  ["click", "dblclick", "submit", "keydown", "keyup", "keypress", "change", "input", "blur",
    "focus", "mouseenter", "mouseleave"]

/-- The name without leading `@` and `:`, up to its first modifier, namespace, argument list or
blank. -/
def baseName (name : Chars) : Chars :=
  (name.dropWhile fun c => c = '@' || c = ':').takeWhile fun c =>
    !(c = '.' || c = ':' || c = '(' || c = ' ' || c = '\t')

end Attribute

/-- The kind of an attribute, and whether its name is ambiguous: an `@name` without value that a
directive also has is kept as an ordinary attribute. -/
def classifyAttribute (registry : Registry) (name : Chars) (hasValue : Bool) :
    AttributeKind × Bool :=
  let starts (lead : String) (text : Chars) := Text.startsWith lead.toList text
  let lowered := Text.lower name
  if starts "@" name then
    if !hasValue && registry.has (Attribute.baseName name) then (.plain, true)
    else (.foreignEvent, false)
  else if starts ":" name then (.foreignProperty, false)
  else if starts "x-on:" lowered || starts "v-on:" lowered then (.foreignEvent, false)
  else if starts "wire:" lowered then
    if Attribute.wireEvents.any fun event =>
        event.toList = Attribute.baseName (lowered.drop "wire:".length) then
      (.foreignEvent, false)
    else (.foreignProperty, false)
  else if starts "x-" lowered || starts "v-" lowered then (.foreignProperty, false)
  else (.plain, false)

end BladeTemplate
