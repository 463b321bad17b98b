import BladeTemplate.Directive.Descriptor
import BladeTemplate.Text.LowerCase

/-!
# The directive registry

A registry lists descriptors in the order of their registration. Names are found as written
first, then without regard to case, and no two registered names differ in case only.

* `Registry.register` adds a descriptor, or replaces the one of the same name;
* `Registry.lookup` finds a descriptor by name;
* `Registry.closers` lists the directives that close a family.
-/

namespace BladeTemplate

/-- Descriptors in order of registration. -/
structure Registry where
  descriptors : List Descriptor
  deriving DecidableEq, Repr

/-- Why a descriptor is refused: it opens or closes a block and names no family, or its name is
taken. -/
inductive RegistryError where
  | missingFamily (name : Chars) (pairing : Pairing)
  | alreadyRegistered (name : Chars)
  deriving DecidableEq, Repr

def RegistryError.message : RegistryError → String
  | .missingFamily name pairing =>
    let name := String.ofList name
    let pairing := pairing.name
    s!"Directive '{name}' is {pairing} but has no family"
  | .alreadyRegistered name =>
    let name := String.ofList name
    s!"Directive '{name}' already registered"

namespace Registry

def empty : Registry := ⟨[]⟩

def size (registry : Registry) : Nat :=
  registry.descriptors.length

/-- The names in order of registration. -/
def names (registry : Registry) : List Chars :=
  registry.descriptors.map (·.name)

/-- The descriptor of a name: the one spelled exactly so, else the one that differs in case. -/
def lookup (registry : Registry) (name : Chars) : Option Descriptor :=
  (registry.descriptors.find? (·.name = name)).or
    (registry.descriptors.find? fun d => Text.sameLetters d.name name)

def has (registry : Registry) (name : Chars) : Bool :=
  (registry.lookup name).isSome

/-- The directives that close a family, in order of registration. -/
def closers (registry : Registry) (family : Chars) : List Descriptor :=
  registry.descriptors.filter fun d => d.family = some family ∧ d.pairing = .closes

/-- Whether a descriptor opens or closes a block without naming its family. -/
def lacksFamily (descriptor : Descriptor) : Bool :=
  (descriptor.pairing = .opens || descriptor.pairing = .closes) &&
    (descriptor.family.getD []).isEmpty

/-- Add a descriptor at the end. A name that is taken, in whatever case, is refused unless
`replace` is set; then the old entry goes. -/
def register (registry : Registry) (descriptor : Descriptor) (replace : Bool := false) :
    Except RegistryError Registry :=
  if lacksFamily descriptor then .error (.missingFamily descriptor.name descriptor.pairing)
  else
    match registry.descriptors.find? fun d => Text.sameLetters d.name descriptor.name with
    | none => .ok ⟨registry.descriptors ++ [descriptor]⟩
    | some old =>
      if replace then .ok ⟨registry.descriptors.erase old ++ [descriptor]⟩
      else .error (.alreadyRegistered descriptor.name)

/-- Add descriptors one after another. The first refusal ends the work; what was added before it
stays. -/
def registerAll (registry : Registry) : List Descriptor → Registry × Option RegistryError
  | [] => (registry, none)
  | descriptor :: rest =>
    match registry.register descriptor with
    | .ok next => next.registerAll rest
    | .error error => (registry, some error)

end Registry
end BladeTemplate
