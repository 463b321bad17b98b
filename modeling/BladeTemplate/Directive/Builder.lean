import BladeTemplate.Directive.Builtin

/-!
# Building registries

Descriptors are registered with a builder, which keeps them twice: in a list, in the order of their
registration, and in a map by name. What it builds is an index with maps of its own, which later
registrations leave alone.

* `NameMap` is a map from names that keeps the order in which they came;
* `RegistryBuilder.register` checks a descriptor and puts it in both places;
* `RegistryBuilder.build` makes a `RegistryIndex`, which finds descriptors by name and by family;
* `RegistryCall.perform` is one call of a sequence of them.
-/

namespace BladeTemplate

/-! ## Maps from names -/

/-- Values by name, in the order in which the names were first put. -/
structure NameMap (α : Type) where
  entries : List (Chars × α) := []
  nodup : (entries.map Prod.fst).Nodup := by exact List.nodup_nil

namespace NameMap

variable {α : Type}

def get? (map : NameMap α) (name : Chars) : Option α :=
  (map.entries.find? (·.1 = name)).map (·.2)

def erase (map : NameMap α) (name : Chars) : NameMap α where
  entries := map.entries.filter (·.1 ≠ name)
  nodup := map.nodup.sublist (List.filter_sublist.map _)

def has (map : NameMap α) (name : Chars) : Bool :=
  map.entries.any (·.1 = name)

/-- Put a new name at the end. -/
def append (map : NameMap α) (name : Chars) (value : α) (fresh : ¬ map.has name) : NameMap α where
  entries := map.entries ++ [(name, value)]
  nodup := by
    rw [List.map_append, List.nodup_append]
    refine ⟨map.nodup, by simp, ?_⟩
    intro taken among new member same
    obtain ⟨entry, present, rfl⟩ := List.mem_map.1 among
    obtain rfl : new = name := by simpa using member
    exact fresh (List.any_eq_true.2 ⟨entry, present, by simpa using same⟩)

/-- Change the value of a name where it stands. -/
def set (map : NameMap α) (name : Chars) (value : α) : NameMap α where
  entries := map.entries.map fun entry => if entry.1 = name then (name, value) else entry
  nodup := by
    have kept : (Prod.fst ∘ fun entry : Chars × α =>
        if entry.1 = name then (name, value) else entry) = Prod.fst := by
      funext entry
      by_cases same : entry.1 = name <;> simp [same]
    rw [List.map_map, kept]
    exact map.nodup

/-- Give a value to a name: to one that has a value in its place, to a new one at the end. -/
def put (map : NameMap α) (name : Chars) (value : α) : NameMap α :=
  if taken : map.has name then map.set name value else map.append name value taken

def size (map : NameMap α) : Nat :=
  map.entries.length

end NameMap

/-! ## The index -/

/-- What a builder builds: descriptors in order of registration, by name, by lower-case name, and by
family. -/
structure RegistryIndex where
  descriptors : List Descriptor
  byName : NameMap Descriptor
  byLower : NameMap Descriptor
  families : NameMap (List Descriptor)

namespace RegistryIndex

/-- Put a descriptor with those of its family, if it has one. -/
def addToFamily (families : NameMap (List Descriptor)) (descriptor : Descriptor) :
    NameMap (List Descriptor) :=
  match descriptor.family with
  | none => families
  | some family => families.put family ((families.get? family).getD [] ++ [descriptor])

/-- The index of the descriptors in a list and a map. -/
def ofMaps (descriptors : List Descriptor) (byName : NameMap Descriptor) : RegistryIndex where
  descriptors
  byName
  byLower := byName.entries.foldl (fun map entry => map.put (Text.lower entry.1) entry.2) {}
  families := descriptors.foldl addToFamily {}

/-- The descriptor of a name: the one spelled exactly so, else the one that differs in case. -/
def lookup (index : RegistryIndex) (name : Chars) : Option Descriptor :=
  (index.byName.get? name).or (index.byLower.get? (Text.lower name))

def has (index : RegistryIndex) (name : Chars) : Bool :=
  (index.lookup name).isSome

/-- The directives that close a family, in order of registration. -/
def closers (index : RegistryIndex) (family : Chars) : List Descriptor :=
  ((index.families.get? family).getD []).filter (·.pairing = .closes)

def names (index : RegistryIndex) : List Chars :=
  index.byName.entries.map (·.1)

def size (index : RegistryIndex) : Nat :=
  index.byName.size

end RegistryIndex

/-! ## The builder -/

/-- Why a registration fails. A descriptor to be replaced that stands in the map and not in the list
is not listed. -/
inductive RegistrationError where
  | refused (error : RegistryError)
  | notListed (old : Descriptor)
  deriving DecidableEq, Repr

def RegistrationError.message : RegistrationError → String
  | .refused error => error.message
  | .notListed _ => "list.remove(x): x not in list"

/-- Descriptors in the order of their registration, and by name. -/
structure RegistryBuilder where
  descriptors : List Descriptor := []
  byName : NameMap Descriptor := {}

namespace RegistryBuilder

/-- The builder without descriptors. -/
def empty : RegistryBuilder := {}

/-- Put a descriptor in both places. -/
def add (builder : RegistryBuilder) (descriptor : Descriptor) : RegistryBuilder where
  descriptors := builder.descriptors ++ [descriptor]
  byName := builder.byName.put descriptor.name descriptor

/-- Register a descriptor, and what is left of the builder if that fails. A name that is taken, in
whatever case, is refused unless `replace` is set; then the old entry goes, first from the map and
then from the list. -/
def register (builder : RegistryBuilder) (descriptor : Descriptor) (replace : Bool := false) :
    RegistryBuilder × Option RegistrationError :=
  if Registry.lacksFamily descriptor then
    (builder, some (.refused (.missingFamily descriptor.name descriptor.pairing)))
  else
    match builder.byName.entries.find? fun entry => Text.sameLetters entry.1 descriptor.name with
    | none => (builder.add descriptor, none)
    | some (existing, old) =>
      if replace then
        let popped := { builder with byName := builder.byName.erase existing }
        if old ∈ popped.descriptors then
          ({ popped with descriptors := popped.descriptors.erase old }.add descriptor, none)
        else (popped, some (.notListed old))
      else (builder, some (.refused (.alreadyRegistered descriptor.name)))

/-- Register descriptors one after another, up to the first failure. -/
def registerAll (builder : RegistryBuilder) :
    List Descriptor → RegistryBuilder × Option RegistrationError
  | [] => (builder, none)
  | descriptor :: rest =>
    match builder.register descriptor with
    | (next, none) => next.registerAll rest
    | (next, some error) => (next, some error)

/-- The builder after registering descriptors one after another. -/
def withAll (builder : RegistryBuilder) (descriptors : List Descriptor) : RegistryBuilder :=
  (builder.registerAll descriptors).1

/-- The builder with the built-in directives. -/
def defaults : RegistryBuilder :=
  empty.withAll Registry.builtin.descriptors

/-- The index of what has been registered. -/
def build (builder : RegistryBuilder) : RegistryIndex :=
  .ofMaps builder.descriptors builder.byName

def size (builder : RegistryBuilder) : Nat :=
  builder.descriptors.length

/-- The registry that templates are read with. -/
def registry (builder : RegistryBuilder) : Registry :=
  ⟨builder.descriptors⟩

end RegistryBuilder

/-! ## Sequences of calls -/

inductive RegistryCall where
  | register (descriptor : Descriptor) (replace : Bool)
  | registerAll (descriptors : List Descriptor)
  | build
  deriving DecidableEq, Repr

/-- A builder, and what it has built so far. -/
structure RegistrySession where
  builder : RegistryBuilder
  built : List RegistryIndex := []

def RegistryCall.perform (session : RegistrySession) :
    RegistryCall → RegistrySession × Option RegistrationError
  | .register descriptor replace =>
    let (builder, error) := session.builder.register descriptor replace
    ({ session with builder }, error)
  | .registerAll descriptors =>
    let (builder, error) := session.builder.registerAll descriptors
    ({ session with builder }, error)
  | .build => ({ session with built := session.built ++ [session.builder.build] }, none)

/-- Perform calls one after another, whether they fail or not. -/
def RegistrySession.run (session : RegistrySession) (calls : List RegistryCall) : RegistrySession :=
  calls.foldl (fun session call => (call.perform session).1) session

end BladeTemplate
