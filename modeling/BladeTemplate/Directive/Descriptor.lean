import BladeTemplate.Diagnostic

/-!
# Directive descriptors

A descriptor says what role a directive plays in block structure. The role of one occurrence is
settled by `Descriptor.resolve` from the descriptor, the number of arguments and the innermost
open block, never from the directive's name.
-/

namespace BladeTemplate

/-- The role of a directive in block structure. -/
inductive Pairing where
  | standalone
  | opens
  | middle
  | closes
  deriving DecidableEq, Repr

namespace Pairing

def all : List Pairing := [.standalone, .opens, .middle, .closes]

def name : Pairing → String
  | .standalone => "none"
  | .opens => "opens"
  | .middle => "middle"
  | .closes => "closes"

def named (text : Chars) : Except UnknownName Pairing :=
  nameIn "Pairing" all name text

end Pairing

/-- What a closing directive does beyond ending its block. -/
inductive CloseKind where
  | finish
  | display
  | overwrite
  | stop
  | append
  deriving DecidableEq, Repr

namespace CloseKind

def all : List CloseKind := [.finish, .display, .overwrite, .stop, .append]

def name : CloseKind → String
  | .finish => "end"
  | .display => "show"
  | .overwrite => "overwrite"
  | .stop => "stop"
  | .append => "append"

def named (text : Chars) : Except UnknownName CloseKind :=
  nameIn "CloseKind" all name text

end CloseKind

/-- What is known about one directive name. `family` is that of the block it opens or closes, and
`middleOf` are the families whose branches it may separate. With `inlineArity` arguments or more it
stands alone, unless the number is zero; with arguments at all it opens a block of
`argumentsFamily`, and without any it is a middle in `bareMiddleOf`. -/
structure Descriptor where
  name : Chars
  pairing : Pairing := .standalone
  family : Option Chars := none
  middleOf : List Chars := []
  acceptsArguments : Bool := true
  allowsInlineCondition : Bool := false
  closeKind : Option CloseKind := none
  spacedArguments : Bool := false
  inlineArity : Int := 0
  argumentsFamily : Option Chars := none
  bareMiddleOf : Option Chars := none
  keepsBody : Bool := false
  indentsMiddles : Bool := false
  deriving DecidableEq, Repr

namespace Descriptor

/-- The name of the directive that ends a body kept as it is. -/
def bodyCloser (descriptor : Descriptor) : Chars :=
  "end".toList ++ descriptor.name

/-- Role and block family of one occurrence, from its number of arguments and the family of the
innermost open block. -/
def resolve (descriptor : Descriptor) (arguments : Int) (openFamily : Option Chars) :
    Pairing × Option Chars :=
  if descriptor.inlineArity ≠ 0 ∧ descriptor.inlineArity ≤ arguments then (.standalone, none)
  else if descriptor.argumentsFamily.isSome ∧ 0 < arguments then
    (.opens, descriptor.argumentsFamily)
  else if descriptor.bareMiddleOf.isSome ∧ arguments = 0 ∧
      openFamily = descriptor.bareMiddleOf then
    (.middle, descriptor.bareMiddleOf)
  else if descriptor.pairing = .middle then
    match openFamily with
    | some family => (.middle, if family ∈ descriptor.middleOf then some family else none)
    | none => (.middle, none)
  else (descriptor.pairing, descriptor.family)

end Descriptor
end BladeTemplate
