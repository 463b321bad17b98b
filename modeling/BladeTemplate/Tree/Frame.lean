import BladeTemplate.Node

/-!
# Open frames

While a tree is built, the blocks and elements that are still open stand on one stack, with the
template itself below them. A construct can only be closed together with everything opened after
it.

* `Body` collects the children of a frame and joins texts that touch;
* `FrameStack.findBlock` and `FrameStack.findElement` look for the frame a closer belongs to; they
  answer how many frames stand above it.
-/

namespace BladeTemplate

/-- The children of a frame so far, newest first, and the span of the last one added. -/
structure Body where
  nodes : List Node := []
  last : Option Location := none

namespace Body

def children (body : Body) : List Node :=
  body.nodes.reverse

/-- Add a child. A text right after a text is joined to it. -/
def append (body : Body) (node : Node) : Body :=
  match node, body.nodes with
  | .text location content, .text before head :: older =>
    ⟨.text (before.spanTo location) (head ++ content) :: older, some location⟩
  | node, older => ⟨node :: older, some node.location⟩

end Body

/-- What an open frame will become. -/
inductive Opened where
  | block (opener : Directive) (family : Chars) (indentsMiddles : Bool)
  | element (kind : TagKind) (markup : Markup)

/-- A construct whose end has not been seen yet. -/
structure Frame where
  opened : Opened
  start : Location
  body : Body := {}

namespace Frame

def family? (frame : Frame) : Option Chars :=
  match frame.opened with
  | .block _ family _ => some family
  | .element _ _ => none

/-- Whether the frame is an open block. -/
def isBlock (frame : Frame) : Bool :=
  frame.family?.isSome

/-- The span from the start of a frame to its last child. -/
def span (frame : Frame) : Location :=
  frame.start.spanTo (frame.body.last.getD frame.start)

end Frame

/-- The open frames, innermost first, above the template itself. -/
structure FrameStack where
  frames : List Frame := []
  root : Body := {}

namespace FrameStack

/-- Number of frames, the template included. -/
def depth (stack : FrameStack) : Nat :=
  stack.frames.length + 1

/-- The children collected by the innermost frame. -/
def topBody (stack : FrameStack) : Body :=
  match stack.frames with
  | [] => stack.root
  | frame :: _ => frame.body

def push (stack : FrameStack) (frame : Frame) : FrameStack :=
  { stack with frames := frame :: stack.frames }

/-- The innermost frame and the stack without it. The template itself is never taken off. -/
def pop? (stack : FrameStack) : Option (Frame × FrameStack) :=
  match stack.frames with
  | [] => none
  | frame :: outer => some (frame, { stack with frames := outer })

/-- Add a child to the innermost frame. -/
def append (stack : FrameStack) (node : Node) : FrameStack :=
  match stack.frames with
  | [] => { stack with root := stack.root.append node }
  | frame :: outer => { stack with frames := { frame with body := frame.body.append node } :: outer }

/-- How many frames stand above the innermost open block, seen through open elements. -/
def nearestBlock (stack : FrameStack) : Option Nat :=
  stack.frames.findIdx? Frame.isBlock

/-- The family of the innermost open block. -/
def openFamily (stack : FrameStack) : Option Chars :=
  (stack.frames.find? Frame.isBlock).bind Frame.family?

/-- How many frames stand above the innermost open block of a family. -/
def findBlock (stack : FrameStack) (family : Chars) : Option Nat :=
  stack.frames.findIdx? fun frame => frame.family? = some family

/-- How many of the frames stand above the innermost element that an end tag closes. Elements
outside the innermost open block are out of reach. -/
def findElementIn (endName : Chars) : List Frame → Option Nat
  | [] => none
  | frame :: outer =>
    match frame.opened with
    | .block _ _ _ => none
    | .element _ markup =>
      if Tag.closes endName markup.tag then some 0 else (findElementIn endName outer).map (· + 1)

/-- How many frames stand above the innermost element that an end tag closes. -/
def findElement (stack : FrameStack) (endName : Chars) : Option Nat :=
  findElementIn endName stack.frames

/-- The place of a frame counted from the template itself, from the number of frames above it. -/
def indexOfAbove (stack : FrameStack) (above : Nat) : Nat :=
  stack.frames.length - above

end FrameStack

/-- Why a frame cannot be taken off the stack. -/
inductive FrameError where
  | documentFrame
  deriving DecidableEq, Repr

def FrameError.message : FrameError → String
  | .documentFrame => "cannot pop the document frame"

end BladeTemplate
