import RegexForge.Declarations
import RegexForge.Regex

/-!
Building an expression one element at a time. Elements go to the current frame; opening a container
starts a frame of its own, and closing it hands the container to the frame below as one element.
The innermost frame is `current` and the others are `outer`, from the inside out, so the root frame
is the last of them and can never be closed.

A quantifier waits in its frame for the next element there. An anchor leaves it waiting, because an
anchor cannot be repeated; a lookaround takes it away without being repeated.

An operation that checks its arguments answers with an error or with the new builder, and a builder
is a value, so a refused operation changes nothing.
-/

namespace RegexForge

structure Frame where
  container : Container
  pending : Option Quantifier
  elements : List Node
deriving DecidableEq

namespace Frame

def empty (container : Container) : Frame :=
  ⟨container, none, []⟩

def wrap (pending : Option Quantifier) (node : Node) : Node :=
  match pending with
  | none => node
  | some quantifier =>
      match node with
      | .anchor _ | .lookaround _ _ => node
      | _ => .quantified node quantifier

def stillPending (pending : Option Quantifier) : Node → Option Quantifier
  | .anchor _ => pending
  | _ => none

def push (frame : Frame) (node : Node) : Frame where
  container := frame.container
  pending := stillPending frame.pending node
  elements := frame.elements ++ [wrap frame.pending node]

end Frame

structure Builder where
  current : Frame
  outer : List Frame
  declared : Declarations
deriving DecidableEq

/-- A single count must be positive, and two bounds must increase; the lower of two may be zero. -/
def Quantifier.check : Quantifier → Except ArgumentFault Unit
  | exactly count | atLeast count =>
      if count = 0 then .error (.notPositive "n" count) else .ok ()
  | between low high | betweenLazy low high =>
      if high = 0 then .error (.notPositive "y" high)
      else if low < high then .ok ()
      else .error (.betweenOrder low high)
  | _ => .ok ()

/-- The bounds of a range given as texts: each a single character, in increasing order. -/
def rangeBounds (low high : Text) : Except ArgumentFault (Char × Char) :=
  match low.single?, high.single? with
  | none, _ => .error (.rangeBound low)
  | some _, none => .error (.rangeBound high)
  | some first, some last =>
      match checkRange first last with
      | .ok () => .ok (first, last)
      | .error range => .error (.reversedRange range)

def nonempty (name : String) (text : Text) : Except ArgumentFault Literal :=
  if text = [] then .error (.emptyText name) else .ok ⟨text⟩

namespace Builder

def new : Builder :=
  ⟨.empty .root, [], {}⟩

def depth (builder : Builder) : Nat :=
  builder.outer.length + 1

def isClosed (builder : Builder) : Bool :=
  builder.outer.isEmpty

def root (builder : Builder) : Frame :=
  builder.outer.getLast?.getD builder.current

/-- The finished expression. An open container is named by the error. -/
def regex (builder : Builder) : Except Error Regex :=
  if builder.isClosed then
    .ok ⟨builder.current.elements, builder.declared.flags, builder.declared.captures⟩
  else .error (.incomplete builder.current.container)

def render (builder : Builder) : Except Error Text :=
  builder.regex.map Regex.render

def push (builder : Builder) (node : Node) : Builder :=
  { builder with current := builder.current.push node }

def enter (builder : Builder) (container : Container) : Builder :=
  { builder with current := .empty container, outer := builder.current :: builder.outer }

def close (builder : Builder) : Except Error Builder :=
  match builder.outer with
  | [] => .error .unbalancedEnd
  | parent :: outer =>
      .ok { builder with
        current := parent.push (builder.current.container.node builder.current.elements)
        outer := outer }

def quantify (builder : Builder) (quantifier : Quantifier) : Except Error Builder := do
  quantifier.check.mapError Error.badArgument
  match builder.current.pending with
  | some pending => .error (.quantifierConflict pending quantifier)
  | none => .ok { builder with current := { builder.current with pending := some quantifier } }

def flag (builder : Builder) (flag : Flag) : Builder :=
  { builder with declared := builder.declared.declareFlag flag }

def charClass (builder : Builder) (kind : CharClass) : Builder :=
  builder.push (.charClass kind)

def startOfInput (builder : Builder) : Except Error Builder := do
  let declared ← builder.declared.declareStart
  return { builder with declared := declared }.push (.anchor .start)

def endOfInput (builder : Builder) : Except Error Builder := do
  let declared ← builder.declared.declareStop
  return { builder with declared := declared }.push (.anchor .stop)

def char (builder : Builder) (text : Text) : Except Error Builder :=
  match text.single? with
  | some c => .ok (builder.push (.char (.ofChar c)))
  | none => .error (.badArgument (.notAChar text))

def string (builder : Builder) (text : Text) : Except Error Builder := do
  let literal ← (nonempty "string" text).mapError Error.badArgument
  return builder.push (.string literal)

def range (builder : Builder) (low high : Text) : Except Error Builder := do
  let (first, last) ← (rangeBounds low high).mapError Error.badArgument
  return builder.push (.range first last)

def anythingButRange (builder : Builder) (low high : Text) : Except Error Builder := do
  let (first, last) ← (rangeBounds low high).mapError Error.badArgument
  return builder.push (.anythingButRange first last)

def anyOfChars (builder : Builder) (chars : Text) : Except Error Builder := do
  let literal ← (nonempty "chars" chars).mapError Error.badArgument
  return builder.push (.anyOfChars literal)

def anythingButChars (builder : Builder) (chars : Text) : Except Error Builder := do
  let literal ← (nonempty "chars" chars).mapError Error.badArgument
  return builder.push (.anythingButChars literal)

/-- Matches as many characters as the text has, each different from the one at its place. -/
def anythingButString (builder : Builder) (text : Text) : Except Error Builder := do
  let literal ← (nonempty "str" text).mapError Error.badArgument
  return builder.push (.anythingButString (literal.raw.map Literal.ofChar))

/-- Refers to a capture group by its number; groups are numbered from one as they are opened. -/
def backreference (builder : Builder) (index : Nat) : Except Error Builder :=
  if 0 < index ∧ index ≤ builder.declared.captures then
    .ok (builder.push (.backreference index))
  else .error (.badArgument (.backreference index builder.declared.captures))

def namedBackreference (builder : Builder) (name : Text) : Except Error Builder :=
  if builder.declared.hasName name then .ok (builder.push (.namedBackreference name))
  else .error (.unknownGroup name)

def group (builder : Builder) : Builder :=
  builder.enter .group

def capture (builder : Builder) : Builder :=
  { builder with declared := builder.declared.addCapture }.enter .capture

def namedCapture (builder : Builder) (name : Text) : Except Error Builder := do
  let declared ← builder.declared.declareName name
  return { builder with declared := declared.addCapture }.enter (.namedCapture name)

def anyOf (builder : Builder) : Builder :=
  builder.enter .anyOf

def lookaround (builder : Builder) (kind : Lookaround) : Builder :=
  builder.enter (.lookaround kind)

end Builder

end RegexForge
