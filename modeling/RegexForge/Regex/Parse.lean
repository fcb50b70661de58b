import RegexForge.Enclosed
import RegexForge.Regex
import RegexForge.Token.Cursor

/-!
Reading a scanned pattern as a tree. A sequence holds elements up to the end or to a closing
parenthesis; an element is an anchor, a class, a character, a set or a group, each with the
quantifier that follows it. Neighbouring characters without a quantifier are joined into strings.

The scan may have ended in a fault. It is reported by `settle` as soon as the last token before it
has been taken, so that whichever of two faults a left-to-right reader meets first is the one
reported. The depth of nested groups is bounded by the number of tokens, and `sequence` takes that
bound as fuel.
-/

namespace RegexForge

inductive Refusal where
  | fault (fault : Fault)
  | internal (fault : InternalFault)
deriving DecidableEq

def Refusal.within (input : Text) : Refusal → Error
  | fault f => .badText input f
  | internal f => .internal f

namespace Parse

def refuse {α : Type} (pos : Nat) (kind : FaultKind) : Except Refusal α :=
  .error (.fault ⟨pos, kind⟩)

def settle (ending : Option Fault) : List PosToken → Except Refusal Unit
  | _ :: _ => .ok ()
  | [] =>
      match ending with
      | some fault => .error (.fault fault)
      | none => .ok ()

def boundsFault (bounds : Bounds) : FaultKind :=
  if bounds.max = none ∧ bounds.isLazy then .unsupported .lazyAtLeast
  else if bounds.max = some 0 then .invalidQuantifier .notPositive
  else .invalidQuantifier .outOfOrder

def quantified (ending : Option Fault) (item : Node) :
    List PosToken → Except Refusal (Node × List PosToken)
  | ⟨pos, .repetition bounds⟩ :: rest =>
      if item.isZeroWidth then refuse pos .nothingToRepeat
      else do
        settle ending rest
        match Quantifier.ofBounds? bounds with
        | some quantifier => return (.quantified item quantifier, rest)
        | none => refuse pos (boundsFault bounds)
  | tokens => .ok (item, tokens)

def setChar? : Token → Option Char
  | .literal c => some c
  | .minus => some '-'
  | _ => none

/-- Reads members up to the closing bracket. A minus between two characters makes a range, and the
last minus of a set is a character. -/
def setBody (ending : Option Fault) (start : Nat) :
    BracketSet → List PosToken → Except Refusal (BracketSet × List PosToken)
  | _, [] => refuse start .unclosedSet
  | set, ⟨pos, token⟩ :: rest => do
      settle ending rest
      if token = .closeSet then return (set, rest)
      else
        match setChar? token with
        | none => .error (.internal .foreignTokenInSet)
        | some low =>
            match rest with
            | ⟨_, .minus⟩ :: after => do
                settle ending after
                match after with
                | [] => refuse start .unclosedSet
                | next :: later =>
                    if next.token = .closeSet then
                      setBody ending start ((set.addChar low).addChar '-') (next :: later)
                    else
                      match setChar? next.token with
                      | none => refuse start .unclosedSet
                      | some high => do
                          settle ending later
                          match set.addRange low high with
                          | .ok set => setBody ending start set later
                          | .error range => refuse pos (.reversedRange range)
            | rest => setBody ending start (set.addChar low) rest

def bracketSet (ending : Option Fault) (start : Nat) (negated : Bool) (tokens : List PosToken) :
    Except Refusal (Node × List PosToken) := do
  let (set, rest) ← setBody ending start .empty tokens
  if set.isEmpty then refuse start .emptySet
  else if !negated then return (.bracketSet set, rest)
  else if set.charsOnly? = none ∧ set.singleRange? = none then
    refuse start (.unsupported .negatedSet)
  else return (.bracketSet set.invert, rest)

def groupNode : GroupKind → List Node → Node
  | .capture, children => .group true children
  | .plain, children => .group false children
  | .lookaround kind, children => .lookaround kind children

/-- Reads the element that starts with a token at byte `pos`; `children` reads a sequence. -/
def element (ending : Option Fault)
    (children : List PosToken → Except Refusal (List Node × List PosToken))
    (pos : Nat) (token : Token) (rest : List PosToken) : Except Refusal (Node × List PosToken) :=
  match token with
  | .literal c => .ok (.char (.ofChar c), rest)
  | .charClass kind => .ok (.charClass kind, rest)
  | .any => .ok (.charClass .anyChar, rest)
  | .caret => .ok (.anchor .start, rest)
  | .dollar => .ok (.anchor .stop, rest)
  | .openSet negated => bracketSet ending pos negated rest
  | .openGroup kind => do
      let (nodes, rest) ← children rest
      match rest with
      | ⟨_, .closeGroup⟩ :: rest => do
          settle ending rest
          return (groupNode kind nodes, rest)
      | _ => refuse pos .unclosedGroup
  | .repetition _ => refuse pos .nothingToRepeat
  | .closeGroup => refuse pos .unmatchedParen
  | .closeSet | .minus => .error (.internal .setTokenOutside)

def join : Node → List Node → List Node
  | .char first, .char second :: rest => .string ⟨first.raw ++ second.raw⟩ :: rest
  | .char first, .string second :: rest => .string ⟨first.raw ++ second.raw⟩ :: rest
  | node, rest => node :: rest

def sequence (ending : Option Fault) :
    Nat → List PosToken → Except Refusal (List Node × List PosToken)
  | 0, _ => .error (.internal .unfinished)
  | _ + 1, [] => .ok ([], [])
  | fuel + 1, ⟨pos, token⟩ :: rest =>
      if token = .closeGroup then .ok ([], ⟨pos, token⟩ :: rest)
      else do
        settle ending rest
        let (item, rest) ← element ending (sequence ending fuel) pos token rest
        let (item, rest) ← quantified ending item rest
        let (items, rest) ← sequence ending fuel rest
        return (join item items, rest)

def isCapture (token : PosToken) : Bool :=
  token.token = .openGroup .capture

def regex (scanned : Scanned) (flags : Flags) : Except Refusal Regex := do
  settle scanned.ending scanned.tokens
  let (nodes, rest) ← sequence scanned.ending (scanned.tokens.length + 1) scanned.tokens
  match rest with
  | [] => return ⟨nodes, flags, scanned.tokens.countP isCapture⟩
  | token :: _ => refuse token.pos .unmatchedParen

end Parse

namespace Regex

def ofPattern (pattern : Text) : Except Error Regex :=
  (Parse.regex (Cursor.atStart pattern 0).scanAll .empty).mapError (Refusal.within pattern)

/-- Reads an enclosed expression in place: faults are located in the whole of `text`. -/
def ofText (text : Text) : Except Error Regex := do
  let parts ← (Enclosed.ofText text).mapError (Error.badText text)
  (Parse.regex (Cursor.atStart parts.pattern parts.offset).scanAll parts.flags).mapError
    (Refusal.within text)

end Regex

end RegexForge
