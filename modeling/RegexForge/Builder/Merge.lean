import RegexForge.Builder

/-!
Merging a finished expression into another as a single element. The nodes are copied in document
order, and everything they declare is declared again in the parent: references move past the
parent's capture groups, names get a scope in front, anchors are dropped or declared. The first
node that the parent refuses decides the error.
-/

namespace RegexForge

structure MergeOptions where
  /-- Put in front of every group name and named reference. -/
  scope : Text := []
  keepFlags : Bool := false
  keepAnchors : Bool := false
deriving DecidableEq

namespace Merge

/-- Declares an anchor that is copied. A start of input inside a merged element also takes the
place of the end of input. -/
def declareAnchor (declared : Declarations) : Anchor → Except Error Declarations
  | .start => do
      let declared ← declared.declareStart
      return { declared with hasStop := true }
  | .stop => declared.declareStop

mutual

def copy (options : MergeOptions) (shift : Nat) :
    Node → Declarations → Except Error (Node × Declarations)
  | .noop, declared => .ok (.noop, declared)
  | .anchor anchor, declared =>
      if options.keepAnchors then do
        let declared ← declareAnchor declared anchor
        return (.anchor anchor, declared)
      else .ok (.noop, declared)
  | .charClass kind, declared => .ok (.charClass kind, declared)
  | .char literal, declared => .ok (.char literal, declared)
  | .string literal, declared => .ok (.string literal, declared)
  | .bracketSet set, declared => .ok (.bracketSet set, declared)
  | .range low high, declared => .ok (.range low high, declared)
  | .anythingButRange low high, declared => .ok (.anythingButRange low high, declared)
  | .anyOfChars literal, declared => .ok (.anyOfChars literal, declared)
  | .anythingButChars literal, declared => .ok (.anythingButChars literal, declared)
  | .anythingButString literals, declared => .ok (.anythingButString literals, declared)
  | .group capturing children, declared => do
      let (children, declared) ← copyAll options shift children
        (if capturing then declared.addCapture else declared)
      return (.group capturing children, declared)
  | .namedGroup name children, declared => do
      let declared ← declared.addCapture.declareName (options.scope ++ name)
      let (children, declared) ← copyAll options shift children declared
      return (.namedGroup (options.scope ++ name) children, declared)
  | .lookaround kind children, declared => do
      let (children, declared) ← copyAll options shift children declared
      return (.lookaround kind children, declared)
  | .anyOf children, declared => do
      let (children, declared) ← copyAll options shift children declared
      return (.anyOf children, declared)
  | .subexpression children, declared => do
      let (children, declared) ← copyAll options shift children declared
      return (.subexpression children, declared)
  | .backreference index, declared => .ok (.backreference (index + shift), declared)
  | .namedBackreference name, declared =>
      .ok (.namedBackreference (options.scope ++ name), declared)
  | .quantified inner quantifier, declared => do
      let (inner, declared) ← copy options shift inner declared
      return (.quantified inner quantifier, declared)

def copyAll (options : MergeOptions) (shift : Nat) :
    List Node → Declarations → Except Error (List Node × Declarations)
  | [], declared => .ok ([], declared)
  | node :: rest, declared => do
      let (node, declared) ← copy options shift node declared
      let (rest, declared) ← copyAll options shift rest declared
      return (node :: rest, declared)

end

end Merge

def Builder.subexpression (builder expression : Builder) (options : MergeOptions) :
    Except Error Builder :=
  if expression.isClosed then do
    let (nodes, declared) ← Merge.copyAll options builder.declared.captures
      expression.current.elements builder.declared
    let declared :=
      if options.keepFlags then declared.addFlags expression.declared.flags else declared
    return { builder with declared := declared }.push (.subexpression nodes)
  else .error (.notClosed expression.current.container)

end RegexForge
