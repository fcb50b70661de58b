import RegexForge.Call
import RegexForge.Regex.Parse

/-!
Scripts: the builder calls that reproduce an expression, one to a line. A tree is lowered to a
script in document order, flags first; a script is printed as source text, or replayed on a new
builder to check that its calls really give the expression.
-/

namespace RegexForge

/-- A call, the depth of the container it is made in, and the quantifier requested before it. -/
structure Line where
  depth : Nat
  quantifier : Option Quantifier
  call : Call
deriving DecidableEq

abbrev Script := List Line

def Line.text (line : Line) : Text :=
  List.replicate (4 * (line.depth + 1)) ' '
    ++ (match line.quantifier with
      | some quantifier => '.' :: quantifier.text ++ ['?']
      | none => [])
    ++ '.' :: line.call.text ++ (if line.call.isFallible then ['?'] else [])

namespace SetMember

def call : SetMember → Call
  | char c => .char [c]
  | range low high => .range [low] [high]

end SetMember

def block (depth : Nat) (quantifier : Option Quantifier) (opening : Call) (body : Script) :
    Script :=
  ⟨depth, quantifier, opening⟩ :: body ++ [⟨depth + 1, none, .close⟩]

/-- Picks the narrowest call for a set: a character list, a single range, or alternatives that list
the members. No call expresses a negated set that mixes both. -/
def BracketSet.script (set : BracketSet) (depth : Nat) (quantifier : Option Quantifier) :
    Except InternalFault Script :=
  match set.charsOnly?, set.singleRange? with
  | some chars, _ =>
      .ok [⟨depth, quantifier,
        if set.negated then .anythingButChars chars else .anyOfChars chars⟩]
  | none, some (low, high) =>
      .ok [⟨depth, quantifier,
        if set.negated then .anythingButRange [low] [high] else .range [low] [high]⟩]
  | none, none =>
      if set.negated then .error .mixedNegatedSet
      else .ok (block depth quantifier .anyOf
        (set.members.map fun member => ⟨depth + 1, none, member.call⟩))

namespace Node

def charCall (literal : Literal) : Call :=
  match literal.raw.single? with
  | some c => .char [c]
  | none => .string literal.raw

mutual

def script : Node → Nat → Option Quantifier → Except InternalFault Script
  | noop, _, _ => .ok []
  | anchor .start, depth, quantifier => .ok [⟨depth, quantifier, .startOfInput⟩]
  | anchor .stop, depth, quantifier => .ok [⟨depth, quantifier, .endOfInput⟩]
  | charClass kind, depth, quantifier => .ok [⟨depth, quantifier, .charClass kind⟩]
  | char literal, depth, quantifier => .ok [⟨depth, quantifier, charCall literal⟩]
  | string literal, depth, quantifier => .ok [⟨depth, quantifier, .string literal.raw⟩]
  | bracketSet set, depth, quantifier => set.script depth quantifier
  | range low high, depth, quantifier => .ok [⟨depth, quantifier, .range [low] [high]⟩]
  | anythingButRange low high, depth, quantifier =>
      .ok [⟨depth, quantifier, .anythingButRange [low] [high]⟩]
  | anyOfChars literal, depth, quantifier => .ok [⟨depth, quantifier, .anyOfChars literal.raw⟩]
  | anythingButChars literal, depth, quantifier =>
      .ok [⟨depth, quantifier, .anythingButChars literal.raw⟩]
  | anythingButString literals, depth, quantifier =>
      .ok [⟨depth, quantifier, .anythingButString (literals.flatMap Literal.raw)⟩]
  | group true children, depth, quantifier => do
      return block depth quantifier .capture (← scriptAll children (depth + 1))
  | group false children, depth, quantifier => do
      return block depth quantifier .group (← scriptAll children (depth + 1))
  | namedGroup name children, depth, quantifier => do
      return block depth quantifier (.namedCapture name) (← scriptAll children (depth + 1))
  | lookaround kind children, depth, quantifier => do
      return block depth quantifier (.lookaround kind) (← scriptAll children (depth + 1))
  | anyOf children, depth, quantifier => do
      return block depth quantifier .anyOf (← scriptAll children (depth + 1))
  -- A merged element spells its children in place; only a quantifier needs the group.
  | subexpression children, depth, none => scriptAll children depth
  | subexpression children, depth, some quantifier => do
      return block depth (some quantifier) .group (← scriptAll children (depth + 1))
  | backreference index, depth, quantifier => .ok [⟨depth, quantifier, .backreference index⟩]
  | namedBackreference name, depth, quantifier =>
      .ok [⟨depth, quantifier, .namedBackreference name⟩]
  | quantified inner quantifier, depth, none => script inner depth (some quantifier)
  | quantified _ _, _, some _ => .error .doubleQuantifier

def scriptAll : List Node → Nat → Except InternalFault Script
  | [], _ => .ok []
  | node :: rest, depth => do
      return (← script node depth none) ++ (← scriptAll rest depth)

end

end Node

def Regex.script (regex : Regex) : Except Error Script := do
  let body ← (Node.scriptAll regex.nodes 0).mapError Error.internal
  return regex.flags.toList.map (fun flag => ⟨0, none, .flag flag⟩) ++ body

namespace Script

def text (script : Script) : Text :=
  "RegexBuilder::new()".toList ++ script.flatMap fun line => '\n' :: line.text

def step (builder : Builder) (line : Line) : Except Error Builder :=
  match line.quantifier with
  | none => builder.apply line.call
  | some quantifier => do
      let builder ← builder.quantify quantifier
      builder.apply line.call

def replay (script : Script) : Except Error Builder :=
  script.foldlM step Builder.new

end Script

def sourceOf (text : Text) : Except Error Text := do
  let regex ← Regex.ofText text
  let script ← regex.script
  return script.text

end RegexForge
