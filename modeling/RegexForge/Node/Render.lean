import RegexForge.Node

/-!
The pattern text of a tree. Rendering is structural: every node has one spelling, made of the
spellings of its children. Alternatives are the one place where order changes: single characters,
ranges and character lists are gathered into one bracket after all other alternatives, and both
parts keep their own order.
-/

namespace RegexForge.Node

def enclose (opener body : Text) : Text :=
  opener ++ body ++ [')']

def bracket (body : Text) : Text :=
  '[' :: body ++ [']']

/-- What the node contributes to the bracket that alternatives share, if it is a member of it. -/
def member? : Node → Option Text
  | char literal | anyOfChars literal => some literal.escaped
  | range low high => some [low, '-', high]
  | _ => none

def memberText (children : List Node) : Text :=
  (children.filterMap member?).flatten

def alternation (members : Text) : List Text → Text
  | [] => bracket members
  | alternatives@(_ :: _) =>
      enclose ['(', '?', ':'] <| List.intercalate ['|'] <|
        if members = [] then alternatives else alternatives ++ [bracket members]

mutual

def render : Node → Text
  | noop => []
  | anchor .start => ['^']
  | anchor .stop => ['$']
  | charClass kind => kind.symbol
  | char literal => literal.escaped
  | string literal => literal.escaped
  | bracketSet set => set.text
  | range low high => bracket [low, '-', high]
  | anythingButRange low high => bracket ['^', low, '-', high]
  | anyOfChars literal => bracket literal.escaped
  | anythingButChars literal => bracket ('^' :: literal.escaped)
  | anythingButString literals =>
      enclose ['(', '?', ':'] (literals.flatMap fun literal => bracket ('^' :: literal.escaped))
  | group true children => enclose ['('] (renderAll children)
  | group false children => enclose ['(', '?', ':'] (renderAll children)
  | namedGroup name children => enclose (['(', '?', '<'] ++ name ++ ['>']) (renderAll children)
  | lookaround kind children => enclose kind.opener (renderAll children)
  | anyOf children => alternation (memberText children) (renderAlternatives children)
  | subexpression children => renderAll children
  | backreference index => '\\' :: Nat.toDigits 10 index
  | namedBackreference name => ['\\', 'k', '<'] ++ name ++ ['>']
  | quantified inner quantifier =>
      (if inner.needsGroup then enclose ['(', '?', ':'] (render inner) else render inner)
        ++ quantifier.suffix

def renderAll : List Node → Text
  | [] => []
  | node :: rest => render node ++ renderAll rest

/-- The spellings of the alternatives that stay outside the shared bracket. -/
def renderAlternatives : List Node → List Text
  | [] => []
  | node :: rest =>
      if (member? node).isSome then renderAlternatives rest
      else render node :: renderAlternatives rest

end

@[simp] theorem renderAll_nil : renderAll [] = [] := rfl

@[simp] theorem renderAll_cons (node : Node) (rest : List Node) :
    renderAll (node :: rest) = render node ++ renderAll rest := rfl

@[simp] theorem renderAll_append (first second : List Node) :
    renderAll (first ++ second) = renderAll first ++ renderAll second := by
  induction first with
  | nil => rfl
  | cons node rest ih => simp [ih]

theorem renderAlternatives_append (first second : List Node) :
    renderAlternatives (first ++ second) =
      renderAlternatives first ++ renderAlternatives second := by
  induction first with
  | nil => rfl
  | cons node rest ih =>
      simp only [List.cons_append, renderAlternatives, ih]
      split <;> rfl

end RegexForge.Node
