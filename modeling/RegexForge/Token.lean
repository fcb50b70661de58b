import RegexForge.Error

/-!
Tokens of a pattern. What a character means depends on whether it stands inside a bracketed set;
`openSet` and `closeSet` mark the change, `minus` occurs only between them, and all other tokens
but `literal` only outside.
-/

namespace RegexForge

inductive GroupKind where
  | capture
  | plain
  | lookaround (kind : Lookaround)
deriving DecidableEq

inductive Token where
  | literal (c : Char)
  | charClass (kind : CharClass)
  | any
  | caret
  | dollar
  | openGroup (kind : GroupKind)
  | closeGroup
  | openSet (negated : Bool)
  | closeSet
  | minus
  | repetition (bounds : Bounds)
deriving DecidableEq

/-- A token and the byte at which it starts. -/
structure PosToken where
  pos : Nat
  token : Token
deriving DecidableEq

end RegexForge
