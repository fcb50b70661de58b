import RegexForge.Flag
import RegexForge.Node.Render

/-!
A whole expression: its nodes, its flags, and the number of capture groups met while it was read.
-/

namespace RegexForge

structure Regex where
  nodes : List Node
  flags : Flags
  captures : Nat
deriving DecidableEq

def slashed (pattern : Text) (flags : Flags) : Text :=
  '/' :: pattern ++ '/' :: flags.text

def Regex.render (regex : Regex) : Text :=
  slashed (Node.renderAll regex.nodes) regex.flags

end RegexForge
