import RegexForge.Text

/-!
Literal texts and the way patterns spell them. Every character with a meaning of its own gets a
backslash, and the null byte and three line controls are written by name, so that a spelling holds
none of them raw.
-/

namespace RegexForge

def specialChars : List Char :=
  ['.', '\\', '+', '*', '?', '[', '^', ']', '$', '(', ')', '{', '}', '=', '!', '<', '>', '|',
    ':', '-', '#', '/']

def isSpecial (c : Char) : Bool :=
  specialChars.contains c

def escapeChar (c : Char) : Text :=
  if c = '\x00' then ['\\', '0', '0', '0']
  else if c = '\n' then ['\\', 'n']
  else if c = '\r' then ['\\', 'r']
  else if c = '\t' then ['\\', 't']
  else if isSpecial c then ['\\', c]
  else [c]

def escape (text : Text) : Text :=
  text.flatMap escapeChar

structure Literal where
  raw : Text
deriving DecidableEq

namespace Literal

def ofChar (c : Char) : Literal := ⟨[c]⟩

def escaped (literal : Literal) : Text :=
  escape literal.raw

/-- Whether the literal spans more than one character, and so needs a group before a quantifier
can apply to all of it. -/
def isMulti (literal : Literal) : Bool :=
  literal.raw.length > 1

end Literal

end RegexForge
