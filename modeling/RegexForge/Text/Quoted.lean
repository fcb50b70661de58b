import RegexForge.Text.Shapeless

/-!
Quoted texts, the form in which strings stand in generated calls. A quoted text lies between
double quotes and stays on one line: quotes and backslashes get a backslash, the four common
controls have a letter each, and any other shapeless character is written by its code point.
-/

namespace RegexForge.Text

/-- Writes a code point in lower-case hexadecimal without leading zeros, between braces. -/
def codePoint (c : Char) : Text :=
  "\\u".toList ++ '{' :: Nat.toDigits 16 c.toNat ++ ['}']

def quotedChar (c : Char) : Text :=
  if c = '"' then ['\\', '"']
  else if c = '\\' then ['\\', '\\']
  else if c = '\x00' then ['\\', '0']
  else if c = '\t' then ['\\', 't']
  else if c = '\n' then ['\\', 'n']
  else if c = '\r' then ['\\', 'r']
  else if isShapeless c then codePoint c
  else [c]

def quoted (text : Text) : Text :=
  '"' :: text.flatMap quotedChar ++ ['"']

end RegexForge.Text
