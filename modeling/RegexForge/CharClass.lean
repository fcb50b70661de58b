import RegexForge.Text

/-!
Character classes and the zero-width word boundaries that share their spelling. Each has a symbol
in patterns and a method in programs. The null byte has a symbol but no escape that reads as it,
because a backslash before any digit reads as a reference.
-/

namespace RegexForge

inductive CharClass where
  | anyChar
  | digit
  | nonDigit
  | word
  | nonWord
  | whitespace
  | nonWhitespace
  | wordBoundary
  | nonWordBoundary
  | newline
  | carriageReturn
  | tab
  | nullByte
deriving DecidableEq

namespace CharClass

def symbol : CharClass → Text
  | anyChar => ['.']
  | digit => ['\\', 'd']
  | nonDigit => ['\\', 'D']
  | word => ['\\', 'w']
  | nonWord => ['\\', 'W']
  | whitespace => ['\\', 's']
  | nonWhitespace => ['\\', 'S']
  | wordBoundary => ['\\', 'b']
  | nonWordBoundary => ['\\', 'B']
  | newline => ['\\', 'n']
  | carriageReturn => ['\\', 'r']
  | tab => ['\\', 't']
  | nullByte => ['\\', '0']

def ofEscape? : Char → Option CharClass
  | 'd' => some digit
  | 'D' => some nonDigit
  | 'w' => some word
  | 'W' => some nonWord
  | 's' => some whitespace
  | 'S' => some nonWhitespace
  | 'b' => some wordBoundary
  | 'B' => some nonWordBoundary
  | 'n' => some newline
  | 'r' => some carriageReturn
  | 't' => some tab
  | _ => none

def method : CharClass → String
  | anyChar => "any_char"
  | digit => "digit"
  | nonDigit => "non_digit"
  | word => "word"
  | nonWord => "non_word"
  | whitespace => "whitespace_char"
  | nonWhitespace => "non_whitespace_char"
  | wordBoundary => "word_boundary"
  | nonWordBoundary => "non_word_boundary"
  | newline => "newline"
  | carriageReturn => "carriage_return"
  | tab => "tab"
  | nullByte => "null_byte"

theorem symbol_of_ofEscape? {c : Char} {k : CharClass} (read : ofEscape? c = some k) :
    k.symbol = ['\\', c] := by
  unfold ofEscape? at read
  split at read <;> first | contradiction | (cases read; rfl)

end CharClass

end RegexForge
