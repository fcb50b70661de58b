import RegexForge.Token

/-!
Reading one token at the front of a text. A lexeme is what its first character and the text after
it make: a token and the text left over, or a refusal. Positions play no part here; a refusal says
only whether it points at the first character of the lexeme or at the place where reading stopped,
and the text left over after a refusal is where reading stopped. The main statement is that the
text left over is never longer than the text read, so every lexeme makes progress.
-/

namespace RegexForge

inductive Lexeme where
  | token (token : Token) (rest : Text)
  | refused (kind : FaultKind) (rest : Text)
  | missing (kind : FaultKind) (rest : Text)
deriving DecidableEq

namespace Lexeme

def rest : Lexeme → Text
  | token _ rest | refused _ rest | missing _ rest => rest

/-- A repetition, made lazy by a question mark that follows it. -/
def repetition (min : UInt64) (max : Option UInt64) : Text → Lexeme
  | '?' :: rest => token (.repetition ⟨min, max, true⟩) rest
  | rest => token (.repetition ⟨min, max, false⟩) rest

/-- The count that a run of digits spells, if it fits a word. -/
def count? (digits : Text) : Option UInt64 :=
  let value := Nat.ofDigitChars 10 digits 0
  if value < UInt64.size then some (UInt64.ofNat value) else none

def closeBraces (min : UInt64) (max : Option UInt64) : Text → Lexeme
  | '}' :: rest => repetition min max rest
  | rest => missing (.invalidQuantifier .expectedBrace) rest

def upperBound (min : UInt64) (text : Text) : Lexeme :=
  let rest := text.dropWhile Char.isDigit
  match text.takeWhile Char.isDigit with
  | [] => closeBraces min none rest
  | digits@(_ :: _) =>
      match count? digits with
      | none => refused (.invalidQuantifier .countTooLarge) rest
      | some max => closeBraces min (some max) rest

def afterLowerBound (min : UInt64) : Text → Lexeme
  | ',' :: rest => upperBound min rest
  | rest => closeBraces min (some min) rest

def braces (text : Text) : Lexeme :=
  let rest := text.dropWhile Char.isDigit
  match text.takeWhile Char.isDigit with
  | [] => refused (.invalidQuantifier .expectedNumber) rest
  | digits@(_ :: _) =>
      match count? digits with
      | none => refused (.invalidQuantifier .countTooLarge) rest
      | some min => afterLowerBound min rest

def group : Text → Lexeme
  | '?' :: ':' :: rest => token (.openGroup .plain) rest
  | '?' :: '=' :: rest => token (.openGroup (.lookaround .ahead)) rest
  | '?' :: '!' :: rest => token (.openGroup (.lookaround .notAhead)) rest
  | '?' :: '<' :: '=' :: rest => token (.openGroup (.lookaround .behind)) rest
  | '?' :: '<' :: '!' :: rest => token (.openGroup (.lookaround .notBehind)) rest
  | '?' :: rest => refused (.unsupported .group) ('?' :: rest)
  | rest => token (.openGroup .capture) rest

def escapeOutside : Text → Lexeme
  | [] => refused .incompleteEscape []
  | c :: rest =>
      match CharClass.ofEscape? c with
      | some kind => token (.charClass kind) rest
      | none =>
          if c.isDigit then refused (.unsupported .backreference) rest
          else token (.literal c) rest

def escapeInside : Text → Lexeme
  | [] => refused .incompleteEscape []
  | 'n' :: rest => token (.literal '\n') rest
  | 'r' :: rest => token (.literal '\r') rest
  | 't' :: rest => token (.literal '\t') rest
  | c :: rest =>
      if (CharClass.ofEscape? c).isSome then refused (.unsupported .classInSet) rest
      else token (.literal c) rest

def openSet : Text → Lexeme
  | '^' :: rest => token (.openSet true) rest
  | rest => token (.openSet false) rest

def outside (c : Char) (rest : Text) : Lexeme :=
  match c with
  | '\\' => escapeOutside rest
  | '^' => token .caret rest
  | '$' => token .dollar rest
  | '.' => token .any rest
  | '[' => openSet rest
  | '(' => group rest
  | ')' => token .closeGroup rest
  | '*' => repetition 0 none rest
  | '+' => repetition 1 none rest
  | '?' => repetition 0 (some 1) rest
  | '{' => braces rest
  | '|' => refused (.unsupported .alternation) rest
  | c => token (.literal c) rest

def inside (c : Char) (rest : Text) : Lexeme :=
  match c with
  | ']' => token .closeSet rest
  | '-' => token .minus rest
  | '\\' => escapeInside rest
  | c => token (.literal c) rest

theorem repetition_rest_suffix (min : UInt64) (max : Option UInt64) (text : Text) :
    (repetition min max text).rest <:+ text := by
  unfold repetition
  split
  · exact List.suffix_cons _ _
  · exact List.suffix_refl _

theorem closeBraces_rest_suffix (min : UInt64) (max : Option UInt64) (text : Text) :
    (closeBraces min max text).rest <:+ text := by
  unfold closeBraces
  split
  · exact (repetition_rest_suffix _ _ _).trans (List.suffix_cons _ _)
  · exact List.suffix_refl _

theorem upperBound_rest_suffix (min : UInt64) (text : Text) :
    (upperBound min text).rest <:+ text := by
  have dropped := List.dropWhile_suffix (l := text) Char.isDigit
  unfold upperBound
  split
  · exact (closeBraces_rest_suffix _ _ _).trans dropped
  · split
    · exact dropped
    · exact (closeBraces_rest_suffix _ _ _).trans dropped

theorem afterLowerBound_rest_suffix (min : UInt64) (text : Text) :
    (afterLowerBound min text).rest <:+ text := by
  unfold afterLowerBound
  split
  · exact (upperBound_rest_suffix _ _).trans (List.suffix_cons _ _)
  · exact closeBraces_rest_suffix _ _ _

theorem braces_rest_suffix (text : Text) : (braces text).rest <:+ text := by
  have dropped := List.dropWhile_suffix (l := text) Char.isDigit
  unfold braces
  split
  · exact dropped
  · split
    · exact dropped
    · exact (afterLowerBound_rest_suffix _ _).trans dropped

theorem group_rest_suffix (text : Text) : (group text).rest <:+ text := by
  unfold group
  split
  · exact ⟨['?', ':'], rfl⟩
  · exact ⟨['?', '='], rfl⟩
  · exact ⟨['?', '!'], rfl⟩
  · exact ⟨['?', '<', '='], rfl⟩
  · exact ⟨['?', '<', '!'], rfl⟩
  · exact List.suffix_refl _
  · exact List.suffix_refl _

theorem escapeOutside_rest_suffix (text : Text) : (escapeOutside text).rest <:+ text := by
  unfold escapeOutside
  split
  · exact List.suffix_refl _
  · split
    · exact List.suffix_cons _ _
    · split <;> exact List.suffix_cons _ _

theorem escapeInside_rest_suffix (text : Text) : (escapeInside text).rest <:+ text := by
  unfold escapeInside
  split
  · exact List.suffix_refl _
  · exact List.suffix_cons _ _
  · exact List.suffix_cons _ _
  · exact List.suffix_cons _ _
  · split <;> exact List.suffix_cons _ _

theorem outside_rest_suffix (c : Char) (text : Text) : (outside c text).rest <:+ text := by
  unfold outside
  split
  · exact escapeOutside_rest_suffix text
  · exact List.suffix_refl _
  · exact List.suffix_refl _
  · exact List.suffix_refl _
  · unfold openSet
    split
    · exact List.suffix_cons _ _
    · exact List.suffix_refl _
  · exact group_rest_suffix text
  · exact List.suffix_refl _
  · exact repetition_rest_suffix _ _ _
  · exact repetition_rest_suffix _ _ _
  · exact repetition_rest_suffix _ _ _
  · exact braces_rest_suffix text
  · exact List.suffix_refl _
  · exact List.suffix_refl _

theorem inside_rest_suffix (c : Char) (text : Text) : (inside c text).rest <:+ text := by
  unfold inside
  split
  · exact List.suffix_refl _
  · exact List.suffix_refl _
  · exact escapeInside_rest_suffix text
  · exact List.suffix_refl _

end Lexeme

end RegexForge
