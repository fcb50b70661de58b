import RegexForge.Error
import RegexForge.Flag

/-!
Expressions in their enclosed form: a delimiter, a pattern, the delimiter again, and flags. The
pattern reaches to the last delimiter, so it may hold the delimiter unescaped, and no flag can.
-/

namespace RegexForge

def delimiters : List Char :=
  ['/', '#', '~', '@', ';', '%', '\x60']

structure Enclosed where
  delimiter : Char
  pattern : Text
  flags : Flags
deriving DecidableEq

/-- Splits a text around the last occurrence of a character. -/
def splitLast? (sep : Char) : Text → Option (Text × Text)
  | [] => none
  | c :: rest =>
      match splitLast? sep rest with
      | some (before, after) => some (c :: before, after)
      | none => if c = sep then some ([], rest) else none

/-- Adds the flags spelled by a text that starts at byte `pos`; each may appear once. -/
def Flags.read (pos : Nat) (flags : Flags) : Text → Except Fault Flags
  | [] => .ok flags
  | c :: rest =>
      match Flag.ofChar? c with
      | none => .error ⟨pos, .unknownFlag c⟩
      | some flag =>
          if flags.contains flag then .error ⟨pos, .duplicateFlag c⟩
          else Flags.read (pos + c.utf8Size) (flags.insert flag) rest

namespace Enclosed

def offset (parts : Enclosed) : Nat :=
  parts.delimiter.utf8Size

def ofText (text : Text) : Except Fault Enclosed :=
  match text with
  | [] | [_] => .error ⟨0, .tooShort⟩
  | delimiter :: rest =>
      if delimiter ∈ delimiters then
        match splitLast? delimiter rest with
        | none => .error ⟨Text.bytes text, .missingDelimiter⟩
        | some (pattern, tail) => do
            let flags ← Flags.read (Text.bytes text - Text.bytes tail) .empty tail
            return ⟨delimiter, pattern, flags⟩
      else .error ⟨0, .invalidDelimiter delimiter⟩

end Enclosed

theorem splitLast?_eq_none_iff {sep : Char} {text : Text} :
    splitLast? sep text = none ↔ sep ∉ text := by
  induction text with
  | nil => simp [splitLast?]
  | cons c rest ih =>
      unfold splitLast?
      cases found : splitLast? sep rest <;> grind

theorem splitLast?_append {sep : Char} (before : Text) {after : Text} (last : sep ∉ after) :
    splitLast? sep (before ++ sep :: after) = some (before, after) := by
  induction before with
  | nil => simp [splitLast?, splitLast?_eq_none_iff.mpr last]
  | cons c rest ih => simp [splitLast?, ih]

theorem eq_append_of_splitLast? {sep : Char} {text before after : Text}
    (split : splitLast? sep text = some (before, after)) :
    text = before ++ sep :: after ∧ sep ∉ after := by
  induction text generalizing before with
  | nil => simp [splitLast?] at split
  | cons c rest ih =>
      unfold splitLast? at split
      cases found : splitLast? sep rest with
      | some parts =>
          obtain ⟨front, back⟩ := parts
          simp only [found, Option.some.injEq, Prod.mk.injEq] at split
          obtain ⟨rfl, rfl⟩ := split
          simpa using ih found
      | none =>
          have absent := splitLast?_eq_none_iff.mp found
          grind

end RegexForge
