import RegexForge.Text

/-!
Flags of an expression and sets of them. A set is one mark per flag, so order and repetition are
lost on the way in, and every listing is in the canonical order `g y m i u s`.
-/

namespace RegexForge

inductive Flag where
  | global
  | sticky
  | multiline
  | caseInsensitive
  | unicode
  | dotAll
deriving DecidableEq

namespace Flag

def all : List Flag :=
  [global, sticky, multiline, caseInsensitive, unicode, dotAll]

def toChar : Flag → Char
  | global => 'g'
  | sticky => 'y'
  | multiline => 'm'
  | caseInsensitive => 'i'
  | unicode => 'u'
  | dotAll => 's'

def ofChar? : Char → Option Flag
  | 'g' => some global
  | 'y' => some sticky
  | 'm' => some multiline
  | 'i' => some caseInsensitive
  | 'u' => some unicode
  | 's' => some dotAll
  | _ => none

def method : Flag → String
  | global => "allow_multiple_matches"
  | sticky => "sticky"
  | multiline => "line_by_line"
  | caseInsensitive => "case_insensitive"
  | unicode => "unicode"
  | dotAll => "single_line"

theorem ofChar?_toChar (flag : Flag) : ofChar? flag.toChar = some flag := by
  cases flag <;> rfl

theorem mem_all (flag : Flag) : flag ∈ all := by
  cases flag <;> decide

end Flag

structure Flags where
  global : Bool := false
  sticky : Bool := false
  multiline : Bool := false
  caseInsensitive : Bool := false
  unicode : Bool := false
  dotAll : Bool := false
deriving DecidableEq

namespace Flags

def empty : Flags := {}

def contains (flags : Flags) : Flag → Bool
  | .global => flags.global
  | .sticky => flags.sticky
  | .multiline => flags.multiline
  | .caseInsensitive => flags.caseInsensitive
  | .unicode => flags.unicode
  | .dotAll => flags.dotAll

def insert (flags : Flags) : Flag → Flags
  | .global => { flags with global := true }
  | .sticky => { flags with sticky := true }
  | .multiline => { flags with multiline := true }
  | .caseInsensitive => { flags with caseInsensitive := true }
  | .unicode => { flags with unicode := true }
  | .dotAll => { flags with dotAll := true }

def union (first second : Flags) : Flags where
  global := first.global || second.global
  sticky := first.sticky || second.sticky
  multiline := first.multiline || second.multiline
  caseInsensitive := first.caseInsensitive || second.caseInsensitive
  unicode := first.unicode || second.unicode
  dotAll := first.dotAll || second.dotAll

def toList (flags : Flags) : List Flag :=
  Flag.all.filter flags.contains

def ofList (list : List Flag) : Flags :=
  list.foldl insert empty

def isEmpty (flags : Flags) : Bool :=
  flags.toList.isEmpty

def text (flags : Flags) : Text :=
  flags.toList.map Flag.toChar

theorem ext_contains {first second : Flags}
    (same : ∀ flag, first.contains flag = second.contains flag) : first = second := by
  cases first
  cases second
  have g := same .global
  have y := same .sticky
  have m := same .multiline
  have i := same .caseInsensitive
  have u := same .unicode
  have s := same .dotAll
  simp only [contains] at g y m i u s
  simp only [g, y, m, i, u, s]

@[simp] theorem contains_empty (flag : Flag) : empty.contains flag = false := by
  cases flag <;> rfl

@[simp] theorem contains_insert (flags : Flags) (added flag : Flag) :
    (flags.insert added).contains flag = (decide (flag = added) || flags.contains flag) := by
  cases added <;> cases flag <;> simp [insert, contains]

@[simp] theorem mem_toList (flags : Flags) (flag : Flag) :
    flag ∈ flags.toList ↔ flags.contains flag = true := by
  simp [toList, Flag.mem_all]

end Flags

end RegexForge
