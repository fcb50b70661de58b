import RegexForge.Literal

/-!
Bracketed sets of characters, kept as they were written: members in order, repetitions included,
and a mark for negation. A range is admitted only when it runs upwards.
-/

namespace RegexForge

structure ReversedRange where
  low : Char
  high : Char
deriving DecidableEq

def checkRange (low high : Char) : Except ReversedRange Unit :=
  if low < high then .ok () else .error ⟨low, high⟩

inductive SetMember where
  | char (c : Char)
  | range (low high : Char)
deriving DecidableEq

structure BracketSet where
  members : List SetMember := []
  negated : Bool := false
deriving DecidableEq

namespace SetMember

def chars? : List SetMember → Option Text
  | [] => some []
  | char c :: rest => (chars? rest).map (c :: ·)
  | range _ _ :: _ => none

/-- The member as a pattern spells it. The bounds of a range stand as they are. -/
def text : SetMember → Text
  | char c => escapeChar c
  | range low high => [low, '-', high]

end SetMember

namespace BracketSet

def empty : BracketSet := {}

def addChar (set : BracketSet) (c : Char) : BracketSet :=
  { set with members := set.members ++ [.char c] }

def addRange (set : BracketSet) (low high : Char) : Except ReversedRange BracketSet := do
  checkRange low high
  return { set with members := set.members ++ [.range low high] }

def invert (set : BracketSet) : BracketSet :=
  { set with negated := !set.negated }

def isEmpty (set : BracketSet) : Bool :=
  set.members.isEmpty

def charsOnly? (set : BracketSet) : Option Text :=
  SetMember.chars? set.members

def singleRange? (set : BracketSet) : Option (Char × Char) :=
  match set.members with
  | [.range low high] => some (low, high)
  | _ => none

def text (set : BracketSet) : Text :=
  '[' :: (if set.negated then ['^'] else []) ++ set.members.flatMap SetMember.text ++ [']']

theorem charsOnly?_eq_some_iff (set : BracketSet) (text : Text) :
    set.charsOnly? = some text ↔ set.members = text.map SetMember.char := by
  obtain ⟨members, negated⟩ := set
  change SetMember.chars? members = some text ↔ members = text.map SetMember.char
  induction members generalizing text with
  | nil => cases text <;> simp [SetMember.chars?]
  | cons member rest ih =>
      cases member with
      | char c =>
          simp only [SetMember.chars?, Option.map_eq_some_iff, ih]
          constructor
          · rintro ⟨tail, rfl, rfl⟩
            rfl
          · intro same
            cases text <;> simp_all
      | range low high => cases text <;> simp [SetMember.chars?]

end BracketSet

end RegexForge
