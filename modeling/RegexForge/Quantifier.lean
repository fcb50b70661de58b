import RegexForge.Text

/-!
Quantifiers and the bounds they stand for. A pattern writes bounds; a quantifier names the method
that produces them, and keeps the spelling it was made with, so several quantifiers may stand for
the same bounds. Counts are words of 64 bits.
-/

namespace RegexForge

structure Bounds where
  min : UInt64
  max : Option UInt64
  isLazy : Bool
deriving DecidableEq

inductive Quantifier where
  | optional
  | zeroOrMore
  | zeroOrMoreLazy
  | oneOrMore
  | oneOrMoreLazy
  | exactly (count : UInt64)
  | atLeast (count : UInt64)
  | between (low high : UInt64)
  | betweenLazy (low high : UInt64)
deriving DecidableEq

def countText (count : UInt64) : Text :=
  Nat.toDigits 10 count.toNat

namespace Quantifier

/-- The quantifier for bounds read from a pattern. No method expresses a count of zero, an upper
bound below the lower one, or a lazy repetition without an upper bound from two on. -/
def ofBounds? (bounds : Bounds) : Option Quantifier :=
  match bounds.max with
  | none =>
      if bounds.min = 0 then
        some (if bounds.isLazy then zeroOrMoreLazy else zeroOrMore)
      else if bounds.min = 1 then
        some (if bounds.isLazy then oneOrMoreLazy else oneOrMore)
      else if bounds.isLazy then none
      else some (atLeast bounds.min)
  | some max =>
      if bounds.min < max then
        if bounds.isLazy then some (betweenLazy bounds.min max)
        else if bounds.min = 0 ∧ max = 1 then some optional
        else some (between bounds.min max)
      else if bounds.min = max ∧ 0 < max then some (exactly max)
      else none

def min : Quantifier → UInt64
  | optional | zeroOrMore | zeroOrMoreLazy => 0
  | oneOrMore | oneOrMoreLazy => 1
  | exactly count | atLeast count => count
  | between low _ | betweenLazy low _ => low

def max : Quantifier → Option UInt64
  | optional => some 1
  | exactly count => some count
  | between _ high | betweenLazy _ high => some high
  | zeroOrMore | zeroOrMoreLazy | oneOrMore | oneOrMoreLazy | atLeast _ => none

def isLazy : Quantifier → Bool
  | zeroOrMoreLazy | oneOrMoreLazy | betweenLazy _ _ => true
  | _ => false

def bounds (q : Quantifier) : Bounds :=
  ⟨q.min, q.max, q.isLazy⟩

def braced (inner : Text) : Text :=
  '{' :: inner ++ ['}']

def suffix : Quantifier → Text
  | optional => ['?']
  | zeroOrMore => ['*']
  | zeroOrMoreLazy => ['*', '?']
  | oneOrMore => ['+']
  | oneOrMoreLazy => ['+', '?']
  | exactly count => braced (countText count)
  | atLeast count => braced (countText count ++ [','])
  | between low high => braced (countText low ++ ',' :: countText high)
  | betweenLazy low high => braced (countText low ++ ',' :: countText high) ++ ['?']

def method : Quantifier → String
  | optional => "optional"
  | zeroOrMore => "zero_or_more"
  | zeroOrMoreLazy => "zero_or_more_lazy"
  | oneOrMore => "one_or_more"
  | oneOrMoreLazy => "one_or_more_lazy"
  | exactly _ => "exactly"
  | atLeast _ => "at_least"
  | between _ _ => "between"
  | betweenLazy _ _ => "between_lazy"

def arguments : Quantifier → Text
  | exactly count | atLeast count => countText count
  | between low high | betweenLazy low high => countText low ++ ", ".toList ++ countText high
  | _ => []

def text (q : Quantifier) : Text :=
  q.method.toList ++ '(' :: q.arguments ++ [')']

theorem min_ofBounds? {bounds : Bounds} {q : Quantifier} (read : ofBounds? bounds = some q) :
    q.min = bounds.min := by
  unfold ofBounds? at read
  grind [min]

theorem max_ofBounds? {bounds : Bounds} {q : Quantifier} (read : ofBounds? bounds = some q) :
    q.max = bounds.max := by
  unfold ofBounds? at read
  grind [max]

end Quantifier

end RegexForge
