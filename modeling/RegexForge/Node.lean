import RegexForge.BracketSet
import RegexForge.CharClass
import RegexForge.Quantifier

/-!
Expression trees. Leaves and containers are kept in the form in which they were asked for, so that
a tree can be turned back into the calls that build it. Two trees are equal when they have the same
nodes in the same order; equality is decidable, by recursion on the first tree.
-/

namespace RegexForge

inductive Anchor where
  | start
  | stop
deriving DecidableEq

inductive Lookaround where
  | ahead
  | notAhead
  | behind
  | notBehind
deriving DecidableEq

namespace Lookaround

def opener : Lookaround → Text
  | ahead => ['(', '?', '=']
  | notAhead => ['(', '?', '!']
  | behind => ['(', '?', '<', '=']
  | notBehind => ['(', '?', '<', '!']

def method : Lookaround → String
  | ahead => "assert_ahead"
  | notAhead => "assert_not_ahead"
  | behind => "assert_behind"
  | notBehind => "assert_not_behind"

end Lookaround

inductive Node where
  /-- Stands where a merge dropped an anchor, and spells nothing. -/
  | noop
  | anchor (anchor : Anchor)
  | charClass (charClass : CharClass)
  | char (literal : Literal)
  | string (literal : Literal)
  | bracketSet (set : BracketSet)
  | range (low high : Char)
  | anythingButRange (low high : Char)
  | anyOfChars (literal : Literal)
  | anythingButChars (literal : Literal)
  /-- One literal for each character that must differ. -/
  | anythingButString (literals : List Literal)
  | group (capturing : Bool) (children : List Node)
  | namedGroup (name : Text) (children : List Node)
  | lookaround (kind : Lookaround) (children : List Node)
  | anyOf (children : List Node)
  | subexpression (children : List Node)
  | backreference (index : Nat)
  | namedBackreference (name : Text)
  | quantified (inner : Node) (quantifier : Quantifier)

namespace Node

/-- Whether a pattern refuses a quantifier after the node. -/
def isZeroWidth : Node → Bool
  | anchor _ | lookaround _ _ => true
  | _ => false

/-- Whether the node spells more than one atom, so that a quantifier needs a group around it. -/
def needsGroup : Node → Bool
  | string literal => literal.isMulti
  | subexpression _ => true
  | _ => false

mutual

def same : Node → Node → Bool
  | noop, noop => true
  | anchor a, anchor b => a == b
  | charClass a, charClass b => a == b
  | char a, char b => a == b
  | string a, string b => a == b
  | bracketSet a, bracketSet b => a == b
  | range a a', range b b' => a == b && a' == b'
  | anythingButRange a a', anythingButRange b b' => a == b && a' == b'
  | anyOfChars a, anyOfChars b => a == b
  | anythingButChars a, anythingButChars b => a == b
  | anythingButString a, anythingButString b => a == b
  | group a as, group b bs => a == b && sameAll as bs
  | namedGroup a as, namedGroup b bs => a == b && sameAll as bs
  | lookaround a as, lookaround b bs => a == b && sameAll as bs
  | anyOf as, anyOf bs => sameAll as bs
  | subexpression as, subexpression bs => sameAll as bs
  | backreference a, backreference b => a == b
  | namedBackreference a, namedBackreference b => a == b
  | quantified a q, quantified b r => same a b && q == r
  | _, _ => false

def sameAll : List Node → List Node → Bool
  | [], [] => true
  | a :: as, b :: bs => same a b && sameAll as bs
  | _, _ => false

end

mutual

theorem same_iff (a b : Node) : same a b = true ↔ a = b := by
  cases a <;> cases b <;> simp [same, same_iff, sameAll_iff]

theorem sameAll_iff (as bs : List Node) : sameAll as bs = true ↔ as = bs := by
  cases as <;> cases bs <;> simp [sameAll, same_iff, sameAll_iff]

end

instance : DecidableEq Node :=
  fun a b => decidable_of_iff (same a b = true) (same_iff a b)

end Node

end RegexForge
