import RegexForge.Container

/-!
Causes of refusal and their wording. A fault lies at a place of a text that is being read; the
other causes belong to single calls. Only `message` knows the words.
-/

namespace RegexForge

inductive Unsupported where
  | alternation
  | backreference
  | group
  | classInSet
  | negatedSet
  | lazyAtLeast
deriving DecidableEq

inductive QuantifierFault where
  | expectedNumber
  | countTooLarge
  | expectedBrace
  | notPositive
  | outOfOrder
deriving DecidableEq

inductive FaultKind where
  | tooShort
  | invalidDelimiter (c : Char)
  | missingDelimiter
  | unknownFlag (c : Char)
  | duplicateFlag (c : Char)
  | incompleteEscape
  | unclosedSet
  | emptySet
  | reversedRange (range : ReversedRange)
  | invalidQuantifier (fault : QuantifierFault)
  | nothingToRepeat
  | unmatchedParen
  | unclosedGroup
  | unsupported (what : Unsupported)
deriving DecidableEq

/-- What is wrong with a text, and the byte at which it shows. -/
structure Fault where
  pos : Nat
  kind : FaultKind
deriving DecidableEq

inductive ArgumentFault where
  | notAChar (text : Text)
  | rangeBound (text : Text)
  | reversedRange (range : ReversedRange)
  | notPositive (name : String) (value : UInt64)
  | betweenOrder (low high : UInt64)
  | emptyText (name : String)
  | backreference (index groups : Nat)
deriving DecidableEq

inductive AnchorConflict where
  | start
  | startAfterStop
  | stop
deriving DecidableEq

/-- Breaches of an invariant of this library, never of the caller's. -/
inductive InternalFault where
  | setTokenOutside
  | foreignTokenInSet
  | unfinished
  | doubleQuantifier
  | mixedNegatedSet
deriving DecidableEq

inductive Error where
  | badText (input : Text) (fault : Fault)
  | badArgument (fault : ArgumentFault)
  | quantifierConflict (pending requested : Quantifier)
  | unbalancedEnd
  | invalidName (name : Text)
  | duplicateName (name : Text)
  | unknownGroup (name : Text)
  | duplicateAnchor (conflict : AnchorConflict)
  | incomplete (container : Container)
  | notClosed (container : Container)
  | internal (fault : InternalFault)
deriving DecidableEq

def inQuotes (text : Text) : String :=
  "\"" ++ String.ofList text ++ "\""

def ReversedRange.message (range : ReversedRange) : String :=
  "a must have a smaller character value than b (a = " ++ range.low.toNat.repr
    ++ ", b = " ++ range.high.toNat.repr ++ ")"

def Unsupported.message : Unsupported → String
  | alternation => "alternation (|) outside of any_of is"
  | backreference => "backreferences are"
  | group => "named groups and other (? extensions are"
  | classInSet => "class escapes inside a character set are"
  | negatedSet => "negated character sets mixing ranges and characters are"
  | lazyAtLeast => "lazy open-ended quantifiers other than *? and +? are"

def QuantifierFault.message : QuantifierFault → String
  | expectedNumber => "expected number"
  | countTooLarge => "count is too large"
  | expectedBrace => "expected \x7d"
  | notPositive => "count must be positive"
  | outOfOrder => "numbers out of order"

def FaultKind.message : FaultKind → String
  | tooShort => "invalid regex: too short"
  | invalidDelimiter c => "invalid delimiter '" ++ String.singleton c ++ "'"
  | missingDelimiter => "missing closing delimiter"
  | unknownFlag c => "unknown flag '" ++ String.singleton c ++ "'"
  | duplicateFlag c => "duplicate flag '" ++ String.singleton c ++ "'"
  | incompleteEscape => "incomplete escape sequence"
  | unclosedSet => "unclosed character set"
  | emptySet => "empty character set"
  | reversedRange range => range.message
  | invalidQuantifier fault => "invalid quantifier: " ++ fault.message
  | nothingToRepeat => "unexpected quantifier without preceding element"
  | unmatchedParen => "unmatched ')'"
  | unclosedGroup => "unclosed group"
  | unsupported what => what.message ++ " not supported"

def Fault.message (fault : Fault) : String :=
  fault.kind.message ++ " at position " ++ fault.pos.repr

def ArgumentFault.message : ArgumentFault → String
  | notAChar text =>
      "char() can only be called with a single character (got " ++ inQuotes text ++ ")"
  | rangeBound text => "range bounds must be single characters (got " ++ inQuotes text ++ ")"
  | reversedRange range => range.message
  | notPositive name value =>
      name ++ " must be a positive integer (got " ++ value.toNat.repr ++ ")"
  | betweenOrder low high =>
      "x must be less than y (x = " ++ low.toNat.repr ++ ", y = " ++ high.toNat.repr ++ ")"
  | emptyText name => name ++ " cannot be an empty string"
  | backreference index groups =>
      "invalid index " ++ index.repr ++ ". There are " ++ groups.repr
        ++ " capture groups on this expression"

def AnchorConflict.message : AnchorConflict → String
  | start => "this regex already has a defined start of input"
  | startAfterStop => "cannot define the start of input after the end of input"
  | stop => "this regex already has a defined end of input"

def InternalFault.message : InternalFault → String
  | setTokenOutside => "set token outside of a character set"
  | foreignTokenInSet => "non-set token inside a character set"
  | unfinished => "tokens left unread"
  | doubleQuantifier => "quantifier applied to a quantified node"
  | mixedNegatedSet => "negated set mixing ranges and characters"

def Error.message : Error → String
  | badText _ fault => fault.message
  | badArgument fault => fault.message
  | quantifierConflict pending requested =>
      "cannot quantify regular expression with " ++ inQuotes requested.text
        ++ " because it's already being quantified with " ++ inQuotes pending.text
  | unbalancedEnd => "cannot call end() while building the root expression"
  | invalidName name =>
      "name " ++ inQuotes name ++ " is not valid (only letters, numbers, and underscores)"
  | duplicateName name => "cannot use " ++ inQuotes name ++ " again for a capture group"
  | unknownGroup name =>
      "no capture group called " ++ inQuotes name ++ " exists (create one with named_capture())"
  | duplicateAnchor conflict => conflict.message
  | incomplete container =>
      "cannot compute the value of a not yet fully specified regex object "
        ++ "(try adding an end() call to match the " ++ inQuotes container.text ++ ")"
  | notClosed container =>
      "cannot call subexpression with a not yet fully specified regex object "
        ++ "(try adding an end() call to match the " ++ inQuotes container.text
        ++ " on the subexpression)"
  | internal fault => "internal error: " ++ fault.message

end RegexForge
