import RegexForge.Error
import RegexForge.Flag

/-!
What an expression under construction has declared so far, whatever container it was declared in:
flags, the two anchors of the input, the number of capture groups and the names among them. Names
are kept in the order of declaration and never repeat.
-/

namespace RegexForge

structure Declarations where
  flags : Flags := .empty
  hasStart : Bool := false
  hasStop : Bool := false
  captures : Nat := 0
  names : List Text := []
deriving DecidableEq

/-- A letter, then letters, digits and underscores, all of them ASCII. -/
def isGroupName : Text → Bool
  | [] => false
  | c :: rest => c.isAlpha && rest.all fun d => d.isAlphanum || d == '_'

namespace Declarations

def declareStart (declared : Declarations) : Except Error Declarations :=
  if declared.hasStart then .error (.duplicateAnchor .start)
  else if declared.hasStop then .error (.duplicateAnchor .startAfterStop)
  else .ok { declared with hasStart := true }

def declareStop (declared : Declarations) : Except Error Declarations :=
  if declared.hasStop then .error (.duplicateAnchor .stop)
  else .ok { declared with hasStop := true }

def hasName (declared : Declarations) (name : Text) : Bool :=
  declared.names.contains name

def declareName (declared : Declarations) (name : Text) : Except Error Declarations :=
  if declared.hasName name then .error (.duplicateName name)
  else if isGroupName name then .ok { declared with names := declared.names ++ [name] }
  else .error (.invalidName name)

def declareFlag (declared : Declarations) (flag : Flag) : Declarations :=
  { declared with flags := declared.flags.insert flag }

def addFlags (declared : Declarations) (flags : Flags) : Declarations :=
  { declared with flags := declared.flags.union flags }

def addCapture (declared : Declarations) : Declarations :=
  { declared with captures := declared.captures + 1 }

end Declarations

end RegexForge
