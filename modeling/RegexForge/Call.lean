import RegexForge.Builder

/-!
Builder operations as data: the calls of which a script consists. `Builder.apply` carries a call
out, and `text` writes it as a method call with quoted arguments.
-/

namespace RegexForge

inductive Call where
  | flag (flag : Flag)
  | charClass (kind : CharClass)
  | startOfInput
  | endOfInput
  | char (text : Text)
  | string (text : Text)
  | range (low high : Text)
  | anythingButRange (low high : Text)
  | anyOfChars (chars : Text)
  | anythingButChars (chars : Text)
  | anythingButString (text : Text)
  | backreference (index : Nat)
  | namedBackreference (name : Text)
  | group
  | capture
  | namedCapture (name : Text)
  | anyOf
  | lookaround (kind : Lookaround)
  | close
deriving DecidableEq

namespace Call

def method : Call → String
  | flag f => f.method
  | charClass kind => kind.method
  | startOfInput => "start_of_input"
  | endOfInput => "end_of_input"
  | char _ => "char"
  | string _ => "string"
  | range _ _ => "range"
  | anythingButRange _ _ => "anything_but_range"
  | anyOfChars _ => "any_of_chars"
  | anythingButChars _ => "anything_but_chars"
  | anythingButString _ => "anything_but_string"
  | backreference _ => "backreference"
  | namedBackreference _ => "named_backreference"
  | group => "group"
  | capture => "capture"
  | namedCapture _ => "named_capture"
  | anyOf => "any_of"
  | lookaround kind => kind.method
  | close => "end"

def arguments : Call → Text
  | char text | string text | anyOfChars text | anythingButChars text | anythingButString text
  | namedBackreference text | namedCapture text => text.quoted
  | range low high | anythingButRange low high => low.quoted ++ ", ".toList ++ high.quoted
  | backreference index => Nat.toDigits 10 index
  | flag _ | charClass _ | startOfInput | endOfInput | group | capture | anyOf | lookaround _
  | close => []

def text (call : Call) : Text :=
  call.method.toList ++ '(' :: call.arguments ++ [')']

/-- Whether the operation checks anything, and so may be refused. -/
def isFallible : Call → Bool
  | flag _ | charClass _ | group | capture | anyOf | lookaround _ => false
  | _ => true

def opens : Call → Bool
  | group | capture | namedCapture _ | anyOf | lookaround _ => true
  | _ => false

end Call

def Builder.apply (builder : Builder) : Call → Except Error Builder
  | .flag flag => .ok (builder.flag flag)
  | .charClass kind => .ok (builder.charClass kind)
  | .startOfInput => builder.startOfInput
  | .endOfInput => builder.endOfInput
  | .char text => builder.char text
  | .string text => builder.string text
  | .range low high => builder.range low high
  | .anythingButRange low high => builder.anythingButRange low high
  | .anyOfChars chars => builder.anyOfChars chars
  | .anythingButChars chars => builder.anythingButChars chars
  | .anythingButString text => builder.anythingButString text
  | .backreference index => builder.backreference index
  | .namedBackreference name => builder.namedBackreference name
  | .group => .ok builder.group
  | .capture => .ok builder.capture
  | .namedCapture name => builder.namedCapture name
  | .anyOf => .ok builder.anyOf
  | .lookaround kind => .ok (builder.lookaround kind)
  | .close => builder.close

end RegexForge
