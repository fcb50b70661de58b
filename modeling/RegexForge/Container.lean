import RegexForge.Node
import RegexForge.Text.Quoted

/-!
Containers of a tree under construction, each named by the call that opens it. The root stands for
the expression itself; it is never closed.
-/

namespace RegexForge

inductive Container where
  | root
  | group
  | capture
  | namedCapture (name : Text)
  | anyOf
  | lookaround (kind : Lookaround)
deriving DecidableEq

namespace Container

def node : Container → List Node → Node
  | root, children | group, children => .group false children
  | capture, children => .group true children
  | namedCapture name, children => .namedGroup name children
  | anyOf, children => .anyOf children
  | lookaround kind, children => .lookaround kind children

def text : Container → Text
  | root => "root".toList
  | group => "group()".toList
  | capture => "capture()".toList
  | namedCapture name => "named_capture(".toList ++ name.quoted ++ [')']
  | anyOf => "any_of()".toList
  | lookaround kind => kind.method.toList ++ ['(', ')']

end Container

end RegexForge
