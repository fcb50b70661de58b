import RegexForge.Builder.Reachable

/-!
Document order. A tree is read in pre-order, each node before its children; of a builder first the
elements of the root frame are read, then each open frame from the outside in, its container
before its elements. Only four kinds of node have a meaning outside the place where they stand:
anchors, capture groups, and references to groups by number or by name. What is met of them in
document order is the list of marks. Every operation of a builder adds its marks at the end of
that list, and no operation changes a mark that is already there.
-/

namespace RegexForge

inductive Mark where
  | anchor (anchor : Anchor)
  | capture (name : Option Text)
  | reference (index : Nat)
  | namedReference (name : Text)
deriving DecidableEq

namespace Mark

def isCapture : Mark → Bool
  | capture _ => true
  | _ => false

def anchor? : Mark → Option Anchor
  | anchor a => some a
  | _ => none

def name? : Mark → Option Text
  | capture name => name
  | _ => none

/-- How many capture groups are met, named ones included. -/
def captureCount (marks : List Mark) : Nat :=
  marks.countP isCapture

def anchors (marks : List Mark) : List Anchor :=
  marks.filterMap anchor?

def groupNames (marks : List Mark) : List Text :=
  marks.filterMap name?

theorem captureCount_append (first second : List Mark) :
    captureCount (first ++ second) = captureCount first + captureCount second :=
  List.countP_append

theorem anchors_append (first second : List Mark) :
    anchors (first ++ second) = anchors first ++ anchors second :=
  List.filterMap_append

theorem groupNames_append (first second : List Mark) :
    groupNames (first ++ second) = groupNames first ++ groupNames second :=
  List.filterMap_append

theorem captureCount_singleton (mark : Mark) :
    captureCount [mark] = if mark.isCapture then 1 else 0 :=
  List.countP_singleton

theorem anchors_singleton (mark : Mark) : anchors [mark] = mark.anchor?.toList := by
  cases read : mark.anchor? <;> simp [anchors, read]

theorem groupNames_singleton (mark : Mark) : groupNames [mark] = mark.name?.toList := by
  cases read : mark.name? <;> simp [groupNames, read]

end Mark

namespace Node

mutual

def preorder : Node → List Node
  | group capturing children => group capturing children :: preorderAll children
  | namedGroup name children => namedGroup name children :: preorderAll children
  | lookaround kind children => lookaround kind children :: preorderAll children
  | anyOf children => anyOf children :: preorderAll children
  | subexpression children => subexpression children :: preorderAll children
  | quantified inner quantifier => quantified inner quantifier :: preorder inner
  | node => [node]

def preorderAll : List Node → List Node
  | [] => []
  | node :: rest => preorder node ++ preorderAll rest

end

theorem preorderAll_append (first second : List Node) :
    preorderAll (first ++ second) = preorderAll first ++ preorderAll second := by
  induction first with
  | nil => rfl
  | cons node rest ih => simp only [List.cons_append, preorderAll, ih, List.append_assoc]

def mark? : Node → Option Mark
  | anchor a => some (.anchor a)
  | group true _ => some (.capture none)
  | namedGroup name _ => some (.capture (some name))
  | backreference index => some (.reference index)
  | namedBackreference name => some (.namedReference name)
  | _ => none

/-- The marks of a list of nodes, in document order. -/
def marks (nodes : List Node) : List Mark :=
  (preorderAll nodes).filterMap mark?

@[simp] theorem marks_nil : marks [] = [] := rfl

theorem marks_append (first second : List Node) :
    marks (first ++ second) = marks first ++ marks second := by
  simp only [marks, preorderAll_append, List.filterMap_append]

theorem marks_cons (node : Node) (rest : List Node) :
    marks (node :: rest) = marks [node] ++ marks rest :=
  marks_append [node] rest

def children : Node → List Node
  | group _ children | namedGroup _ children | lookaround _ children | anyOf children
  | subexpression children => children
  | quantified inner _ => [inner]
  | _ => []

theorem preorder_eq (node : Node) : preorder node = node :: preorderAll node.children := by
  cases node with
  | quantified inner quantifier => simp only [preorder, children, preorderAll, List.append_nil]
  | _ => rfl

/-- A property of every node of a list of trees, at every depth. -/
def Everywhere (property : Node → Prop) (nodes : List Node) : Prop :=
  ∀ node ∈ preorderAll nodes, property node

@[simp] theorem everywhere_nil (property : Node → Prop) : Everywhere property [] := by
  simp [Everywhere, preorderAll]

theorem everywhere_append {property : Node → Prop} {first second : List Node} :
    Everywhere property (first ++ second) ↔
      Everywhere property first ∧ Everywhere property second := by
  simp only [Everywhere, preorderAll_append, List.forall_mem_append]

theorem everywhere_cons {property : Node → Prop} {node : Node} {rest : List Node} :
    Everywhere property (node :: rest) ↔
      Everywhere property [node] ∧ Everywhere property rest :=
  @everywhere_append property [node] rest

theorem everywhere_singleton {property : Node → Prop} {node : Node} :
    Everywhere property [node] ↔ property node ∧ Everywhere property node.children := by
  simp only [Everywhere, preorderAll, preorder_eq, List.append_nil, List.forall_mem_cons]

theorem Everywhere.imp {weak strong : Node → Prop} (weaker : ∀ node, strong node → weak node)
    {nodes : List Node} (everywhere : Everywhere strong nodes) : Everywhere weak nodes :=
  fun node member => weaker node (everywhere node member)

theorem preorder_subset_of_children {node : Node}
    (below : ∀ inner ∈ preorderAll node.children, preorder inner ⊆ preorderAll node.children) :
    ∀ inner ∈ preorder node, preorder inner ⊆ preorder node := by
  intro inner member
  rw [preorder_eq node] at member ⊢
  rcases List.mem_cons.mp member with rfl | member
  · rw [preorder_eq]
    exact List.Subset.refl _
  · exact List.subset_cons_of_subset _ (below inner member)

mutual

theorem preorder_subset (node : Node) :
    ∀ inner ∈ preorder node, preorder inner ⊆ preorder node := by
  apply preorder_subset_of_children
  cases node with
  | group _ children | namedGroup _ children | lookaround _ children | anyOf children
  | subexpression children => exact preorderAll_subset children
  | quantified inner _ =>
      simpa only [children, preorderAll, List.append_nil] using preorder_subset inner
  | _ => simp [children, preorderAll]

theorem preorderAll_subset (nodes : List Node) :
    ∀ inner ∈ preorderAll nodes, preorder inner ⊆ preorderAll nodes := by
  cases nodes with
  | nil => simp [preorderAll]
  | cons node rest =>
      intro inner member
      rcases List.mem_append.mp member with first | later
      · exact List.subset_append_of_subset_left _ (preorder_subset node inner first)
      · exact List.subset_append_of_subset_right _ (preorderAll_subset rest inner later)

end

theorem Everywhere.within {property : Node → Prop} {nodes : List Node} {node : Node}
    (everywhere : Everywhere property nodes) (member : node ∈ preorderAll nodes) :
    Everywhere property [node] := by
  intro inner inside
  rw [preorderAll, preorderAll, List.append_nil] at inside
  exact everywhere inner (preorderAll_subset nodes node member inside)

theorem Everywhere.of_mem {property : Node → Prop} {nodes : List Node} {node : Node}
    (everywhere : Everywhere property nodes) (listed : node ∈ nodes) :
    Everywhere property [node] := by
  obtain ⟨front, back, rfl⟩ := List.append_of_mem listed
  exact (everywhere_cons.mp (everywhere_append.mp everywhere).2).1

theorem marks_singleton (node : Node) :
    marks [node] = node.mark?.toList ++ marks node.children := by
  simp only [marks, preorderAll, List.append_nil, preorder_eq, List.filterMap_cons]
  cases node.mark? <;> rfl

end Node

namespace Container

def mark? : Container → Option Mark
  | capture => some (.capture none)
  | namedCapture name => some (.capture (some name))
  | _ => none

theorem marks_node (container : Container) (elements : List Node) :
    Node.marks [container.node elements] = container.mark?.toList ++ Node.marks elements := by
  rw [Node.marks_singleton]
  cases container <;> rfl

end Container

namespace Frame

def marks (frame : Frame) : List Mark :=
  frame.container.mark?.toList ++ Node.marks frame.elements

theorem marks_wrap (pending : Option Quantifier) (node : Node) :
    Node.marks [wrap pending node] = Node.marks [node] := by
  cases pending with
  | none => rfl
  | some quantifier =>
      cases node with
      | anchor _ | lookaround _ _ => rfl
      | _ => exact Node.marks_singleton (.quantified _ quantifier)

theorem marks_push (frame : Frame) (node : Node) :
    (frame.push node).marks = frame.marks ++ Node.marks [node] := by
  simp only [marks, push, Node.marks_append, marks_wrap, List.append_assoc]

end Frame

namespace Builder

/-- All frames, from the root to the current one. -/
def frames (builder : Builder) : List Frame :=
  builder.outer.reverse ++ [builder.current]

/-- The marks of everything built so far, in document order. -/
def marks (builder : Builder) : List Mark :=
  builder.frames.flatMap Frame.marks

theorem marks_eq (builder : Builder) :
    builder.marks = builder.outer.reverse.flatMap Frame.marks ++ builder.current.marks := by
  simp [marks, frames]

theorem marks_push (builder : Builder) (node : Node) :
    (builder.push node).marks = builder.marks ++ Node.marks [node] := by
  simp only [marks_eq, push, Frame.marks_push, List.append_assoc]

theorem marks_enter (builder : Builder) (container : Container) :
    (builder.enter container).marks = builder.marks ++ container.mark?.toList := by
  simp [marks_eq, enter, Frame.empty, Frame.marks]

theorem marks_close {before after : Builder} (closed : before.close = .ok after) :
    after.marks = before.marks := by
  obtain ⟨current, outer, declared⟩ := before
  cases outer with
  | nil => simp [close] at closed
  | cons parent outer =>
      simp only [close, Except.ok.injEq] at closed
      subst closed
      have folded := Frame.marks_push parent (current.container.node current.elements)
      rw [Container.marks_node] at folded
      simp only [marks_eq, folded, List.reverse_cons, List.flatMap_append, List.flatMap_cons,
        List.flatMap_nil, List.append_nil, List.append_assoc]
      rfl

theorem marks_isClosed {builder : Builder} (closed : builder.isClosed = true) :
    builder.marks = builder.current.marks := by
  have empty : builder.outer = [] := by simpa [isClosed] using closed
  simp [marks_eq, empty]

end Builder

end RegexForge
