import RegexForge.Builder.Merge
import RegexForge.Proofs.Steps

/-!
What a merge makes of the tree it copies. The copy is a plain renaming of the nodes, `rebase`, and
the declarations only ever see its marks: copying a tree is refused exactly when the parent refuses
one of the marks of the copy in document order. `adopt` is what a mark of the copy declares. It is
not what the same mark declares in a call, since an adopted start of input takes the place of the
end of input too, and since an adopted reference is not checked again.
-/

namespace RegexForge

open Outcome

namespace Mark

/-- The mark of the copy, unless the merge drops it. -/
def rebase? (options : MergeOptions) (shift : Nat) : Mark → Option Mark
  | anchor a => if options.keepAnchors then some (anchor a) else none
  | capture name => some (capture (name.map (options.scope ++ ·)))
  | reference index => some (reference (index + shift))
  | namedReference name => some (namedReference (options.scope ++ name))

end Mark

namespace Declarations

def adopt (declared : Declarations) : Mark → Except Error Declarations
  | .anchor a => Merge.declareAnchor declared a
  | .capture none => .ok declared.addCapture
  | .capture (some name) => declared.addCapture.declareName name
  | .reference _ | .namedReference _ => .ok declared

def adoptAll (declared : Declarations) (marks : List Mark) : Except Error Declarations :=
  marks.foldlM adopt declared

@[simp] theorem adoptAll_nil (declared : Declarations) : declared.adoptAll [] = .ok declared := rfl

theorem adoptAll_cons (declared : Declarations) (mark : Mark) (rest : List Mark) :
    declared.adoptAll (mark :: rest) = declared.adopt mark >>= fun next => next.adoptAll rest :=
  List.foldlM_cons

@[simp] theorem adoptAll_singleton (declared : Declarations) (mark : Mark) :
    declared.adoptAll [mark] = declared.adopt mark := by
  rw [adoptAll_cons]
  cases declared.adopt mark <;> rfl

theorem adoptAll_append (declared : Declarations) (first second : List Mark) :
    declared.adoptAll (first ++ second) =
      declared.adoptAll first >>= fun next => next.adoptAll second :=
  List.foldlM_append

/-- What it does to take in a mark, in a call or in a merge, when it is not refused. Only a merged
start of input sets `stopped`. -/
inductive Takes (declared : Declarations) : Mark → Declarations → Prop where
  | start (stopped : Bool) (fresh : declared.hasStart = false) (first : declared.hasStop = false) :
      Takes declared (.anchor .start) { declared with hasStart := true, hasStop := stopped }
  | stop (fresh : declared.hasStop = false) :
      Takes declared (.anchor .stop) { declared with hasStop := true }
  | capture : Takes declared (.capture none) declared.addCapture
  | named {name : Text} (fresh : name ∉ declared.names) (valid : isGroupName name = true) :
      Takes declared (.capture (some name))
        { declared with captures := declared.captures + 1, names := declared.names ++ [name] }
  | reference (index : Nat) : Takes declared (.reference index) declared
  | namedReference (name : Text) : Takes declared (.namedReference name) declared

theorem takes_of_meet {declared next : Declarations} {mark : Mark}
    (met : declared.meet mark = .ok next) : declared.Takes mark next := by
  cases mark with
  | anchor a =>
      cases a with
      | start =>
          rcases declareStart_eq_ok_iff.mp met with ⟨fresh, first, rfl⟩
          exact .start _ fresh first
      | stop =>
          rcases declareStop_eq_ok_iff.mp met with ⟨fresh, rfl⟩
          exact .stop fresh
  | capture name =>
      cases name with
      | none =>
          cases met
          exact .capture
      | some name =>
          obtain ⟨named, accepted, done⟩ := bind_eq_ok_iff.mp met
          rcases declareName_eq_ok_iff.mp accepted with ⟨fresh, valid, rfl⟩
          cases done
          exact .named fresh valid
  | reference index =>
      simp only [meet] at met
      split at met
      · cases met
        exact .reference index
      · contradiction
  | namedReference name =>
      simp only [meet] at met
      split at met
      · cases met
        exact .namedReference name
      · contradiction

theorem takes_of_adopt {declared next : Declarations} {mark : Mark}
    (adopted : declared.adopt mark = .ok next) : declared.Takes mark next := by
  cases mark with
  | anchor a =>
      cases a with
      | start =>
          obtain ⟨started, accepted, done⟩ := bind_eq_ok_iff.mp adopted
          rcases declareStart_eq_ok_iff.mp accepted with ⟨fresh, first, rfl⟩
          cases done
          exact .start true fresh first
      | stop =>
          rcases declareStop_eq_ok_iff.mp adopted with ⟨fresh, rfl⟩
          exact .stop fresh
  | capture name =>
      cases name with
      | none =>
          cases adopted
          exact .capture
      | some name =>
          rcases declareName_eq_ok_iff.mp adopted with ⟨fresh, valid, rfl⟩
          exact .named fresh valid
  | reference index =>
      cases adopted
      exact .reference index
  | namedReference name =>
      cases adopted
      exact .namedReference name

end Declarations

namespace Node

mutual

def rebase (options : MergeOptions) (shift : Nat) : Node → Node
  | anchor a => if options.keepAnchors then anchor a else noop
  | group capturing children => group capturing (rebaseAll options shift children)
  | namedGroup name children =>
      namedGroup (options.scope ++ name) (rebaseAll options shift children)
  | lookaround kind children => lookaround kind (rebaseAll options shift children)
  | anyOf children => anyOf (rebaseAll options shift children)
  | subexpression children => subexpression (rebaseAll options shift children)
  | backreference index => backreference (index + shift)
  | namedBackreference name => namedBackreference (options.scope ++ name)
  | quantified inner quantifier => quantified (rebase options shift inner) quantifier
  | node => node

def rebaseAll (options : MergeOptions) (shift : Nat) : List Node → List Node
  | [] => []
  | node :: rest => rebase options shift node :: rebaseAll options shift rest

end

theorem rebaseAll_eq_map (options : MergeOptions) (shift : Nat) (nodes : List Node) :
    rebaseAll options shift nodes = nodes.map (rebase options shift) := by
  induction nodes with
  | nil => rfl
  | cons node rest ih => simp only [rebaseAll, ih, List.map_cons]

variable (options : MergeOptions) (shift : Nat)

theorem mark?_rebase (node : Node) :
    (rebase options shift node).mark? = node.mark?.bind (Mark.rebase? options shift) := by
  cases node with
  | anchor a =>
      by_cases kept : options.keepAnchors = true
      · simp [rebase, mark?, Mark.rebase?, kept]
      · simp [rebase, mark?, Mark.rebase?, kept]
  | group capturing children => cases capturing <;> rfl
  | _ => rfl

mutual

theorem marks_rebase (node : Node) :
    marks [rebase options shift node] =
      (marks [node]).filterMap (Mark.rebase? options shift) := by
  rw [marks_singleton, marks_singleton, mark?_rebase, List.filterMap_append]
  have own : (node.mark?.bind (Mark.rebase? options shift)).toList =
      node.mark?.toList.filterMap (Mark.rebase? options shift) := by
    cases node.mark? with
    | none => rfl
    | some mark => cases spelled : Mark.rebase? options shift mark <;> simp [spelled]
  rw [own]
  congr 1
  -- What is left are the marks of the children, which keep their order.
  cases node with
  | group _ children => exact marks_rebaseAll children
  | namedGroup _ children => exact marks_rebaseAll children
  | lookaround _ children => exact marks_rebaseAll children
  | anyOf children => exact marks_rebaseAll children
  | subexpression children => exact marks_rebaseAll children
  | quantified inner _ => exact marks_rebase inner
  | anchor a =>
      by_cases kept : options.keepAnchors = true
      · simp [rebase, kept, children]
      · simp [rebase, kept, children]
  | _ => rfl

theorem marks_rebaseAll (nodes : List Node) :
    marks (rebaseAll options shift nodes) =
      (marks nodes).filterMap (Mark.rebase? options shift) := by
  cases nodes with
  | nil => rfl
  | cons node rest =>
      rw [rebaseAll, marks_cons, marks_cons node, List.filterMap_append, marks_rebase node,
        marks_rebaseAll rest]

end

end Node

namespace Merge

open Node

variable (options : MergeOptions) (shift : Nat)

mutual

theorem copy_eq (node : Node) (declared : Declarations) :
    copy options shift node declared = do
      let after ← declared.adoptAll (marks [rebase options shift node])
      return (rebase options shift node, after) := by
  -- The copy declares the node itself before it goes on to the children.
  rw [marks_singleton, mark?_rebase, Declarations.adoptAll_append]
  cases node with
  | anchor a =>
      by_cases kept : options.keepAnchors = true
      · simp [copy, rebase, kept, mark?, Mark.rebase?, children, Declarations.adopt]
      · simp [copy, rebase, kept, mark?, Mark.rebase?, children]
  | group capturing children =>
      cases capturing with
      | true => simp [copy, copyAll_eq children, rebase, mark?, Mark.rebase?, Node.children,
          Declarations.adopt]
      | false => simp [copy, copyAll_eq children, rebase, mark?, Node.children]
  | namedGroup name children =>
      simp [copy, copyAll_eq children, rebase, mark?, Mark.rebase?, Node.children,
        Declarations.adopt]
  | lookaround kind children => simp [copy, copyAll_eq children, rebase, mark?, Node.children]
  | anyOf children => simp [copy, copyAll_eq children, rebase, mark?, Node.children]
  | subexpression children => simp [copy, copyAll_eq children, rebase, mark?, Node.children]
  | quantified inner quantifier => simp [copy, copy_eq inner, rebase, mark?, Node.children]
  | backreference index =>
      simp [copy, rebase, mark?, Mark.rebase?, Node.children, Declarations.adopt]
  | namedBackreference name =>
      simp [copy, rebase, mark?, Mark.rebase?, Node.children, Declarations.adopt]
  | _ => rfl

/-- Copying renames the tree and adopts the marks of the copy in document order. -/
theorem copyAll_eq (nodes : List Node) (declared : Declarations) :
    copyAll options shift nodes declared = do
      let after ← declared.adoptAll (marks (rebaseAll options shift nodes))
      return (rebaseAll options shift nodes, after) := by
  cases nodes with
  | nil => rfl
  | cons node rest =>
      rw [copyAll, copy_eq node declared, rebaseAll, marks_cons _ (rebaseAll options shift rest),
        Declarations.adoptAll_append]
      cases declared.adoptAll (marks [rebase options shift node]) with
      | error refusal => rfl
      | ok middle =>
          simp only [ok_bind, pure_eq_ok, copyAll_eq rest middle]
          cases middle.adoptAll (marks (rebaseAll options shift rest)) <;> rfl

end

end Merge

namespace Builder

def copies (builder expression : Builder) (options : MergeOptions) : List Node :=
  Node.rebaseAll options builder.declared.captures expression.current.elements

theorem subexpression_eq (builder : Builder) {expression : Builder} (options : MergeOptions)
    (closed : expression.isClosed = true) :
    builder.subexpression expression options = do
      let declared ← builder.declared.adoptAll (Node.marks (builder.copies expression options))
      return { builder with
        declared :=
          if options.keepFlags then declared.addFlags expression.declared.flags else declared
      }.push (.subexpression (builder.copies expression options)) := by
  simp only [subexpression, closed, if_true, Merge.copyAll_eq, copies, bind_assoc, pure_bind]

theorem subexpression_eq_ok_iff {builder expression after : Builder} {options : MergeOptions} :
    builder.subexpression expression options = .ok after ↔
      expression.isClosed = true ∧
        ∃ declared,
          builder.declared.adoptAll (Node.marks (builder.copies expression options)) =
            .ok declared ∧
          after = { builder with
            declared :=
              if options.keepFlags then declared.addFlags expression.declared.flags else declared
          }.push (.subexpression (builder.copies expression options)) := by
  by_cases closed : expression.isClosed = true
  · rw [subexpression_eq builder options closed, bind_eq_ok_iff]
    constructor
    · rintro ⟨declared, adopted, done⟩
      cases done
      exact ⟨closed, declared, adopted, rfl⟩
    · rintro ⟨-, declared, adopted, rfl⟩
      exact ⟨declared, adopted, rfl⟩
  · simp [subexpression, closed]

end Builder

end RegexForge
