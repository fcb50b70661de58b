import RegexForge.Proofs.MergeLaw
import RegexForge.Proofs.Replay

/-!
Merging is associative. An expression can be merged into another one, and what becomes of it into a
parent; or the parent merges the one and then the other. The references of the inner expression are
moved twice on one way and once on the other, by the same distance. Its names are compared with
those of the other expression first, or with those of the parent and the other expression together,
which no name can tell apart once both merges succeed. The trees differ, one merged element inside
the other or behind it, but elements that follow each other are spelled one after the other.
-/

namespace RegexForge

open Outcome

namespace Node

mutual

theorem rebase_rebase (first second : Nat) (node : Node) :
    rebase {} second (rebase {} first node) = rebase {} (first + second) node := by
  cases node with
  | group _ children => simp only [rebase, rebaseAll_rebaseAll first second children]
  | namedGroup _ children =>
      simp only [rebase, rebaseAll_rebaseAll first second children, List.nil_append]
  | lookaround _ children => simp only [rebase, rebaseAll_rebaseAll first second children]
  | anyOf children => simp only [rebase, rebaseAll_rebaseAll first second children]
  | subexpression children => simp only [rebase, rebaseAll_rebaseAll first second children]
  | quantified inner _ => simp only [rebase, rebase_rebase first second inner]
  | backreference index => simp only [rebase, Nat.add_assoc]
  | namedBackreference name => simp only [rebase, List.nil_append]
  | _ => rfl

theorem rebaseAll_rebaseAll (first second : Nat) (nodes : List Node) :
    rebaseAll {} second (rebaseAll {} first nodes) = rebaseAll {} (first + second) nodes := by
  cases nodes with
  | nil => rfl
  | cons node rest =>
      simp only [rebaseAll, rebase_rebase first second node, rebaseAll_rebaseAll first second rest]

end

end Node

namespace Declarations

theorem refusal?_of_fewer {declared other : Declarations} {shift : Nat} {mark copy : Mark}
    (fewer : other.names ⊆ declared.names) (copied : mark.rebase? {} shift = some copy)
    (fits : declared.refusal? copy = none) : other.refusal? mark = none := by
  cases mark with
  | anchor a => simp [Mark.rebase?] at copied
  | capture name =>
      cases copied
      cases name with
      | none => rfl
      | some name =>
          simp only [Option.map_some, List.nil_append, refusal?] at fits ⊢
          by_cases known : name ∈ declared.names
          · simp [known] at fits
          · have fresh := mt (@fewer name) known
            simpa [known, fresh] using fits
  | _ => rfl

theorem adoptAll_of_fewer {declared other next : Declarations} {shift : Nat} {marks : List Mark}
    (fewer : other.names ⊆ declared.names) (unanchored : Mark.anchors marks = [])
    (adopted : declared.adoptAll (marks.filterMap (Mark.rebase? {} shift)) = .ok next) :
    other.adoptAll marks = .ok (other.adopted marks) := by
  obtain ⟨fits, -⟩ := adoptAll_eq_ok_iff.mp adopted
  rw [inOrder_filterMap] at fits
  refine adoptAll_eq_ok_iff.mpr ⟨?_, rfl⟩
  intro before mark after split
  obtain ⟨copy, copied⟩ : ∃ copy, mark.rebase? {} shift = some copy := by
    have free := List.filterMap_eq_nil_iff.mp unanchored mark (by simp [split])
    cases mark with
    | anchor a => simp [Mark.anchor?] at free
    | _ => exact ⟨_, rfl⟩
  have same : Mark.groupNames (before.filterMap (Mark.rebase? {} shift)) =
      Mark.groupNames before := by
    simp [Mark.groupNames_rebase]
  refine refusal?_of_fewer ?_ copied (fits before mark after split copy copied)
  simp only [Declarations.adopted, same]
  exact List.append_subset.mpr ⟨List.subset_append_of_subset_left _ fewer,
    List.subset_append_right _ _⟩

end Declarations

namespace Builder

/-- Merges an expression into another one, and what becomes of it into the parent. -/
def mergeNested (parent first second : Builder) : Except Error Builder := do
  let whole ← first.subexpression second {}
  parent.subexpression whole {}

def mergeInTurn (parent first second : Builder) : Except Error Builder := do
  let next ← parent.subexpression first {}
  next.subexpression second {}

theorem subexpression_eq_ok_iff_extend {builder expression after : Builder}
    (idle : builder.current.pending = none) (closed : expression.isClosed = true) :
    builder.subexpression expression {} = .ok after ↔
      ∃ declared, builder.declared.adoptAll (Node.marks (builder.copies expression {})) =
          .ok declared ∧
        after = builder.extend declared [.subexpression (builder.copies expression {})] := by
  have pushed (declared : Declarations) :=
    push_of_idle idle declared (.subexpression (builder.copies expression {}))
  simp [subexpression_eq_ok_iff, closed, pushed]

variable {parent first second after : Builder}

/-- The elements of the second expression as they stand behind the first one in the parent. -/
def copiesBehind (parent first second : Builder) : List Node :=
  Node.rebaseAll {} (first.declared.captures + parent.declared.captures) second.current.elements

theorem rebaseAll_copies :
    Node.rebaseAll {} parent.declared.captures (first.copies second {}) =
      parent.copiesBehind first second :=
  Node.rebaseAll_rebaseAll _ _ _

theorem mergeInTurn_eq_ok_iff (reachable : first.Reachable) (closed : first.isClosed = true)
    (finished : second.isClosed = true) (idle : parent.current.pending = none) :
    parent.mergeInTurn first second = .ok after ↔
      ∃ declared,
        parent.declared.adoptAll (Node.marks (parent.copies first {}) ++
          Node.marks (parent.copiesBehind first second)) = .ok declared ∧
        after = parent.extend declared [.subexpression (parent.copies first {}),
          .subexpression (parent.copiesBehind first second)] := by
  -- The groups of the first expression were counted when the second one is copied.
  have behind {middle : Declarations} (nodes : List Node)
      (adopted : parent.declared.adoptAll (Node.marks (parent.copies first {})) = .ok middle) :
      (parent.extend middle nodes).copies second {} = parent.copiesBehind first second := by
    have counted : middle.captures = first.declared.captures + parent.declared.captures := by
      obtain ⟨-, rfl⟩ := Declarations.adoptAll_eq_ok_iff.mp adopted
      rw [marks_copies parent {} reachable closed, Declarations.adopted, Mark.captureCount_rebase,
        ← (links_of_reachable reachable).counts.1, Nat.add_comm]
    rw [copiesBehind, ← counted]
    rfl
  have still (middle : Declarations) (nodes : List Node) :
      (parent.extend middle nodes).current.pending = none := idle
  rw [Declarations.adoptAll_append]
  constructor
  · intro accepted
    obtain ⟨next, one, two⟩ := bind_eq_ok_iff.mp accepted
    obtain ⟨middle, adopted, rfl⟩ := (subexpression_eq_ok_iff_extend idle closed).mp one
    obtain ⟨declared, later, rfl⟩ := (subexpression_eq_ok_iff_extend (still _ _) finished).mp two
    rw [behind _ adopted] at later
    exact ⟨declared, bind_eq_ok_iff.mpr ⟨middle, adopted, later⟩,
      by rw [behind _ adopted, extend_extend]; rfl⟩
  · rintro ⟨declared, adopted, rfl⟩
    obtain ⟨middle, adopted, later⟩ := bind_eq_ok_iff.mp adopted
    refine bind_eq_ok_iff.mpr
      ⟨_, (subexpression_eq_ok_iff_extend idle closed).mpr ⟨middle, adopted, rfl⟩,
        (subexpression_eq_ok_iff_extend (still _ _) finished).mpr ⟨declared, ?_, ?_⟩⟩
    · rw [behind _ adopted]
      exact later
    · rw [behind _ adopted, extend_extend]
      rfl

theorem copies_extend (declared : Declarations) :
    parent.copies (first.extend declared [.subexpression (first.copies second {})]) {} =
      parent.copies first {} ++ [.subexpression (parent.copiesBehind first second)] := by
  rw [← rebaseAll_copies]
  simp [copies, extend, Node.rebaseAll_eq_map, Node.rebase]

theorem marks_copies_append :
    Node.marks (parent.copies first {} ++ [.subexpression (parent.copiesBehind first second)]) =
      Node.marks (parent.copies first {}) ++ Node.marks (parent.copiesBehind first second) := by
  rw [Node.marks_append, Node.marks_singleton]
  rfl

theorem adoptAll_copies (reachable : first.Reachable) (closed : first.isClosed = true)
    {declared : Declarations}
    (adopted : parent.declared.adoptAll (Node.marks (parent.copies first {}) ++
      Node.marks (parent.copiesBehind first second)) = .ok declared) :
    ∃ own, first.declared.adoptAll (Node.marks (first.copies second {})) = .ok own := by
  rw [Declarations.adoptAll_append] at adopted
  obtain ⟨middle, front, behind⟩ := bind_eq_ok_iff.mp adopted
  have fewer : first.declared.names ⊆ middle.names := by
    obtain ⟨-, rfl⟩ := Declarations.adoptAll_eq_ok_iff.mp front
    rw [marks_copies parent {} reachable closed, Declarations.adopted, Mark.groupNames_rebase,
      ← (links_of_reachable reachable).counts.2]
    simp
  have dropped : Mark.anchors (Node.marks (first.copies second {})) = [] := by
    rw [copies, Node.marks_rebaseAll, Mark.anchors_rebase]
    rfl
  rw [← rebaseAll_copies, Node.marks_rebaseAll] at behind
  exact ⟨_, Declarations.adoptAll_of_fewer fewer dropped behind⟩

theorem mergeNested_eq_ok_iff (reachable : first.Reachable) (closed : first.isClosed = true)
    (finished : second.isClosed = true) (waitless : first.current.pending = none)
    (idle : parent.current.pending = none) :
    parent.mergeNested first second = .ok after ↔
      ∃ declared,
        parent.declared.adoptAll (Node.marks (parent.copies first {}) ++
          Node.marks (parent.copiesBehind first second)) = .ok declared ∧
        after = parent.extend declared [.subexpression (parent.copies first {} ++
          [.subexpression (parent.copiesBehind first second)])] := by
  have whole (own : Declarations) (nodes : List Node) : (first.extend own nodes).isClosed = true :=
    closed
  constructor
  · intro accepted
    obtain ⟨merged, one, two⟩ := bind_eq_ok_iff.mp accepted
    obtain ⟨own, -, rfl⟩ := (subexpression_eq_ok_iff_extend waitless finished).mp one
    obtain ⟨declared, adopted, rfl⟩ := (subexpression_eq_ok_iff_extend idle (whole _ _)).mp two
    rw [copies_extend, marks_copies_append] at adopted
    exact ⟨declared, adopted, by rw [copies_extend]⟩
  · rintro ⟨declared, adopted, rfl⟩
    obtain ⟨own, taken⟩ := adoptAll_copies reachable closed adopted
    refine bind_eq_ok_iff.mpr
      ⟨_, (subexpression_eq_ok_iff_extend waitless finished).mpr ⟨own, taken, rfl⟩,
        (subexpression_eq_ok_iff_extend idle (whole _ _)).mpr ⟨declared, ?_, ?_⟩⟩
    · rw [copies_extend, marks_copies_append]
      exact adopted
    · rw [copies_extend]

end Builder

theorem Container.render_node {container : Container} (sequential : container ≠ .anyOf)
    {first second : List Node} (same : Node.renderAll first = Node.renderAll second) :
    (container.node first).render = (container.node second).render := by
  cases container with
  | anyOf => contradiction
  | _ => simp [node, Node.render, same]

/-- Merging an expression that took in another one succeeds exactly when merging the two of them one
after the other does. Both ways lead to the same declarations and the same frames, and what was
merged is spelled alike; so is the open container, unless it takes each element for an alternative. -/
theorem subexpression_assoc (parent first second : Builder) (reachable : first.Reachable)
    (closed : first.isClosed = true) (finished : second.isClosed = true)
    (waitless : first.current.pending = none) (idle : parent.current.pending = none) :
    ((∃ left, parent.mergeNested first second = .ok left) ↔
      ∃ right, parent.mergeInTurn first second = .ok right) ∧
    ∀ left right, parent.mergeNested first second = .ok left →
      parent.mergeInTurn first second = .ok right →
        left.declared = right.declared ∧ left.outer = right.outer ∧
          left.current.container = right.current.container ∧
          left.current.pending = right.current.pending ∧
          Node.renderAll left.current.elements = Node.renderAll right.current.elements ∧
          (parent.current.container ≠ .anyOf →
            (left.current.container.node left.current.elements).render =
              (right.current.container.node right.current.elements).render) := by
  simp only [Builder.mergeNested_eq_ok_iff reachable closed finished waitless idle,
    Builder.mergeInTurn_eq_ok_iff reachable closed finished idle]
  constructor
  · constructor
    · rintro ⟨_, declared, adopted, -⟩
      exact ⟨_, declared, adopted, rfl⟩
    · rintro ⟨_, declared, adopted, -⟩
      exact ⟨_, declared, adopted, rfl⟩
  · rintro left right ⟨declared, adopted, rfl⟩ ⟨other, again, rfl⟩
    obtain rfl : declared = other := Except.ok.inj (adopted.symm.trans again)
    have spelled : Node.renderAll (parent.current.elements ++
          [.subexpression (parent.copies first {} ++
            [.subexpression (parent.copiesBehind first second)])]) =
        Node.renderAll (parent.current.elements ++ [.subexpression (parent.copies first {}),
          .subexpression (parent.copiesBehind first second)]) := by
      simp [Node.render]
    exact ⟨rfl, rfl, rfl, rfl, spelled,
      fun sequential => Container.render_node sequential spelled⟩

theorem subexpression_assoc_captures :
    ∃ parent first second left right : Builder, parent.Reachable ∧ first.Reachable ∧
      second.Reachable ∧ first.render = .ok "/(a)\\1/".toList ∧
      second.render = .ok "/(?<n>b)\\1/".toList ∧
      parent.mergeNested first second = .ok left ∧ parent.mergeInTurn first second = .ok right ∧
      left.current.elements ≠ right.current.elements ∧ left.declared = right.declared ∧
      Node.renderAll left.current.elements = "(a)\\2(?<n>b)\\3".toList ∧
      Node.renderAll right.current.elements = "(a)\\2(?<n>b)\\3".toList := by
  let parent := Builder.new.capture
  let first : Builder := ⟨⟨.root, none, [.group true [.char ⟨['a']⟩], .backreference 1]⟩, [],
    { captures := 1 }⟩
  let second : Builder := ⟨⟨.root, none, [.namedGroup ['n'] [.char ⟨['b']⟩], .backreference 1]⟩, [],
    { captures := 1, names := [['n']] }⟩
  have parentReachable : parent.Reachable := .call .capture .new rfl
  have captured : Builder.Reachable _ := .call (.char ['a']) parentReachable rfl
  have ended : Builder.Reachable _ := .call .close captured rfl
  have firstReachable : first.Reachable := .call (.backreference 1) ended rfl
  have named : Builder.Reachable _ := .call (.namedCapture ['n']) .new rfl
  have filled : Builder.Reachable _ := .call (.char ['b']) named rfl
  have behind : Builder.Reachable _ := .call .close filled rfl
  have secondReachable : second.Reachable := .call (.backreference 1) behind rfl
  obtain ⟨declared, -, -, -, spelled, -⟩ :=
    (subexpression_assoc parent first second firstReachable rfl rfl rfl rfl).2 _ _ rfl rfl
  refine ⟨parent, first, second, _, _, parentReachable, firstReachable, secondReachable, rfl, rfl,
    rfl, rfl, by decide, declared, ?_, spelled.symm.trans ?_⟩
  all_goals decide

end RegexForge
