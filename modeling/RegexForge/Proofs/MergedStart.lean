import RegexForge.Proofs.Anchors

/-!
The end of input without an end anchor. A start of input that was merged marks the end of input as
declared too, so the declarations say more than the anchors that stand in the tree. The invariant
is that the end of input is declared without standing in the tree exactly when a start of input
stands inside a merged element. Calls keep both sides, since no call makes a merged element; a merge
adopts at most one anchor, and only into a parent that has not declared the end of input.
-/

namespace RegexForge

open Outcome Mark

/-- Some merged element among the nodes has a start of input inside it. -/
def Node.MergedStart (nodes : List Node) : Prop :=
  ∃ children, .subexpression children ∈ nodes ∧ .anchor .start ∈ preorderAll children

namespace Frame

def nodes (frame : Frame) : List Node :=
  Node.preorderAll frame.elements

end Frame

namespace Builder

/-- Every node built so far, at every depth. Containers that are still open are no nodes yet. -/
def nodes (builder : Builder) : List Node :=
  builder.frames.flatMap Frame.nodes

def HasMergedStart (builder : Builder) : Prop :=
  Node.MergedStart builder.nodes

end Builder

namespace Node

theorem mergedStart_append {first second : List Node} :
    MergedStart (first ++ second) ↔ MergedStart first ∨ MergedStart second := by
  simp only [MergedStart, List.mem_append, or_and_right, exists_or]

@[simp] theorem not_mergedStart_nil : ¬ MergedStart [] := by
  simp [MergedStart]

theorem mergedStart_cons {node : Node} {rest : List Node}
    (other : ∀ children, node ≠ .subexpression children) :
    MergedStart (node :: rest) ↔ MergedStart rest := by
  constructor
  · rintro ⟨children, member, start⟩
    rcases List.mem_cons.mp member with same | member
    · exact absurd same.symm (other children)
    · exact ⟨children, member, start⟩
  · rintro ⟨children, member, start⟩
    exact ⟨children, List.mem_cons_of_mem node member, start⟩

theorem mergedStart_subexpression (children : List Node) :
    MergedStart (preorder (.subexpression children)) ↔ .anchor .start ∈ preorderAll children := by
  constructor
  · rintro ⟨inner, member, start⟩
    rcases List.mem_cons.mp member with same | member
    · cases same
      exact start
    · have inside := preorderAll_subset children (.subexpression inner) member
      exact inside (List.mem_cons_of_mem _ start)
  · intro start
    exact ⟨children, List.mem_cons_self, start⟩

theorem mergedStart_wrap (pending : Option Quantifier) (node : Node) :
    MergedStart (preorder (Frame.wrap pending node)) ↔ MergedStart (preorder node) := by
  have quantified : ∀ quantifier, MergedStart (preorder (.quantified node quantifier)) ↔
      MergedStart (preorder node) := by
    intro quantifier
    rw [preorder]
    exact mergedStart_cons (by simp)
  cases pending with
  | none => rfl
  | some quantifier =>
      cases node with
      | anchor _ | lookaround _ _ => rfl
      | _ => exact quantified quantifier

theorem not_mergedStart_of_isNative {node : Node} (native : node.isNative = true) :
    ¬ MergedStart (preorder node) := by
  have other : ∀ children, node ≠ .subexpression children := by
    rintro children rfl
    contradiction
  rw [preorder_eq, children_of_isNative native, mergedStart_cons other]
  exact not_mergedStart_nil

theorem mergedStart_container (container : Container) (elements : List Node) :
    MergedStart (preorder (container.node elements)) ↔ MergedStart (preorderAll elements) := by
  cases container with
  | _ => exact mergedStart_cons (by simp)

end Node

namespace Builder

open Node

theorem nodes_eq (builder : Builder) :
    builder.nodes = builder.outer.reverse.flatMap Frame.nodes ++ builder.current.nodes := by
  simp [nodes, frames]

theorem nodes_push (builder : Builder) (node : Node) :
    (builder.push node).nodes =
      builder.nodes ++ preorder (Frame.wrap builder.current.pending node) := by
  simp [nodes_eq, push, Frame.push, Frame.nodes, preorderAll_append, preorderAll]

theorem hasMergedStart_push (builder : Builder) (node : Node) :
    (builder.push node).HasMergedStart ↔
      builder.HasMergedStart ∨ MergedStart (preorder node) := by
  rw [HasMergedStart, nodes_push, mergedStart_append, mergedStart_wrap]
  rfl

theorem hasMergedStart_close {before after : Builder} (closed : before.close = .ok after) :
    after.HasMergedStart ↔ before.HasMergedStart := by
  obtain ⟨parent, outer, split, rfl⟩ := close_eq_ok_iff.mp closed
  -- The closed frame is the last to be read before and after, as a frame and as a node.
  have folded := hasMergedStart_push ⟨parent, outer, before.declared⟩
    (before.current.container.node before.current.elements)
  rw [mergedStart_container] at folded
  refine folded.trans ?_
  simp only [HasMergedStart, nodes_eq, split, List.reverse_cons, List.flatMap_append,
    List.flatMap_singleton, mergedStart_append]
  rfl

theorem hasMergedStart_step {before after : Builder} (step : Step before after) :
    after.HasMergedStart ↔ before.HasMergedStart := by
  cases step with
  | flag flag => rfl
  | @push declared node native buildable met =>
      refine (hasMergedStart_push { before with declared := declared } node).trans ?_
      exact or_iff_left (not_mergedStart_of_isNative native)
  | enter inner met =>
      simp [HasMergedStart, nodes_eq, enter, Frame.empty, Frame.nodes, preorderAll]
  | close closed => exact hasMergedStart_close closed

theorem hasMergedStart_quantify {before after : Builder} {quantifier : Quantifier}
    (accepted : before.quantify quantifier = .ok after) :
    after.HasMergedStart ↔ before.HasMergedStart := by
  rcases quantify_eq_ok_iff.mp accepted with ⟨-, -, rfl⟩
  simp [HasMergedStart, nodes_eq, Frame.nodes]

theorem hasMergedStart_merge {before expression after : Builder} {options : MergeOptions}
    (accepted : before.subexpression expression options = .ok after) :
    after.HasMergedStart ↔ before.HasMergedStart ∨
      .start ∈ anchors (Node.marks (before.copies expression options)) := by
  obtain ⟨-, declared, -, rfl⟩ := subexpression_eq_ok_iff.mp accepted
  refine (hasMergedStart_push { before with declared := _ } _).trans ?_
  rw [mergedStart_subexpression]
  exact or_congr_right anchor_mem_iff.symm

end Builder

namespace Declarations

variable {declared next : Declarations}

theorem stop_of_meet {mark : Mark} (met : declared.meet mark = .ok next) :
    mark = .anchor .stop ∧ declared.hasStop = false ∧ next.hasStop = true ∨
      mark ≠ .anchor .stop ∧ next.hasStop = declared.hasStop := by
  cases mark with
  | anchor a =>
      cases a with
      | start =>
          rcases declareStart_eq_ok_iff.mp met with ⟨-, -, rfl⟩
          exact .inr ⟨by simp, rfl⟩
      | stop =>
          rcases declareStop_eq_ok_iff.mp met with ⟨fresh, rfl⟩
          exact .inl ⟨rfl, fresh, rfl⟩
  | _ => cases takes_of_meet met <;> exact .inr ⟨by simp, rfl⟩

theorem stop_of_adopt {mark : Mark} (adopted : declared.adopt mark = .ok next) :
    mark.anchor? = none ∧ next.hasStop = declared.hasStop ∨
      ∃ a, mark = .anchor a ∧ declared.hasStop = false ∧ next.hasStop = true := by
  cases mark with
  | anchor a =>
      cases a with
      | start =>
          obtain ⟨started, accepted, done⟩ := bind_eq_ok_iff.mp adopted
          rcases declareStart_eq_ok_iff.mp accepted with ⟨-, fresh, rfl⟩
          cases done
          exact .inr ⟨.start, rfl, fresh, rfl⟩
      | stop =>
          rcases declareStop_eq_ok_iff.mp adopted with ⟨fresh, rfl⟩
          exact .inr ⟨.stop, rfl, fresh, rfl⟩
  | _ => cases takes_of_adopt adopted <;> exact .inl ⟨rfl, rfl⟩

theorem stop_of_adoptAll {copies : List Mark} (adopted : declared.adoptAll copies = .ok next) :
    anchors copies = [] ∧ next.hasStop = declared.hasStop ∨
      ∃ a, anchors copies = [a] ∧ declared.hasStop = false ∧ next.hasStop = true := by
  -- Whichever anchor comes first declares the end of input, and so keeps out any other.
  induction copies generalizing declared with
  | nil =>
      cases adopted
      exact .inl ⟨rfl, rfl⟩
  | cons mark rest ih =>
      rw [adoptAll_cons] at adopted
      obtain ⟨middle, first, later⟩ := bind_eq_ok_iff.mp adopted
      have front : anchors (mark :: rest) = mark.anchor?.toList ++ anchors rest := by
        rw [← anchors_singleton]
        exact anchors_append [mark] rest
      rcases stop_of_adopt first with ⟨other, same⟩ | ⟨a, rfl, fresh, stopped⟩
      · rw [front, other, ← same]
        exact ih later
      · rcases ih later with ⟨none, same⟩ | ⟨_, _, unstopped, _⟩
        · exact .inr ⟨a, by rw [front, none]; rfl, fresh, same.trans stopped⟩
        · simp [stopped] at unstopped

/-- The end of input is declared and does not stand in the tree. -/
def StopsUnseen (declared : Declarations) (marks : List Mark) : Prop :=
  declared.hasStop = true ∧ .stop ∉ anchors marks

theorem stopsUnseen_meet {marks : List Mark} {mark : Mark}
    (met : declared.meet mark = .ok next) :
    next.StopsUnseen (marks ++ [mark]) ↔ declared.StopsUnseen marks := by
  simp only [StopsUnseen, anchors_append, anchors_singleton]
  rcases stop_of_meet met with ⟨rfl, fresh, -⟩ | ⟨other, same⟩
  · simp [fresh, anchor?]
  · have absent : .stop ∉ mark.anchor?.toList := by
      cases mark <;> simp_all [anchor?, eq_comm]
    simp [absent, same]

theorem stopsUnseen_meetAll {marks : List Mark} (mark : Option Mark)
    (met : declared.meetAll mark.toList = .ok next) :
    next.StopsUnseen (marks ++ mark.toList) ↔ declared.StopsUnseen marks := by
  cases mark with
  | none =>
      cases met
      simp
  | some mark => exact stopsUnseen_meet (by simpa using met)

theorem stopsUnseen_adoptAll {marks copies : List Mark} (anchored : declared.Anchored marks)
    (adopted : declared.adoptAll copies = .ok next) :
    next.StopsUnseen (marks ++ copies) ↔
      declared.StopsUnseen marks ∨ .start ∈ anchors copies := by
  simp only [StopsUnseen, anchors_append, List.mem_append, not_or]
  rcases stop_of_adoptAll adopted with ⟨none, same⟩ | ⟨a, one, fresh, stopped⟩
  · simp [none, same]
  · have unseen : .stop ∉ anchors marks := by
      intro member
      have declaredStop := anchored.stop member
      simp [fresh] at declaredStop
    cases a <;> simp [one, fresh, stopped, unseen]

end Declarations

namespace Builder

theorem hasMergedStart_iff_of_reachable {builder : Builder} (reachable : builder.Reachable) :
    builder.HasMergedStart ↔ builder.declared.StopsUnseen builder.marks := by
  induction reachable with
  | new => simp [HasMergedStart, Declarations.StopsUnseen, nodes_eq, new, Frame.nodes, Frame.empty,
      Node.preorderAll]
  | @call before after call built accepted ih =>
      have step := apply_step accepted
      rw [hasMergedStart_step step, ih]
      cases step with
      | flag flag => rfl
      | @push declared node native buildable met =>
          rw [marks_push, Node.marks_singleton, Node.children_of_isNative native, Node.marks_nil,
            List.append_nil]
          exact (Declarations.stopsUnseen_meetAll _ met).symm
      | enter inner met =>
          rw [marks_enter]
          exact (Declarations.stopsUnseen_meetAll _ met).symm
      | close closed =>
          rw [marks_close closed]
          obtain ⟨parent, outer, -, rfl⟩ := close_eq_ok_iff.mp closed
          rfl
  | @quantify before after quantifier built accepted ih =>
      rw [hasMergedStart_quantify accepted, ih, marks_quantify accepted]
      rcases quantify_eq_ok_iff.mp accepted with ⟨-, -, rfl⟩
      rfl
  | @merge before expression after options built merged accepted ih _ =>
      rw [hasMergedStart_merge accepted, ih]
      obtain ⟨-, declared, adopted, rfl⟩ := subexpression_eq_ok_iff.mp accepted
      rw [marks_push, Node.marks_singleton]
      refine (Declarations.stopsUnseen_adoptAll (anchored_of_reachable built) adopted).symm.trans ?_
      by_cases keep : options.keepFlags = true
      · simp only [keep, if_true]
        rfl
      · simp only [keep]
        rfl

end Builder

/-- The anchors of the tree are at most one start and then at most one end. The start is declared
exactly when it stands in the tree. The end is declared exactly when it stands there or the start
stands inside a merged element, and these two do not come together. -/
theorem anchors_of_reachable (builder : Builder) (reachable : builder.Reachable) :
    Mark.anchors builder.marks ∈ [[], [.start], [.stop], [.start, .stop]] ∧
      (builder.declared.hasStart = true ↔ .start ∈ Mark.anchors builder.marks) ∧
      (builder.declared.hasStop = true ↔
        .stop ∈ Mark.anchors builder.marks ∨ builder.HasMergedStart) ∧
      ¬ (builder.HasMergedStart ∧ .stop ∈ Mark.anchors builder.marks) := by
  rcases Builder.anchored_of_reachable reachable with ⟨shape, start, stop⟩
  have merged := Builder.hasMergedStart_iff_of_reachable reachable
  refine ⟨shape, start, ⟨?_, ?_⟩, ?_⟩
  · intro declaredStop
    by_cases stands : .stop ∈ Mark.anchors builder.marks
    · exact .inl stands
    · exact .inr (merged.mpr ⟨declaredStop, stands⟩)
  · rintro (stands | hidden)
    · exact stop stands
    · exact (merged.mp hidden).1
  · rintro ⟨hidden, stands⟩
    exact (merged.mp hidden).2 stands

theorem anchors_of_reachable_nested :
    ∃ builder : Builder, builder.Reachable ∧ Mark.anchors builder.marks = [.start] ∧
      builder.declared.hasStop = true ∧ builder.HasMergedStart := by
  have started := Builder.Reachable.call .startOfInput .new rfl
  have inner := Builder.Reachable.merge { keepAnchors := true } .new started rfl
  have outer := Builder.Reachable.merge { keepAnchors := true } .new inner rfl
  rcases anchors_of_reachable _ outer with ⟨-, -, stopped, -⟩
  exact ⟨_, outer, rfl, rfl, (stopped.mp rfl).resolve_left (by decide)⟩

end RegexForge
