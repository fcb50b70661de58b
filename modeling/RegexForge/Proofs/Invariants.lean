import RegexForge.Builder.Reachable
import RegexForge.Proofs.Copying

/-!
Invariants of declarations and marks. Whatever a reachable builder went through, its declarations
came about by setting flags, meeting marks in calls and adopting the marks of merged expressions,
and its marks are those that were met and adopted, in this order. A property of both that these
three operations keep holds of every reachable builder, whichever containers are open.
-/

namespace RegexForge

open Outcome

theorem foldlM_invariant {σ α ε : Type} {take : σ → α → Except ε σ} (inv : σ → List α → Prop)
    (one : ∀ state next passed x, inv state passed → take state x = .ok next →
      inv next (passed ++ [x]))
    {state next : σ} {passed : List α} (list : List α) (holds : inv state passed)
    (taken : list.foldlM take state = .ok next) : inv next (passed ++ list) := by
  induction list generalizing state passed with
  | nil =>
      cases taken
      simpa using holds
  | cons x rest ih =>
      rw [List.foldlM_cons] at taken
      obtain ⟨middle, first, taken⟩ := bind_eq_ok_iff.mp taken
      simpa using ih (one state middle passed x holds first) taken

theorem exists_of_foldlM_error {σ α ε : Type} {take : σ → α → Except ε σ} {state : σ} {error : ε}
    (list : List α) (refused : list.foldlM take state = .error error) :
    ∃ before x after middle, list = before ++ x :: after ∧
      before.foldlM take state = .ok middle ∧ take middle x = .error error := by
  induction list generalizing state with
  | nil => contradiction
  | cons x rest ih =>
      rw [List.foldlM_cons] at refused
      cases taken : take state x with
      | error fault =>
          rw [taken] at refused
          cases refused
          exact ⟨[], x, rest, state, rfl, rfl, taken⟩
      | ok next =>
          rw [taken, ok_bind] at refused
          obtain ⟨before, y, after, middle, rfl, passed, stopped⟩ := ih refused
          refine ⟨x :: before, y, after, middle, rfl, ?_, stopped⟩
          rw [List.foldlM_cons, taken, ok_bind, passed]

namespace Builder

theorem root_container {builder : Builder} (reachable : builder.Reachable) :
    builder.root.container = .root := by
  -- The root is the outermost frame; a step replaces only the current frame or its parent, and
  -- keeps the container of both.
  induction reachable with
  | new => rfl
  | @call before after call built accepted ih =>
      cases apply_step accepted with
      | flag flag => exact ih
      | push native buildable met =>
          simp only [root] at ih ⊢
          cases outermost : before.outer.getLast? <;> simp_all [push, Frame.push]
      | enter inner met =>
          simp only [root, enter, List.getLast?_cons] at ih ⊢
          simpa using ih
      | close closed =>
          obtain ⟨parent, outer, split, rfl⟩ := close_eq_ok_iff.mp closed
          simp only [root, split, List.getLast?_cons] at ih ⊢
          cases outermost : outer.getLast? <;> simp_all [Frame.push]
  | @quantify before after quantifier built accepted ih =>
      rcases quantify_eq_ok_iff.mp accepted with ⟨-, -, rfl⟩
      simp only [root] at ih ⊢
      cases outermost : before.outer.getLast? <;> simp_all
  | @merge before expression after options built merged accepted ih _ =>
      obtain ⟨-, declared, -, rfl⟩ := subexpression_eq_ok_iff.mp accepted
      simp only [root] at ih ⊢
      cases outermost : before.outer.getLast? <;> simp_all [push, Frame.push]

theorem marks_of_closed {builder : Builder} (reachable : builder.Reachable)
    (closed : builder.isClosed = true) : builder.marks = Node.marks builder.current.elements := by
  have lowest := root_container reachable
  have empty : builder.outer = [] := by simpa [isClosed] using closed
  simp only [root, empty, List.getLast?_nil, Option.getD_none] at lowest
  rw [marks_isClosed closed, Frame.marks, lowest]
  rfl

theorem marks_copies (builder : Builder) {expression : Builder} (options : MergeOptions)
    (reachable : expression.Reachable) (closed : expression.isClosed = true) :
    Node.marks (builder.copies expression options) =
      expression.marks.filterMap (Mark.rebase? options builder.declared.captures) := by
  rw [marks_of_closed reachable closed, copies, Node.marks_rebaseAll]

theorem Reachable.invariant (inv : Declarations → List Mark → Prop) (new : inv {} [])
    (flags : ∀ declared marks flags, inv declared marks → inv { declared with flags := flags } marks)
    (meet : ∀ declared next marks mark, inv declared marks → declared.meet mark = .ok next →
      inv next (marks ++ [mark]))
    (merge : ∀ (options : MergeOptions) (declared next merged : Declarations)
      (marks others : List Mark), inv declared marks → inv merged others →
        declared.adoptAll (others.filterMap (Mark.rebase? options declared.captures)) = .ok next →
          inv next (marks ++ others.filterMap (Mark.rebase? options declared.captures)))
    {builder : Builder} (reachable : builder.Reachable) : inv builder.declared builder.marks := by
  induction reachable with
  | new => exact new
  | @call before after call built accepted ih =>
      cases apply_step accepted with
      | flag flag => exact flags _ _ _ ih
      | @push declared node native buildable met =>
          have marks := foldlM_invariant inv meet _ ih met
          rw [marks_push, Node.marks_singleton, Node.children_of_isNative native, Node.marks_nil,
            List.append_nil]
          exact marks
      | enter inner met =>
          rw [marks_enter]
          exact foldlM_invariant inv meet _ ih met
      | close closed =>
          rw [marks_close closed]
          obtain ⟨parent, outer, -, rfl⟩ := close_eq_ok_iff.mp closed
          exact ih
  | @quantify before after quantifier built accepted ih =>
      rw [marks_quantify accepted]
      rcases quantify_eq_ok_iff.mp accepted with ⟨-, -, rfl⟩
      exact ih
  | @merge before expression after options built merged accepted ihBuilt ihMerged =>
      obtain ⟨closed, declared, adopted, rfl⟩ := subexpression_eq_ok_iff.mp accepted
      have copied := marks_copies before options merged closed
      rw [copied] at adopted
      have taken := merge options _ _ _ _ _ ihBuilt ihMerged adopted
      -- The element that is pushed has no mark of its own, only those of the copies inside.
      rw [marks_push, Node.marks_singleton]
      change inv _ (before.marks ++ Node.marks (before.copies expression options))
      rw [copied]
      by_cases keep : options.keepFlags = true
      · simp only [keep, if_true]
        exact flags _ _ _ taken
      · simp only [keep]
        exact taken

/-- An invariant that does not depend on whether a mark comes from a call or from a merge. -/
theorem Reachable.invariant_of_takes (inv : Declarations → List Mark → Prop) (new : inv {} [])
    (flags : ∀ declared marks flags, inv declared marks → inv { declared with flags := flags } marks)
    (takes : ∀ declared next marks mark, inv declared marks → declared.Takes mark next →
      inv next (marks ++ [mark]))
    {builder : Builder} (reachable : builder.Reachable) : inv builder.declared builder.marks := by
  apply invariant inv new flags _ _ reachable
  · intro declared next marks mark holds met
    exact takes declared next marks mark holds (Declarations.takes_of_meet met)
  · intro options declared next merged marks others holds _ adopted
    apply foldlM_invariant inv _ _ holds adopted
    intro state after passed mark held adoptedOne
    exact takes state after passed mark held (Declarations.takes_of_adopt adoptedOne)

end Builder

end RegexForge
