import Mathlib.Data.List.Sublists
import RegexForge.Proofs.Invariants

/-!
Anchors of a reachable builder. A start of input is declared once and before any end of input, and
an end of input once, so the anchors of the tree are at most one of each, in this order. What
stands in the tree is declared; the end of input may be declared without standing there, by a
merged start.
-/

namespace RegexForge

open Outcome Mark

namespace Mark

/-- No anchor, a start of input, an end of input, or both in this order. -/
def wellAnchored : List (List Anchor) :=
  [[], [.start], [.stop], [.start, .stop]]

theorem mem_wellAnchored_iff {list : List Anchor} :
    list ∈ wellAnchored ↔ list.Sublist [.start, .stop] := by
  have same : wellAnchored = [Anchor.start, .stop].sublists := by decide
  rw [same, List.mem_sublists]

theorem before_start {earlier later : List Anchor}
    (shape : earlier ++ .start :: later ∈ wellAnchored) : earlier = [] := by
  rcases earlier with _ | ⟨first, _ | ⟨second, rest⟩⟩
  · rfl
  · simp [wellAnchored] at shape
  · simp [wellAnchored] at shape

theorem before_stop {earlier later : List Anchor}
    (shape : earlier ++ .stop :: later ∈ wellAnchored) : earlier = [] ∨ earlier = [.start] := by
  rcases earlier with _ | ⟨first, _ | ⟨second, rest⟩⟩
  · exact .inl rfl
  · simp only [wellAnchored, List.mem_cons] at shape
    simp_all
  · simp [wellAnchored] at shape

theorem after_stop {earlier later : List Anchor}
    (shape : earlier ++ .stop :: later ∈ wellAnchored) : later = [] := by
  rcases before_stop shape with rfl | rfl
  · simpa [wellAnchored] using shape
  · simpa [wellAnchored] using shape

theorem eq_nil_of_wellAnchored {list : List Anchor} (shape : list ∈ wellAnchored)
    (noStart : .start ∉ list) (noStop : .stop ∉ list) : list = [] := by
  simp only [wellAnchored, List.mem_cons, List.not_mem_nil, or_false] at shape
  rcases shape with rfl | rfl | rfl | rfl
  · rfl
  · simp at noStart
  · simp at noStop
  · simp at noStart

theorem eq_start_of_wellAnchored {list : List Anchor} (shape : list ∈ wellAnchored)
    (start : .start ∈ list) (noStop : .stop ∉ list) : list = [.start] := by
  simp only [wellAnchored, List.mem_cons, List.not_mem_nil, or_false] at shape
  rcases shape with rfl | rfl | rfl | rfl
  · simp at start
  · rfl
  · simp at noStop
  · simp at noStop

theorem anchor_mem_iff {a : Anchor} {nodes : List Node} :
    a ∈ anchors (nodes.filterMap Node.mark?) ↔ .anchor a ∈ nodes := by
  simp only [anchors, List.filterMap_filterMap, List.mem_filterMap]
  constructor
  · rintro ⟨node, member, found⟩
    cases node with
    | anchor b =>
        cases found
        exact member
    | group capturing children => cases capturing <;> simp [Node.mark?, anchor?] at found
    | _ => simp [Node.mark?, anchor?] at found
  · intro member
    exact ⟨.anchor a, member, rfl⟩

end Mark

namespace Declarations

structure Anchored (declared : Declarations) (marks : List Mark) : Prop where
  shape : anchors marks ∈ wellAnchored
  start : declared.hasStart = true ↔ .start ∈ anchors marks
  stop : .stop ∈ anchors marks → declared.hasStop = true

variable {declared next : Declarations} {marks : List Mark}

theorem Anchored.skip {mark : Mark} (anchored : declared.Anchored marks)
    (other : mark.anchor? = none) (starts : next.hasStart = declared.hasStart)
    (stops : next.hasStop = declared.hasStop) : next.Anchored (marks ++ [mark]) := by
  have same : anchors (marks ++ [mark]) = anchors marks := by
    rw [anchors_append, anchors_singleton, other]
    simp
  refine ⟨?_, ?_, ?_⟩
  · rw [same]
    exact anchored.shape
  · rw [same, starts]
    exact anchored.start
  · rw [same, stops]
    exact anchored.stop

theorem Anchored.start_next (anchored : declared.Anchored marks)
    (fresh : declared.hasStart = false) (before : declared.hasStop = false)
    (started : next.hasStart = true) : next.Anchored (marks ++ [.anchor .start]) := by
  -- Each anchor that stands in the tree would be declared.
  have none : anchors marks = [] := by
    have noStart : .start ∉ anchors marks := by
      intro member
      have declaredStart := anchored.start.mpr member
      simp [fresh] at declaredStart
    have noStop : .stop ∉ anchors marks := by
      intro member
      have declaredStop := anchored.stop member
      simp [before] at declaredStop
    exact eq_nil_of_wellAnchored anchored.shape noStart noStop
  have one : anchors (marks ++ [.anchor .start]) = [.start] := by
    rw [anchors_append, none]
    rfl
  refine ⟨?_, ?_, ?_⟩
  · simp [one, wellAnchored]
  · simp [one, started]
  · simp [one]

theorem Anchored.stop_next (anchored : declared.Anchored marks)
    (fresh : declared.hasStop = false) (starts : next.hasStart = declared.hasStart)
    (stopped : next.hasStop = true) : next.Anchored (marks ++ [.anchor .stop]) := by
  have noStop : .stop ∉ anchors marks := by
    intro member
    have declaredStop := anchored.stop member
    simp [fresh] at declaredStop
  have last : anchors (marks ++ [.anchor .stop]) = anchors marks ++ [.stop] := anchors_append _ _
  refine ⟨?_, ?_, ?_⟩
  · have shape := anchored.shape
    simp only [wellAnchored, List.mem_cons, List.not_mem_nil, or_false] at shape
    rcases shape with shape | shape | shape | shape
    · simp [last, shape, wellAnchored]
    · simp [last, shape, wellAnchored]
    · simp [shape] at noStop
    · simp [shape] at noStop
  · rw [starts, anchored.start]
    simp [last]
  · intro _
    exact stopped

theorem Anchored.takes {mark : Mark} (anchored : declared.Anchored marks)
    (taken : declared.Takes mark next) : next.Anchored (marks ++ [mark]) := by
  cases taken with
  | start stopped fresh first => exact anchored.start_next fresh first rfl
  | stop fresh => exact anchored.stop_next fresh rfl rfl
  | capture => exact anchored.skip rfl rfl rfl
  | named fresh valid => exact anchored.skip rfl rfl rfl
  | reference index => exact anchored.skip rfl rfl rfl
  | namedReference name => exact anchored.skip rfl rfl rfl

end Declarations

theorem Builder.anchored_of_reachable {builder : Builder} (reachable : builder.Reachable) :
    builder.declared.Anchored builder.marks := by
  apply Reachable.invariant_of_takes Declarations.Anchored _ _ _ reachable
  · exact ⟨by simp [anchors, wellAnchored], by simp [anchors], by simp [anchors]⟩
  · intro declared marks flags anchored
    exact ⟨anchored.shape, anchored.start, anchored.stop⟩
  · intro declared next marks mark anchored taken
    exact anchored.takes taken

end RegexForge
