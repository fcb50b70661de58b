import RegexForge.Proofs.Anchors
import RegexForge.Proofs.References

/-!
Declaring the same things again. A script sets all flags first and then meets the marks of the
finished tree in document order, on a builder that has declared nothing else. No check of a mark
looks at the flags, so it makes no difference when they were set. Without merges the marks were
already met in this order once, and meeting them again gives the same declarations. A merged
expression was checked on its own, against its own groups; for a builder with merges it is the
order among the marks of the finished tree that makes every check pass again.
-/

namespace RegexForge

open Outcome

namespace Declarations

/-! The flags do not matter. -/

theorem meet_withFlags (declared : Declarations) (flags : Flags) (mark : Mark) :
    meet { declared with flags := flags } mark =
      (declared.meet mark).map fun next => { next with flags := flags } := by
  cases mark with
  | anchor a =>
      cases a with
      | start =>
          simp only [meet, declareStart]
          cases declared.hasStart <;> cases declared.hasStop <;> rfl
      | stop =>
          simp only [meet, declareStop]
          cases declared.hasStop <;> rfl
  | capture name =>
      cases name with
      | none => rfl
      | some name =>
          simp only [meet, declareName, hasName]
          by_cases known : declared.names.contains name = true
          · simp only [known, ↓reduceIte]
            rfl
          · by_cases valid : isGroupName name = true
            · simp only [known, valid, ↓reduceIte]
              rfl
            · simp only [known, valid]
              rfl
  | reference index =>
      simp only [meet]
      split <;> rfl
  | namedReference name =>
      simp only [meet, hasName]
      by_cases known : declared.names.contains name = true
      · simp only [known, ↓reduceIte]
        rfl
      · simp only [known]
        rfl

theorem meetAll_withFlags (marks : List Mark) (declared : Declarations) (flags : Flags) :
    meetAll { declared with flags := flags } marks =
      (declared.meetAll marks).map fun next => { next with flags := flags } := by
  induction marks generalizing declared with
  | nil => rfl
  | cons mark rest ih =>
      rw [meetAll_cons, meetAll_cons, meet_withFlags]
      cases declared.meet mark with
      | error refusal => rfl
      | ok next => exact ih next

theorem meetAll_behind {declared next : Declarations} {flags : Flags} {marks more : List Mark}
    (met : meetAll { flags := flags } marks = .ok { declared with flags := flags })
    (accepted : declared.meetAll more = .ok next) :
    meetAll { flags := flags } (marks ++ more) = .ok { next with flags := flags } := by
  rw [meetAll_append, met, ok_bind, meetAll_withFlags, accepted]
  rfl

end Declarations

namespace Builder

theorem Assembled.reachable {builder : Builder} (assembled : builder.Assembled) :
    builder.Reachable := by
  induction assembled with
  | new => exact .new
  | call call built accepted ih => exact .call call ih accepted
  | quantify quantifier built accepted ih => exact .quantify quantifier ih accepted

theorem Step.meetAll {before after : Builder} (step : Step before after) (flags : Flags)
    (met : Declarations.meetAll { flags := flags } before.marks =
      .ok { before.declared with flags := flags }) :
    Declarations.meetAll { flags := flags } after.marks =
      .ok { after.declared with flags := flags } := by
  cases step with
  | flag flag => exact met
  | push native buildable accepted =>
      rw [marks_push, Node.marks_singleton, Node.children_of_isNative native, Node.marks_nil,
        List.append_nil]
      exact Declarations.meetAll_behind met accepted
  | enter inner accepted =>
      rw [marks_enter]
      exact Declarations.meetAll_behind met accepted
  | close closed =>
      rw [marks_close closed, met]
      obtain ⟨parent, outer, -, rfl⟩ := close_eq_ok_iff.mp closed
      rfl

theorem Assembled.meetAll {builder : Builder} (assembled : builder.Assembled) (flags : Flags) :
    Declarations.meetAll { flags := flags } builder.marks =
      .ok { builder.declared with flags := flags } := by
  induction assembled with
  | new => rfl
  | call call built accepted ih => exact (apply_step accepted).meetAll flags ih
  | quantify quantifier built accepted ih =>
      rw [marks_quantify accepted, ih]
      rcases quantify_eq_ok_iff.mp accepted with ⟨-, -, rfl⟩
      rfl

end Builder

namespace Declarations

open Mark

/-- What marks declare when nothing was declared before them but flags. -/
def ofMarks (flags : Flags) (marks : List Mark) : Declarations where
  flags := flags
  hasStart := (anchors marks).contains .start
  hasStop := (anchors marks).contains .stop
  captures := captureCount marks
  names := groupNames marks

theorem ofMarks_append (flags : Flags) (marks : List Mark) (mark : Mark) :
    ofMarks flags (marks ++ [mark]) =
      { ofMarks flags marks with
        hasStart := (ofMarks flags marks).hasStart || mark.anchor? == some .start
        hasStop := (ofMarks flags marks).hasStop || mark.anchor? == some .stop
        captures := (ofMarks flags marks).captures + if mark.isCapture then 1 else 0
        names := (ofMarks flags marks).names ++ mark.name?.toList } := by
  simp only [ofMarks, anchors_append, captureCount_append, groupNames_append, anchors_singleton,
    captureCount_singleton, groupNames_singleton]
  cases mark with
  | anchor a => cases a <;> simp [anchor?]
  | _ => simp [anchor?]

theorem meet_ofMarks {flags : Flags} {marks : List Mark} {mark : Mark}
    (shape : anchors (marks ++ [mark]) ∈ wellAnchored) (fresh : Fresh marks mark)
    (resolves : Resolves marks mark) :
    (ofMarks flags marks).meet mark = .ok (ofMarks flags (marks ++ [mark])) := by
  rw [ofMarks_append]
  rw [anchors_append, anchors_singleton] at shape
  cases mark with
  | anchor a =>
      cases a with
      | start =>
          have none : anchors marks = [] := before_start shape
          refine declareStart_eq_ok_iff.mpr ⟨?_, ?_, ?_⟩
          · simp [ofMarks, none]
          · simp [ofMarks, none]
          · simp [ofMarks, none, anchor?, isCapture, name?]
      | stop =>
          have absent : .stop ∉ anchors marks := by
            rcases before_stop shape with none | one
            · simp [none]
            · simp [one]
          refine declareStop_eq_ok_iff.mpr ⟨?_, ?_⟩
          · simpa [ofMarks] using absent
          · simp [ofMarks, anchor?, isCapture, name?]
  | capture name =>
      cases name with
      | none => simp [meet, addCapture, anchor?, isCapture, name?]
      | some name =>
          have named : (ofMarks flags marks).declareName name = .ok _ :=
            declareName_eq_ok_iff.mpr ⟨fresh.1, fresh.2, rfl⟩
          simp [meet, named, addCapture, anchor?, isCapture, name?]
  | reference index =>
      have known : 0 < index ∧ index ≤ (ofMarks flags marks).captures := resolves
      simp [meet, known, anchor?, isCapture, name?]
  | namedReference name =>
      have known : (ofMarks flags marks).hasName name = true := List.contains_iff_mem.mpr resolves
      simp [meet, known, anchor?, isCapture, name?]

theorem meetAll_ofMarks {flags : Flags} {marks : List Mark}
    (shape : anchors marks ∈ wellAnchored) (fresh : InOrder Fresh marks)
    (resolves : InOrder Resolves marks) :
    meetAll { flags := flags } marks = .ok (ofMarks flags marks) := by
  -- From the end, since a mark is checked against the marks before it.
  induction marks using List.reverseRecOn with
  | nil => rfl
  | append_singleton marks mark ih =>
      rcases inOrder_append.mp fresh with ⟨earlier, last⟩
      rcases inOrder_append.mp resolves with ⟨earlierResolve, lastResolves⟩
      have front : anchors marks ∈ wellAnchored := by
        rw [anchors_append] at shape
        exact mem_wellAnchored_iff.mpr
          ((List.sublist_append_left _ _).trans (mem_wellAnchored_iff.mp shape))
      have own : Fresh marks mark := by simpa using inOrder_singleton.mp last
      have backwards : Resolves marks mark := by simpa using inOrder_singleton.mp lastResolves
      rw [meetAll_append, ih front earlier earlierResolve, ok_bind, meetAll_singleton]
      exact meet_ofMarks shape own backwards

end Declarations

/-- The marks of a reachable builder are met again, whatever was merged into it. -/
theorem Builder.Reachable.meetAll {builder : Builder} (reachable : builder.Reachable)
    (flags : Flags) :
    Declarations.meetAll { flags := flags } builder.marks =
      .ok (.ofMarks flags builder.marks) := by
  have anchored := anchored_of_reachable reachable
  have links := links_of_reachable reachable
  exact Declarations.meetAll_ofMarks anchored.shape links.fresh links.resolves

end RegexForge
