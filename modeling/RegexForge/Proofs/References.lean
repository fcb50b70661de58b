import RegexForge.Proofs.InOrder
import RegexForge.Proofs.Invariants

/-!
References of a builder point backwards, at groups that exist. The declarations of a reachable
builder add up what its marks say, so a check against the declarations is a check against what was
met before. A merge checks no reference again: a copied reference counts on the groups of its own
expression, which stand in front of it in the copy as they did there, behind the groups that the
shift skips.
-/

namespace RegexForge

open Outcome

namespace Mark

def Fresh (before : List Mark) : Mark → Prop
  | capture (some name) => name ∉ groupNames before ∧ isGroupName name = true
  | _ => True

def Resolves (before : List Mark) : Mark → Prop
  | reference index => 1 ≤ index ∧ index ≤ captureCount before
  | namedReference name => name ∈ groupNames before
  | _ => True

theorem groupNames_nodup {marks : List Mark} (fresh : InOrder Fresh marks) :
    (groupNames marks).Nodup := by
  -- From the end, since a name is compared with the names before it.
  induction marks using List.reverseRecOn with
  | nil => exact List.nodup_nil
  | append_singleton marks mark ih =>
      rcases inOrder_append.mp fresh with ⟨front, back⟩
      have last := back [] mark [] rfl
      rw [groupNames_append, groupNames_singleton]
      cases mark with
      | capture name =>
          cases name with
          | none => simpa [name?] using ih front
          | some name =>
              simp only [Fresh, List.append_nil] at last
              refine List.nodup_append.mpr ⟨ih front, List.pairwise_singleton _ name, ?_⟩
              intro known member added same
              rw [List.mem_singleton.mp same]
              rintro rfl
              exact last.1 member
      | _ => simpa [name?] using ih front

theorem groupNames_valid {marks : List Mark} (fresh : InOrder Fresh marks) :
    ∀ name ∈ groupNames marks, isGroupName name = true := by
  intro name member
  obtain ⟨mark, found, named⟩ := List.mem_filterMap.mp member
  obtain ⟨before, after, -, declared⟩ := fresh.of_mem found
  cases mark with
  | capture declaredName =>
      cases named
      exact declared.2
  | _ => simp [name?] at named

section Rebase

variable {options : MergeOptions} {shift : Nat}

theorem rebase?_capture {mark copy : Mark} (copied : rebase? options shift mark = some copy) :
    copy.isCapture = mark.isCapture := by
  cases mark <;> simp only [rebase?] at copied <;> grind [isCapture]

theorem captureCount_rebase (marks : List Mark) :
    captureCount (marks.filterMap (rebase? options shift)) = captureCount marks := by
  induction marks with
  | nil => rfl
  | cons mark rest ih =>
      simp only [captureCount] at ih ⊢
      cases copied : rebase? options shift mark with
      | none =>
          rw [List.filterMap_cons_none copied, ih, List.countP_cons_of_neg]
          cases mark <;> simp_all [rebase?, isCapture]
      | some copy =>
          rw [List.filterMap_cons_some copied, List.countP_cons, List.countP_cons, ih,
            rebase?_capture copied]

theorem groupNames_rebase (marks : List Mark) :
    groupNames (marks.filterMap (rebase? options shift)) =
      (groupNames marks).map (options.scope ++ ·) := by
  simp only [groupNames, List.filterMap_filterMap, List.map_filterMap]
  congr 1
  funext mark
  cases mark with
  | capture name => rfl
  | anchor a =>
      by_cases kept : options.keepAnchors = true
      · simp [rebase?, kept, name?]
      · simp [rebase?, kept, name?]
  | _ => rfl

theorem resolves_rebase {marks : List Mark} (resolves : InOrder Resolves marks)
    {front : List Mark} (skipped : captureCount front = shift) :
    InOrder (fun before => Resolves (front ++ before))
      (marks.filterMap (rebase? options shift)) := by
  rw [inOrder_filterMap]
  intro before mark after split copy copied
  have original := resolves before mark after split
  cases mark with
  | anchor a =>
      simp only [rebase?] at copied
      split at copied
      · cases copied
        trivial
      · contradiction
  | capture name =>
      cases copied
      trivial
  | reference index =>
      cases copied
      simp only [Resolves, captureCount_append, captureCount_rebase] at original ⊢
      omega
  | namedReference name =>
      cases copied
      simp only [Resolves, groupNames_append, groupNames_rebase] at original ⊢
      exact List.mem_append_right _ (List.mem_map_of_mem original)

end Rebase

end Mark

namespace Declarations

open Mark

/-- The declarations add up what the marks say about groups. -/
def Counts (declared : Declarations) (marks : List Mark) : Prop :=
  declared.captures = captureCount marks ∧ declared.names = groupNames marks

theorem Counts.named {declared : Declarations} {marks : List Mark} {name : Text}
    (counts : declared.Counts marks) (fresh : name ∉ declared.names)
    (valid : isGroupName name = true) :
    Counts { declared with captures := declared.captures + 1, names := declared.names ++ [name] }
      (marks ++ [.capture (some name)]) ∧ Fresh marks (.capture (some name)) := by
  rcases counts with ⟨captures, names⟩
  refine ⟨⟨?_, ?_⟩, names ▸ fresh, valid⟩
  · simp [captureCount_append, captureCount_singleton, isCapture, captures]
  · simp [groupNames_append, groupNames_singleton, name?, names]

theorem Counts.unnamed {declared : Declarations} {marks : List Mark}
    (counts : declared.Counts marks) : declared.addCapture.Counts (marks ++ [.capture none]) := by
  constructor
  · simp [addCapture, captureCount_append, captureCount_singleton, isCapture, counts.1]
  · simp [addCapture, groupNames_append, groupNames_singleton, name?, counts.2]

theorem Counts.skip {declared next : Declarations} {marks : List Mark} {mark : Mark}
    (counts : declared.Counts marks) (captures : next.captures = declared.captures)
    (names : next.names = declared.names) (other : mark.isCapture = false) :
    next.Counts (marks ++ [mark]) := by
  constructor
  · simp [captureCount_append, captureCount_singleton, other, captures, counts.1]
  · have unnamed : mark.name? = none := by
      cases mark with
      | capture _ => simp [isCapture] at other
      | _ => rfl
    simp [groupNames_append, groupNames_singleton, unnamed, names, counts.2]

theorem Counts.takes {declared next : Declarations} {marks : List Mark} {mark : Mark}
    (counts : declared.Counts marks) (taken : declared.Takes mark next) :
    next.Counts (marks ++ [mark]) ∧ Fresh marks mark := by
  cases taken with
  | start stopped fresh first => exact ⟨counts.skip rfl rfl rfl, trivial⟩
  | stop fresh => exact ⟨counts.skip rfl rfl rfl, trivial⟩
  | capture => exact ⟨counts.unnamed, trivial⟩
  | named fresh valid => exact counts.named fresh valid
  | reference index => exact ⟨counts.skip rfl rfl rfl, trivial⟩
  | namedReference name => exact ⟨counts.skip rfl rfl rfl, trivial⟩

theorem Counts.resolves {declared next : Declarations} {marks : List Mark} {mark : Mark}
    (counts : declared.Counts marks) (met : declared.meet mark = .ok next) :
    Resolves marks mark := by
  cases mark with
  | reference index =>
      simp only [meet] at met
      split at met
      · next inside => exact ⟨inside.1, counts.1 ▸ inside.2⟩
      · contradiction
  | namedReference name =>
      simp only [meet, hasName, List.contains_iff_mem] at met
      split at met
      · next known =>
          have listed : name ∈ groupNames marks := counts.2 ▸ known
          exact listed
      · contradiction
  | _ => trivial

/-- The declarations add up the marks, and each mark agrees with those before it. -/
structure Links (declared : Declarations) (marks : List Mark) : Prop where
  counts : declared.Counts marks
  fresh : InOrder Fresh marks
  resolves : InOrder Resolves marks

theorem Links.meet {declared next : Declarations} {marks : List Mark} {mark : Mark}
    (links : declared.Links marks) (met : declared.meet mark = .ok next) :
    next.Links (marks ++ [mark]) := by
  rcases links.counts.takes (takes_of_meet met) with ⟨counts, fresh⟩
  have resolves := links.counts.resolves met
  refine ⟨counts, ?_, ?_⟩
  · exact inOrder_append.mpr ⟨links.fresh, inOrder_singleton.mpr (by simpa using fresh)⟩
  · exact inOrder_append.mpr ⟨links.resolves, inOrder_singleton.mpr (by simpa using resolves)⟩

theorem Links.merge {options : MergeOptions} {declared next merged : Declarations}
    {marks others : List Mark} (links : declared.Links marks) (linked : merged.Links others)
    (adopted : declared.adoptAll (others.filterMap (rebase? options declared.captures)) =
      .ok next) :
    next.Links (marks ++ others.filterMap (rebase? options declared.captures)) := by
  -- Names are checked again, mark by mark. References are not, and resolve as they did in the
  -- expression they come from.
  have one : ∀ (state after : Declarations) (passed : List Mark) (mark : Mark),
      (state.Counts passed ∧ InOrder Fresh passed) → state.adopt mark = .ok after →
        after.Counts (passed ++ [mark]) ∧ InOrder Fresh (passed ++ [mark]) := by
    rintro state after passed mark ⟨counts, fresh⟩ taken
    rcases counts.takes (takes_of_adopt taken) with ⟨counted, new⟩
    exact ⟨counted, inOrder_append.mpr ⟨fresh, inOrder_singleton.mpr (by simpa using new)⟩⟩
  rcases foldlM_invariant (fun state passed => Counts state passed ∧ InOrder Fresh passed) one _
    ⟨links.counts, links.fresh⟩ adopted with ⟨counts, fresh⟩
  refine ⟨counts, fresh, ?_⟩
  exact inOrder_append.mpr ⟨links.resolves, resolves_rebase linked.resolves links.counts.1.symm⟩

end Declarations

theorem Builder.links_of_reachable {builder : Builder} (reachable : builder.Reachable) :
    builder.declared.Links builder.marks := by
  apply Reachable.invariant Declarations.Links _ _ _ _ reachable
  · exact ⟨⟨rfl, rfl⟩, inOrder_nil _, inOrder_nil _⟩
  · intro declared marks flags links
    exact ⟨links.counts, links.fresh, links.resolves⟩
  · intro declared next marks mark links met
    exact links.meet met
  · intro options declared next merged marks others links linked adopted
    exact links.merge linked adopted

theorem isGroupName_iff {name : Text} :
    isGroupName name = true ↔
      ∃ first rest, name = first :: rest ∧ first.isAlpha = true ∧
        ∀ c ∈ rest, c.isAlphanum = true ∨ c = '_' := by
  cases name with
  | nil => simp [isGroupName]
  | cons first rest => simp [isGroupName]

/-- What is declared about groups is what stands in the tree: the number of capture groups, and
their names in order, which are distinct and well formed. Every reference is to a group that was
opened before it. -/
theorem references_of_reachable (builder : Builder) (reachable : builder.Reachable) :
    builder.declared.captures = Mark.captureCount builder.marks ∧
      builder.declared.names = Mark.groupNames builder.marks ∧
      builder.declared.names.Nodup ∧
      (∀ name ∈ builder.declared.names, ∃ first rest, name = first :: rest ∧
        first.isAlpha = true ∧ ∀ c ∈ rest, c.isAlphanum = true ∨ c = '_') ∧
      (∀ before index after, builder.marks = before ++ .reference index :: after →
        1 ≤ index ∧ index ≤ Mark.captureCount before) ∧
      (∀ before name after, builder.marks = before ++ .namedReference name :: after →
        name ∈ Mark.groupNames before) := by
  rcases Builder.links_of_reachable reachable with ⟨⟨captures, names⟩, fresh, resolves⟩
  refine ⟨captures, names, ?_, ?_, ?_, ?_⟩
  · rw [names]
    exact Mark.groupNames_nodup fresh
  · intro name member
    rw [names] at member
    exact isGroupName_iff.mp (Mark.groupNames_valid fresh name member)
  · intro before index after split
    exact resolves before (.reference index) after split
  · intro before name after split
    exact resolves before (.namedReference name) after split

theorem references_of_reachable_merged :
    ∃ builder : Builder, builder.Reachable ∧
      builder.marks = [.capture none, .capture (some "in_a".toList), .reference 2,
        .namedReference "in_a".toList] ∧
      builder.declared.captures = 2 ∧ builder.declared.names = ["in_a".toList] ∧
      builder.declared.names.Nodup := by
  have named := Builder.Reachable.call (.namedCapture "a".toList) .new rfl
  have closed := Builder.Reachable.call .close (.call (.char "x".toList) named rfl) rfl
  have referring := Builder.Reachable.call (.namedBackreference "a".toList)
    (.call (.backreference 1) closed rfl) rfl
  have merged := Builder.Reachable.merge { scope := "in_".toList } (.call .capture .new rfl)
    referring rfl
  rcases references_of_reachable _ merged with ⟨captures, names, distinct, -, -, -⟩
  exact ⟨_, merged, by decide, captures, names, distinct⟩

end RegexForge
