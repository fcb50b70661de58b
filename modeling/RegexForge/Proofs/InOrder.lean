import Mathlib.Data.List.Induction
import RegexForge.Proofs.Outcome

/-!
Lists whose members are looked at from left to right. What is asked of a member may depend on the
members before it, so that `InOrder` holds of a list when each member is in order after those before
it, and the first fault of a list is the one that a walk over it reports.
-/

namespace RegexForge

open Outcome

variable {α β ε σ : Type}

def InOrder (property : List α → α → Prop) (list : List α) : Prop :=
  ∀ before x after, list = before ++ x :: after → property before x

theorem inOrder_nil (property : List α → α → Prop) : InOrder property [] := by
  intro before x after split
  simp at split

theorem inOrder_append {property : List α → α → Prop} {first second : List α} :
    InOrder property (first ++ second) ↔
      InOrder property first ∧ InOrder (fun before => property (first ++ before)) second := by
  constructor
  · intro holds
    constructor
    · intro before x after split
      exact holds before x (after ++ second) (by simp [split])
    · intro before x after split
      exact holds (first ++ before) x after (by simp [split])
  · rintro ⟨front, back⟩ before x after split
    -- The member stands either in the first list or in the second.
    rcases List.append_eq_append_iff.mp split with ⟨rest, rfl, found⟩ | ⟨rest, rfl, found⟩
    · exact back rest x after found
    · cases rest with
      | nil =>
          simp only [List.nil_append] at found
          simpa using back [] x after found.symm
      | cons head rest =>
          simp only [List.cons_append, List.cons.injEq] at found
          rcases found with ⟨rfl, rfl⟩
          exact front before x rest rfl

theorem inOrder_singleton {property : List α → α → Prop} {x : α} :
    InOrder property [x] ↔ property [] x := by
  constructor
  · intro holds
    exact holds [] x [] rfl
  · intro holds before other after split
    rcases List.singleton_eq_append_iff.mp split with ⟨rfl, same⟩ | ⟨_, none⟩
    · cases same
      exact holds
    · contradiction

theorem InOrder.imp {weak strong : List α → α → Prop} {list : List α}
    (weaker : ∀ before x, strong before x → weak before x)
    (holds : InOrder strong list) : InOrder weak list :=
  fun before x after split => weaker before x (holds before x after split)

theorem InOrder.of_mem {property : List α → α → Prop} {list : List α} {x : α}
    (holds : InOrder property list) (member : x ∈ list) :
    ∃ before after, list = before ++ x :: after ∧ property before x := by
  obtain ⟨before, after, split⟩ := List.append_of_mem member
  exact ⟨before, after, split, holds before x after split⟩

theorem inOrder_filterMap {property : List β → β → Prop} {f : α → Option β} {list : List α} :
    InOrder property (list.filterMap f) ↔
      InOrder (fun before a => ∀ b, f a = some b → property (before.filterMap f) b) list := by
  constructor
  · intro holds before a after split b kept
    exact holds (before.filterMap f) b (after.filterMap f) (by simp [split, kept])
  · intro holds before b after split
    -- The members between the source of `before` and the source of `b` are all dropped.
    obtain ⟨source, tail, rfl, rfl, found⟩ := List.filterMap_eq_append_iff.mp split
    obtain ⟨dropped, a, later, rfl, none, kept, rfl⟩ := List.filterMap_eq_cons_iff.mp found
    have own := holds (source ++ dropped) a later (by simp) b kept
    rwa [List.filterMap_append, List.filterMap_eq_nil_iff.mpr none, List.append_nil] at own

/-- The first member that is at fault, after members that are not. -/
def FirstFault (fault : List α → α → Option ε) (list : List α) (error : ε) : Prop :=
  ∃ before x after, list = before ++ x :: after ∧
    InOrder (fun earlier y => fault earlier y = none) before ∧ fault before x = some error

theorem inOrder_congr {one other : List α → α → Prop} {list : List α}
    (agree : InOrder (fun before x => one before x ↔ other before x) list) :
    InOrder one list ↔ InOrder other list := by
  constructor
  · intro holds before x after split
    exact (agree before x after split).mp (holds before x after split)
  · intro holds before x after split
    exact (agree before x after split).mpr (holds before x after split)

theorem firstFault_congr {one other : List α → α → Option ε} {list : List α} {error : ε}
    (agree : InOrder (fun before x => one before x = other before x) list) :
    FirstFault one list error ↔ FirstFault other list error := by
  have sound : ∀ before x after, list = before ++ x :: after →
      (InOrder (fun earlier y => one earlier y = none) before ↔
        InOrder (fun earlier y => other earlier y = none) before) := by
    intro before x after split
    apply inOrder_congr
    intro earlier y later inside
    rw [agree earlier y (later ++ x :: after) (by simp [split, inside])]
  constructor
  · rintro ⟨before, x, after, split, holds, found⟩
    exact ⟨before, x, after, split, (sound before x after split).mp holds,
      agree before x after split ▸ found⟩
  · rintro ⟨before, x, after, split, holds, found⟩
    exact ⟨before, x, after, split, (sound before x after split).mpr holds,
      (agree before x after split).trans found⟩

theorem firstFault_filterMap {fault : List β → β → Option ε} {f : α → Option β} {list : List α}
    {error : ε} :
    FirstFault fault (list.filterMap f) error ↔
      FirstFault (fun before a => (f a).bind (fault (before.filterMap f))) list error := by
  constructor
  · rintro ⟨before, b, after, split, sound, found⟩
    obtain ⟨source, tail, rfl, rfl, rest⟩ := List.filterMap_eq_append_iff.mp split
    obtain ⟨dropped, a, later, rfl, none, kept, rfl⟩ := List.filterMap_eq_cons_iff.mp rest
    have same : (source ++ dropped).filterMap f = source.filterMap f := by
      rw [List.filterMap_append, List.filterMap_eq_nil_iff.mpr none, List.append_nil]
    refine ⟨source ++ dropped, a, later, by simp, ?_, by simp [same, kept, found]⟩
    rw [← same, inOrder_filterMap] at sound
    exact sound.imp fun _ _ => Option.bind_eq_none_iff.mpr
  · rintro ⟨before, a, after, rfl, sound, found⟩
    obtain ⟨b, kept, found⟩ := Option.bind_eq_some_iff.mp found
    refine ⟨before.filterMap f, b, after.filterMap f, by simp [kept], ?_, found⟩
    exact inOrder_filterMap.mpr (sound.imp fun _ _ => Option.bind_eq_none_iff.mp)

theorem inOrder_or_firstFault (fault : List α → α → Option ε) (list : List α) :
    InOrder (fun earlier x => fault earlier x = none) list ∨
      ∃ error, FirstFault fault list error := by
  induction list using List.reverseRecOn with
  | nil => exact .inl (inOrder_nil _)
  | append_singleton list x ih =>
      rcases ih with sound | ⟨error, before, y, after, rfl, sound, found⟩
      · cases own : fault list x with
        | none =>
            left
            exact inOrder_append.mpr ⟨sound, inOrder_singleton.mpr (by simpa using own)⟩
        | some error =>
            right
            exact ⟨error, list, x, [], rfl, sound, own⟩
      · right
        exact ⟨error, before, y, after ++ [x], by simp, sound, found⟩

/-- A walk that only goes wrong on faults, and whose state is known from the members passed. -/
structure Walks (take : σ → α → Except ε σ) (fault : List α → α → Option ε) (state : List α → σ) :
    Prop where
  faulty {before : List α} {x : α} {error : ε} (found : fault before x = some error) :
    take (state before) x = .error error
  sound {before : List α} {x : α} (none : fault before x = none) :
    take (state before) x = .ok (state (before ++ [x]))

namespace Walks

variable {take : σ → α → Except ε σ} {fault : List α → α → Option ε} {state : List α → σ}

theorem foldlM_ok (walks : Walks take fault state) {list : List α}
    (sound : InOrder (fun earlier x => fault earlier x = none) list) :
    list.foldlM take (state []) = .ok (state list) := by
  induction list using List.reverseRecOn with
  | nil => rfl
  | append_singleton list x ih =>
      rcases inOrder_append.mp sound with ⟨front, last⟩
      have own : fault list x = none := by simpa using inOrder_singleton.mp last
      rw [List.foldlM_append, ih front, ok_bind, List.foldlM_cons, walks.sound own]
      rfl

theorem foldlM_error (walks : Walks take fault state) {list : List α} {error : ε}
    (first : FirstFault fault list error) : list.foldlM take (state []) = .error error := by
  rcases first with ⟨before, x, after, rfl, sound, found⟩
  rw [List.foldlM_append, walks.foldlM_ok sound, ok_bind, List.foldlM_cons, walks.faulty found]
  rfl

theorem foldlM_eq_ok_iff (walks : Walks take fault state) (list : List α) {last : σ} :
    list.foldlM take (state []) = .ok last ↔
      InOrder (fun earlier x => fault earlier x = none) list ∧ last = state list := by
  constructor
  · intro accepted
    rcases inOrder_or_firstFault fault list with sound | ⟨error, first⟩
    · rw [walks.foldlM_ok sound] at accepted
      cases accepted
      exact ⟨sound, rfl⟩
    · rw [walks.foldlM_error first] at accepted
      contradiction
  · rintro ⟨sound, rfl⟩
    exact walks.foldlM_ok sound

theorem foldlM_eq_error_iff (walks : Walks take fault state) (list : List α) {error : ε} :
    list.foldlM take (state []) = .error error ↔ FirstFault fault list error := by
  constructor
  · intro refused
    rcases inOrder_or_firstFault fault list with sound | ⟨found, first⟩
    · rw [walks.foldlM_ok sound] at refused
      contradiction
    · rw [walks.foldlM_error first] at refused
      cases refused
      exact first
  · exact walks.foldlM_error

end Walks

end RegexForge
