import RegexForge.Proofs.Addresses
import RegexForge.Proofs.References

/-!
What the references of a builder are to, and that merging does not change it. A number refers to
the capture group opened at that place in the order, a name to every group that carries it. In a
reachable builder each reference is to exactly one group. A merge copies a reference together with
the group it is to, and both keep their addresses inside the merged element; what comes later adds
groups with larger numbers and with other names, so the copy of the reference stays with the copy
of the group. These two facts compose, through any number of later calls and merges.
-/

namespace RegexForge

open Mark

def Node.group? : Address × Mark → Option (Address × Option Text)
  | (address, .capture name) => some (address, name)
  | _ => none

namespace Builder

def groups (builder : Builder) : List (Address × Option Text) :=
  builder.placed.filterMap Node.group?

/-- The address of the group with this number. Groups are numbered from one. -/
def groupAt? (builder : Builder) : Nat → Option Address
  | 0 => none
  | number + 1 => builder.groups[number]?.map Prod.fst

def groupsNamed (builder : Builder) (name : Text) : List Address :=
  (builder.groups.filter fun group => group.2 = some name).map Prod.fst

theorem length_groups (builder : Builder) :
    builder.groups.length = captureCount builder.marks := by
  rw [← map_snd_placed, captureCount, List.countP_map, groups, List.length_filterMap_eq_countP]
  congr 1
  funext entry
  obtain ⟨address, mark⟩ := entry
  cases mark <;> rfl

theorem names_groups (builder : Builder) :
    builder.groups.filterMap Prod.snd = groupNames builder.marks := by
  rw [← map_snd_placed, groupNames, List.filterMap_map, groups, List.filterMap_filterMap]
  congr 1
  funext entry
  obtain ⟨address, mark⟩ := entry
  cases mark <;> rfl

theorem groups_prefix {source target : Builder} (later : source.placed <+: target.placed) :
    source.groups <+: target.groups :=
  later.filterMap _

theorem groups_merge {before expression after : Builder} {options : MergeOptions}
    (reachable : expression.Reachable)
    (accepted : before.subexpression expression options = .ok after) :
    after.groups = before.groups ++
      expression.groups.map fun group =>
        (before.here ++ group.1, group.2.map (options.scope ++ ·)) := by
  rw [groups, placed_merge reachable accepted, List.filterMap_append, List.filterMap_filterMap,
    groups, groups, List.map_filterMap]
  congr 2
  funext entry
  obtain ⟨address, mark⟩ := entry
  cases mark with
  | anchor a =>
      by_cases kept : options.keepAnchors = true <;> simp [Node.copyAt?, rebase?, kept, Node.group?]
  | _ => rfl

theorem mem_groupsNamed_iff {builder : Builder} {name : Text} {address : Address} :
    address ∈ builder.groupsNamed name ↔ (address, some name) ∈ builder.groups := by
  simp [groupsNamed]

theorem filter_named_eq_nil {groups : List (Address × Option Text)} {name : Text}
    (absent : name ∉ groups.filterMap Prod.snd) :
    groups.filter (fun group => group.2 = some name) = [] := by
  apply List.filter_eq_nil_iff.mpr
  intro group member same
  exact absent (List.mem_filterMap.mpr ⟨group, member, by simpa using same⟩)

theorem groupsNamed_eq {builder : Builder} (reachable : builder.Reachable) {name : Text}
    {address : Address} (carried : (address, some name) ∈ builder.groups) :
    builder.groupsNamed name = [address] := by
  have distinct := groupNames_nodup (links_of_reachable reachable).fresh
  rw [← names_groups] at distinct
  obtain ⟨before, after, split⟩ := List.append_of_mem carried
  simp only [split, List.filterMap_append, List.filterMap_cons] at distinct
  obtain ⟨-, tail, apart⟩ := List.nodup_append.mp distinct
  have front : name ∉ before.filterMap Prod.snd := fun member =>
    apart name member name List.mem_cons_self rfl
  have back : name ∉ after.filterMap Prod.snd := (List.nodup_cons.mp tail).1
  simp [groupsNamed, split, filter_named_eq_nil front, filter_named_eq_nil back]

theorem mark_mem_of_placed {builder : Builder} {entry : Address × Mark}
    (placed : entry ∈ builder.placed) : entry.2 ∈ builder.marks := by
  rw [← map_snd_placed]
  exact List.mem_map_of_mem placed

theorem exists_groupAt? {builder : Builder} (reachable : builder.Reachable) {place : Address}
    {index : Nat} (placed : (place, .reference index) ∈ builder.placed) :
    ∃ group, builder.groupAt? index = some group := by
  obtain ⟨before, after, split, first, last⟩ :=
    (links_of_reachable reachable).resolves.of_mem (mark_mem_of_placed placed)
  obtain ⟨number, rfl⟩ : ∃ number, index = number + 1 := ⟨index - 1, by omega⟩
  have inside : number < builder.groups.length := by
    rw [length_groups, split, captureCount_append]
    omega
  exact ⟨_, by rw [groupAt?, List.getElem?_eq_getElem inside]; rfl⟩

theorem exists_groupsNamed {builder : Builder} (reachable : builder.Reachable) {place : Address}
    {name : Text} (placed : (place, .namedReference name) ∈ builder.placed) :
    ∃ group, builder.groupsNamed name = [group] := by
  obtain ⟨before, after, split, known⟩ :=
    (links_of_reachable reachable).resolves.of_mem (mark_mem_of_placed placed)
  have listed : name ∈ builder.groups.filterMap Prod.snd := by
    rw [names_groups, split, groupNames_append]
    exact List.mem_append_left _ known
  obtain ⟨⟨address, named⟩, member, rfl⟩ := List.mem_filterMap.mp listed
  exact ⟨address, groupsNamed_eq reachable member⟩

/-- Each reference of the source stands in the target, behind the address `path`, and is to the same
group there. -/
structure Keeps (path : Address) (source target : Builder) : Prop where
  numbered {place group : Address} {index : Nat} (stands : (place, .reference index) ∈ source.placed)
    (refers : source.groupAt? index = some group) :
    ∃ number, (path ++ place, .reference number) ∈ target.placed ∧
      target.groupAt? number = some (path ++ group)
  named {place group : Address} {name : Text}
    (stands : (place, .namedReference name) ∈ source.placed)
    (refers : source.groupsNamed name = [group]) :
    ∃ renamed, (path ++ place, .namedReference renamed) ∈ target.placed ∧
      target.groupsNamed renamed = [path ++ group]

theorem Keeps.trans {inner outer : Address} {source middle target : Builder}
    (first : Keeps inner source middle) (second : Keeps outer middle target) :
    Keeps (outer ++ inner) source target := by
  constructor
  · intro place group index stands refers
    obtain ⟨number, stands, refers⟩ := first.numbered stands refers
    simpa only [List.append_assoc] using second.numbered stands refers
  · intro place group name stands refers
    obtain ⟨renamed, stands, refers⟩ := first.named stands refers
    simpa only [List.append_assoc] using second.named stands refers

theorem groupAt?_of_prefix {source target : Builder} (later : source.groups <+: target.groups)
    {number : Nat} {group : Address} (refers : source.groupAt? number = some group) :
    target.groupAt? number = some group := by
  cases number with
  | zero => contradiction
  | succ number =>
      obtain ⟨entry, found, rfl⟩ := Option.map_eq_some_iff.mp refers
      obtain ⟨more, same⟩ := later
      obtain ⟨inside, -⟩ := List.getElem?_eq_some_iff.mp found
      rw [groupAt?, ← same, List.getElem?_append_left inside, found]
      rfl

theorem keeps_of_initial {source target : Builder} (reachable : target.Reachable)
    (later : source.placed <+: target.placed) : Keeps [] source target := by
  have groups := groups_prefix later
  constructor
  · intro place group index stands refers
    exact ⟨index, later.subset stands, groupAt?_of_prefix groups refers⟩
  · intro place group name stands refers
    have carried : (group, some name) ∈ source.groups :=
      mem_groupsNamed_iff.mp (by simp [refers])
    exact ⟨name, later.subset stands, groupsNamed_eq reachable (groups.subset carried)⟩

theorem keeps_of_merge {before expression after : Builder} {options : MergeOptions}
    (built : before.Reachable) (reachable : expression.Reachable)
    (accepted : before.subexpression expression options = .ok after) :
    Keeps before.here expression after := by
  have placed := placed_merge reachable accepted
  have groups := groups_merge reachable accepted
  have copied : ∀ {entry copy : Address × Mark}, entry ∈ expression.placed →
      Node.copyAt? options before.declared.captures before.here entry = some copy →
        copy ∈ after.placed := by
    intro entry copy member found
    rw [placed]
    exact List.mem_append_right _ (List.mem_filterMap.mpr ⟨entry, member, found⟩)
  constructor
  · intro place group index stands refers
    refine ⟨index + before.declared.captures, copied stands rfl, ?_⟩
    cases index with
    | zero => contradiction
    | succ number =>
        obtain ⟨entry, found, rfl⟩ := Option.map_eq_some_iff.mp refers
        -- The shift is the number of groups that the parent had, which come first.
        have skipped : before.declared.captures = before.groups.length := by
          rw [length_groups, (links_of_reachable built).counts.1]
        rw [skipped, Nat.add_right_comm, groupAt?, groups, List.getElem?_append_right (by omega),
          Nat.add_sub_cancel, List.getElem?_map, found]
        rfl
  · intro place group name stands refers
    have carried : (group, some name) ∈ expression.groups :=
      mem_groupsNamed_iff.mp (by simp [refers])
    refine ⟨options.scope ++ name, copied stands rfl, ?_⟩
    apply groupsNamed_eq (.merge options built reachable accepted)
    rw [groups]
    exact List.mem_append_right _ (List.mem_map_of_mem carried)

/-- A copy of the expression stands in the builder at the address. It came there in a merge, and the
builder may have gone on in any way, also into other builders. -/
inductive Copied (expression : Builder) : Address → Builder → Prop where
  | merge {parent merged : Builder} (options : MergeOptions) (built : parent.Reachable)
      (accepted : parent.subexpression expression options = .ok merged) :
      Copied expression parent.here merged
  | call {path : Address} {before after : Builder} (call : Call)
      (copied : Copied expression path before) (accepted : before.apply call = .ok after) :
      Copied expression path after
  | quantify {path : Address} {before after : Builder} (quantifier : Quantifier)
      (copied : Copied expression path before)
      (accepted : before.quantify quantifier = .ok after) : Copied expression path after
  | extend {path : Address} {before other after : Builder} (options : MergeOptions)
      (copied : Copied expression path before) (reachable : other.Reachable)
      (accepted : before.subexpression other options = .ok after) : Copied expression path after
  | within {path : Address} {inner parent after : Builder} (options : MergeOptions)
      (copied : Copied expression path inner) (built : parent.Reachable)
      (accepted : parent.subexpression inner options = .ok after) :
      Copied expression (parent.here ++ path) after

theorem Copied.keeps {expression builder : Builder} {path : Address}
    (reachable : expression.Reachable) (copied : Copied expression path builder) :
    builder.Reachable ∧ Keeps path expression builder := by
  induction copied with
  | merge options built accepted =>
      exact ⟨.merge options built reachable accepted, keeps_of_merge built reachable accepted⟩
  | call call copied accepted ih =>
      have after := Reachable.call call ih.1 accepted
      exact ⟨after, ih.2.trans (keeps_of_initial after (placed_step (apply_step accepted)))⟩
  | quantify quantifier copied accepted ih =>
      have after := Reachable.quantify quantifier ih.1 accepted
      have same := placed_quantify accepted
      exact ⟨after, ih.2.trans (keeps_of_initial after ⟨[], by rw [same, List.append_nil]⟩)⟩
  | extend options copied other accepted ih =>
      have after := Reachable.merge options ih.1 other accepted
      exact ⟨after, ih.2.trans (keeps_of_initial after ⟨_, (placed_merge other accepted).symm⟩)⟩
  | within options copied built accepted ih =>
      have after := Reachable.merge options built ih.1 accepted
      exact ⟨after, ih.2.trans (keeps_of_merge built ih.1 accepted)⟩

end Builder

/-- Merging never redirects a reference. Where an expression has a reference to its group with some
number, a copy of the expression has a reference, at the same address inside the copy, to the group
at the same address inside the copy; where it has a reference by name, the copy refers to a name
that this one group carries and no other. An address belongs to one mark only. -/
theorem references_of_copied (expression builder : Builder) (path : Address)
    (reachable : expression.Reachable) (copied : Builder.Copied expression path builder) :
    Node.Apart builder.placed ∧
      (∀ place index, (place, .reference index) ∈ expression.placed →
        ∃ group number, expression.groupAt? index = some group ∧
          (path ++ place, .reference number) ∈ builder.placed ∧
          builder.groupAt? number = some (path ++ group)) ∧
      (∀ place name, (place, .namedReference name) ∈ expression.placed →
        ∃ group renamed, expression.groupsNamed name = [group] ∧
          (path ++ place, .namedReference renamed) ∈ builder.placed ∧
          builder.groupsNamed renamed = [path ++ group]) := by
  have keeps := (copied.keeps reachable).2
  refine ⟨builder.apart_placed, ?_, ?_⟩
  · intro place index stands
    obtain ⟨group, refers⟩ := Builder.exists_groupAt? reachable stands
    obtain ⟨number, standsToo, refersToo⟩ := keeps.numbered stands refers
    exact ⟨group, number, refers, standsToo, refersToo⟩
  · intro place name stands
    obtain ⟨group, refers⟩ := Builder.exists_groupsNamed reachable stands
    obtain ⟨renamed, standsToo, refersToo⟩ := keeps.named stands refers
    exact ⟨group, renamed, refers, standsToo, refersToo⟩

/-- Merged into an open group, which is then merged behind another one, the first group of the
expression is the third, and it is the one that the copy of a reference to it is to. -/
theorem references_of_copied_nested :
    ∃ expression builder : Builder, expression.Reachable ∧
      Builder.Copied expression [1, 0, 0] builder ∧
      ([1], .reference 1) ∈ expression.placed ∧ expression.groupAt? 1 = some [0] ∧
      builder.groupAt? 3 = some [1, 0, 0, 0] ∧
      ∃ number, ([1, 0, 0, 1], .reference number) ∈ builder.placed ∧
        builder.groupAt? number = some [1, 0, 0, 0] := by
  have named := Builder.Reachable.call (.namedCapture "a".toList) .new rfl
  have closed := Builder.Reachable.call .close (.call (.char "x".toList) named rfl) rfl
  have referring := Builder.Reachable.call (.backreference 1) closed rfl
  obtain ⟨expression, builder, path, reachable, copied, rfl, stands, refers, third⟩ :
      ∃ (expression builder : Builder) (path : Address), expression.Reachable ∧
        Builder.Copied expression path builder ∧ path = [1, 0, 0] ∧
        ([1], .reference 1) ∈ expression.placed ∧ expression.groupAt? 1 = some [0] ∧
        builder.groupAt? 3 = some [1, 0, 0, 0] :=
    ⟨_, _, _, referring, .within { scope := "o_".toList }
      (.call .close (.merge { scope := "i_".toList } (.call .capture .new rfl) rfl) rfl)
      (.call .close (.call .capture .new rfl) rfl) rfl, rfl, by decide, by decide, by decide⟩
  rcases references_of_copied expression builder _ reachable copied with ⟨-, numbered, -⟩
  obtain ⟨group, number, found, standsToo, refersToo⟩ := numbered _ _ stands
  obtain rfl : group = [0] := by simpa [refers] using found.symm
  exact ⟨expression, builder, reachable, copied, stands, refers, third, number, standsToo, refersToo⟩

end RegexForge
