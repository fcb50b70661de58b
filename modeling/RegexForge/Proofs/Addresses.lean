import RegexForge.Proofs.Invariants

/-!
Where the marks of a builder stand. An address leads from the root to an element; at each level it
gives the number of elements in front. A container that is still open has the address that it will
have as an element of the frame below, and a quantifier is no level of its own. So nothing that a
builder does changes the address of a mark: calls and merges add marks behind the others, and a
merged expression is one element, whose marks keep the addresses that they had in the expression,
behind the address of that element. No two marks have the same address.
-/

namespace RegexForge

open Mark

abbrev Address := List Nat

namespace Node

mutual

/-- The marks of a node at an address, in document order, each with its own address. -/
def placed (address : Address) : Node → List (Address × Mark)
  | anchor a => [(address, .anchor a)]
  | group true children => (address, .capture none) :: placedAll address 0 children
  | namedGroup name children => (address, .capture (some name)) :: placedAll address 0 children
  | group false children | lookaround _ children | anyOf children | subexpression children =>
      placedAll address 0 children
  | backreference index => [(address, .reference index)]
  | namedBackreference name => [(address, .namedReference name)]
  | quantified inner _ => placed address inner
  | _ => []

def placedAll (address : Address) (index : Nat) : List Node → List (Address × Mark)
  | [] => []
  | node :: rest => placed (address ++ [index]) node ++ placedAll address (index + 1) rest

end

theorem placedAll_append (address : Address) (index : Nat) (first second : List Node) :
    placedAll address index (first ++ second) =
      placedAll address index first ++ placedAll address (index + first.length) second := by
  induction first generalizing index with
  | nil => simp [placedAll]
  | cons node rest ih =>
      simp only [List.cons_append, placedAll, ih, List.append_assoc, List.length_cons]
      rw [show index + 1 + rest.length = index + (rest.length + 1) by omega]

mutual

theorem map_snd_placed (address : Address) (node : Node) :
    (placed address node).map Prod.snd = marks [node] := by
  rw [marks_singleton]
  cases node with
  | group capturing children =>
      cases capturing with
      | true => exact congrArg (_ :: ·) (map_snd_placedAll address 0 children)
      | false => exact map_snd_placedAll address 0 children
  | namedGroup _ children => exact congrArg (_ :: ·) (map_snd_placedAll address 0 children)
  | lookaround _ children => exact map_snd_placedAll address 0 children
  | anyOf children => exact map_snd_placedAll address 0 children
  | subexpression children => exact map_snd_placedAll address 0 children
  | quantified inner _ => exact map_snd_placed address inner
  | _ => rfl

theorem map_snd_placedAll (address : Address) (index : Nat) (nodes : List Node) :
    (placedAll address index nodes).map Prod.snd = marks nodes := by
  cases nodes with
  | nil => rfl
  | cons node rest =>
      rw [placedAll, List.map_append, map_snd_placed, map_snd_placedAll, ← marks_cons]

end

/-- A mark as a merge copies it, with the address that the copy has if the merged element stands at
the address `here`. -/
def copyAt? (options : MergeOptions) (shift : Nat) (here : Address) (entry : Address × Mark) :
    Option (Address × Mark) :=
  (rebase? options shift entry.2).map fun mark => (here ++ entry.1, mark)

section Copies

variable (options : MergeOptions) (shift : Nat) (here : Address)

mutual

theorem placed_rebase (address : Address) (node : Node) :
    placed (here ++ address) (rebase options shift node) =
      (placed address node).filterMap (copyAt? options shift here) := by
  cases node with
  | anchor a =>
      by_cases kept : options.keepAnchors = true
      · simp [rebase, kept, placed, copyAt?, rebase?]
      · simp [rebase, kept, placed, copyAt?, rebase?]
  | group capturing children =>
      cases capturing with
      | true => exact congrArg (_ :: ·) (placedAll_rebaseAll address 0 children)
      | false => exact placedAll_rebaseAll address 0 children
  | namedGroup _ children => exact congrArg (_ :: ·) (placedAll_rebaseAll address 0 children)
  | lookaround _ children => exact placedAll_rebaseAll address 0 children
  | anyOf children => exact placedAll_rebaseAll address 0 children
  | subexpression children => exact placedAll_rebaseAll address 0 children
  | quantified inner _ => exact placed_rebase address inner
  | _ => rfl

theorem placedAll_rebaseAll (address : Address) (index : Nat) (nodes : List Node) :
    placedAll (here ++ address) index (rebaseAll options shift nodes) =
      (placedAll address index nodes).filterMap (copyAt? options shift here) := by
  cases nodes with
  | nil => rfl
  | cons node rest =>
      rw [rebaseAll, placedAll, placedAll, List.filterMap_append, List.append_assoc,
        placed_rebase (address ++ [index]) node, placedAll_rebaseAll address (index + 1) rest]

end

end Copies

/-- The entry stands under one of the elements of a container that are numbered from `first` and
before `last`. -/
def Under (address : Address) (first last : Nat) (entry : Address × Mark) : Prop :=
  ∃ k, first ≤ k ∧ k < last ∧ address ++ [k] <+: entry.1

theorem Under.isPrefix {address : Address} {first last : Nat} {entry : Address × Mark}
    (under : Under address first last entry) : address <+: entry.1 := by
  obtain ⟨k, -, -, below⟩ := under
  exact (List.prefix_append address [k]).trans below

theorem Under.ne {address : Address} {first last : Nat} {entry : Address × Mark}
    (under : Under address first last entry) : address ≠ entry.1 := by
  obtain ⟨k, -, -, below⟩ := under
  intro same
  have longer := below.length_le
  rw [← same, List.length_append, List.length_singleton] at longer
  omega

theorem Under.apart {address : Address} {first middle last : Nat} {one other : Address × Mark}
    (early : Under address first middle one) (late : Under address middle last other) :
    one.1 ≠ other.1 := by
  obtain ⟨k, -, before, below⟩ := early
  obtain ⟨l, after, -, belowToo⟩ := late
  intro same
  rw [← same] at belowToo
  have equal := List.prefix_of_prefix_length_le below belowToo (by simp)
  have numbers : [k] = [l] := by simpa using equal.eq_of_length (by simp)
  cases numbers
  omega

theorem prefix_of_under {address : Address} {first last : Nat} {entries : List (Address × Mark)}
    (under : ∀ entry ∈ entries, Under address first last entry) :
    ∀ entry ∈ entries, address <+: entry.1 := by
  intro entry member
  exact (under entry member).isPrefix

mutual

theorem prefix_of_placed (address : Address) (node : Node) :
    ∀ entry ∈ placed address node, address <+: entry.1 := by
  cases node with
  | group capturing children =>
      have inside := prefix_of_under (under_of_placedAll address 0 children)
      cases capturing with
      | true => exact List.forall_mem_cons.mpr ⟨List.prefix_refl _, inside⟩
      | false => exact inside
  | namedGroup _ children =>
      have inside := prefix_of_under (under_of_placedAll address 0 children)
      exact List.forall_mem_cons.mpr ⟨List.prefix_refl _, inside⟩
  | lookaround _ children => exact prefix_of_under (under_of_placedAll address 0 children)
  | anyOf children => exact prefix_of_under (under_of_placedAll address 0 children)
  | subexpression children => exact prefix_of_under (under_of_placedAll address 0 children)
  | quantified inner _ => exact prefix_of_placed address inner
  | _ => simp [placed]

theorem under_of_placedAll (address : Address) (index : Nat) (nodes : List Node) :
    ∀ entry ∈ placedAll address index nodes, Under address index (index + nodes.length) entry := by
  cases nodes with
  | nil => simp [placedAll]
  | cons node rest =>
      intro entry member
      rw [List.length_cons]
      rcases List.mem_append.mp member with own | later
      · exact ⟨index, by omega, by omega, prefix_of_placed _ node entry own⟩
      · obtain ⟨k, first, last, below⟩ := under_of_placedAll address (index + 1) rest entry later
        exact ⟨k, by omega, by omega, below⟩

end

def Apart (entries : List (Address × Mark)) : Prop :=
  entries.Pairwise fun one other => one.1 ≠ other.1

theorem apart_cons_of_under {address : Address} {mark : Mark} {nodes : List Node}
    (inside : Apart (placedAll address 0 nodes)) :
    Apart ((address, mark) :: placedAll address 0 nodes) :=
  List.pairwise_cons.mpr
    ⟨fun entry member => (under_of_placedAll address 0 nodes entry member).ne, inside⟩

mutual

theorem apart_placed (address : Address) (node : Node) : Apart (placed address node) := by
  cases node with
  | group capturing children =>
      cases capturing with
      | true => exact apart_cons_of_under (apart_placedAll address 0 children)
      | false => exact apart_placedAll address 0 children
  | namedGroup _ children => exact apart_cons_of_under (apart_placedAll address 0 children)
  | lookaround _ children => exact apart_placedAll address 0 children
  | anyOf children => exact apart_placedAll address 0 children
  | subexpression children => exact apart_placedAll address 0 children
  | quantified inner _ => exact apart_placed address inner
  | _ => simp [placed, Apart]

theorem apart_placedAll (address : Address) (index : Nat) (nodes : List Node) :
    Apart (placedAll address index nodes) := by
  cases nodes with
  | nil => exact List.Pairwise.nil
  | cons node rest =>
      refine List.pairwise_append.mpr
        ⟨apart_placed _ node, apart_placedAll address (index + 1) rest, ?_⟩
      intro one own other later
      have early : Under address index (index + 1) one :=
        ⟨index, by omega, by omega, prefix_of_placed _ node one own⟩
      exact early.apart (under_of_placedAll address (index + 1) rest other later)

end

theorem placed_wrap (address : Address) (pending : Option Quantifier) (node : Node) :
    placed address (Frame.wrap pending node) = placed address node := by
  cases pending with
  | none => rfl
  | some quantifier => cases node <;> rfl

end Node

namespace Frame

def placed (address : Address) (frame : Frame) : List (Address × Mark) :=
  (frame.container.mark?.toList.map fun mark => (address, mark)) ++
    Node.placedAll address 0 frame.elements

theorem placed_push (address : Address) (frame : Frame) (node : Node) :
    (frame.push node).placed address =
      frame.placed address ++ Node.placed (address ++ [frame.elements.length]) node := by
  simp [placed, push, Node.placedAll_append, Node.placedAll, Node.placed_wrap]

theorem placed_node (address : Address) (frame : Frame) :
    Node.placed address (frame.container.node frame.elements) = frame.placed address := by
  obtain ⟨container, pending, elements⟩ := frame
  cases container <;> rfl

theorem prefix_of_placed {address : Address} {frame : Frame} :
    ∀ entry ∈ frame.placed address, address <+: entry.1 := by
  rw [← placed_node]
  exact Node.prefix_of_placed address _

theorem apart_placed (address : Address) (frame : Frame) : Node.Apart (frame.placed address) := by
  rw [← placed_node]
  exact Node.apart_placed address _

theorem beside_next {address : Address} (frame : Frame) :
    ∀ entry ∈ frame.placed address, ¬ address ++ [frame.elements.length] <+: entry.1 := by
  intro entry member below
  rcases List.mem_append.mp member with own | inside
  · obtain ⟨mark, -, rfl⟩ := List.mem_map.mp own
    exact absurd below.length_le (by simp)
  · have early := Node.under_of_placedAll address 0 frame.elements entry inside
    rw [Nat.zero_add] at early
    exact early.apart ⟨_, Nat.le_refl _, Nat.lt_succ_self _, below⟩ rfl

end Frame

namespace Builder

/-- The address of a frame, given the frames around it from the inside out. -/
def addressIn : List Frame → Address
  | [] => []
  | parent :: outer => addressIn outer ++ [parent.elements.length]

def placedIn : List Frame → List (Address × Mark)
  | [] => []
  | frame :: outer => placedIn outer ++ frame.placed (addressIn outer)

def here (builder : Builder) : Address :=
  addressIn (builder.current :: builder.outer)

/-- The marks of everything built so far, in document order, with their addresses. -/
def placed (builder : Builder) : List (Address × Mark) :=
  placedIn (builder.current :: builder.outer)

theorem map_snd_placed (builder : Builder) : builder.placed.map Prod.snd = builder.marks := by
  have each : ∀ frames : List Frame,
      (placedIn frames).map Prod.snd = frames.reverse.flatMap Frame.marks := by
    intro frames
    induction frames with
    | nil => rfl
    | cons frame outer ih =>
        simp [placedIn, ih, Frame.placed, Frame.marks, Node.map_snd_placedAll, Function.comp_def]
  rw [placed, each, List.reverse_cons]
  rfl

theorem placed_push (builder : Builder) (node : Node) :
    (builder.push node).placed = builder.placed ++ Node.placed builder.here node := by
  simp only [placed, placedIn, push, Frame.placed_push, here, addressIn, List.append_assoc]

theorem placed_enter (builder : Builder) (container : Container) :
    (builder.enter container).placed =
      builder.placed ++ container.mark?.toList.map fun mark => (builder.here, mark) := by
  simp [placed, placedIn, enter, Frame.placed, Frame.empty, Node.placedAll, here]

theorem placed_close {before after : Builder} (closed : before.close = .ok after) :
    after.placed = before.placed := by
  obtain ⟨parent, outer, split, rfl⟩ := close_eq_ok_iff.mp closed
  simp only [placed, placedIn, split, addressIn, Frame.placed_push, Frame.placed_node,
    List.append_assoc]

theorem placed_quantify {before after : Builder} {quantifier : Quantifier}
    (accepted : before.quantify quantifier = .ok after) : after.placed = before.placed := by
  rcases quantify_eq_ok_iff.mp accepted with ⟨-, -, rfl⟩
  rfl

theorem placed_step {before after : Builder} (step : Step before after) :
    before.placed <+: after.placed := by
  cases step with
  | flag flag => exact List.prefix_refl _
  | push native buildable met => exact ⟨_, (placed_push _ _).symm⟩
  | enter inner met => exact ⟨_, (placed_enter _ _).symm⟩
  | close closed => exact ⟨[], by rw [placed_close closed, List.append_nil]⟩

theorem placed_merge {before expression after : Builder} {options : MergeOptions}
    (reachable : expression.Reachable)
    (accepted : before.subexpression expression options = .ok after) :
    after.placed = before.placed ++
      expression.placed.filterMap
        (Node.copyAt? options before.declared.captures before.here) := by
  obtain ⟨closed, declared, -, rfl⟩ := subexpression_eq_ok_iff.mp accepted
  have outermost : expression.outer = [] := by simpa [isClosed] using closed
  have root := root_container reachable
  simp only [Builder.root, outermost, List.getLast?_nil, Option.getD_none] at root
  have whole : expression.placed = Node.placedAll [] 0 expression.current.elements := by
    simp [placed, placedIn, outermost, Frame.placed, root, Container.mark?, addressIn]
  rw [whole, ← Node.placedAll_rebaseAll, List.append_nil]
  exact placed_push _ _

theorem not_prefix_of_placedIn (frame : Frame) (outer : List Frame) :
    ∀ entry ∈ placedIn (frame :: outer), ¬ addressIn (frame :: outer) <+: entry.1 := by
  induction outer generalizing frame with
  | nil =>
      intro entry member below
      exact frame.beside_next entry member below
  | cons parent outer ih =>
      intro entry member below
      rcases List.mem_append.mp member with around | own
      · exact ih parent entry around ((List.prefix_append _ _).trans below)
      · exact frame.beside_next entry own below

theorem apart_placedIn (frames : List Frame) : Node.Apart (placedIn frames) := by
  induction frames with
  | nil => exact List.Pairwise.nil
  | cons frame outer ih =>
      refine List.pairwise_append.mpr ⟨ih, frame.apart_placed _, ?_⟩
      intro one around other own same
      cases outer with
      | nil => simp [placedIn] at around
      | cons parent outer =>
          refine not_prefix_of_placedIn parent outer one around ?_
          rw [same]
          exact Frame.prefix_of_placed other own

theorem apart_placed (builder : Builder) : Node.Apart builder.placed :=
  apart_placedIn _

end Builder

end RegexForge
