import RegexForge.Proofs.Contents

/-!
What the nodes of a built tree are like, whichever containers are still open. A node gets into a
frame by a call, by closing a frame, by a merge or with a quantifier, and the checks on these ways
decide what it holds; that part is an instance of what frames hold in general. Where a dropped
anchor leaves its trace is a different matter, since it depends on what stands around it. Such a
trace never comes into the surface of a builder, the nodes that are not inside a merged element,
because a merge puts all that it copies under one new node.
-/

namespace RegexForge

def Quantifier.Proper : Quantifier → Prop
  | optional | zeroOrMore | zeroOrMoreLazy | oneOrMore | oneOrMoreLazy => True
  | exactly count | atLeast count => 1 ≤ count
  | between low high | betweenLazy low high => low < high

theorem Quantifier.check_eq_ok_iff {quantifier : Quantifier} :
    quantifier.check = .ok () ↔ quantifier.Proper := by
  cases quantifier with
  | exactly count | atLeast count =>
      have positive : 1 ≤ count ↔ count ≠ 0 := by grind
      rw [Proper, positive, check]
      by_cases zero : count = 0 <;> simp [zero]
  | between low high | betweenLazy low high =>
      rw [Proper, check]
      by_cases zero : high = 0
      · simp [zero]
      · by_cases upwards : low < high <;> simp [zero, upwards]
  | _ => simp [check, Proper]

namespace Node

def literals : Node → List Literal
  | char literal | string literal | anyOfChars literal | anythingButChars literal => [literal]
  | anythingButString literals => literals
  | _ => []

/-- What a node of a built tree holds, wherever it stands. -/
def WellFormed : Node → Prop
  | bracketSet _ => False
  | char literal => literal.raw.length = 1
  | string literal | anyOfChars literal | anythingButChars literal => literal.raw ≠ []
  | anythingButString literals =>
      literals ≠ [] ∧ ∀ literal ∈ literals, literal.raw.length = 1
  | range low high | anythingButRange low high => low < high
  | quantified inner quantifier =>
      quantifier.Proper ∧ inner ≠ noop ∧ ∀ node other, inner ≠ quantified node other
  | _ => True

theorem Constructed.wellFormed {node : Node} (constructed : node.Constructed) :
    node.WellFormed := by
  cases node with
  | char literal =>
      obtain ⟨c, rfl⟩ := constructed
      rfl
  | anythingButString literals =>
      refine ⟨constructed.1, fun literal member => ?_⟩
      obtain ⟨c, rfl⟩ := constructed.2 literal member
      rfl
  | quantified inner quantifier =>
      obtain ⟨checked, takes⟩ := constructed
      refine ⟨Quantifier.check_eq_ok_iff.mp checked, ?_, ?_⟩
      · rintro rfl
        contradiction
      · rintro node other rfl
        contradiction
  | _ => exact constructed

mutual

/-- The nodes of a tree in document order, down to merged elements but not into them. -/
def surface : Node → List Node
  | group capturing children => group capturing children :: surfaceAll children
  | namedGroup name children => namedGroup name children :: surfaceAll children
  | lookaround kind children => lookaround kind children :: surfaceAll children
  | anyOf children => anyOf children :: surfaceAll children
  | quantified inner quantifier => quantified inner quantifier :: surface inner
  | node => [node]

def surfaceAll : List Node → List Node
  | [] => []
  | node :: rest => surface node ++ surfaceAll rest

end

theorem surfaceAll_append (first second : List Node) :
    surfaceAll (first ++ second) = surfaceAll first ++ surfaceAll second := by
  induction first with
  | nil => rfl
  | cons node rest ih => simp only [List.cons_append, surfaceAll, ih, List.append_assoc]

theorem surface_of_isNative {node : Node} (native : node.isNative = true) :
    surface node = [node] := by
  cases node <;> first | rfl | contradiction

theorem surface_node (container : Container) (elements : List Node) :
    surface (container.node elements) = container.node elements :: surfaceAll elements := by
  cases container <;> rfl

theorem noop_mem_surface_wrap (pending : Option Quantifier) (node : Node) :
    .noop ∈ surface (Frame.wrap pending node) ↔ .noop ∈ surface node := by
  cases pending with
  | none => rfl
  | some quantifier =>
      cases node with
      | anchor _ | lookaround _ _ => rfl
      | _ => simp [Frame.wrap, surface]

/-- The node is in a surface, or inside a merged element that is. -/
def ShownOrMerged (shown : List Node) (node : Node) : Prop :=
  node ∈ shown ∨ ∃ children, .subexpression children ∈ shown ∧ node ∈ preorderAll children

theorem ShownOrMerged.mono {shown more : List Node} {node : Node}
    (found : ShownOrMerged shown node) (subset : shown ⊆ more) : ShownOrMerged more node := by
  rcases found with listed | ⟨children, listed, inside⟩
  · exact .inl (subset listed)
  · exact .inr ⟨children, subset listed, inside⟩

mutual

theorem shownOrMerged_of_mem {node inner : Node} (member : inner ∈ preorder node) :
    ShownOrMerged (surface node) inner := by
  cases node with
  | group _ children | namedGroup _ children | lookaround _ children | anyOf children =>
      rcases List.mem_cons.mp member with rfl | below
      · exact .inl List.mem_cons_self
      · exact (shownOrMerged_of_memAll below).mono (List.subset_cons_self _ _)
  | quantified repeated _ =>
      rcases List.mem_cons.mp member with rfl | below
      · exact .inl List.mem_cons_self
      · exact (shownOrMerged_of_mem below).mono (List.subset_cons_self _ _)
  | subexpression children =>
      rcases List.mem_cons.mp member with rfl | inside
      · exact .inl List.mem_cons_self
      · exact .inr ⟨children, List.mem_cons_self, inside⟩
  | _ => exact .inl member

theorem shownOrMerged_of_memAll {nodes : List Node} {inner : Node}
    (member : inner ∈ preorderAll nodes) : ShownOrMerged (surfaceAll nodes) inner := by
  cases nodes with
  | nil => simp [preorderAll] at member
  | cons node rest =>
      rcases List.mem_append.mp member with first | later
      · exact (shownOrMerged_of_mem first).mono (List.subset_append_left _ _)
      · exact (shownOrMerged_of_memAll later).mono (List.subset_append_right _ _)

end

end Node

open Node

namespace Builder

def surface (builder : Builder) : List Node :=
  builder.frames.flatMap fun frame => surfaceAll frame.elements

theorem surface_eq (builder : Builder) :
    builder.surface = (builder.outer.reverse.flatMap fun frame => surfaceAll frame.elements) ++
      surfaceAll builder.current.elements := by
  simp [surface, frames]

theorem noop_mem_surface_push (builder : Builder) (node : Node) :
    .noop ∈ (builder.push node).surface ↔
      .noop ∈ builder.surface ∨ .noop ∈ Node.surface node := by
  have added : (builder.push node).surface =
      builder.surface ++ Node.surface (Frame.wrap builder.current.pending node) := by
    simp [surface_eq, push, Frame.push, surfaceAll_append, surfaceAll]
  rw [added, List.mem_append, noop_mem_surface_wrap]

theorem noop_mem_surface_close {before after : Builder} (closed : before.close = .ok after) :
    .noop ∈ after.surface ↔ .noop ∈ before.surface := by
  obtain ⟨parent, outer, split, rfl⟩ := close_eq_ok_iff.mp closed
  have apart : .noop ≠ before.current.container.node before.current.elements := by
    cases before.current.container <;> simp [Container.node]
  -- The elements of the closed frame come last before and after, now behind their container.
  refine (noop_mem_surface_push ⟨parent, outer, before.declared⟩ _).trans ?_
  rw [surface_node, List.mem_cons, or_iff_right apart]
  simp [surface_eq, split, or_assoc]

theorem noop_notMem_surface_step {before after : Builder} (absent : .noop ∉ before.surface)
    (step : Step before after) : .noop ∉ after.surface := by
  cases step with
  | flag flag => exact absent
  | @push declared node native buildable met =>
      rw [noop_mem_surface_push, surface_of_isNative native, List.mem_singleton]
      rintro (shown | rfl)
      · exact absent shown
      · contradiction
  | enter inner met => simpa [surface_eq, enter, Frame.empty, surfaceAll] using absent
  | close closed => rwa [noop_mem_surface_close closed]

theorem noop_notMem_surface {builder : Builder} (reachable : builder.Reachable) :
    .noop ∉ builder.surface := by
  induction reachable with
  | new => simp [surface_eq, new, Frame.empty, surfaceAll]
  | call call built accepted ih => exact noop_notMem_surface_step ih (apply_step accepted)
  | quantify quantifier built accepted ih =>
      rcases quantify_eq_ok_iff.mp accepted with ⟨-, -, rfl⟩
      simpa [surface_eq] using ih
  | merge options built merged accepted ih _ =>
      obtain ⟨-, declared, -, rfl⟩ := subexpression_eq_ok_iff.mp accepted
      rw [noop_mem_surface_push]
      rintro (shown | copied)
      · exact ih shown
      · simp [Node.surface] at copied

theorem current_mem_frames (builder : Builder) : builder.current ∈ builder.frames :=
  List.mem_append_right _ (List.mem_singleton_self _)

theorem mem_surface_of_frame {builder : Builder} {frame : Frame} (listed : frame ∈ builder.frames)
    {node : Node} (shown : node ∈ surfaceAll frame.elements) : node ∈ builder.surface :=
  List.mem_flatMap.mpr ⟨frame, listed, shown⟩

theorem frame_holds {property : Node → Prop} {builder : Builder} (holds : builder.Holds property)
    {frame : Frame} (listed : frame ∈ builder.frames) : frame.Holds property := by
  rcases List.mem_append.mp listed with around | innermost
  · exact holds.outer frame (List.mem_reverse.mp around)
  · rw [List.mem_singleton.mp innermost]
    exact holds.current

end Builder

/-- In every frame of a builder every node, at every depth, holds what its kind asks for, each
literal is spelled as its escaped text, and a quantifier that waits is one that can be given. What a
dropped anchor leaves behind is only ever inside a merged element. -/
theorem wellFormed_of_reachable (builder : Builder) (reachable : builder.Reachable) :
    ∀ frame ∈ builder.frames,
      (∀ node ∈ preorderAll frame.elements,
        node.WellFormed ∧ ∀ literal ∈ node.literals, literal.escaped = escape literal.raw) ∧
      (∀ quantifier, frame.pending = some quantifier → quantifier.Proper) ∧
      .noop ∉ surfaceAll frame.elements ∧
      (.noop ∈ preorderAll frame.elements →
        ∃ children, .subexpression children ∈ surfaceAll frame.elements ∧
          .noop ∈ preorderAll children) := by
  intro frame listed
  have holds := Builder.frame_holds
    (Builder.Reachable.holds constructed_arises constructed_merges reachable) listed
  have hidden : .noop ∉ surfaceAll frame.elements := fun shown =>
    Builder.noop_notMem_surface reachable (Builder.mem_surface_of_frame listed shown)
  refine ⟨?_, ?_, hidden, ?_⟩
  · intro node member
    exact ⟨(holds.elements node member).wellFormed, fun literal _ => rfl⟩
  · intro quantifier waits
    exact Quantifier.check_eq_ok_iff.mp (holds.pending quantifier waits)
  · intro member
    exact (shownOrMerged_of_memAll member).resolve_left hidden

theorem wellFormed_of_reachable_dropped :
    ∃ (builder : Builder) (children : List Node), builder.Reachable ∧ builder.isClosed = false ∧
      builder.current.elements = [.quantified (.subexpression children) (.between 0 2)] ∧
      (Node.quantified (.subexpression children) (.between 0 2)).WellFormed ∧
      .noop ∈ preorderAll children ∧ .noop ∉ surfaceAll builder.current.elements := by
  have grouped := Builder.Reachable.call .group .new rfl
  have started := Builder.Reachable.call .startOfInput grouped rfl
  have spelled := Builder.Reachable.call (.string "a.".toList) started rfl
  have expression := Builder.Reachable.call .close spelled rfl
  have opened := Builder.Reachable.call .capture .new rfl
  have asked := Builder.Reachable.quantify (.between 0 2) opened rfl
  have merged := Builder.Reachable.merge {} asked expression rfl
  obtain ⟨nodes, -, hidden, -⟩ := wellFormed_of_reachable _ merged _ (Builder.current_mem_frames _)
  exact ⟨_, _, merged, rfl, rfl, (nodes _ List.mem_cons_self).1, by decide, hidden⟩

end RegexForge
