import RegexForge.Proofs.Invariants

/-!
What the frames of a builder hold. A node enters a frame in one of four ways: a call pushes it, a
closed frame is folded into it, a merge appends it, or it takes the quantifier that waits in the
frame. A property that a node gets in each of these ways, and that a merge does not take away when
it copies the node, holds of every node of every frame of a reachable builder. `Constructed` and
`Direct` are the two such properties that say which nodes a builder can hold at all, with merges and
without them.
-/

namespace RegexForge

namespace Node

/-- The property comes with being pushed by a call, being folded from a frame, and being given a
quantifier. -/
structure Arises (property : Node → Prop) : Prop where
  native : ∀ node, node.isNative = true → node.Buildable → property node
  container : ∀ (container : Container) children, property (container.node children)
  quantified : ∀ inner quantifier, quantifier.check = .ok () → inner.takesQuantifier = true →
    property (.quantified inner quantifier)

/-- The property comes with being merged, and copies keep it. -/
structure Merges (property : Node → Prop) : Prop where
  merged : ∀ children, property (.subexpression children)
  copied : ∀ options shift node, property node → property (rebase options shift node)

theorem takes_or_zeroWidth_of_isNative {node : Node} (native : node.isNative = true) :
    node.takesQuantifier = true ∨ node.isZeroWidth = true := by
  cases node with
  | anchor _ => exact .inr rfl
  | noop | quantified _ _ => contradiction
  | lookaround _ _ => contradiction
  | _ => exact .inl rfl

theorem takes_or_zeroWidth_of_container (container : Container) (children : List Node) :
    (container.node children).takesQuantifier = true ∨
      (container.node children).isZeroWidth = true := by
  cases container with
  | lookaround _ => exact .inr rfl
  | _ => exact .inl rfl

section Rebase

variable (options : MergeOptions) (shift : Nat)

theorem takesQuantifier_rebase (node : Node) :
    (rebase options shift node).takesQuantifier = node.takesQuantifier := by
  cases node with
  | anchor a => by_cases kept : options.keepAnchors = true <;> simp [rebase, kept, takesQuantifier]
  | _ => rfl

mutual

theorem preorder_rebase (node : Node) :
    preorder (rebase options shift node) = (preorder node).map (rebase options shift) := by
  cases node with
  | group _ children => simp only [rebase, preorder, List.map_cons, preorderAll_rebaseAll children]
  | namedGroup _ children =>
      simp only [rebase, preorder, List.map_cons, preorderAll_rebaseAll children]
  | lookaround _ children =>
      simp only [rebase, preorder, List.map_cons, preorderAll_rebaseAll children]
  | anyOf children => simp only [rebase, preorder, List.map_cons, preorderAll_rebaseAll children]
  | subexpression children =>
      simp only [rebase, preorder, List.map_cons, preorderAll_rebaseAll children]
  | quantified inner _ => simp only [rebase, preorder, List.map_cons, preorder_rebase inner]
  | anchor a => by_cases kept : options.keepAnchors = true <;> simp [rebase, kept, preorder]
  | _ => rfl

theorem preorderAll_rebaseAll (nodes : List Node) :
    preorderAll (rebaseAll options shift nodes) =
      (preorderAll nodes).map (rebase options shift) := by
  cases nodes with
  | nil => rfl
  | cons node rest =>
      simp only [rebaseAll, preorderAll, List.map_append, preorder_rebase node,
        preorderAll_rebaseAll rest]

end

theorem Everywhere.rebase {property : Node → Prop}
    (copied : ∀ node, property node → property (rebase options shift node)) {nodes : List Node}
    (everywhere : Everywhere property nodes) :
    Everywhere property (rebaseAll options shift nodes) := by
  intro copy member
  rw [preorderAll_rebaseAll] at member
  obtain ⟨node, original, rfl⟩ := List.mem_map.mp member
  exact copied node (everywhere node original)

end Rebase

end Node

open Node

namespace Frame

/-- The property holds everywhere in the frame, and a quantifier that waits there was accepted. -/
structure Holds (property : Node → Prop) (frame : Frame) : Prop where
  elements : Everywhere property frame.elements
  pending : ∀ quantifier, frame.pending = some quantifier → quantifier.check = .ok ()

variable {property : Node → Prop}

theorem holds_empty (container : Container) : (empty container).Holds property :=
  ⟨everywhere_nil property, by simp [empty]⟩

theorem everywhere_wrap (arises : Arises property) {pending : Option Quantifier} {node : Node}
    (accepted : ∀ quantifier, pending = some quantifier → quantifier.check = .ok ())
    (suits : node.takesQuantifier = true ∨ node.isZeroWidth = true)
    (everywhere : Everywhere property [node]) : Everywhere property [wrap pending node] := by
  cases pending with
  | none => exact everywhere
  | some quantifier =>
      cases node with
      | anchor _ | lookaround _ _ => exact everywhere
      | _ =>
          have takes := suits.resolve_right (by simp [isZeroWidth])
          exact everywhere_singleton.mpr
            ⟨arises.quantified _ quantifier (accepted quantifier rfl) takes, everywhere⟩

theorem Holds.push (arises : Arises property) {frame : Frame} {node : Node}
    (holds : frame.Holds property)
    (suits : node.takesQuantifier = true ∨ node.isZeroWidth = true)
    (everywhere : Everywhere property [node]) : (frame.push node).Holds property := by
  constructor
  · have wrapped := everywhere_wrap arises holds.pending suits everywhere
    exact everywhere_append.mpr ⟨holds.elements, wrapped⟩
  · intro quantifier waits
    cases node with
    | anchor _ => exact holds.pending quantifier waits
    | _ => simp [Frame.push, stillPending] at waits

end Frame

namespace Builder

structure Holds (property : Node → Prop) (builder : Builder) : Prop where
  current : builder.current.Holds property
  outer : ∀ frame ∈ builder.outer, frame.Holds property

variable {property : Node → Prop}

theorem holds_new : Builder.new.Holds property :=
  ⟨Frame.holds_empty _, by simp [new]⟩

theorem Holds.push (arises : Arises property) {builder : Builder} {node : Node}
    (holds : builder.Holds property)
    (suits : node.takesQuantifier = true ∨ node.isZeroWidth = true)
    (everywhere : Everywhere property [node]) : (builder.push node).Holds property :=
  ⟨holds.current.push arises suits everywhere, holds.outer⟩

theorem Holds.step (arises : Arises property) {before after : Builder}
    (holds : before.Holds property) (step : Step before after) : after.Holds property := by
  cases step with
  | flag flag => exact ⟨holds.current, holds.outer⟩
  | push native buildable met =>
      have alone : Everywhere property [_] := everywhere_singleton.mpr
        ⟨arises.native _ native buildable, by simp [children_of_isNative native]⟩
      exact Holds.push arises ⟨holds.current, holds.outer⟩
        (takes_or_zeroWidth_of_isNative native) alone
  | enter inner met =>
      refine ⟨Frame.holds_empty _, ?_⟩
      intro frame member
      rcases List.mem_cons.mp member with rfl | member
      · exact holds.current
      · exact holds.outer frame member
  | close closed =>
      obtain ⟨parent, outer, split, rfl⟩ := close_eq_ok_iff.mp closed
      have below : parent.Holds property := holds.outer parent (by simp [split])
      -- The nodes of the closed frame are the children of the node it is folded into.
      have folded : Everywhere property
          [before.current.container.node before.current.elements] := by
        refine everywhere_singleton.mpr ⟨arises.container _ _, ?_⟩
        cases before.current.container <;> exact holds.current.elements
      refine ⟨below.push arises (takes_or_zeroWidth_of_container _ _) folded, ?_⟩
      intro frame member
      exact holds.outer frame (by simp [split, member])

theorem Holds.quantify {before after : Builder} {quantifier : Quantifier}
    (holds : before.Holds property) (accepted : before.quantify quantifier = .ok after) :
    after.Holds property := by
  rcases quantify_eq_ok_iff.mp accepted with ⟨checked, -, rfl⟩
  refine ⟨⟨holds.current.elements, ?_⟩, holds.outer⟩
  rintro waiting ⟨⟩
  exact checked

theorem Holds.merge (arises : Arises property) (merges : Merges property)
    {before expression after : Builder} {options : MergeOptions} (holds : before.Holds property)
    (merged : expression.Holds property)
    (accepted : before.subexpression expression options = .ok after) : after.Holds property := by
  obtain ⟨-, declared, -, rfl⟩ := subexpression_eq_ok_iff.mp accepted
  have copies := merged.current.elements.rebase options before.declared.captures
    (merges.copied options before.declared.captures)
  exact Holds.push arises ⟨holds.current, holds.outer⟩ (.inl rfl)
    (everywhere_singleton.mpr ⟨merges.merged _, copies⟩)

theorem Assembled.holds (arises : Arises property) {builder : Builder}
    (assembled : builder.Assembled) : builder.Holds property := by
  induction assembled with
  | new => exact holds_new
  | call call built accepted ih => exact ih.step arises (apply_step accepted)
  | quantify quantifier built accepted ih => exact ih.quantify accepted

theorem Reachable.holds (arises : Arises property) (merges : Merges property) {builder : Builder}
    (reachable : builder.Reachable) : builder.Holds property := by
  induction reachable with
  | new => exact holds_new
  | call call built accepted ih => exact ih.step arises (apply_step accepted)
  | quantify quantifier built accepted ih => exact ih.quantify accepted
  | merge options built merged accepted ihBuilt ihMerged =>
      exact ihBuilt.merge arises merges ihMerged accepted

end Builder

namespace Node

/-- What a builder holds: no set, since sets come from patterns only, and no `char` of more than one
character. -/
def Constructed : Node → Prop
  | bracketSet _ => False
  | char literal => ∃ c, literal = .ofChar c
  | node => node.Buildable

def Direct : Node → Prop
  | noop | subexpression _ => False
  | node => node.Constructed

theorem Constructed.buildable {node : Node} (constructed : node.Constructed) :
    node.Buildable := by
  cases node with
  | char literal =>
      obtain ⟨c, rfl⟩ := constructed
      simp [Buildable, Literal.ofChar]
  | bracketSet _ => exact constructed.elim
  | _ => exact constructed

theorem Direct.constructed {node : Node} (direct : node.Direct) : node.Constructed := by
  cases node with
  | noop | subexpression _ => exact direct.elim
  | _ => exact direct

theorem direct_of_isNative {node : Node} (native : node.isNative = true)
    (buildable : node.Buildable) : node.Direct := by
  cases node with
  | char literal =>
      obtain ⟨raw⟩ := literal
      obtain ⟨c, rfl⟩ := List.length_eq_one_iff.mp (by simpa [isNative] using native)
      exact ⟨c, rfl⟩
  | noop | bracketSet _ | subexpression _ => contradiction
  | _ => exact buildable

theorem direct_arises : Arises Direct where
  native _ := direct_of_isNative
  container container _ := by cases container <;> trivial
  quantified _ _ checked takes := ⟨checked, takes⟩

theorem constructed_arises : Arises Constructed where
  native _ native buildable := (direct_of_isNative native buildable).constructed
  container container children := (direct_arises.container container children).constructed
  quantified _ _ checked takes := ⟨checked, takes⟩

theorem constructed_merges : Merges Constructed where
  merged _ := trivial
  copied options shift node constructed := by
    cases node with
    | anchor a => by_cases kept : options.keepAnchors = true <;> simp [rebase, kept, Constructed,
        Buildable]
    | quantified inner quantifier =>
        exact ⟨constructed.1, (takesQuantifier_rebase options shift inner).trans constructed.2⟩
    | _ => exact constructed

end Node

end RegexForge
