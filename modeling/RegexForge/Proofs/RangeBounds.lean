import RegexForge.Proofs.Contents
import RegexForge.Proofs.MergedStart

/-!
The bounds of ranges. A range is asked for by a call, or stands among the members of a set that was
read, and its bounds are characters that no escape touches. Read in document order, the bounds that
a builder holds are those that were asked for on the way to it, in the order of the calls: an
element goes behind all others that were built before it, a container closes around what was
appended last, and a merge copies each range as it is.
-/

namespace RegexForge

open Outcome

def SetMember.bounds : SetMember → Text
  | char _ => []
  | range low high => [low, high]

namespace Node

/-- The bounds of the ranges that the node itself spells. -/
def bounds : Node → Text
  | range low high | anythingButRange low high => [low, high]
  | bracketSet set => set.members.flatMap SetMember.bounds
  | _ => []

def boundsAll (nodes : List Node) : Text :=
  (preorderAll nodes).flatMap bounds

@[simp] theorem boundsAll_nil : boundsAll [] = [] := rfl

theorem boundsAll_append (first second : List Node) :
    boundsAll (first ++ second) = boundsAll first ++ boundsAll second := by
  simp only [boundsAll, preorderAll_append, List.flatMap_append]

theorem boundsAll_cons (node : Node) (rest : List Node) :
    boundsAll (node :: rest) = boundsAll [node] ++ boundsAll rest :=
  boundsAll_append [node] rest

theorem boundsAll_singleton (node : Node) :
    boundsAll [node] = node.bounds ++ boundsAll node.children := by
  simp only [boundsAll, preorderAll, List.append_nil, preorder_eq, List.flatMap_cons]

theorem boundsAll_wrap (pending : Option Quantifier) (node : Node) :
    boundsAll [Frame.wrap pending node] = boundsAll [node] := by
  cases pending with
  | none => rfl
  | some quantifier =>
      cases node with
      | anchor _ | lookaround _ _ => rfl
      | _ => exact boundsAll_singleton (.quantified _ quantifier)

theorem boundsAll_container (container : Container) (elements : List Node) :
    boundsAll [container.node elements] = boundsAll elements := by
  rw [boundsAll_singleton]
  cases container <;> rfl

theorem bounds_rebase (options : MergeOptions) (shift : Nat) (node : Node) :
    (rebase options shift node).bounds = node.bounds := by
  cases node with
  | anchor a => by_cases kept : options.keepAnchors = true <;> simp [rebase, kept, bounds]
  | _ => rfl

theorem boundsAll_rebaseAll (options : MergeOptions) (shift : Nat) (nodes : List Node) :
    boundsAll (rebaseAll options shift nodes) = boundsAll nodes := by
  simp only [boundsAll, preorderAll_rebaseAll, List.flatMap_map, bounds_rebase]

end Node

namespace Call

def bounds : Call → Text
  | range low high | anythingButRange low high => low ++ high
  | _ => []

theorem boundsAll_of_leaf {call : Call} {node : Node} (leaf : call.leaf? = some node) :
    Node.boundsAll [node] = call.bounds := by
  rw [Node.boundsAll_singleton]
  cases call with
  | range low high | anythingButRange low high =>
      obtain ⟨first, one, later⟩ := Option.bind_eq_some_iff.mp leaf
      obtain ⟨last, two, made⟩ := Option.bind_eq_some_iff.mp later
      cases made
      rw [single?_eq_some_iff.mp one, single?_eq_some_iff.mp two]
      rfl
  | char text =>
      obtain ⟨c, -, rfl⟩ := Option.map_eq_some_iff.mp leaf
      rfl
  | flag _ | group | capture | namedCapture _ | anyOf | lookaround _ | close => contradiction
  | _ =>
      cases leaf
      rfl

end Call

namespace Builder

def bounds (builder : Builder) : Text :=
  builder.nodes.flatMap Node.bounds

/-- The builder comes from operations that asked for ranges with these bounds, in this order. A
merge asks once more for all ranges of the merged expression. -/
inductive RangesAsked : Builder → Text → Prop where
  | new : RangesAsked .new []
  | call {before after : Builder} {bounds : Text} (call : Call)
      (built : RangesAsked before bounds) (accepted : before.apply call = .ok after) :
      RangesAsked after (bounds ++ call.bounds)
  | quantify {before after : Builder} {bounds : Text} (quantifier : Quantifier)
      (built : RangesAsked before bounds) (accepted : before.quantify quantifier = .ok after) :
      RangesAsked after bounds
  | merge {before expression after : Builder} {bounds others : Text} (options : MergeOptions)
      (built : RangesAsked before bounds) (merged : RangesAsked expression others)
      (accepted : before.subexpression expression options = .ok after) :
      RangesAsked after (bounds ++ others)

theorem bounds_push (builder : Builder) (node : Node) :
    (builder.push node).bounds = builder.bounds ++ Node.boundsAll [node] := by
  rw [← Node.boundsAll_wrap builder.current.pending, bounds, nodes_push, List.flatMap_append,
    Node.boundsAll, Node.preorderAll, Node.preorderAll, List.append_nil]
  rfl

theorem bounds_enter (builder : Builder) (container : Container) :
    (builder.enter container).bounds = builder.bounds := by
  simp [bounds, nodes_eq, enter, Frame.empty, Frame.nodes, Node.preorderAll]

theorem bounds_of_isClosed {builder : Builder} (closed : builder.isClosed = true) :
    builder.bounds = Node.boundsAll builder.current.elements := by
  have empty : builder.outer = [] := by simpa [isClosed] using closed
  rw [bounds, nodes_eq, empty]
  rfl

variable {before after : Builder}

theorem bounds_close (closed : before.close = .ok after) : after.bounds = before.bounds := by
  obtain ⟨parent, outer, split, rfl⟩ := close_eq_ok_iff.mp closed
  -- The closed frame is the last to be read before and after, as a frame and as a node.
  have folded := bounds_push ⟨parent, outer, before.declared⟩
    (before.current.container.node before.current.elements)
  rw [Node.boundsAll_container] at folded
  refine folded.trans ?_
  simp only [bounds, nodes_eq, split, List.reverse_cons, List.flatMap_append,
    List.flatMap_singleton]
  rfl

theorem bounds_apply {call : Call} (accepted : before.apply call = .ok after) :
    after.bounds = before.bounds ++ call.bounds := by
  cases call.effect with
  | flag flag sets =>
      subst sets
      cases accepted
      exact (List.append_nil _).symm
  | append node leaf native buildable appends =>
      obtain ⟨declared, met, pushed⟩ := bind_eq_ok_iff.mp ((appends before).symm.trans accepted)
      cases pushed
      rw [← Call.boundsAll_of_leaf leaf]
      exact bounds_push { before with declared := declared } node
  | enter container inner opens =>
      subst opens
      rw [container.apply_opening inner] at accepted
      obtain ⟨declared, met, entered⟩ := bind_eq_ok_iff.mp accepted
      cases entered
      have silent : container.opening.bounds = [] := by cases container <;> rfl
      rw [silent, List.append_nil]
      exact bounds_enter { before with declared := declared } container
  | close ends =>
      subst ends
      exact (bounds_close accepted).trans (List.append_nil _).symm
  | refused fault refuses =>
      rw [refuses] at accepted
      contradiction

theorem bounds_quantify {quantifier : Quantifier}
    (accepted : before.quantify quantifier = .ok after) : after.bounds = before.bounds := by
  obtain ⟨-, -, rfl⟩ := quantify_eq_ok_iff.mp accepted
  rw [bounds, bounds, nodes_eq, nodes_eq]
  rfl

theorem bounds_merge {expression : Builder} {options : MergeOptions}
    (accepted : before.subexpression expression options = .ok after) :
    after.bounds = before.bounds ++ expression.bounds := by
  obtain ⟨closed, declared, -, rfl⟩ := subexpression_eq_ok_iff.mp accepted
  refine (bounds_push { before with declared := _ } _).trans ?_
  rw [Node.boundsAll_singleton, bounds_of_isClosed closed]
  exact congrArg (before.bounds ++ ·) (Node.boundsAll_rebaseAll options _ _)

/-- A builder holds the bounds that were asked for, and nothing else. -/
theorem RangesAsked.eq_bounds {builder : Builder} {bounds : Text}
    (asked : builder.RangesAsked bounds) : bounds = builder.bounds := by
  induction asked with
  | new => rfl
  | call call built accepted ih => rw [bounds_apply accepted, ih]
  | quantify quantifier built accepted ih => rw [bounds_quantify accepted, ih]
  | merge options built merged accepted ih expressionIh =>
      rw [bounds_merge accepted, ih, expressionIh]

theorem Reachable.rangesAsked {builder : Builder} (reachable : builder.Reachable) :
    builder.RangesAsked builder.bounds := by
  induction reachable with
  | new => exact .new
  | call call built accepted ih => exact bounds_apply accepted ▸ .call call ih accepted
  | quantify quantifier built accepted ih =>
      exact bounds_quantify accepted ▸ .quantify quantifier ih accepted
  | merge options built merged accepted ih expressionIh =>
      exact bounds_merge accepted ▸ .merge options ih expressionIh accepted

end Builder

end RegexForge
