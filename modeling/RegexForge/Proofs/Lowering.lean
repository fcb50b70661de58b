import RegexForge.Proofs.Contents
import RegexForge.Proofs.ReadBack
import RegexForge.Proofs.Redeclare

/-!
From a finished builder to a script and back. Everything a builder holds can be lowered, and every
check passes again on replay, whatever was merged. Without merges the builder comes back as it was,
node for node. A merged element comes back as its parts in place; the spelling survives that
everywhere but among alternatives, where the parts become alternatives of their own.
-/

namespace RegexForge

open Outcome Node

namespace Node

/-! Without merges nothing is rebuilt in another form. -/

mutual

theorem rebuilt_of_direct (node : Node) (direct : Everywhere Direct [node]) :
    node.rebuilt = node := by
  obtain ⟨here, below⟩ := everywhere_singleton.mp direct
  cases node with
  | char literal =>
      obtain ⟨c, rfl⟩ := here
      rfl
  | bracketSet set => exact here.elim
  | subexpression children => exact here.elim
  | group capturing children => rw [rebuilt, rebuiltAll_of_direct children below]
  | namedGroup name children => rw [rebuilt, rebuiltAll_of_direct children below]
  | lookaround kind children => rw [rebuilt, rebuiltAll_of_direct children below]
  | anyOf children => rw [rebuilt, rebuiltAll_of_direct children below]
  | quantified inner quantifier => rw [rebuilt, rebuilt_of_direct inner below]
  | _ => rfl

theorem rebuiltAll_of_direct (nodes : List Node) (direct : Everywhere Direct nodes) :
    rebuiltAll nodes = nodes := by
  cases nodes with
  | nil => rfl
  | cons node rest =>
      obtain ⟨alone, later⟩ := everywhere_cons.mp direct
      have whole : rebuiltAll [node] = [node.rebuilt] := by
        cases node with
        | noop | subexpression _ => exact (everywhere_singleton.mp alone).1.elim
        | _ => rfl
      rw [rebuiltAll_cons, whole, rebuilt_of_direct node alone, rebuiltAll_of_direct rest later]
      rfl

end

/-! Where merged elements come back in the same spelling. -/

/-- Inlining leaves each alternative in one piece, which goes into the bracket that alternatives
share if the alternative did. -/
def KeepsAlternatives : Node → Prop
  | anyOf children => ∀ child ∈ children, ∃ node,
      child.inlined = [node] ∧ node.member? = child.member?
  | _ => True

theorem member?_rebuilt {node : Node} (constructed : node.Constructed) :
    node.rebuilt.member? = node.member? := by
  cases node with
  | char literal =>
      obtain ⟨c, rfl⟩ := constructed
      rfl
  | bracketSet set => exact constructed.elim
  | _ => rfl

theorem keepsSpelling_of_constructed {nodes : List Node}
    (constructed : Everywhere Constructed nodes) (keeps : Everywhere KeepsAlternatives nodes) :
    Everywhere KeepsSpelling nodes := by
  intro node member
  have here := constructed node member
  cases node with
  | char literal => exact here
  | bracketSet set => exact here.elim
  | quantified inner quantifier => exact here.2
  | anyOf children =>
      intro child listed
      obtain ⟨piece, whole, same⟩ := keeps _ member child listed
      have inside : Everywhere Constructed children :=
        (everywhere_singleton.mp (constructed.within member)).2
      have built := everywhere_inlined child (inside.of_mem listed) piece (by simp [whole])
      exact ⟨piece, whole, (member?_rebuilt built).trans same⟩
  | _ => trivial

end Node

namespace Builder

theorem root_of_isClosed {builder : Builder} (closed : builder.isClosed = true) :
    builder.root = builder.current := by
  have empty : builder.outer = [] := by simpa [isClosed] using closed
  simp [root, empty]

end Builder

/-- Without merges, lowering and replaying give back the elements of the root, node for node, and
everything that was declared. -/
theorem replay_of_assembled (builder : Builder) (assembled : builder.Assembled)
    (closed : builder.isClosed = true) (captures : Nat) :
    ∃ script again,
      Regex.script ⟨builder.root.elements, builder.declared.flags, captures⟩ = .ok script ∧
        script.replay = .ok again ∧ again.isClosed = true ∧
        again.root.elements = builder.root.elements ∧ again.declared = builder.declared := by
  rw [Builder.root_of_isClosed closed]
  have direct := (assembled.holds direct_arises).current.elements
  have buildable := direct.imp fun _ here => here.constructed.buildable
  obtain ⟨script, made, replayed⟩ :=
    Regex.script_replays buildable builder.declared.flags captures
  rw [← Builder.marks_of_closed assembled.reachable closed, assembled.meetAll, ok_bind,
    rebuiltAll_of_direct _ direct] at replayed
  exact ⟨script, _, made, replayed, rfl, rfl, rfl⟩

theorem replay_of_assembled_late_flag :
    ∃ (builder : Builder) (script : Script) (again : Builder),
      builder.Assembled ∧ builder.isClosed = true ∧
      builder.root.elements = [.anchor .start, .quantified (.namedGroup ['a'] [.charClass .digit])
        .oneOrMore, .namedBackreference ['a']] ∧
      builder.declared = ⟨Flags.ofList [.global], true, false, 1, [['a']]⟩ ∧
      Regex.script ⟨builder.root.elements, builder.declared.flags, 1⟩ = .ok script ∧
      script.replay = .ok again ∧ again.isClosed = true ∧
      again.root.elements = builder.root.elements ∧ again.declared = builder.declared := by
  have waiting := Builder.Assembled.quantify .oneOrMore .new rfl
  have opened := Builder.Assembled.call (.namedCapture ['a']) (.call .startOfInput waiting rfl) rfl
  have filled := Builder.Assembled.call .close (.call (.charClass .digit) opened rfl) rfl
  have flagged := Builder.Assembled.call (.flag .global) filled rfl
  have assembled := Builder.Assembled.call (.namedBackreference ['a']) flagged rfl
  obtain ⟨script, again, made, replayed, closed, elements, declared⟩ :=
    replay_of_assembled _ assembled rfl 1
  exact ⟨_, script, again, assembled, rfl, rfl, rfl, made, replayed, closed, elements, declared⟩

/-- For every finished builder, with merges or without, lowering and replaying succeed and declare
the same flags and groups; the expression comes back in the same spelling when inlining the merged
elements keeps the alternatives. -/
theorem replay_of_reachable (builder : Builder) (reachable : builder.Reachable)
    (closed : builder.isClosed = true) (captures : Nat) :
    ∃ script again,
      Regex.script ⟨builder.root.elements, builder.declared.flags, captures⟩ = .ok script ∧
        script.replay = .ok again ∧ again.isClosed = true ∧
        again.declared.flags = builder.declared.flags ∧
        again.declared.captures = builder.declared.captures ∧
        again.declared.names = builder.declared.names ∧
        (Everywhere KeepsAlternatives builder.root.elements → again.render = builder.render) := by
  rw [Builder.root_of_isClosed closed]
  have constructed := (reachable.holds constructed_arises constructed_merges).current.elements
  obtain ⟨script, made, replayed⟩ := Regex.script_replays
    (constructed.imp fun _ here => here.buildable) builder.declared.flags captures
  rw [← Builder.marks_of_closed reachable closed, reachable.meetAll, ok_bind] at replayed
  obtain ⟨captured, named⟩ := (Builder.links_of_reachable reachable).counts
  refine ⟨script, _, made, replayed, rfl, rfl, captured.symm, named.symm, ?_⟩
  intro keeps
  have spelled := renderAll_rebuiltAll (keepsSpelling_of_constructed constructed keeps)
  rw [Builder.render_of_isClosed closed, Builder.render_of_isClosed rfl, ← spelled]
  rfl

theorem replay_of_reachable_string :
    ∃ (builder : Builder) (script : Script) (again : Builder),
      builder.Reachable ∧ builder.isClosed = true ∧
      builder.root.elements =
        [.anyOf [.subexpression [.string ⟨"ab".toList⟩], .char (.ofChar 'c')]] ∧
      Regex.script ⟨builder.root.elements, builder.declared.flags, 0⟩ = .ok script ∧
      script.replay = .ok again ∧ again.render = .ok "/(?:ab|[c])/".toList := by
  have merged := Builder.Reachable.merge {} (.call .anyOf .new rfl)
    (.call (.string "ab".toList) .new rfl) rfl
  have reachable := Builder.Reachable.call .close (.call (.char ['c']) merged rfl) rfl
  have keeps : Everywhere KeepsAlternatives
      [.anyOf [.subexpression [.string ⟨"ab".toList⟩], .char (.ofChar 'c')]] := by
    simp [Everywhere, preorderAll, preorder, KeepsAlternatives, inlined, inlinedAll, member?]
  obtain ⟨script, again, made, replayed, -, -, -, -, spelled⟩ :=
    replay_of_reachable _ reachable rfl 0
  exact ⟨_, script, again, reachable, rfl, rfl, made, replayed, (spelled keeps).trans rfl⟩

/-- A merged sequence is one alternative before, and several afterwards. -/
theorem replay_splits_alternative :
    ∃ (builder : Builder) (script : Script) (again : Builder),
      builder.Reachable ∧ builder.isClosed = true ∧
      Regex.script ⟨builder.root.elements, builder.declared.flags, 0⟩ = .ok script ∧
      script.replay = .ok again ∧ builder.render = .ok "/(?:ab|[c])/".toList ∧
      again.render = .ok "/[abc]/".toList := by
  have sequence := Builder.Reachable.call (.char ['b']) (.call (.char ['a']) .new rfl) rfl
  have merged := Builder.Reachable.merge {} (.call .anyOf .new rfl) sequence rfl
  have reachable := Builder.Reachable.call .close (.call (.char ['c']) merged rfl) rfl
  exact ⟨_, _, _, reachable, rfl, rfl, rfl, rfl, rfl⟩

end RegexForge
