import Mathlib.Data.List.Forall2
import RegexForge.Proofs.Replay

/-!
How a rebuilt tree is spelled. A script puts a merged element in place, without a group around it,
and leaves out what spells nothing; a set comes back as a character list, a range or alternatives.
In a sequence none of this can be seen, since elements that follow each other are spelled one after
the other, and a merged element that is repeated has its group in either form. Alternatives are
another matter: there each element is one alternative, and whether it goes into the bracket they
share depends on its kind. A tree is spelled as before when each of its alternatives stays in one
piece and on its side of the bracket.
-/

namespace RegexForge

/-! The forms in which a set comes back are spelled alike. -/

namespace SetMember

theorem member?_node (member : SetMember) : Node.member? member.node = some member.text := by
  cases member with
  | char c => simp [node, Node.member?, text, Literal.escaped, Literal.ofChar, escape]
  | range low high => rfl

theorem memberText_node (members : List SetMember) :
    Node.memberText (members.map node) = members.flatMap text := by
  induction members with
  | nil => rfl
  | cons member rest ih =>
      simp only [Node.memberText, List.map_cons, List.filterMap_cons, member?_node,
        List.flatten_cons, List.flatMap_cons] at ih ⊢
      rw [ih]

theorem renderAlternatives_node (members : List SetMember) :
    Node.renderAlternatives (members.map node) = [] := by
  induction members with
  | nil => rfl
  | cons member rest ih => simp [Node.renderAlternatives, member?_node, ih]

theorem flatMap_text_char (chars : Text) : (chars.map char).flatMap text = escape chars := by
  simp [escape, List.flatMap_map, text]

end SetMember

theorem render_rebuilt_set {set : BracketSet} (buildable : set.Buildable) :
    set.rebuilt.render = set.text := by
  obtain ⟨-, -, expressible⟩ := buildable
  unfold BracketSet.rebuilt BracketSet.text
  cases chars : set.charsOnly? with
  | some text =>
      have members := (set.charsOnly?_eq_some_iff text).mp chars
      rw [members, SetMember.flatMap_text_char]
      cases set.negated <;> rfl
  | none =>
      cases range : set.singleRange? with
      | some bounds =>
          rw [members_of_singleRange? range]
          cases set.negated <;> rfl
      | none =>
          have positive : set.negated = false := by simpa [chars, range] using expressible
          simp only [positive, Bool.false_eq_true, ↓reduceIte, Node.render,
            SetMember.memberText_node, SetMember.renderAlternatives_node, Node.alternation]
          rfl

namespace Node

mutual

/-- What a node leaves in place: nothing, the elements merged into it, or itself. -/
def inlined : Node → List Node
  | noop => []
  | subexpression children => inlinedAll children
  | node => [node]

def inlinedAll : List Node → List Node
  | [] => []
  | node :: rest => inlined node ++ inlinedAll rest

end

theorem inlined_cases (node : Node) :
    node = noop ∨ (∃ children, node = subexpression children) ∨
      node.inlined = [node] ∧ ∀ children, node ≠ subexpression children := by
  cases node with
  | noop => exact .inl rfl
  | subexpression children => exact .inr (.inl ⟨children, rfl⟩)
  | _ => exact .inr (.inr ⟨rfl, by simp⟩)

mutual

theorem everywhere_inlined {property : Node → Prop} (node : Node)
    (everywhere : Everywhere property [node]) : ∀ piece ∈ node.inlined, property piece := by
  obtain ⟨here, below⟩ := everywhere_singleton.mp everywhere
  cases node with
  | noop => simp [inlined]
  | subexpression children => exact everywhere_inlinedAll children below
  | _ => exact List.forall_mem_singleton.mpr here

theorem everywhere_inlinedAll {property : Node → Prop} (nodes : List Node)
    (everywhere : Everywhere property nodes) : ∀ piece ∈ inlinedAll nodes, property piece := by
  cases nodes with
  | nil => simp [inlinedAll]
  | cons node rest =>
      obtain ⟨alone, later⟩ := everywhere_cons.mp everywhere
      exact List.forall_mem_append.mpr
        ⟨everywhere_inlined node alone, everywhere_inlinedAll rest later⟩

end

mutual

theorem rebuiltAll_singleton (node : Node) : rebuiltAll [node] = node.inlined.map rebuilt := by
  cases node with
  | subexpression children => simp [rebuiltAll, inlined, rebuiltAll_eq_map children]
  | _ => rfl

theorem rebuiltAll_eq_map (nodes : List Node) :
    rebuiltAll nodes = (inlinedAll nodes).map rebuilt := by
  cases nodes with
  | nil => rfl
  | cons node rest =>
      rw [rebuiltAll_cons, rebuiltAll_singleton node, rebuiltAll_eq_map rest, inlinedAll,
        List.map_append]

end

mutual

theorem renderAll_inlined (node : Node) : renderAll node.inlined = node.render := by
  cases node with
  | subexpression children => exact renderAll_inlinedAll children
  | noop => rfl
  | _ => exact List.append_nil _

theorem renderAll_inlinedAll (nodes : List Node) :
    renderAll (inlinedAll nodes) = renderAll nodes := by
  cases nodes with
  | nil => rfl
  | cons node rest =>
      rw [inlinedAll, renderAll_append, renderAll_inlined node, renderAll_inlinedAll rest,
        renderAll_cons]

end

/-- Alternatives make up the same alternation when they add the same to the bracket, and are
spelled alike outside of it. -/
theorem alternation_congr {first second : List Node}
    (alike : List.Forall₂ (fun a b => a.member? = b.member? ∧ a.render = b.render) first second) :
    memberText first = memberText second ∧
      renderAlternatives first = renderAlternatives second := by
  induction alike with
  | nil => exact ⟨rfl, rfl⟩
  | cons here later ih =>
      obtain ⟨members, alternatives⟩ := ih
      simp only [memberText] at members
      constructor
      · simp only [memberText, List.filterMap_cons, here.1]
        split <;> simp [members]
      · simp only [renderAlternatives, here.1, here.2, alternatives]

/-- What it takes for a node to be rebuilt in the same spelling, if what is inside it is. -/
def KeepsSpelling : Node → Prop
  | char literal => ∃ c, literal = .ofChar c
  | bracketSet set => set.Buildable
  | anyOf children => ∀ child ∈ children, ∃ node,
      child.inlined = [node] ∧ node.rebuilt.member? = child.member?
  | quantified inner _ => inner.takesQuantifier = true
  | _ => True

theorem needsGroup_rebuilt {node : Node} (keeps : node.KeepsSpelling)
    (whole : ∀ children, node ≠ subexpression children) :
    node.rebuilt.needsGroup = node.needsGroup := by
  cases node with
  | char literal =>
      obtain ⟨c, rfl⟩ := keeps
      rfl
  | bracketSet set =>
      simp only [rebuilt, BracketSet.rebuilt]
      cases set.negated <;> split <;> rfl
  | subexpression children => exact absurd rfl (whole children)
  | _ => rfl

theorem alike_rebuiltAll {children : List Node}
    (keeps : ∀ child ∈ children, ∃ node,
      child.inlined = [node] ∧ node.rebuilt.member? = child.member?)
    (spelled : ∀ node ∈ inlinedAll children, node.rebuilt.render = node.render) :
    List.Forall₂ (fun a b => a.member? = b.member? ∧ a.render = b.render)
      (rebuiltAll children) children := by
  induction children with
  | nil => exact .nil
  | cons child rest ih =>
      obtain ⟨⟨node, whole, member⟩, others⟩ := List.forall_mem_cons.mp keeps
      rw [inlinedAll, List.forall_mem_append, whole] at spelled
      obtain ⟨here, later⟩ := spelled
      have alone : node.render = child.render := by
        rw [← renderAll_inlined child, whole, renderAll_cons, renderAll_nil, List.append_nil]
      rw [rebuiltAll_cons, rebuiltAll_singleton, whole]
      exact .cons ⟨member, (here node (by simp)).trans alone⟩ (ih others later)

theorem renderAll_rebuiltAll_of_inlined {nodes : List Node}
    (spelled : ∀ node ∈ inlinedAll nodes, node.rebuilt.render = node.render) :
    renderAll (rebuiltAll nodes) = renderAll nodes := by
  rw [rebuiltAll_eq_map, ← renderAll_inlinedAll nodes]
  revert spelled
  induction inlinedAll nodes with
  | nil => exact fun _ => rfl
  | cons node rest ih =>
      intro spelled
      obtain ⟨here, later⟩ := List.forall_mem_cons.mp spelled
      rw [List.map_cons, renderAll_cons, renderAll_cons, here, ih later]

mutual

theorem render_rebuilt (node : Node) (keeps : Everywhere KeepsSpelling [node]) :
    ∀ piece ∈ node.inlined, piece.rebuilt.render = piece.render := by
  obtain ⟨here, below⟩ := everywhere_singleton.mp keeps
  cases node with
  | noop => simp [inlined]
  | subexpression children => exact render_rebuiltAll children below
  | char literal =>
      obtain ⟨c, rfl⟩ := here
      simp [inlined, rebuilt, Literal.isMulti, Literal.ofChar]
  | bracketSet set => exact List.forall_mem_singleton.mpr (render_rebuilt_set here)
  | group capturing children =>
      have inside := renderAll_rebuiltAll_of_inlined (render_rebuiltAll children below)
      cases capturing <;> simp [inlined, rebuilt, render, inside]
  | namedGroup name children =>
      have inside := renderAll_rebuiltAll_of_inlined (render_rebuiltAll children below)
      simp [inlined, rebuilt, render, inside]
  | lookaround kind children =>
      have inside := renderAll_rebuiltAll_of_inlined (render_rebuiltAll children below)
      simp [inlined, rebuilt, render, inside]
  | anyOf children =>
      obtain ⟨members, alternatives⟩ :=
        alternation_congr (alike_rebuiltAll here (render_rebuiltAll children below))
      simp [inlined, rebuilt, render, members, alternatives]
  | quantified inner quantifier =>
      have spelled := render_rebuilt inner below
      obtain ⟨innerHere, -⟩ := everywhere_singleton.mp below
      rcases inlined_cases inner with rfl | ⟨children, rfl⟩ | ⟨whole, apart⟩
      · contradiction
      · -- The group that a repeated element needs is part of the rebuilt one.
        have inside := renderAll_rebuiltAll_of_inlined spelled
        simp [inlined, rebuilt, render, needsGroup, inside]
      · have group := needsGroup_rebuilt innerHere apart
        have single := spelled inner (by simp [whole])
        simp [inlined, rebuilt, render, group, single]
  | _ => simp [inlined, rebuilt]

theorem render_rebuiltAll (nodes : List Node) (keeps : Everywhere KeepsSpelling nodes) :
    ∀ piece ∈ inlinedAll nodes, piece.rebuilt.render = piece.render := by
  cases nodes with
  | nil => simp [inlinedAll]
  | cons node rest =>
      obtain ⟨alone, later⟩ := everywhere_cons.mp keeps
      exact List.forall_mem_append.mpr ⟨render_rebuilt node alone, render_rebuiltAll rest later⟩

end

theorem renderAll_rebuiltAll {nodes : List Node} (keeps : Everywhere KeepsSpelling nodes) :
    renderAll (rebuiltAll nodes) = renderAll nodes :=
  renderAll_rebuiltAll_of_inlined (render_rebuiltAll nodes keeps)

end Node

end RegexForge
