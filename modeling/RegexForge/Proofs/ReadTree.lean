import RegexForge.Proofs.Grammar
import RegexForge.Proofs.Steps

/-!
The shape of trees that were read from a pattern. Reading makes only some kinds of node, and each
with contents that the calls of a builder accept; the groups that count are the capture groups of
the tree, and besides anchors nothing else in it leaves a mark. All of it holds at every depth.
-/

namespace RegexForge.Node

open Grammar Parse

/-- What a pattern can put a quantifier after. -/
def isAtom : Node → Bool
  | char _ | charClass _ | bracketSet _ | group _ _ => true
  | _ => false

theorem isZeroWidth_of_isAtom {node : Node} (atom : node.isAtom = true) :
    node.isZeroWidth = false := by
  cases node <;> first | rfl | contradiction

/-- What a node that was read holds. -/
def Legible : Node → Prop
  | anchor _ | charClass _ | group _ _ | lookaround _ _ => True
  | char literal => ∃ c, literal = .ofChar c
  | string literal => literal.isMulti = true
  | bracketSet set => set.Buildable
  | quantified inner quantifier =>
      (∃ bounds, Quantifier.ofBounds? bounds = some quantifier) ∧ inner.isAtom = true
  | _ => False

theorem check_of_ofBounds? {bounds : Bounds} {quantifier : Quantifier}
    (read : Quantifier.ofBounds? bounds = some quantifier) : quantifier.check = .ok () := by
  unfold Quantifier.ofBounds? at read
  grind [Quantifier.check]

theorem Legible.buildable (node : Node) (legible : node.Legible) : node.Buildable := by
  cases node with
  | char literal =>
      obtain ⟨c, rfl⟩ := legible
      simp [Buildable, Literal.ofChar]
  | string literal =>
      intro empty
      simp [Legible, Literal.isMulti, empty] at legible
  | quantified inner quantifier =>
      obtain ⟨⟨bounds, read⟩, atom⟩ := legible
      refine ⟨check_of_ofBounds? read, ?_⟩
      cases inner <;> first | rfl | contradiction
  | bracketSet set => exact legible
  | anchor _ | charClass _ | group _ _ | lookaround _ _ => trivial
  | _ => exact legible.elim

theorem ordered_of_members {tokens : List Token} {members : List SetMember}
    (derived : Members tokens members) :
    ∀ low high, .range low high ∈ members → low < high := by
  induction derived with
  | nil => simp
  | char stands single later ih => simpa using ih
  | range lowStands highStands upwards later ih =>
      intro low high member
      rcases List.mem_cons.mp member with same | later
      · cases same
        exact upwards
      · exact ih low high later
  | trailing stands => simp

theorem legible_of_leaf {tokens : List Token} {item : Node} (leaf : Leaf tokens item) :
    Everywhere Legible [item] := by
  rw [everywhere_singleton]
  cases leaf with
  | literal c => exact ⟨⟨c, rfl⟩, everywhere_nil _⟩
  | bracketSet members expressible =>
      exact ⟨⟨expressible.1, ordered_of_members members, expressible.2⟩, everywhere_nil _⟩
  | _ => exact ⟨trivial, everywhere_nil _⟩

theorem leaf_atom_or_zeroWidth {tokens : List Token} {item : Node} (leaf : Leaf tokens item) :
    item.isAtom = true ∨ item.isZeroWidth = true := by
  cases leaf with
  | caret | dollar => exact .inr rfl
  | _ => exact .inl rfl

theorem legible_of_repeated {suffix : List Token} {item node : Node}
    (repeated : Repeated suffix item node) (legible : Everywhere Legible [item])
    (atom : item.isAtom = true ∨ item.isZeroWidth = true) : Everywhere Legible [node] := by
  cases repeated with
  | once => exact legible
  | times _ wide read =>
      have isAtom : item.isAtom = true := by simpa [wide] using atom
      exact everywhere_singleton.mpr ⟨⟨⟨_, read⟩, isAtom⟩, legible⟩

theorem legible_join {node : Node} {nodes : List Node} (first : Everywhere Legible [node])
    (later : Everywhere Legible nodes) : Everywhere Legible (join node nodes) := by
  unfold join
  split
  · next front back rest =>
      obtain ⟨⟨c, rfl⟩, -⟩ := everywhere_singleton.mp first
      obtain ⟨second, rest⟩ := everywhere_cons.mp later
      obtain ⟨⟨d, rfl⟩, -⟩ := everywhere_singleton.mp second
      have both : Legible (.string ⟨(Literal.ofChar c).raw ++ (Literal.ofChar d).raw⟩) := by
        simp [Legible, Literal.isMulti, Literal.ofChar]
      exact everywhere_cons.mpr ⟨everywhere_singleton.mpr ⟨both, everywhere_nil _⟩, rest⟩
  · next front back rest =>
      obtain ⟨⟨c, rfl⟩, -⟩ := everywhere_singleton.mp first
      obtain ⟨second, rest⟩ := everywhere_cons.mp later
      obtain ⟨several, -⟩ := everywhere_singleton.mp second
      refine everywhere_cons.mpr ⟨everywhere_singleton.mpr ⟨?_, everywhere_nil _⟩, rest⟩
      have several : 1 < back.raw.length := by simpa [Legible, Literal.isMulti] using several
      simp only [Legible, Literal.isMulti, Literal.ofChar, List.length_append, List.length_cons,
        List.length_nil, decide_eq_true_eq]
      omega
  · exact everywhere_append.mpr ⟨first, later⟩

theorem reads_legible {tokens : List Token} {nodes : List Node} (reads : Reads tokens nodes) :
    Everywhere Legible nodes := by
  induction reads with
  | nil => exact everywhere_nil _
  | leaf stands repeated later ih =>
      exact legible_join (legible_of_repeated repeated (legible_of_leaf stands)
        (leaf_atom_or_zeroWidth stands)) ih
  | group kind inside repeated later insideLegible laterLegible =>
      refine legible_join (legible_of_repeated repeated ?_ ?_) laterLegible
      · cases kind <;> exact everywhere_singleton.mpr ⟨trivial, insideLegible⟩
      · cases kind with
        | capture | plain => exact .inl rfl
        | lookaround _ => exact .inr rfl

theorem everywhere_join {property : Node → Prop} (text : ∀ literal, property (.string literal))
    {node : Node} {nodes : List Node} (first : Everywhere property [node])
    (later : Everywhere property nodes) : Everywhere property (join node nodes) := by
  have joined (literal : Literal) : Everywhere property [.string literal] :=
    everywhere_singleton.mpr ⟨text literal, everywhere_nil _⟩
  unfold join
  split
  · exact everywhere_cons.mpr ⟨joined _, (everywhere_cons.mp later).2⟩
  · exact everywhere_cons.mpr ⟨joined _, (everywhere_cons.mp later).2⟩
  · exact everywhere_append.mpr ⟨first, later⟩

/-! No token, no node: the class of the null byte. -/

theorem writable_of_leaf {tokens : List Token} {item : Node} (leaf : Leaf tokens item)
    (none : .charClass .nullByte ∉ tokens) : Everywhere (· ≠ .charClass .nullByte) [item] := by
  rw [everywhere_singleton]
  cases leaf with
  | charClass kind => exact ⟨by simpa [eq_comm] using none, everywhere_nil _⟩
  | _ => exact ⟨by simp, everywhere_nil _⟩

theorem writable_of_repeated {suffix : List Token} {item node : Node}
    (repeated : Repeated suffix item node) (writable : Everywhere (· ≠ .charClass .nullByte) [item]) :
    Everywhere (· ≠ .charClass .nullByte) [node] := by
  cases repeated with
  | once => exact writable
  | times _ wide read => exact everywhere_singleton.mpr ⟨by simp, writable⟩

theorem writable_of_reads {tokens : List Token} {nodes : List Node} (reads : Reads tokens nodes)
    (none : .charClass .nullByte ∉ tokens) : Everywhere (· ≠ .charClass .nullByte) nodes := by
  induction reads with
  | nil => exact everywhere_nil _
  | leaf stands repeated later ih =>
      simp only [List.mem_append, not_or] at none
      exact everywhere_join (by simp)
        (writable_of_repeated repeated (writable_of_leaf stands none.1.1)) (ih none.2)
  | group kind inside repeated later insideIh laterIh =>
      simp only [List.mem_cons, List.mem_append, not_or] at none
      refine everywhere_join (by simp) (writable_of_repeated repeated ?_) (laterIh none.2)
      cases kind <;>
        exact everywhere_singleton.mpr ⟨by simp [groupNode], insideIh none.1.1.2⟩

/-! What a tree that was read declares. -/

theorem marks_join (node : Node) (nodes : List Node) :
    marks (join node nodes) = marks [node] ++ marks nodes := by
  unfold join
  split
  · next front back rest =>
      rw [marks_cons, marks_cons (char back)]
      simp [marks_singleton, mark?, Node.children]
  · next front back rest =>
      rw [marks_cons, marks_cons (string back)]
      simp [marks_singleton, mark?, Node.children]
  · exact marks_cons node nodes

theorem marks_repeated {suffix : List Token} {item node : Node}
    (repeated : Repeated suffix item node) : marks [node] = marks [item] := by
  cases repeated with
  | once => rfl
  | times _ wide read => exact marks_singleton _

theorem setChar?_of_members {tokens : List Token} {members : List SetMember}
    (derived : Members tokens members) : ∀ token ∈ tokens, ∃ c, setChar? token = some c := by
  induction derived with
  | nil => simp
  | char stands single later ih => exact List.forall_mem_cons.mpr ⟨⟨_, stands⟩, ih⟩
  | range lowStands highStands upwards later ih =>
      exact List.forall_mem_cons.mpr ⟨⟨_, lowStands⟩,
        List.forall_mem_cons.mpr ⟨⟨'-', rfl⟩, List.forall_mem_cons.mpr ⟨⟨_, highStands⟩, ih⟩⟩⟩
  | trailing stands =>
      exact List.forall_mem_cons.mpr ⟨⟨_, stands⟩, List.forall_mem_cons.mpr ⟨⟨'-', rfl⟩, by simp⟩⟩

theorem opened_append (first second : List Token) :
    opened (first ++ second) = opened first + opened second :=
  List.countP_append

theorem opened_of_members {tokens : List Token} {members : List SetMember}
    (derived : Members tokens members) : opened tokens = 0 := by
  rw [opened, List.countP_eq_zero]
  intro token member same
  obtain ⟨c, stands⟩ := setChar?_of_members derived token member
  have same : token = .openGroup .capture := by simpa using same
  rw [same] at stands
  contradiction

theorem opened_of_leaf {tokens : List Token} {item : Node} (leaf : Leaf tokens item) :
    opened tokens = 0 ∧ Mark.captureCount (marks [item]) = 0 := by
  cases leaf with
  | bracketSet members expressible =>
      refine ⟨?_, rfl⟩
      rw [opened_append]
      simpa [opened] using opened_of_members members
  | _ => exact ⟨rfl, rfl⟩

theorem opened_of_repeated {suffix : List Token} {item node : Node}
    (repeated : Repeated suffix item node) : opened suffix = 0 := by
  cases repeated <;> rfl

theorem opened_of_reads {tokens : List Token} {nodes : List Node} (reads : Reads tokens nodes) :
    opened tokens = Mark.captureCount (marks nodes) := by
  induction reads with
  | nil => rfl
  | leaf stands repeated later ih =>
      obtain ⟨none, unmarked⟩ := opened_of_leaf stands
      rw [marks_join, marks_repeated repeated, Mark.captureCount_append, unmarked, opened_append,
        opened_append, none, opened_of_repeated repeated, ih]
  | @group body suffix rest children nodes node kind inside repeated later insideCount laterCount =>
      have closing : opened (.closeGroup :: suffix) = 0 := by
        simpa [opened] using opened_of_repeated repeated
      have opening : opened (.openGroup kind :: body) =
          Mark.captureCount (marks [groupNode kind children]) := by
        have below : Mark.captureCount (marks (groupNode kind children).children) =
            opened body := by
          cases kind <;> exact insideCount.symm
        rw [marks_singleton, Mark.captureCount_append, below]
        cases kind <;>
          simp [opened, groupNode, mark?, Mark.captureCount, Mark.isCapture, Nat.add_comm]
      rw [marks_join, marks_repeated repeated, Mark.captureCount_append, opened_append,
        opened_append, closing, opening, laterCount]
      rfl

theorem marks_of_legible {nodes : List Node} (legible : Everywhere Legible nodes) :
    ∀ mark ∈ marks nodes, (∃ a, mark = .anchor a) ∨ mark = .capture none := by
  intro mark member
  obtain ⟨node, here, marked⟩ := List.mem_filterMap.mp member
  have shape := legible node here
  cases node with
  | anchor a =>
      cases marked
      exact .inl ⟨a, rfl⟩
  | group capturing children =>
      cases capturing with
      | false => contradiction
      | true =>
          cases marked
          exact .inr rfl
  | namedGroup _ _ | backreference _ | namedBackreference _ => exact shape.elim
  | _ => contradiction

end RegexForge.Node
