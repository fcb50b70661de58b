import Mathlib.Data.List.Chain
import RegexForge.Proofs.Lexing
import RegexForge.Proofs.ReadTree

/-!
The shape of every tree that was read, whether from a bare pattern or from an enclosed expression.
Which nodes occur, and what each of them holds, is decided where the node is made. That neighbours
are never two pieces of text is decided where a node is put before its neighbours: `join` takes the
one place where they could meet. By induction over the reading both hold at every depth, and the
number of capture groups is that of the groups in the tree.
-/

namespace RegexForge

/-- Every builder takes the quantifier, unless another one waits there. -/
def Quantifier.Accepted (quantifier : Quantifier) : Prop :=
  ∀ builder : Builder, builder.current.pending = none →
    ∃ after, builder.quantify quantifier = .ok after

namespace Node

open Grammar Parse

def isText : Node → Bool
  | char _ | string _ => true
  | _ => false

def Parted (nodes : List Node) : Prop :=
  nodes.IsChain fun first second => ¬ (first.isText = true ∧ second.isText = true)

def isCaptureGroup : Node → Bool
  | group capturing _ => capturing
  | _ => false

/-- Which nodes a pattern gives, and what they hold. -/
def Shaped : Node → Prop
  | anchor _ | group _ _ | lookaround _ _ => True
  | charClass kind => kind ≠ .nullByte
  | char literal => literal.raw.length = 1
  | string literal => 2 ≤ literal.raw.length
  | bracketSet set => set.Buildable
  | quantified inner quantifier => inner.isAtom = true ∧ quantifier.Accepted
  | _ => False

theorem accepted_of_check {quantifier : Quantifier} (checked : quantifier.check = .ok ()) :
    quantifier.Accepted := by
  intro builder idle
  exact ⟨_, Builder.quantify_eq_ok_iff.mpr ⟨checked, idle, rfl⟩⟩

theorem Legible.shaped {node : Node} (legible : node.Legible)
    (writable : node ≠ .charClass .nullByte) : node.Shaped := by
  cases node with
  | charClass kind =>
      rintro rfl
      exact writable rfl
  | char literal =>
      obtain ⟨c, rfl⟩ := legible
      rfl
  | string literal =>
      have several : 1 < literal.raw.length := by simpa [Legible, Literal.isMulti] using legible
      exact several
  | bracketSet set => exact legible
  | quantified inner quantifier =>
      obtain ⟨⟨bounds, read⟩, atom⟩ := legible
      exact ⟨atom, accepted_of_check (check_of_ofBounds? read)⟩
  | anchor _ | group _ _ | lookaround _ _ => trivial
  | _ => exact legible.elim

/-! Neighbours. -/

theorem parted_join {node : Node} {nodes : List Node} (single : ∀ literal, node ≠ .string literal)
    (parted : Parted nodes) : Parted (join node nodes) := by
  unfold join
  split
  · next front back rest =>
      obtain ⟨apart, later⟩ := List.isChain_cons.mp parted
      exact List.isChain_cons.mpr ⟨apart, later⟩
  · next front back rest =>
      obtain ⟨apart, later⟩ := List.isChain_cons.mp parted
      exact List.isChain_cons.mpr ⟨apart, later⟩
  · next noChar noString =>
      refine List.isChain_cons.mpr ⟨?_, parted⟩
      rintro next follows ⟨first, second⟩
      obtain ⟨rest, rfl⟩ := List.head?_eq_some_iff.mp follows
      cases node with
      | char literal =>
          cases next with
          | char other => exact noChar literal other rest rfl rfl
          | string other => exact noString literal other rest rfl rfl
          | _ => contradiction
      | string literal => exact single literal rfl
      | _ => contradiction

theorem ne_string_of_leaf {tokens : List Token} {item : Node} (leaf : Leaf tokens item)
    (literal : Literal) : item ≠ .string literal := by
  cases leaf <;> simp

theorem ne_string_of_repeated {suffix : List Token} {item node : Node}
    (repeated : Repeated suffix item node) (single : ∀ literal, item ≠ .string literal)
    (literal : Literal) : node ≠ .string literal := by
  cases repeated with
  | once => exact single literal
  | times _ wide read => simp

theorem parted_children_of_leaf {tokens : List Token} {item : Node} (leaf : Leaf tokens item) :
    Everywhere (fun node => Parted node.children) [item] := by
  rw [everywhere_singleton]
  cases leaf <;> exact ⟨List.isChain_nil, everywhere_nil _⟩

theorem parted_children_of_repeated {suffix : List Token} {item node : Node}
    (repeated : Repeated suffix item node)
    (inside : Everywhere (fun node => Parted node.children) [item]) :
    Everywhere (fun node => Parted node.children) [node] := by
  cases repeated with
  | once => exact inside
  | times _ wide read => exact everywhere_singleton.mpr ⟨List.isChain_singleton item, inside⟩

theorem parted_of_reads {tokens : List Token} {nodes : List Node} (reads : Reads tokens nodes) :
    Parted nodes ∧ Everywhere (fun node => Parted node.children) nodes := by
  have plain (literal : Literal) : Parted (string literal).children := List.isChain_nil
  induction reads with
  | nil => exact ⟨List.isChain_nil, everywhere_nil _⟩
  | leaf stands repeated later ih =>
      have single := ne_string_of_repeated repeated (ne_string_of_leaf stands)
      have inside := parted_children_of_repeated repeated (parted_children_of_leaf stands)
      exact ⟨parted_join single ih.1, everywhere_join plain inside ih.2⟩
  | @group body suffix rest children nodes node kind inner repeated later ihInner ihLater =>
      have single := ne_string_of_repeated repeated (by cases kind <;> simp [groupNode])
      have whole : Everywhere (fun node => Parted node.children) [groupNode kind children] := by
        cases kind <;> exact everywhere_singleton.mpr ihInner
      have inside := parted_children_of_repeated repeated whole
      exact ⟨parted_join single ihLater.1, everywhere_join plain inside ihLater.2⟩

/-! Capture groups. -/

theorem captureCount_of_legible {nodes : List Node} (legible : Everywhere Legible nodes) :
    Mark.captureCount (marks nodes) = (preorderAll nodes).countP isCaptureGroup := by
  rw [Mark.captureCount, marks, List.countP_filterMap]
  apply List.countP_congr
  intro node member
  have here := legible node member
  cases node with
  | group capturing children => cases capturing <;> simp [mark?, Mark.isCapture, isCaptureGroup]
  | namedGroup name children => exact here.elim
  | _ => simp [mark?, Mark.isCapture, isCaptureGroup]

end Node

open Grammar Node Outcome

theorem Parse.shape_of_regex {cursor : Cursor} {flags : Flags} {regex : Regex}
    (read : Parse.regex cursor.scanAll flags = .ok regex) :
    Everywhere Shaped regex.nodes ∧ Parted regex.nodes ∧
      Everywhere (fun node => Parted node.children) regex.nodes ∧
      regex.captures = (preorderAll regex.nodes).countP isCaptureGroup := by
  obtain ⟨ending, reads, -, captures⟩ := regex_eq_ok_iff.mp read
  have legible := reads_legible reads
  have writable := writable_of_reads reads (cursor.nullByte_notMem ending)
  obtain ⟨parted, inside⟩ := parted_of_reads reads
  refine ⟨?_, parted, inside, ?_⟩
  · intro node member
    exact (legible node member).shaped (writable node member)
  · rw [captures, opened_of_reads reads, captureCount_of_legible legible]

/-- A tree that was read holds at every depth only nodes of these shapes, neighbours that are not
both text, and as many capture groups as were counted. -/
theorem shape_of_accepted (text : Text) (regex : Regex)
    (read : Regex.ofText text = .ok regex ∨ Regex.ofPattern text = .ok regex) :
    Everywhere Shaped regex.nodes ∧ Parted regex.nodes ∧
      Everywhere (fun node => Parted node.children) regex.nodes ∧
      regex.captures = (preorderAll regex.nodes).countP isCaptureGroup := by
  rcases read with enclosed | bare
  · obtain ⟨parts, -, accepted⟩ := bind_eq_ok_iff.mp enclosed
    exact Parse.shape_of_regex (mapError_eq_ok_iff.mp accepted)
  · exact Parse.shape_of_regex (mapError_eq_ok_iff.mp bare)

theorem shape_of_accepted_runs :
    ∃ regex, Regex.ofPattern "ab(cde{2,}[^x-z])".toList = .ok regex ∧ regex.captures = 1 ∧
      Parted regex.nodes ∧
      regex.nodes = [.string ⟨"ab".toList⟩, .group true [.string ⟨"cd".toList⟩,
        .quantified (.char (.ofChar 'e')) (.atLeast 2), .bracketSet ⟨[.range 'x' 'z'], true⟩]] := by
  have read : Regex.ofPattern "ab(cde{2,}[^x-z])".toList =
      .ok ⟨[.string ⟨"ab".toList⟩, .group true [.string ⟨"cd".toList⟩,
        .quantified (.char (.ofChar 'e')) (.atLeast 2),
        .bracketSet ⟨[.range 'x' 'z'], true⟩]], {}, 1⟩ := by decide +kernel
  obtain ⟨-, parted, -, captures⟩ := shape_of_accepted _ _ (.inr read)
  exact ⟨_, read, captures, parted, rfl⟩

end RegexForge
