import RegexForge.Proofs.Contents
import RegexForge.Proofs.Inlining
import RegexForge.Proofs.References
import RegexForge.Proofs.Spelling

/-!
What stands behind the spelling of a reference. A reference is a backslash and the decimal digits of
its number, and whatever comes next is written right behind them; a reader takes as many digits as
it finds. A walk over the tree collects the references with what follows each of them, first in the
same sequence, where merged elements dissolve, and then behind the sequence. No sequence is followed
by a digit, because it ends at the end of the pattern, at a parenthesis, at a bar or at a
quantifier. So the number of a reference is kept unless a literal that starts with a digit is next.
-/

namespace RegexForge

def Text.startsWithDigit (text : Text) : Bool :=
  text.head?.any Char.isDigit

theorem startsWithDigit_append {first second : Text} (filled : first ≠ []) :
    Text.startsWithDigit (first ++ second) = first.startsWithDigit := by
  cases first with
  | nil => contradiction
  | cons c rest => rfl

theorem escapeChar_ne_nil (c : Char) : escapeChar c ≠ [] := by
  obtain ⟨first, others, spelled, -⟩ := escapeChar_eq_cons c
  simp [spelled]

theorem startsWithDigit_escapeChar (c : Char) :
    (escapeChar c).startsWithDigit = c.isDigit := by
  rcases escapeChar_cases c with ⟨name, listed, spelled⟩ | ⟨special, spelled⟩ | ⟨-, -, spelled⟩
  · have noDigit : ∀ entry ∈ escapeNames, entry.1.isDigit = false := by decide
    rw [spelled]
    exact (noDigit _ listed).symm
  · rw [spelled]
    exact (special_plain special).2.symm
  · simp [spelled, Text.startsWithDigit]

theorem startsWithDigit_escape {text : Text} (filled : text ≠ []) :
    escape text ≠ [] ∧ (escape text).startsWithDigit = text.startsWithDigit := by
  cases text with
  | nil => contradiction
  | cons c rest =>
      have single := escapeChar_ne_nil c
      rw [escape, List.flatMap_cons]
      exact ⟨by simp [single], (startsWithDigit_append single).trans (startsWithDigit_escapeChar c)⟩

/-- A reference with the elements that follow it in its sequence and the text behind the sequence. -/
structure Spot where
  index : Nat
  later : List Node
  closing : Text

namespace Spot

def after (spot : Spot) : Text :=
  Node.renderAll spot.later ++ spot.closing

/-- The number that is read at the reference, as far as the digits go. -/
def read (spot : Spot) : Nat :=
  Nat.ofDigitChars 10 ((Nat.toDigits 10 spot.index ++ spot.after).takeWhile Char.isDigit) 0

end Spot

namespace Node

/-- What follows an alternative: the others, the shared bracket if there is one, and the end. -/
def behindAlternative (members : Text) (others : List Node) : Text :=
  (renderAlternatives others ++ if members = [] then [] else [bracket members]).flatMap ('|' :: ·)
    ++ [')']

mutual

/-- The references in the node, in document order, when `later` follows it in its sequence and
`closing` is the text behind that. -/
def spots (later : List Node) (closing : Text) : Node → List Spot
  | backreference index => [⟨index, later, closing⟩]
  | group _ children => spotsAll [] (')' :: (renderAll later ++ closing)) children
  | namedGroup _ children => spotsAll [] (')' :: (renderAll later ++ closing)) children
  | lookaround _ children => spotsAll [] (')' :: (renderAll later ++ closing)) children
  | anyOf children => spotsAlternatives (memberText children) (renderAll later ++ closing) children
  | subexpression children => spotsAll later closing children
  | quantified inner quantifier =>
      spots [] ((if inner.needsGroup then [')'] else []) ++
        (quantifier.suffix ++ (renderAll later ++ closing))) inner
  | _ => []

def spotsAll (later : List Node) (closing : Text) : List Node → List Spot
  | [] => []
  | node :: rest => spots (rest ++ later) closing node ++ spotsAll later closing rest

def spotsAlternatives (members closing : Text) : List Node → List Spot
  | [] => []
  | node :: rest =>
      spots [] (behindAlternative members rest ++ closing) node ++
        spotsAlternatives members closing rest

end

end Node

namespace Mark

def reference? : Mark → Option Nat
  | reference index => some index
  | _ => none

def references (marks : List Mark) : List Nat :=
  marks.filterMap reference?

theorem references_append (first second : List Mark) :
    references (first ++ second) = references first ++ references second :=
  List.filterMap_append

theorem one_le_of_mem_references {marks : List Mark} (resolves : InOrder Resolves marks)
    {index : Nat} (listed : index ∈ references marks) : 1 ≤ index := by
  obtain ⟨mark, found, same⟩ := List.mem_filterMap.mp listed
  cases mark with
  | reference number =>
      obtain rfl : number = index := by simpa [reference?] using same
      obtain ⟨before, after, -, resolved⟩ := resolves.of_mem found
      exact resolved.1
  | _ => simp [reference?] at same

end Mark

namespace Node

/-! Every reference of the tree has a spot. -/

mutual

theorem index_spots (node : Node) (later : List Node) (closing : Text) :
    (spots later closing node).map Spot.index = Mark.references (marks [node]) := by
  rw [marks_singleton, Mark.references_append]
  cases node with
  | group capturing children => cases capturing <;> exact index_spotsAll children _ _
  | namedGroup _ children => exact index_spotsAll children _ _
  | lookaround _ children => exact index_spotsAll children _ _
  | subexpression children => exact index_spotsAll children _ _
  | anyOf children => exact index_spotsAlternatives children _ _
  | quantified inner _ => exact index_spots inner _ _
  | _ => rfl

theorem index_spotsAll (nodes later : List Node) (closing : Text) :
    (spotsAll later closing nodes).map Spot.index = Mark.references (marks nodes) := by
  cases nodes with
  | nil => rfl
  | cons node rest =>
      rw [spotsAll, List.map_append, index_spots node, index_spotsAll rest,
        marks_cons node rest, Mark.references_append]

theorem index_spotsAlternatives (nodes : List Node) (members closing : Text) :
    (spotsAlternatives members closing nodes).map Spot.index = Mark.references (marks nodes) := by
  cases nodes with
  | nil => rfl
  | cons node rest =>
      rw [spotsAlternatives, List.map_append, index_spots node, index_spotsAlternatives rest,
        marks_cons node rest, Mark.references_append]

end

end Node

/-! Every spot stands where it says, and its sequence is not followed by a digit. -/

/-- The reference and what follows it end the text; a property holds of all elements that follow. -/
structure Spot.Ends (property : Node → Prop) (text : Text) (spot : Spot) : Prop where
  occurs : (Node.backreference spot.index).render ++ spot.after <:+ text
  apart : spot.closing.startsWithDigit = false
  later : Node.Everywhere property spot.later

theorem Spot.Ends.trans {property : Node → Prop} {text longer : Text} {spot : Spot}
    (ends : spot.Ends property text) (suffix : text <:+ longer) : spot.Ends property longer :=
  ⟨ends.occurs.trans suffix, ends.apart, ends.later⟩

theorem Spot.Ends.of_cons {property : Node → Prop} {c : Char} {text : Text} {spot : Spot}
    (ends : spot.Ends property (c :: text)) (other : c ≠ '\\') : spot.Ends property text := by
  refine ⟨?_, ends.apart, ends.later⟩
  rcases List.suffix_cons_iff.mp ends.occurs with whole | shorter
  · simp only [Node.render, List.cons_append, List.cons.injEq] at whole
    exact absurd whole.1.symm other
  · exact shorter

theorem Quantifier.suffix_apart (quantifier : Quantifier) (rest : Text) :
    Text.startsWithDigit (quantifier.suffix ++ rest) = false := by
  cases quantifier <;> rfl

namespace Node

theorem behindAlternative_apart (members : Text) (others : List Node) (rest : Text) :
    Text.startsWithDigit (behindAlternative members others ++ rest) = false := by
  unfold behindAlternative
  cases renderAlternatives others ++ if members = [] then [] else [bracket members] <;> rfl

theorem behindAlternative_member {node : Node} (member : node.member?.isSome = true)
    (members : Text) (others : List Node) :
    behindAlternative members (node :: others) = behindAlternative members others := by
  simp [behindAlternative, renderAlternatives, member]

theorem behindAlternative_cons {node : Node} (outside : ¬node.member?.isSome = true)
    (members : Text) (others : List Node) :
    behindAlternative members (node :: others) =
      '|' :: (node.render ++ behindAlternative members others) := by
  simp [behindAlternative, renderAlternatives, outside]

theorem spots_of_member {node : Node} (member : node.member?.isSome = true) (later : List Node)
    (closing : Text) : spots later closing node = [] := by
  cases node <;> first | rfl | contradiction

theorem behindAlternative_eq (members : Text) {children : List Node}
    (several : renderAlternatives children ≠ []) :
    ∃ body, alternation members (renderAlternatives children) = '(' :: '?' :: ':' :: body ∧
      behindAlternative members children = '|' :: body := by
  unfold behindAlternative alternation
  cases alternatives : renderAlternatives children with
  | nil => contradiction
  | cons first others =>
      by_cases none : members = []
      · exact ⟨_, rfl, by simp [none, Text.intercalate_eq_flatMap]⟩
      · exact ⟨_, rfl, by simp [none, Text.intercalate_eq_flatMap]⟩

theorem spotsAlternatives_of_members {nodes : List Node} (none : renderAlternatives nodes = [])
    (members closing : Text) : spotsAlternatives members closing nodes = [] := by
  induction nodes with
  | nil => rfl
  | cons node rest ih =>
      by_cases member : node.member?.isSome = true
      · rw [renderAlternatives, if_pos member] at none
        rw [spotsAlternatives, spots_of_member member, ih none, List.append_nil]
      · simp [renderAlternatives, member] at none

section Ends

variable {property : Node → Prop}

mutual

theorem ends_spots (node : Node) (holds : Everywhere property [node]) {later : List Node}
    {closing : Text} (behind : Everywhere property later)
    (apart : closing.startsWithDigit = false) :
    ∀ spot ∈ spots later closing node,
      spot.Ends property (node.render ++ (renderAll later ++ closing)) := by
  obtain ⟨-, inside⟩ := everywhere_singleton.mp holds
  intro spot listed
  cases node with
  | backreference index =>
      obtain rfl := List.mem_singleton.mp listed
      exact ⟨List.suffix_refl _, apart, behind⟩
  | group capturing children =>
      have ends := ends_spotsAll children inside (everywhere_nil _) rfl spot listed
      cases capturing with
      | true => exact ends.trans ⟨['('], by simp [render, enclose]⟩
      | false => exact ends.trans ⟨['(', '?', ':'], by simp [render, enclose]⟩
  | namedGroup name children =>
      have ends := ends_spotsAll children inside (everywhere_nil _) rfl spot listed
      exact ends.trans ⟨['(', '?', '<'] ++ name ++ ['>'], by simp [render, enclose]⟩
  | lookaround kind children =>
      have ends := ends_spotsAll children inside (everywhere_nil _) rfl spot listed
      exact ends.trans ⟨kind.opener, by simp [render, enclose]⟩
  | subexpression children => exact ends_spotsAll children inside behind apart spot listed
  | anyOf children =>
      have ends := ends_spotsAlternatives children inside spot listed
      by_cases none : renderAlternatives children = []
      · rw [spots, spotsAlternatives_of_members none] at listed
        contradiction
      · obtain ⟨body, spelled, barred⟩ := behindAlternative_eq (memberText children) none
        rw [barred] at ends
        refine (ends.of_cons (by decide)).trans ⟨['(', '?', ':'], ?_⟩
        simp [render, spelled]
  | quantified inner quantifier =>
      by_cases grouped : inner.needsGroup = true
      · have ends := ends_spots inner inside (everywhere_nil _) rfl spot
          (by simpa [spots, grouped] using listed)
        exact ends.trans ⟨['(', '?', ':'], by simp [render, enclose, grouped]⟩
      · have ends := ends_spots inner inside (everywhere_nil _)
          (quantifier.suffix_apart (renderAll later ++ closing)) spot
          (by simpa [spots, grouped] using listed)
        simpa [render, grouped] using ends
  | _ => contradiction

theorem ends_spotsAll (nodes : List Node) (holds : Everywhere property nodes) {later : List Node}
    {closing : Text} (behind : Everywhere property later)
    (apart : closing.startsWithDigit = false) :
    ∀ spot ∈ spotsAll later closing nodes,
      spot.Ends property (renderAll nodes ++ (renderAll later ++ closing)) := by
  intro spot listed
  cases nodes with
  | nil => contradiction
  | cons node rest =>
      obtain ⟨alone, others⟩ := everywhere_cons.mp holds
      rcases List.mem_append.mp listed with here | there
      · have ends := ends_spots node alone (everywhere_append.mpr ⟨others, behind⟩) apart spot here
        simpa using ends
      · exact (ends_spotsAll rest others behind apart spot there).trans ⟨node.render, by simp⟩

theorem ends_spotsAlternatives (nodes : List Node) (holds : Everywhere property nodes)
    {members closing : Text} :
    ∀ spot ∈ spotsAlternatives members closing nodes,
      spot.Ends property (behindAlternative members nodes ++ closing) := by
  intro spot listed
  cases nodes with
  | nil => contradiction
  | cons node rest =>
      obtain ⟨alone, others⟩ := everywhere_cons.mp holds
      by_cases member : node.member?.isSome = true
      · rw [spotsAlternatives, spots_of_member member] at listed
        rw [behindAlternative_member member]
        exact ends_spotsAlternatives rest others spot listed
      · rw [behindAlternative_cons member]
        rcases List.mem_append.mp listed with here | there
        · have ends := ends_spots node alone (everywhere_nil _)
            (behindAlternative_apart members rest closing) spot here
          exact ends.trans ⟨['|'], by simp⟩
        · exact (ends_spotsAlternatives rest others spot there).trans
            ⟨'|' :: node.render, by simp⟩

end

end Ends

/-! What comes next in a sequence starts with a digit only as a literal does. -/

/-- A literal with a digit in front, or a repetition of one without a group around it. -/
def leadsWithDigit : Node → Bool
  | char literal | string literal => literal.raw.startsWithDigit
  | quantified inner _ => !inner.needsGroup && leadsWithDigit inner
  | _ => false

/-- The spelling of elements starts as that of the first one which is left when merged elements
dissolve. -/
structure Heads (text : Text) (pieces : List Node) : Prop where
  empty : text = [] ↔ pieces = []
  digit : text.startsWithDigit = pieces.head?.any leadsWithDigit

theorem Heads.append {front back : Text} {first second : List Node} (one : Heads front first)
    (other : Heads back second) : Heads (front ++ back) (first ++ second) := by
  refine ⟨by simp [one.empty, other.empty], ?_⟩
  cases first with
  | nil =>
      rw [one.empty.mpr rfl]
      exact other.digit
  | cons piece pieces =>
      have filled : front ≠ [] := by simp [one.empty]
      rw [startsWithDigit_append filled, one.digit]
      rfl

theorem heads_of_filled {node : Node} {text : Text} (filled : text ≠ [])
    (digit : text.startsWithDigit = node.leadsWithDigit) : Heads text [node] :=
  ⟨by simp [filled], by simpa using digit⟩

theorem heads_literal {node : Node} {literal : Literal} (filled : literal.raw ≠ [])
    (same : node.leadsWithDigit = literal.raw.startsWithDigit) : Heads literal.escaped [node] := by
  obtain ⟨spelled, digit⟩ := startsWithDigit_escape filled
  exact heads_of_filled spelled (digit.trans same.symm)

theorem heads_plain {node : Node} {c : Char} {rest : Text} (plain : c.isDigit = false)
    (same : node.leadsWithDigit = false) : Heads (c :: rest) [node] :=
  heads_of_filled (by simp) (plain.trans same.symm)

mutual

theorem heads_render (node : Node) (constructed : Everywhere Constructed [node]) :
    Heads node.render node.inlined := by
  obtain ⟨here, inside⟩ := everywhere_singleton.mp constructed
  cases node with
  | noop => exact ⟨by simp [render, inlined], rfl⟩
  | anchor a => cases a <;> exact heads_plain rfl rfl
  | charClass kind => cases kind <;> exact heads_plain rfl rfl
  | char literal =>
      obtain ⟨c, rfl⟩ := here
      exact heads_literal (by simp [Literal.ofChar]) rfl
  | string literal => exact heads_literal here rfl
  | group capturing children => cases capturing <;> exact heads_plain rfl rfl
  | lookaround kind children => cases kind <;> exact heads_plain rfl rfl
  | anyOf children =>
      rw [render]
      cases renderAlternatives children <;> exact heads_plain rfl rfl
  | subexpression children => exact heads_renderAll children inside
  | quantified inner quantifier =>
      rw [render]
      by_cases grouped : inner.needsGroup = true
      · rw [if_pos grouped]
        exact heads_plain rfl (by simp [leadsWithDigit, grouped])
      · have heads := heads_render inner inside
        have stays : inner.inlined = [inner] := by
          rcases inlined_cases inner with rfl | ⟨children, rfl⟩ | ⟨whole, -⟩
          · exact absurd here.2 (by simp [takesQuantifier])
          · exact absurd rfl grouped
          · exact whole
        rw [stays] at heads
        have filled : inner.render ≠ [] := by simp [heads.empty]
        rw [if_neg grouped]
        refine heads_of_filled (by simp [filled]) ?_
        rw [startsWithDigit_append filled, heads.digit]
        simp [leadsWithDigit, grouped]
  | _ => exact heads_plain rfl rfl

theorem heads_renderAll (nodes : List Node) (constructed : Everywhere Constructed nodes) :
    Heads (renderAll nodes) (inlinedAll nodes) := by
  cases nodes with
  | nil => exact ⟨by simp [inlinedAll], rfl⟩
  | cons node rest =>
      obtain ⟨alone, others⟩ := everywhere_cons.mp constructed
      exact (heads_render node alone).append (heads_renderAll rest others)

end

end Node

/-! Reading the number. -/

theorem le_ofDigitChars (digits : Text) (init : Nat) : init ≤ Nat.ofDigitChars 10 digits init := by
  induction digits generalizing init with
  | nil => exact Nat.le_refl init
  | cons c rest ih =>
      rw [Nat.ofDigitChars_cons]
      exact Nat.le_trans (by omega) (ih (10 * init + (c.toNat - '0'.toNat)))

namespace Spot

theorem read_eq (spot : Spot) :
    spot.read = Nat.ofDigitChars 10 (spot.after.takeWhile Char.isDigit) spot.index := by
  have digits : ∀ c ∈ Nat.toDigits 10 spot.index, c.isDigit = true :=
    fun _ => Nat.isDigit_of_mem_toDigits (by decide) (by decide)
  rw [read, List.takeWhile_append_of_pos digits, Nat.ofDigitChars_append,
    Nat.ofDigitChars_ten_toDigits]

theorem read_eq_index_iff {spot : Spot} (positive : 1 ≤ spot.index) :
    spot.read = spot.index ↔ spot.after.startsWithDigit = false := by
  rw [read_eq]
  cases spot.after with
  | nil => simp [Text.startsWithDigit]
  | cons c rest =>
      by_cases digit : c.isDigit = true
      · have more := le_ofDigitChars (rest.takeWhile Char.isDigit)
          (10 * spot.index + (c.toNat - '0'.toNat))
        simp only [List.takeWhile_cons_of_pos digit, Nat.ofDigitChars_cons, Text.startsWithDigit,
          List.head?_cons, Option.any_some, digit, Bool.true_eq_false, iff_false]
        omega
      · simp [Text.startsWithDigit, digit]

theorem startsWithDigit_after {text : Text} {spot : Spot}
    (ends : spot.Ends Node.Constructed text) :
    spot.after.startsWithDigit = true ↔
      ∃ node rest, Node.inlinedAll spot.later = node :: rest ∧ node.leadsWithDigit = true := by
  have heads := Node.heads_renderAll spot.later ends.later
  rw [after]
  cases pieces : Node.inlinedAll spot.later with
  | nil => simp [heads.empty.mpr pieces, ends.apart]
  | cons node rest =>
      have filled : Node.renderAll spot.later ≠ [] := by simp [heads.empty, pieces]
      rw [startsWithDigit_append filled, heads.digit, pieces]
      simp

end Spot

/-- The references of an expression, in document order, each with what follows it in the pattern.
Its number is read as it was written unless the next element of its sequence is a literal that
starts with a digit. -/
theorem references_read_iff (builder : Builder) (reachable : builder.Reachable)
    (closed : builder.isClosed = true) :
    (Node.spotsAll [] [] builder.current.elements).map Spot.index =
        Mark.references (Node.marks builder.current.elements) ∧
      ∀ spot ∈ Node.spotsAll [] [] builder.current.elements,
        (Node.backreference spot.index).render ++ spot.after <:+
            Node.renderAll builder.current.elements ∧
          (spot.after.startsWithDigit = true ↔
            ∃ node rest, Node.inlinedAll spot.later = node :: rest ∧
              node.leadsWithDigit = true) ∧
          (spot.read = spot.index ↔ spot.after.startsWithDigit = false) := by
  have indexes := Node.index_spotsAll builder.current.elements [] []
  have constructed := (Builder.Reachable.holds Node.constructed_arises Node.constructed_merges
    reachable).current.elements
  refine ⟨indexes, ?_⟩
  intro spot listed
  have ends := Node.ends_spotsAll builder.current.elements constructed (Node.everywhere_nil _) rfl
    spot listed
  have positive : 1 ≤ spot.index := by
    have known : spot.index ∈ Mark.references (Node.marks builder.current.elements) := by
      rw [← indexes]
      exact List.mem_map_of_mem listed
    rw [← Builder.marks_of_closed reachable closed] at known
    exact Mark.one_le_of_mem_references (Builder.links_of_reachable reachable).resolves known
  exact ⟨by simpa using ends.occurs, Spot.startsWithDigit_after ends,
    Spot.read_eq_index_iff positive⟩

theorem references_read_iff_repeated :
    ∃ builder : Builder, builder.Reachable ∧ builder.isClosed = true ∧
      builder.render = .ok "/(a)\\1*0(?:\\1|bc)/".toList ∧
      (Node.spotsAll [] [] builder.current.elements).map Spot.index = [1, 1] ∧
      ∀ spot ∈ Node.spotsAll [] [] builder.current.elements, spot.read = spot.index := by
  have opened := Builder.Reachable.call .capture .new rfl
  have filled := Builder.Reachable.call (.char ['a']) opened rfl
  have captured := Builder.Reachable.call .close filled rfl
  have waiting := Builder.Reachable.quantify .zeroOrMore captured rfl
  have repeated := Builder.Reachable.call (.backreference 1) waiting rfl
  have digit := Builder.Reachable.call (.char ['0']) repeated rfl
  have alternatives := Builder.Reachable.call .anyOf digit rfl
  have referring := Builder.Reachable.call (.backreference 1) alternatives rfl
  have other := Builder.Reachable.call (.string ['b', 'c']) referring rfl
  have reachable := Builder.Reachable.call .close other rfl
  obtain ⟨indexes, spots⟩ := references_read_iff _ reachable rfl
  refine ⟨_, reachable, rfl, by decide, indexes, ?_⟩
  intro spot listed
  refine (spots spot listed).2.2.mpr ?_
  revert spot
  decide

/-- A digit behind a reference, pushed as a character of its own, turns the number into another. -/
theorem reference_before_digit :
    ∃ (builder : Builder) (spot : Spot), builder.Reachable ∧ builder.isClosed = true ∧
      builder.render = .ok "/(a)\\10/".toList ∧
      spot ∈ Node.spotsAll [] [] builder.current.elements ∧
      spot.index = 1 ∧ spot.after = ['0'] ∧ spot.read = 10 := by
  have opened := Builder.Reachable.call .capture .new rfl
  have filled := Builder.Reachable.call (.char ['a']) opened rfl
  have captured := Builder.Reachable.call .close filled rfl
  have referring := Builder.Reachable.call (.backreference 1) captured rfl
  have reachable := Builder.Reachable.call (.char ['0']) referring rfl
  exact ⟨_, ⟨1, [.char ⟨['0']⟩], []⟩, reachable, rfl, rfl, .head _, rfl, rfl, by decide⟩

end RegexForge
