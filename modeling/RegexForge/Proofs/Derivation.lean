import Mathlib.Data.List.SplitBy
import RegexForge.Proofs.Grammar

/-!
The grammar of patterns as a reader of the language would write it down: a sequence is made of
items, an item is an anchor, a lookaround, or an atom that may be repeated, and an atom is a
character, a class, a set or a group. A derivation has a node for each item, and so a node for each
character. What a reading returns is that tree with each maximal run of characters as one node. The
main statement is that a pattern is read exactly when its scan comes to the end and its tokens have
a derivation, and that nothing else about the pattern matters.
-/

namespace RegexForge.Grammar

open Parse Node

mutual

inductive Atom : List Token → Node → Prop where
  | literal (c : Char) : Atom [.literal c] (.char (.ofChar c))
  | charClass (kind : CharClass) : Atom [.charClass kind] (.charClass kind)
  | any : Atom [.any] (.charClass .anyChar)
  | bracketSet {body : List Token} {set : BracketSet} (members : Members body set.members)
      (expressible : Expressible set) :
      Atom (.openSet set.negated :: body ++ [.closeSet]) (.bracketSet set)
  | capture {body : List Token} {children : List Node} (inside : Sequence body children) :
      Atom (.openGroup .capture :: body ++ [.closeGroup]) (.group true children)
  | plain {body : List Token} {children : List Node} (inside : Sequence body children) :
      Atom (.openGroup .plain :: body ++ [.closeGroup]) (.group false children)

inductive Item : List Token → Node → Prop where
  | caret : Item [.caret] (.anchor .start)
  | dollar : Item [.dollar] (.anchor .stop)
  | lookaround (kind : Lookaround) {body : List Token} {children : List Node}
      (inside : Sequence body children) :
      Item (.openGroup (.lookaround kind) :: body ++ [.closeGroup]) (.lookaround kind children)
  | once {tokens : List Token} {node : Node} (atom : Atom tokens node) : Item tokens node
  | repeated {tokens : List Token} {node : Node} {bounds : Bounds} {quantifier : Quantifier}
      (atom : Atom tokens node) (read : Quantifier.ofBounds? bounds = some quantifier) :
      Item (tokens ++ [.repetition bounds]) (.quantified node quantifier)

inductive Sequence : List Token → List Node → Prop where
  | nil : Sequence [] []
  | cons {tokens rest : List Token} {node : Node} {nodes : List Node} (item : Item tokens node)
      (later : Sequence rest nodes) : Sequence (tokens ++ rest) (node :: nodes)

end

/-! Runs of characters. -/

def isLiteral : Node → Bool
  | .char _ => true
  | _ => false

def rawText : Node → Text
  | .char literal => literal.raw
  | _ => []

/-- A run as one node: a node that stands alone stays as it is. -/
def ofRun : List Node → Node
  | [node] => node
  | run => .string ⟨run.flatMap rawText⟩

def joinRuns (nodes : List Node) : List Node :=
  (nodes.splitBy fun first second => isLiteral first && isLiteral second).map ofRun

mutual

def merged : Node → Node
  | .group capturing children => .group capturing (joinRuns (mergedEach children))
  | .lookaround kind children => .lookaround kind (joinRuns (mergedEach children))
  | .quantified inner quantifier => .quantified (merged inner) quantifier
  | node => node

def mergedEach : List Node → List Node
  | [] => []
  | node :: rest => merged node :: mergedEach rest

end

def mergedAll (nodes : List Node) : List Node :=
  joinRuns (mergedEach nodes)

/-! Merging runs is joining each node with what is merged behind it. -/

theorem joinRuns_cons {node : Node} {nodes : List Node}
    (apart : ∀ next ∈ nodes.head?, (isLiteral node && isLiteral next) = false) :
    joinRuns (node :: nodes) = node :: joinRuns nodes := by
  have split := List.splitBy_append
    (r := fun first second => isLiteral first && isLiteral second) (l := [node]) (m := nodes)
    (by simpa using apart)
  rw [joinRuns, ← List.singleton_append, split]
  rfl

theorem splitBy_cons_of_related {α : Type} {r : α → α → Bool} {first second : α}
    {rest run : List α} {runs : List (List α)} (related : r first second = true)
    (split : (second :: rest).splitBy r = (second :: run) :: runs) :
    (first :: second :: rest).splitBy r = (first :: second :: run) :: runs := by
  obtain ⟨whole, filled, chained, apart⟩ := List.splitBy_eq_iff.mp split
  obtain ⟨runChained, othersChained⟩ := List.forall_mem_cons.mp chained
  obtain ⟨next, later⟩ := List.isChain_cons.mp apart
  refine List.splitBy_eq_iff.mpr ⟨?_, ?_, ?_, ?_⟩
  · rw [whole]
    rfl
  · simpa using filled
  · exact List.forall_mem_cons.mpr
      ⟨List.isChain_cons_cons.mpr ⟨related, runChained⟩, othersChained⟩
  · refine List.isChain_cons.mpr ⟨?_, later⟩
    intro following member
    obtain ⟨_, filled, ends⟩ := next following member
    exact ⟨by simp, filled, by simpa using ends⟩

theorem joinRuns_char (first second : Literal) (rest : List Node) :
    joinRuns (.char first :: .char second :: rest) =
      join (.char first) (joinRuns (.char second :: rest)) := by
  have split : ∃ run runs, (Node.char second :: rest).splitBy
      (fun first second => isLiteral first && isLiteral second) =
        (.char second :: run) :: runs := by
    have filled : (Node.char second :: rest).splitBy
        (fun first second => isLiteral first && isLiteral second) ≠ [] := by simp
    obtain ⟨front, runs, split⟩ := List.exists_cons_of_ne_nil filled
    obtain ⟨whole, nonempty, -, -⟩ := List.splitBy_eq_iff.mp split
    cases front with
    | nil => simp at nonempty
    | cons head run =>
        obtain ⟨rfl, -⟩ := List.cons.inj whole
        exact ⟨run, runs, split⟩
  obtain ⟨run, runs, split⟩ := split
  rw [joinRuns, joinRuns, splitBy_cons_of_related rfl split, split]
  cases run with
  | nil => simp [ofRun, join, rawText]
  | cons third run => simp [ofRun, join, rawText]

/-- Joining adds a node to the runs behind it, as long as no string was there before. -/
theorem joinRuns_eq_join (node : Node) (nodes : List Node)
    (bare : ∀ literal, .string literal ∉ nodes) :
    joinRuns (node :: nodes) = join node (joinRuns nodes) := by
  cases nodes with
  | nil => cases node <;> rfl
  | cons next rest =>
      cases node with
      | char first =>
          cases next with
          | char second => exact joinRuns_char first second rest
          | string literal => exact absurd List.mem_cons_self (bare literal)
          | _ =>
              rw [joinRuns_cons (by simp [isLiteral]), joinRuns_cons (by simp [isLiteral])]
              rfl
      | _ => rw [joinRuns_cons (by simp [isLiteral])]; rfl

/-! A derivation is a reading, and a reading comes from a derivation. -/

theorem merged_ne_string {tokens : List Token} {node : Node} (item : Item tokens node)
    (literal : Literal) : merged node ≠ .string literal := by
  cases item with
  | once atom => cases atom <;> simp [merged]
  | _ => simp [merged]

theorem string_notMem_mergedEach {tokens : List Token} {tree : List Node} (literal : Literal) :
    Sequence tokens tree → .string literal ∉ mergedEach tree
  | .nil => by simp [mergedEach]
  | .cons item later => by
      have own := merged_ne_string item literal
      have bare := string_notMem_mergedEach literal later
      simpa [mergedEach] using ⟨own.symm, bare⟩

theorem mergedAll_cons (node : Node) {tokens : List Token} {tree : List Node}
    (later : Sequence tokens tree) :
    mergedAll (node :: tree) = join (merged node) (mergedAll tree) :=
  joinRuns_eq_join _ _ fun literal => string_notMem_mergedEach literal later

mutual

theorem stands_of_atom {tokens : List Token} {node : Node} :
    Atom tokens node → Stands tokens (merged node) ∧ (merged node).isZeroWidth = false
  | .literal c => ⟨stands_of_leaf (.literal c), rfl⟩
  | .charClass kind => ⟨stands_of_leaf (.charClass kind), rfl⟩
  | .any => ⟨stands_of_leaf .any, rfl⟩
  | .bracketSet members expressible => ⟨stands_of_leaf (.bracketSet members expressible), rfl⟩
  | .capture inside => ⟨stands_of_group .capture (reads_of_sequence inside), rfl⟩
  | .plain inside => ⟨stands_of_group .plain (reads_of_sequence inside), rfl⟩

theorem reads_of_item {tokens : List Token} {node : Node} {rest : List Token} {later : List Node}
    (reads : Reads rest later) :
    Item tokens node → Reads (tokens ++ rest) (join (merged node) later)
  | .caret => .leaf .caret (.once _) reads
  | .dollar => .leaf .dollar (.once _) reads
  | .lookaround kind inside => by
      have stands := stands_of_group (.lookaround kind) (reads_of_sequence inside)
      exact stands.once reads
  | .once atom => (stands_of_atom atom).1.once reads
  | .repeated atom read => by
      obtain ⟨stands, wide⟩ := stands_of_atom atom
      exact stands _ _ _ _ (.times _ wide read) reads

theorem reads_of_sequence {tokens : List Token} {tree : List Node} :
    Sequence tokens tree → Reads tokens (mergedAll tree)
  | .nil => .nil
  | .cons item later => by
      have read := reads_of_item (reads_of_sequence later) item
      rwa [← mergedAll_cons _ later] at read

end

/-- A derivation of what was read as `item`, from which it comes by merging runs. -/
structure Unmerged (tokens : List Token) (node item : Node) : Prop where
  derived : Item tokens node
  atom : item.isZeroWidth = false → Atom tokens node
  same : merged node = item

theorem unmerged_of_leaf {tokens : List Token} {item : Node} (leaf : Leaf tokens item) :
    Unmerged tokens item item := by
  cases leaf with
  | caret => exact ⟨.caret, by simp [isZeroWidth], rfl⟩
  | dollar => exact ⟨.dollar, by simp [isZeroWidth], rfl⟩
  | literal c => exact ⟨.once (.literal c), fun _ => .literal c, rfl⟩
  | charClass kind => exact ⟨.once (.charClass kind), fun _ => .charClass kind, rfl⟩
  | any => exact ⟨.once .any, fun _ => .any, rfl⟩
  | bracketSet members expressible =>
      have atom := Atom.bracketSet members expressible
      exact ⟨.once atom, fun _ => atom, rfl⟩

theorem unmerged_of_group {body : List Token} {tree : List Node} (kind : GroupKind)
    (inside : Sequence body tree) :
    Unmerged (.openGroup kind :: body ++ [.closeGroup]) (groupNode kind tree)
      (groupNode kind (mergedAll tree)) := by
  cases kind with
  | capture => exact ⟨.once (.capture inside), fun _ => .capture inside, rfl⟩
  | plain => exact ⟨.once (.plain inside), fun _ => .plain inside, rfl⟩
  | lookaround kind => exact ⟨.lookaround kind inside, by simp [groupNode, isZeroWidth], rfl⟩

theorem item_of_repeated {tokens suffix : List Token} {node item whole : Node}
    (unmerged : Unmerged tokens node item) (repeated : Repeated suffix item whole) :
    ∃ plain, Item (tokens ++ suffix) plain ∧ merged plain = whole := by
  cases repeated with
  | once => exact ⟨node, by simpa using unmerged.derived, unmerged.same⟩
  | times _ wide read =>
      exact ⟨_, .repeated (unmerged.atom wide) read, by rw [merged, unmerged.same]⟩

theorem sequence_of_reads {tokens : List Token} {nodes : List Node} (reads : Reads tokens nodes) :
    ∃ tree, Sequence tokens tree ∧ nodes = mergedAll tree := by
  induction reads with
  | nil => exact ⟨[], .nil, rfl⟩
  | leaf stands repeated reads ih =>
      obtain ⟨tree, derived, rfl⟩ := ih
      obtain ⟨plain, item, rfl⟩ := item_of_repeated (unmerged_of_leaf stands) repeated
      exact ⟨plain :: tree, .cons item derived, (mergedAll_cons _ derived).symm⟩
  | group kind inside repeated reads ihInside ihLater =>
      obtain ⟨children, derivedInside, rfl⟩ := ihInside
      obtain ⟨tree, derived, rfl⟩ := ihLater
      obtain ⟨plain, item, rfl⟩ :=
        item_of_repeated (unmerged_of_group kind derivedInside) repeated
      refine ⟨plain :: tree, ?_, (mergedAll_cons _ derived).symm⟩
      simpa using Sequence.cons item derived

theorem reads_iff_sequence {tokens : List Token} {nodes : List Node} :
    Reads tokens nodes ↔ ∃ tree, Sequence tokens tree ∧ nodes = mergedAll tree := by
  constructor
  · exact sequence_of_reads
  · rintro ⟨tree, derived, rfl⟩
    exact reads_of_sequence derived

end RegexForge.Grammar

namespace RegexForge

open Grammar Outcome

theorem tokens?_eq_ok_iff {pattern : Text} {tokens : List PosToken} :
    tokens? pattern = .ok tokens ↔
      (Cursor.atStart pattern 0).scanAll.ending = none ∧
        (Cursor.atStart pattern 0).scanAll.tokens = tokens := by
  unfold tokens?
  cases ending : (Cursor.atStart pattern 0).scanAll.ending <;> simp [ending]

/-- A pattern is read exactly when its scan comes to the end and its tokens have a derivation. What
is returned is the tree derived, with each maximal run of characters merged, and the number of
capture groups that the tokens open; so patterns with the same tokens are read alike. -/
theorem ofPattern_iff_derivation (pattern : Text) :
    (∀ regex, Regex.ofPattern pattern = .ok regex ↔
      ∃ tokens tree, tokens? pattern = .ok tokens ∧ Grammar.Sequence (kinds tokens) tree ∧
        regex = ⟨mergedAll tree, .empty, opened (kinds tokens)⟩) ∧
    (∀ other tokens others, tokens? pattern = .ok tokens → tokens? other = .ok others →
      kinds tokens = kinds others →
        (Regex.ofPattern pattern).toOption = (Regex.ofPattern other).toOption) := by
  have read : ∀ (pattern : Text) (regex : Regex), Regex.ofPattern pattern = .ok regex ↔
      ∃ tokens tree, tokens? pattern = .ok tokens ∧ Grammar.Sequence (kinds tokens) tree ∧
        regex = ⟨mergedAll tree, .empty, opened (kinds tokens)⟩ := by
    intro pattern regex
    rw [Regex.ofPattern, mapError_eq_ok_iff, regex_eq_ok_iff, reads_iff_sequence]
    simp only [tokens?_eq_ok_iff]
    constructor
    · rintro ⟨ending, ⟨tree, derived, nodes⟩, flags, captures⟩
      refine ⟨_, tree, ⟨ending, rfl⟩, derived, ?_⟩
      rw [← nodes, ← flags, ← captures]
    · rintro ⟨_, tree, ⟨ending, rfl⟩, derived, rfl⟩
      exact ⟨ending, ⟨tree, derived, rfl⟩, rfl, rfl⟩
  refine ⟨read pattern, ?_⟩
  intro other tokens others scanned otherScanned same
  apply Option.ext
  intro regex
  rw [toOption_eq_some_iff, toOption_eq_some_iff, read, read]
  simp only [scanned, otherScanned, Except.ok.injEq, exists_and_left, exists_eq_left', same]

theorem ofPattern_iff_derivation_plus :
    ∃ tokens others, tokens? "abc+".toList = .ok tokens ∧ tokens? "abc{1,}".toList = .ok others ∧
      kinds tokens = kinds others ∧
      (Regex.ofPattern "abc+".toList).toOption = (Regex.ofPattern "abc{1,}".toList).toOption ∧
      Regex.ofPattern "abc+".toList = .ok ⟨[.string ⟨"ab".toList⟩,
        .quantified (.char (.ofChar 'c')) .oneOrMore], .empty, 0⟩ := by
  have scanned : tokens? "abc+".toList = .ok [⟨0, .literal 'a'⟩, ⟨1, .literal 'b'⟩,
      ⟨2, .literal 'c'⟩, ⟨3, .repetition ⟨1, none, false⟩⟩] := by decide +kernel
  have otherScanned : tokens? "abc{1,}".toList = .ok [⟨0, .literal 'a'⟩, ⟨1, .literal 'b'⟩,
      ⟨2, .literal 'c'⟩, ⟨3, .repetition ⟨1, none, false⟩⟩] := by decide +kernel
  have derived : Grammar.Sequence
      [.literal 'a', .literal 'b', .literal 'c', .repetition ⟨1, none, false⟩]
      [.char (.ofChar 'a'), .char (.ofChar 'b'),
        .quantified (.char (.ofChar 'c')) .oneOrMore] :=
    .cons (.once (.literal 'a')) (.cons (.once (.literal 'b'))
      (.cons (.repeated (.literal 'c') rfl) .nil))
  rcases ofPattern_iff_derivation "abc+".toList with ⟨read, alike⟩
  exact ⟨_, _, scanned, otherScanned, rfl, alike _ _ _ scanned otherScanned rfl,
    (read _).mpr ⟨_, _, scanned, derived, rfl⟩⟩

end RegexForge
