import RegexForge.Proofs.ReadBack
import RegexForge.Proofs.Spelling

/-!
Reading what was rendered. The tree that is read from a rendered pattern need not be the tree that
was rendered: a raw line feed in a text comes back as the class of line feeds, which ends the string
it stood in. `Alike` says what is kept: the spelling, the sets and the marks. By induction over the
tree its tokens read as an alike tree, and so reading and rendering settle after one step, for
every tree whose spelling is faithful.
-/

namespace RegexForge

open Grammar Parse Outcome

namespace Node

def set? : Node → Option BracketSet
  | bracketSet set => some set
  | _ => none

def sets (nodes : List Node) : List BracketSet :=
  (preorderAll nodes).filterMap set?

theorem sets_append (first second : List Node) : sets (first ++ second) = sets first ++ sets second := by
  simp only [sets, preorderAll_append, List.filterMap_append]

theorem sets_singleton (node : Node) : sets [node] = node.set?.toList ++ sets node.children := by
  simp only [sets, preorderAll, List.append_nil, preorder_eq, List.filterMap_cons]
  cases node.set? <;> rfl

/-- The trees are spelled alike, and have the same sets and the same marks. -/
structure Alike (first second : List Node) : Prop where
  render : renderAll second = renderAll first
  sets : sets second = sets first
  marks : marks second = marks first

namespace Alike

variable {first second third fourth : List Node}

theorem refl (nodes : List Node) : Alike nodes nodes :=
  ⟨rfl, rfl, rfl⟩

theorem trans (one : Alike first second) (other : Alike second third) : Alike first third :=
  ⟨other.render.trans one.render, other.sets.trans one.sets, other.marks.trans one.marks⟩

theorem append (one : Alike first second) (other : Alike third fourth) :
    Alike (first ++ third) (second ++ fourth) := by
  refine ⟨?_, ?_, ?_⟩
  · rw [renderAll_append, renderAll_append, one.render, other.render]
  · rw [sets_append, sets_append, one.sets, other.sets]
  · rw [marks_append, marks_append, one.marks, other.marks]

theorem wrap {one other : Node} (children : Alike one.children other.children)
    (render : other.render = one.render) (sets : other.set? = one.set?)
    (marks : other.mark? = one.mark?) : Alike [one] [other] := by
  refine ⟨?_, ?_, ?_⟩
  · simp [render]
  · rw [sets_singleton, sets_singleton, sets, children.sets]
  · rw [marks_singleton, marks_singleton, marks, children.marks]

theorem join (node : Node) (nodes : List Node) : Alike (node :: nodes) (join node nodes) := by
  refine ⟨?_, ?_, (marks_join node nodes).trans (marks_cons node nodes).symm⟩
  · unfold Parse.join
    split
    · simp [Node.render, Literal.escaped, escape]
    · simp [Node.render, Literal.escaped, escape]
    · rfl
  · unfold Parse.join
    split
    · rfl
    · rfl
    · rfl

end Alike

/-- The tokens stand for an item that is like the node, and takes a quantifier where the node does. -/
def Recovers (node : Node) : Prop :=
  ∃ item, Stands node.tokens item ∧ Alike [node] [item] ∧ (node.isAtom = true → item.isAtom = true)

theorem recovers_charClass (kind : CharClass) : Recovers (.charClass kind) := by
  refine ⟨.charClass kind, stands_of_leaf ?_, .refl _, fun _ => rfl⟩
  cases kind with
  | anyChar => exact .any
  | _ => exact .charClass _

/-- What a character of a literal is read as, outside a set. The line controls come back as
classes. -/
def charNode (c : Char) : Node :=
  if c = '\n' then .charClass .newline
  else if c = '\r' then .charClass .carriageReturn
  else if c = '\t' then .charClass .tab
  else .char (.ofChar c)

theorem leaf_charNode (c : Char) : Leaf [charToken c] (charNode c) := by
  unfold charToken charNode
  split
  · exact .charClass .newline
  split
  · exact .charClass .carriageReturn
  split
  · exact .charClass .tab
  · exact .literal c

theorem isAtom_charNode (c : Char) : (charNode c).isAtom = true := by
  unfold charNode
  split
  · rfl
  split
  · rfl
  split <;> rfl

theorem alike_charNode (c : Char) : Alike [.char (.ofChar c)] [charNode c] := by
  unfold charNode
  split
  · next feed =>
      subst feed
      exact ⟨rfl, rfl, rfl⟩
  split
  · next carriage =>
      subst carriage
      exact ⟨rfl, rfl, rfl⟩
  split
  · next tab =>
      subst tab
      exact ⟨rfl, rfl, rfl⟩
  · exact .refl _

theorem recovers_char (c : Char) : Recovers (.char (.ofChar c)) :=
  ⟨charNode c, stands_of_leaf (leaf_charNode c), alike_charNode c, fun _ => isAtom_charNode c⟩

theorem members_tokens (members : List SetMember)
    (ordered : ∀ low high, .range low high ∈ members → low < high)
    (apart : ∀ before c high after, members ≠ before ++ .char c :: .range '-' high :: after) :
    Members (members.flatMap SetMember.tokens) members := by
  induction members with
  | nil => exact .nil
  | cons member members ih =>
      have later := ih (fun low high listed => ordered low high (.tail _ listed)) (by
        intro before c high after split
        exact apart (member :: before) c high after (by simp [split]))
      cases member with
      | char c =>
          have single : (members.flatMap SetMember.tokens).head? ≠ some .minus := by
            cases members with
            | nil => simp
            | cons next others =>
                cases next with
                | char d => simp [SetMember.tokens]
                | range low high =>
                    have other : low ≠ '-' := by
                      rintro rfl
                      exact apart [] c high others rfl
                    simp [SetMember.tokens, SetMember.boundToken, other]
          exact .char rfl single later
      | range low high =>
          exact .range (SetMember.setChar?_boundToken low) (SetMember.setChar?_boundToken high)
            (ordered low high (.head _)) later

theorem stands_bracketSet {set : BracketSet} (buildable : set.Buildable)
    (faithful : set.Faithful) : Stands set.tokens (.bracketSet set) := by
  obtain ⟨filled, ordered, expressible⟩ := buildable
  exact stands_of_leaf (.bracketSet (members_tokens set.members ordered faithful.minus)
    ⟨filled, expressible⟩)

theorem recovers_bracketSet {set : BracketSet} (buildable : set.Buildable)
    (faithful : set.Faithful) : Recovers (.bracketSet set) :=
  ⟨_, stands_bracketSet buildable faithful, .refl _, fun _ => rfl⟩

theorem recovers_anchor (a : Anchor) : Recovers (.anchor a) := by
  cases a with
  | start => exact ⟨_, stands_of_leaf .caret, .refl _, id⟩
  | stop => exact ⟨_, stands_of_leaf .dollar, .refl _, id⟩

theorem ofBounds?_bounds {bounds : Bounds} {quantifier : Quantifier}
    (read : Quantifier.ofBounds? bounds = some quantifier) :
    Quantifier.ofBounds? quantifier.bounds = some quantifier := by
  unfold Quantifier.ofBounds? at read
  grind [Quantifier.ofBounds?, Quantifier.bounds, Quantifier.min, Quantifier.max,
    Quantifier.isLazy]

/-- What a text is read as in front of other nodes: one string, or several with the line controls
between them. -/
def textNodes (text : Text) (later : List Node) : List Node :=
  text.foldr (fun c nodes => Parse.join (charNode c) nodes) later

theorem reads_textNodes (text : Text) {rest : List Token} {later : List Node}
    (reads : Reads rest later) : Reads (text.map charToken ++ rest) (textNodes text later) := by
  induction text with
  | nil => exact reads
  | cons c text ih => exact (stands_of_leaf (leaf_charNode c)).once ih

theorem alike_textNodes (text : Text) (later : List Node) :
    Alike (.string ⟨text⟩ :: later) (textNodes text later) := by
  induction text with
  | nil => exact ⟨rfl, rfl, rfl⟩
  | cons c text ih =>
      -- One character at a time: `join` puts those together again that come back as literals.
      have split : Alike (.string ⟨c :: text⟩ :: later)
          ([.char (.ofChar c)] ++ .string ⟨text⟩ :: later) := by
        refine ⟨?_, rfl, rfl⟩
        simp [render, Literal.escaped, Literal.ofChar, escape]
      exact split.trans (((alike_charNode c).append ih).trans (.join _ _))

mutual

theorem recovers (node : Node) (rereads : Everywhere Rereads [node])
    (single : node.isAtom = true ∨ node.isZeroWidth = true) : Recovers node := by
  rcases everywhere_singleton.mp rereads with ⟨⟨legible, faithful, -⟩, inside⟩
  cases node with
  | anchor a => exact recovers_anchor a
  | charClass kind => exact recovers_charClass kind
  | char literal =>
      obtain ⟨c, rfl⟩ := legible
      exact recovers_char c
  | bracketSet set => exact recovers_bracketSet legible faithful
  | group capturing children =>
      obtain ⟨copies, reads, alike⟩ := reads_tokensAll children inside
      cases capturing with
      | true => exact ⟨_, stands_of_group .capture reads,
          .wrap alike (by simp [groupNode, render, alike.render]) rfl rfl, fun _ => rfl⟩
      | false => exact ⟨_, stands_of_group .plain reads,
          .wrap alike (by simp [groupNode, render, alike.render]) rfl rfl, fun _ => rfl⟩
  | lookaround kind children =>
      obtain ⟨copies, reads, alike⟩ := reads_tokensAll children inside
      exact ⟨_, stands_of_group (.lookaround kind) reads,
        .wrap alike (by simp [groupNode, render, alike.render]) rfl rfl, id⟩
  | string literal => simp [isAtom, isZeroWidth] at single
  | quantified inner quantifier => simp [isAtom, isZeroWidth] at single
  | _ => exact legible.elim

theorem reads_tokensAll (nodes : List Node) (rereads : Everywhere Rereads nodes) :
    ∃ copies, Reads (tokensAll nodes) copies ∧ Alike nodes copies := by
  cases nodes with
  | nil => exact ⟨[], .nil, .refl []⟩
  | cons node nodes =>
      rcases everywhere_cons.mp rereads with ⟨whole, others⟩
      obtain ⟨later, reads, alike⟩ := reads_tokensAll nodes others
      by_cases single : node.isAtom = true ∨ node.isZeroWidth = true
      · obtain ⟨item, stands, one, -⟩ := recovers node whole single
        refine ⟨Parse.join item later, ?_, (one.append alike).trans (.join item later)⟩
        exact stands.once reads
      · cases node with
        | string literal =>
            have whole := Alike.append (.refl [.string literal]) alike
            exact ⟨_, reads_textNodes literal.raw reads, whole.trans (alike_textNodes _ later)⟩
        | quantified inner quantifier =>
            rcases everywhere_singleton.mp whole with ⟨⟨⟨⟨bounds, read⟩, isAtom⟩, -, -⟩, inside⟩
            obtain ⟨item, stands, one, atom⟩ := recovers inner inside (.inl isAtom)
            -- The quantifier attaches to the item as it did to the node, since both are atoms.
            have itemAtom := atom isAtom
            have wide := isZeroWidth_of_isAtom itemAtom
            have repeated := Repeated.times item wide (ofBounds?_bounds read)
            have spelled : item.render = inner.render := by simpa using one.render
            have quantified : Alike [.quantified inner quantifier] [.quantified item quantifier] :=
              .wrap one (by simp [render, needsGroup_of_isAtom isAtom,
                needsGroup_of_isAtom itemAtom, spelled]) rfl rfl
            refine ⟨Parse.join (.quantified item quantifier) later, ?_,
              (quantified.append alike).trans (.join _ later)⟩
            simpa [tokensAll, tokens] using stands _ _ _ later repeated reads
        | anchor a => simp [isZeroWidth] at single
        | lookaround kind children => simp [isZeroWidth] at single
        | charClass kind => simp [isAtom] at single
        | char literal => simp [isAtom] at single
        | bracketSet set => simp [isAtom] at single
        | group capturing children => simp [isAtom] at single
        | _ => exact (everywhere_singleton.mp whole).1.1.elim

end

end Node

namespace Flags

theorem read_append (list : List Flag) (pos : Nat) (flags : Flags) (distinct : list.Nodup)
    (fresh : ∀ flag ∈ list, flags.contains flag = false) (after : Text) :
    Flags.read pos flags (list.map Flag.toChar ++ after) =
      Flags.read (pos + Text.bytes (list.map Flag.toChar)) (list.foldl Flags.insert flags) after := by
  induction list generalizing pos flags with
  | nil => rfl
  | cons flag rest ih =>
      rcases List.nodup_cons.mp distinct with ⟨new, distinct⟩
      have own := fresh flag (.head _)
      have others : ∀ other ∈ rest, (flags.insert flag).contains other = false := by
        intro other listed
        have apart : other ≠ flag := by
          rintro rfl
          exact new listed
        simp [apart, fresh other (.tail _ listed)]
      simp [Flags.read, Flag.ofChar?_toChar, own, ih _ _ distinct others, Nat.add_assoc]

theorem read_text (pos : Nat) (flags : Flags) : Flags.read pos .empty flags.text = .ok flags := by
  have distinct : flags.toList.Nodup := List.Nodup.sublist List.filter_sublist (by decide)
  have whole := read_append flags.toList pos .empty distinct (by simp) []
  rwa [List.append_nil, ofList_toList] at whole

theorem slash_notMem_text (flags : Flags) : '/' ∉ flags.text := by
  intro member
  obtain ⟨flag, -, same⟩ := List.mem_map.mp member
  cases flag <;> simp [Flag.toChar] at same

end Flags

theorem Enclosed.ofText_of_last {delimiter : Char} {tail : Text} (known : delimiter ∈ delimiters)
    (last : delimiter ∉ tail) (pattern : Text) :
    Enclosed.ofText (delimiter :: pattern ++ delimiter :: tail) =
      (Flags.read (Text.bytes (delimiter :: pattern ++ [delimiter])) .empty tail).map
        (⟨delimiter, pattern, ·⟩) := by
  have place : Text.bytes (delimiter :: (pattern ++ delimiter :: tail)) - Text.bytes tail =
      Text.bytes (delimiter :: pattern ++ [delimiter]) := by
    simp only [Text.bytes_cons, Text.bytes_append, List.cons_append, Text.bytes_nil]
    omega
  rw [List.cons_append]
  unfold Enclosed.ofText
  split
  · contradiction
  · next single => simp at single
  · next first rest _ same =>
      cases same
      simp only [known, if_true, splitLast?_append pattern last, place]
      cases Flags.read (Text.bytes (delimiter :: pattern ++ [delimiter])) .empty tail <;> rfl

theorem Enclosed.ofText_slashed (pattern : Text) (flags : Flags) :
    Enclosed.ofText (slashed pattern flags) = .ok ⟨'/', pattern, flags⟩ := by
  have split := Enclosed.ofText_of_last (by decide) flags.slash_notMem_text pattern
  rwa [Flags.read_text] at split

theorem Parse.regex_of_lexes {pattern : Text} {tokens : List Token} {nodes : List Node}
    (lexes : Lexes false pattern tokens) (reads : Reads tokens nodes) (pos : Nat) (flags : Flags) :
    Parse.regex (Cursor.atStart pattern pos).scanAll flags = .ok ⟨nodes, flags, opened tokens⟩ := by
  rcases Cursor.scanAll_of_lexes lexes (Cursor.atStart pattern pos) rfl rfl with ⟨ending, kept⟩
  rw [regex_eq_ok_iff, kept]
  exact ⟨ending, reads, rfl, rfl⟩

theorem Regex.ofText_slashed {pattern : Text} {flags : Flags} {tokens : List Token}
    {nodes : List Node} (lexes : Lexes false pattern tokens) (reads : Reads tokens nodes) :
    Regex.ofText (slashed pattern flags) = .ok ⟨nodes, flags, opened tokens⟩ := by
  simp only [Regex.ofText, Enclosed.ofText_slashed, mapError_ok, ok_bind]
  change Except.mapError _ (Parse.regex (Cursor.atStart pattern 1).scanAll flags) = _
  rw [Parse.regex_of_lexes lexes reads]
  rfl

theorem Regex.ofPattern_of_lexes {pattern : Text} {tokens : List Token} {nodes : List Node}
    (lexes : Lexes false pattern tokens) (reads : Reads tokens nodes) :
    Regex.ofPattern pattern = .ok ⟨nodes, .empty, opened tokens⟩ := by
  rw [Regex.ofPattern, Parse.regex_of_lexes lexes reads]
  rfl

namespace Regex

/-- The expression is read as one node, from its pattern and from its text. -/
structure ReadsAs (regex : Regex) (node : Node) : Prop where
  pattern : ofPattern (Node.renderAll regex.nodes) = .ok ⟨[node], .empty, 0⟩
  text : ofText regex.render = .ok ⟨[node], .empty, 0⟩

theorem readsAs_of_lexes {element node : Node} {tokens : List Token}
    (lexes : Lexes false element.render tokens) (reads : Reads tokens [node])
    (unmarked : Node.marks [node] = []) : ReadsAs ⟨[element], .empty, 0⟩ node := by
  have none : opened tokens = 0 := by
    rw [Node.opened_of_reads reads, unmarked]
    rfl
  have alone : Node.renderAll [element] = element.render := List.append_nil _
  constructor
  · rw [alone, ofPattern_of_lexes lexes reads, none]
  · rw [Regex.render, alone, ofText_slashed lexes reads, none]

theorem readsAs_of_set {element : Node} {set : BracketSet} (buildable : set.Buildable)
    (faithful : set.Faithful) (spelled : element.render = set.text) :
    ReadsAs ⟨[element], .empty, 0⟩ (.bracketSet set) := by
  have lexes : Lexes false set.text set.tokens := by
    simpa using set.lexes_text faithful buildable.1 .done
  have reads : Reads set.tokens [.bracketSet set] := by
    simpa [Parse.join] using (Node.stands_bracketSet buildable faithful).once .nil
  exact readsAs_of_lexes (spelled ▸ lexes) reads rfl

end Regex

/-- A rendered null byte is not read again: outside a set a backslash before a digit is refused. -/
theorem reread_null_byte :
    ∃ regex, Regex.ofText ['/', '\x00', '/'] = .ok regex ∧
      ∀ again, Regex.ofText regex.render ≠ .ok again := by
  refine ⟨⟨[.char (.ofChar '\x00')], {}, 0⟩, by decide +kernel, ?_⟩
  have refused : Regex.ofText ['/', '\\', '0', '0', '0', '/'] =
      .error (.badText ['/', '\\', '0', '0', '0', '/'] ⟨1, .unsupported .backreference⟩) := by decide +kernel
  intro again accepted
  exact absurd (refused.symm.trans accepted) (by simp)

/-- Rendering what was read and reading it again changes nothing about flags, capture groups, sets
and spelling, if every node is spelled faithfully. -/
theorem reread_of_faithful (text : Text) (regex : Regex) (read : Regex.ofText text = .ok regex)
    (faithful : Node.Everywhere Node.Faithful regex.nodes) :
    ∃ again, Regex.ofText regex.render = .ok again ∧ again.flags = regex.flags ∧
      again.captures = regex.captures ∧ again.render = regex.render ∧
      Node.sets again.nodes = Node.sets regex.nodes := by
  obtain ⟨parts, -, accepted⟩ := bind_eq_ok_iff.mp read
  obtain ⟨ending, reads, -, captures⟩ := regex_eq_ok_iff.mp (mapError_eq_ok_iff.mp accepted)
  have none := Cursor.nullByte_notMem _ ending
  have rereads : Node.Everywhere Node.Rereads regex.nodes := by
    intro node here
    exact ⟨Node.reads_legible reads node here, faithful node here,
      Node.writable_of_reads reads none node here⟩
  obtain ⟨copies, readsAgain, alike⟩ := Node.reads_tokensAll regex.nodes rereads
  have spelled : Lexes false (Node.renderAll regex.nodes) (Node.tokensAll regex.nodes) := by
    simpa using Node.lexes_renderAll regex.nodes rereads (by simp) .done
  refine ⟨_, Regex.ofText_slashed spelled readsAgain, rfl, ?_, ?_, alike.sets⟩
  · rw [captures, Node.opened_of_reads readsAgain, Node.opened_of_reads reads, alike.marks]
  · simp only [Regex.render, alike.render]

theorem reread_of_faithful_minus :
    ∃ regex again, Regex.ofText "/a[+--]/".toList = .ok regex ∧
      Regex.ofText regex.render = .ok again ∧ again.render = "/a[+--]/".toList ∧
      Node.sets again.nodes = [⟨[.range '+' '-'], false⟩] := by
  have parted : Enclosed.ofText "/a[+--]/".toList = .ok ⟨'/', "a[+--]".toList, {}⟩ := by rfl
  have scanned : (Cursor.atStart "a[+--]".toList 1).scanAll =
      ⟨[⟨1, .literal 'a'⟩, ⟨2, .openSet false⟩, ⟨3, .literal '+'⟩, ⟨4, .minus⟩, ⟨5, .minus⟩,
        ⟨6, .closeSet⟩], none⟩ := by decide +kernel
  have read : Regex.ofText "/a[+--]/".toList =
      .ok ⟨[.char (.ofChar 'a'), .bracketSet ⟨[.range '+' '-'], false⟩], {}, 0⟩ := by
    simp only [Regex.ofText, parted, mapError_ok, ok_bind]
    change Except.mapError _ (Parse.regex (Cursor.atStart "a[+--]".toList 1).scanAll _) = _
    rw [scanned]
    rfl
  have set : BracketSet.Faithful ⟨[.range '+' '-'], false⟩ := by
    refine ⟨by simp [SetMember.Faithful], by simp, ?_⟩
    intro before c high after split
    rcases before with _ | ⟨first, before⟩
    · simp at split
    · simp at split
  have faithful : Node.Everywhere Node.Faithful
      [.char (.ofChar 'a'), .bracketSet ⟨[.range '+' '-'], false⟩] := by
    have letter : Node.Faithful (.char (.ofChar 'a')) := by simp [Node.Faithful, Literal.ofChar]
    exact Node.everywhere_cons.mpr ⟨Node.everywhere_singleton.mpr ⟨letter, Node.everywhere_nil _⟩,
      Node.everywhere_singleton.mpr ⟨set, Node.everywhere_nil _⟩⟩
  obtain ⟨again, accepted, -, -, spelled, sets⟩ := reread_of_faithful _ _ read faithful
  exact ⟨_, again, read, accepted, spelled, sets⟩

end RegexForge
