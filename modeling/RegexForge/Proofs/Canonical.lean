import Mathlib.Data.List.Sublists
import RegexForge.Proofs.Anchors
import RegexForge.Proofs.Reread

/-!
Canonical patterns. The grammar here is one of texts, and says which of the many spellings of an
element is the one that rendering writes: counts in plain decimals and without a shorter form,
escapes only where they are due. By induction over its derivations each canonical text is the
spelling of a tree of nodes that read back, so reading and rendering return the text itself, and
lowering and replaying do where the anchors admit it.
-/

namespace RegexForge

open Grammar Outcome Node

namespace Canonical

inductive Suffix : Text → Prop where
  | optional : Suffix ['?']
  | zeroOrMore : Suffix ['*']
  | zeroOrMoreLazy : Suffix ['*', '?']
  | oneOrMore : Suffix ['+']
  | oneOrMoreLazy : Suffix ['+', '?']
  | exactly (count : UInt64) (positive : 1 ≤ count) : Suffix ('{' :: countText count ++ ['}'])
  | atLeast (count : UInt64) (several : 2 ≤ count) : Suffix ('{' :: countText count ++ [',', '}'])
  | between (low high : UInt64) (upwards : low < high) (other : ¬(low = 0 ∧ high = 1)) :
      Suffix ('{' :: countText low ++ ',' :: countText high ++ ['}'])
  | betweenLazy (low high : UInt64) (upwards : low < high) :
      Suffix ('{' :: countText low ++ ',' :: countText high ++ ['}', '?'])

inductive Members : Text → List SetMember → Prop where
  | nil : Members [] []
  | char {rest : Text} {members : List SetMember} (c : Char) (written : c ≠ '\x00')
      (later : Members rest members) : Members (escapeChar c ++ rest) (.char c :: members)
  | range {rest : Text} {members : List SetMember} (low high : Char) (upwards : low < high)
      (lowPlain : isSpecial low = false) (highPlain : isSpecial high = false)
      (later : Members rest members) :
      Members (low :: '-' :: high :: rest) (.range low high :: members)

mutual

/-- What takes a quantifier, how many capture groups it opens, and which anchors are inside. -/
inductive Atom : Text → Nat → List Anchor → Prop where
  | any : Atom ['.'] 0 []
  | charClass (c : Char)
      (listed : c ∈ ['d', 'D', 'w', 'W', 's', 'S', 'b', 'B', 'n', 'r', 't']) :
      Atom ['\\', c] 0 []
  | plain (c : Char) (alone : escapeChar c = [c]) : Atom [c] 0 []
  | escaped (c : Char) (special : escapeChar c = ['\\', c]) : Atom ['\\', c] 0 []
  | capture {text : Text} {captures : Nat} {anchors : List Anchor}
      (inside : Sequence text captures anchors) :
      Atom ('(' :: text ++ [')']) (captures + 1) anchors
  | group {text : Text} {captures : Nat} {anchors : List Anchor}
      (inside : Sequence text captures anchors) :
      Atom ('(' :: '?' :: ':' :: text ++ [')']) captures anchors
  | bracketSet {text : Text} {members : List SetMember} (negated : Bool)
      (spelled : Members text members) (filled : members ≠ [])
      (pure : negated = true → (∃ chars : Text, members = chars.map .char) ∨
        ∃ low high, members = [.range low high]) :
      Atom ('[' :: (if negated then ['^'] else []) ++ text ++ [']']) 0 []

inductive Item : Text → Nat → List Anchor → Prop where
  | start : Item ['^'] 0 [.start]
  | stop : Item ['$'] 0 [.stop]
  | ahead {text : Text} {captures : Nat} {anchors : List Anchor}
      (inside : Sequence text captures anchors) :
      Item ('(' :: '?' :: '=' :: text ++ [')']) captures anchors
  | notAhead {text : Text} {captures : Nat} {anchors : List Anchor}
      (inside : Sequence text captures anchors) :
      Item ('(' :: '?' :: '!' :: text ++ [')']) captures anchors
  | behind {text : Text} {captures : Nat} {anchors : List Anchor}
      (inside : Sequence text captures anchors) :
      Item ('(' :: '?' :: '<' :: '=' :: text ++ [')']) captures anchors
  | notBehind {text : Text} {captures : Nat} {anchors : List Anchor}
      (inside : Sequence text captures anchors) :
      Item ('(' :: '?' :: '<' :: '!' :: text ++ [')']) captures anchors
  | once {text : Text} {captures : Nat} {anchors : List Anchor}
      (atom : Atom text captures anchors) : Item text captures anchors
  | repeated {text suffix : Text} {captures : Nat} {anchors : List Anchor}
      (atom : Atom text captures anchors) (times : Suffix suffix) :
      Item (text ++ suffix) captures anchors

inductive Sequence : Text → Nat → List Anchor → Prop where
  | nil : Sequence [] 0 []
  | cons {text rest : Text} {captures others : Nat} {anchors more : List Anchor}
      (item : Item text captures anchors) (later : Sequence rest others more) :
      Sequence (text ++ rest) (captures + others) (anchors ++ more)

end

/-- The nodes read back and are spelled like this, with this many capture groups and these
anchors. -/
structure Spells (nodes : List Node) (text : Text) (captures : Nat) (anchors : List Anchor) :
    Prop where
  rereads : Everywhere Rereads nodes
  render : renderAll nodes = text
  captures : Mark.captureCount (marks nodes) = captures
  anchors : Mark.anchors (marks nodes) = anchors

theorem spells_nil : Spells [] [] 0 [] :=
  ⟨everywhere_nil _, rfl, rfl, rfl⟩

theorem Spells.append {front back : List Node} {text rest : Text} {captures others : Nat}
    {anchors more : List Anchor} (one : Spells front text captures anchors)
    (other : Spells back rest others more) :
    Spells (front ++ back) (text ++ rest) (captures + others) (anchors ++ more) where
  rereads := everywhere_append.mpr ⟨one.rereads, other.rereads⟩
  render := by rw [renderAll_append, one.render, other.render]
  captures := by rw [marks_append, Mark.captureCount_append, one.captures, other.captures]
  anchors := by rw [marks_append, Mark.anchors_append, one.anchors, other.anchors]

theorem Spells.wrap {nodes : List Node} {inner text : Text} {within captures : Nat}
    {anchors met : List Anchor} (inside : Spells nodes inner within anchors) {node : Node}
    (children : node.children = nodes) (rereads : node.Rereads) (render : node.render = text)
    (counted : Mark.captureCount node.mark?.toList + within = captures)
    (own : Mark.anchors node.mark?.toList ++ anchors = met) :
    Spells [node] text captures met where
  rereads := everywhere_singleton.mpr ⟨rereads, children ▸ inside.rereads⟩
  render := by simp [render]
  captures := by
    rw [marks_singleton, children, Mark.captureCount_append, inside.captures, counted]
  anchors := by rw [marks_singleton, children, Mark.anchors_append, inside.anchors, own]

theorem Spells.group {nodes : List Node} {text : Text} {captures : Nat} {anchors : List Anchor}
    (inside : Spells nodes text captures anchors) (kind : GroupKind) {opener : Text} {own : Nat}
    (render : (Parse.groupNode kind nodes).render = enclose opener (renderAll nodes))
    (counted : Mark.captureCount (Parse.groupNode kind nodes).mark?.toList = own) :
    Spells [Parse.groupNode kind nodes] (enclose opener text) (captures + own) anchors := by
  rw [inside.render] at render
  have children : (Parse.groupNode kind nodes).children = nodes := by cases kind <;> rfl
  have rereads : (Parse.groupNode kind nodes).Rereads := by
    cases kind <;> exact ⟨trivial, trivial, by simp [Parse.groupNode]⟩
  have unanchored : Mark.anchors (Parse.groupNode kind nodes).mark?.toList = [] := by
    cases kind <;> rfl
  exact inside.wrap children rereads render (by rw [counted, Nat.add_comm]) (by simp [unanchored])

theorem exists_quantifier {suffix : Text} (canonical : Suffix suffix) :
    ∃ quantifier, Quantifier.ofBounds? quantifier.bounds = some quantifier ∧
      quantifier.suffix = suffix := by
  cases canonical with
  | optional => exact ⟨.optional, by decide, rfl⟩
  | zeroOrMore => exact ⟨.zeroOrMore, by decide, rfl⟩
  | zeroOrMoreLazy => exact ⟨.zeroOrMoreLazy, by decide, rfl⟩
  | oneOrMore => exact ⟨.oneOrMore, by decide, rfl⟩
  | oneOrMoreLazy => exact ⟨.oneOrMoreLazy, by decide, rfl⟩
  | exactly count positive =>
      refine ⟨.exactly count, ?_, rfl⟩
      have filled : 0 < count := by grind
      simp [Quantifier.bounds, Quantifier.min, Quantifier.max, Quantifier.ofBounds?, filled]
  | atLeast count several =>
      refine ⟨.atLeast count, ?_, by simp [Quantifier.suffix, Quantifier.braced]⟩
      have notZero : count ≠ 0 := by grind
      have notOne : count ≠ 1 := by grind
      simp [Quantifier.bounds, Quantifier.min, Quantifier.max, Quantifier.isLazy,
        Quantifier.ofBounds?, notZero, notOne]
  | between low high upwards other =>
      refine ⟨.between low high, ?_, by simp [Quantifier.suffix, Quantifier.braced]⟩
      simp [Quantifier.bounds, Quantifier.min, Quantifier.max, Quantifier.isLazy,
        Quantifier.ofBounds?, upwards, other]
  | betweenLazy low high upwards =>
      refine ⟨.betweenLazy low high, ?_, by simp [Quantifier.suffix, Quantifier.braced]⟩
      simp [Quantifier.bounds, Quantifier.min, Quantifier.max, Quantifier.isLazy,
        Quantifier.ofBounds?, upwards]

theorem spells_charClass {kind : CharClass} {text : Text} (written : kind ≠ .nullByte)
    (render : kind.symbol = text) : Spells [.charClass kind] text 0 [] :=
  spells_nil.wrap rfl ⟨trivial, trivial, by simpa using written⟩ render rfl rfl

theorem exists_symbol {c : Char}
    (listed : c ∈ ['d', 'D', 'w', 'W', 's', 'S', 'b', 'B', 'n', 'r', 't']) :
    ∃ kind : CharClass, kind ≠ .nullByte ∧ kind.symbol = ['\\', c] := by
  have known : ∃ kind, CharClass.ofEscape? c = some kind ∧ kind ≠ .nullByte := by
    simp only [List.mem_cons, List.not_mem_nil, or_false] at listed
    rcases listed with rfl | rfl | rfl | rfl | rfl | rfl | rfl | rfl | rfl | rfl | rfl <;>
      exact ⟨_, rfl, by simp⟩
  obtain ⟨kind, escaped, written⟩ := known
  exact ⟨kind, written, CharClass.symbol_of_ofEscape? escaped⟩

theorem spells_char {c : Char} {text : Text} (written : c ≠ '\x00') (render : escapeChar c = text) :
    Spells [.char (.ofChar c)] text 0 [] := by
  refine spells_nil.wrap rfl ⟨⟨c, rfl⟩, ?_, by simp⟩ ?_ rfl rfl
  · simpa [Faithful, Literal.ofChar] using written.symm
  · simp [Node.render, Literal.escaped, Literal.ofChar, escape, render]

def Plain : SetMember → Prop
  | .char c => c ≠ '\x00'
  | .range low high => low < high ∧ isSpecial low = false ∧ isSpecial high = false

theorem plain_of_members {text : Text} {members : List SetMember}
    (spelled : Members text members) :
    members.flatMap SetMember.text = text ∧ ∀ member ∈ members, Plain member := by
  induction spelled with
  | nil => exact ⟨rfl, by simp⟩
  | char c written later ih =>
      exact ⟨by simp [SetMember.text, ih.1], List.forall_mem_cons.mpr ⟨written, ih.2⟩⟩
  | range low high upwards lowPlain highPlain later ih =>
      exact ⟨by simp [SetMember.text, ih.1],
        List.forall_mem_cons.mpr ⟨⟨upwards, lowPlain, highPlain⟩, ih.2⟩⟩

theorem ne_of_isSpecial {c special : Char} (plain : isSpecial c = false)
    (meant : isSpecial special = true) : c ≠ special := by
  rintro rfl
  exact absurd (plain.symm.trans meant) (by simp)

theorem faithful_of_plain {set : BracketSet} (plain : ∀ member ∈ set.members, Plain member) :
    set.Faithful := by
  refine ⟨?_, ?_, ?_⟩
  · intro member listed
    cases member with
    | char c => exact plain _ listed
    | range low high =>
        obtain ⟨-, lowPlain, highPlain⟩ := plain _ listed
        exact ⟨ne_of_isSpecial lowPlain (by decide), ne_of_isSpecial lowPlain (by decide),
          ne_of_isSpecial highPlain (by decide), ne_of_isSpecial highPlain (by decide)⟩
  · intro _ high rest same
    have bounds : Plain (.range '^' high) := plain _ (by simp [same])
    exact absurd bounds.2.1 (by decide)
  · intro before c high after same
    have bounds : Plain (.range '-' high) := plain _ (by simp [same])
    exact absurd bounds.2.1 (by decide)

theorem spells_bracketSet {text : Text} {members : List SetMember} {negated : Bool}
    (spelled : Members text members) (filled : members ≠ [])
    (pure : negated = true → (∃ chars : Text, members = chars.map .char) ∨
      ∃ low high, members = [.range low high]) :
    Spells [.bracketSet ⟨members, negated⟩]
      ('[' :: (if negated then ['^'] else []) ++ text ++ [']']) 0 [] := by
  obtain ⟨render, plain⟩ := plain_of_members spelled
  refine spells_nil.wrap rfl ⟨⟨filled, ?_, ?_⟩, faithful_of_plain plain, by simp⟩ ?_ rfl rfl
  · intro low high listed
    exact (plain _ listed).1
  · intro isNegated
    rcases pure isNegated with ⟨chars, rfl⟩ | ⟨low, high, rfl⟩
    · left
      rw [(BracketSet.charsOnly?_eq_some_iff _ chars).mpr rfl]
      simp
    · exact .inr (by simp [BracketSet.singleRange?])
  · simp [Node.render, BracketSet.text, render]

mutual

theorem exists_atom {text : Text} {captures : Nat} {anchors : List Anchor} :
    Atom text captures anchors →
      ∃ node, node.isAtom = true ∧ Spells [node] text captures anchors
  | .any => ⟨.charClass .anyChar, rfl, spells_charClass (by simp) rfl⟩
  | .charClass c listed => by
      obtain ⟨kind, written, symbol⟩ := exists_symbol listed
      exact ⟨.charClass kind, rfl, spells_charClass written symbol⟩
  | .plain c alone => by
      refine ⟨.char (.ofChar c), rfl, spells_char ?_ alone⟩
      rintro rfl
      exact absurd alone (by decide)
  | .escaped c special => by
      refine ⟨.char (.ofChar c), rfl, spells_char ?_ special⟩
      rintro rfl
      exact absurd special (by decide)
  | .capture inside => by
      obtain ⟨nodes, spells⟩ := exists_sequence inside
      exact ⟨.group true nodes, rfl, spells.group .capture rfl rfl⟩
  | .group inside => by
      obtain ⟨nodes, spells⟩ := exists_sequence inside
      exact ⟨.group false nodes, rfl, spells.group .plain rfl rfl⟩
  | .bracketSet negated spelled filled pure =>
      ⟨_, rfl, spells_bracketSet spelled filled pure⟩

theorem exists_item {text : Text} {captures : Nat} {anchors : List Anchor} :
    Item text captures anchors → ∃ node, Spells [node] text captures anchors
  | .start => ⟨.anchor .start, spells_nil.wrap rfl ⟨trivial, trivial, by simp⟩ rfl rfl rfl⟩
  | .stop => ⟨.anchor .stop, spells_nil.wrap rfl ⟨trivial, trivial, by simp⟩ rfl rfl rfl⟩
  | .ahead inside => by
      obtain ⟨nodes, spells⟩ := exists_sequence inside
      exact ⟨.lookaround .ahead nodes, spells.group (.lookaround .ahead) rfl rfl⟩
  | .notAhead inside => by
      obtain ⟨nodes, spells⟩ := exists_sequence inside
      exact ⟨.lookaround .notAhead nodes, spells.group (.lookaround .notAhead) rfl rfl⟩
  | .behind inside => by
      obtain ⟨nodes, spells⟩ := exists_sequence inside
      exact ⟨.lookaround .behind nodes, spells.group (.lookaround .behind) rfl rfl⟩
  | .notBehind inside => by
      obtain ⟨nodes, spells⟩ := exists_sequence inside
      exact ⟨.lookaround .notBehind nodes, spells.group (.lookaround .notBehind) rfl rfl⟩
  | .once atom => by
      obtain ⟨node, -, spells⟩ := exists_atom atom
      exact ⟨node, spells⟩
  | .repeated atom times => by
      obtain ⟨node, isAtom, spells⟩ := exists_atom atom
      obtain ⟨quantifier, read, suffix⟩ := exists_quantifier times
      refine ⟨.quantified node quantifier,
        spells.wrap rfl ⟨⟨⟨_, read⟩, isAtom⟩, trivial, by simp⟩ ?_ (Nat.zero_add _) rfl⟩
      have bare := spells.render
      simp only [renderAll_cons, renderAll_nil, List.append_nil] at bare
      simp [Node.render, needsGroup_of_isAtom isAtom, bare, suffix]

theorem exists_sequence {text : Text} {captures : Nat} {anchors : List Anchor} :
    Sequence text captures anchors → ∃ nodes, Spells nodes text captures anchors
  | .nil => ⟨[], spells_nil⟩
  | .cons item later => by
      obtain ⟨node, one⟩ := exists_item item
      obtain ⟨nodes, other⟩ := exists_sequence later
      exact ⟨[node] ++ nodes, one.append other⟩

end

theorem exists_flags {text : Text} (ordered : text.Sublist "gymius".toList) :
    ∃ flags : Flags, flags.text = text := by
  have known : ∀ text ∈ "gymius".toList.sublists,
      (Flags.ofList (text.filterMap Flag.ofChar?)).text = text := by
    decide
  exact ⟨_, known text (List.mem_sublists.mpr ordered)⟩

end Canonical

/-- A canonical literal is read, and rendering gives it back character for character. The capture
groups are counted by its parentheses, and if its anchors are at most a start and then an end of
input, lowering and replaying give a builder that renders the literal again. -/
theorem ofText_of_canonical (pattern flags : Text) (captures : Nat) (anchors : List Anchor)
    (canonical : Canonical.Sequence pattern captures anchors)
    (ordered : flags.Sublist "gymius".toList) :
    ∃ regex, Regex.ofText ('/' :: pattern ++ '/' :: flags) = .ok regex ∧
      regex.render = '/' :: pattern ++ '/' :: flags ∧ regex.captures = captures ∧
      (anchors.Sublist [.start, .stop] → ∃ script builder, regex.script = .ok script ∧
        script.replay = .ok builder ∧
        builder.render = .ok ('/' :: pattern ++ '/' :: flags)) := by
  obtain ⟨set, rfl⟩ := Canonical.exists_flags ordered
  obtain ⟨nodes, spells⟩ := Canonical.exists_sequence canonical
  obtain ⟨copies, reads, alike⟩ := reads_tokensAll nodes spells.rereads
  have lexes : Lexes false pattern (tokensAll nodes) := by
    simpa [spells.render] using lexes_renderAll nodes spells.rereads (by simp) .done
  have render := alike.render.trans spells.render
  refine ⟨_, Regex.ofText_slashed lexes reads, ?_, ?_, ?_⟩
  · simp only [Regex.render, render]
    rfl
  · rw [opened_of_reads reads, alike.marks, spells.captures]
  · intro fits
    obtain ⟨script, made, outcome⟩ := Regex.replay_of_reads reads set (opened (tokensAll nodes))
    rcases outcome with ⟨-, builder, replayed, -, rendered, -⟩ | ⟨unfit, -⟩
    · rw [render] at rendered
      exact ⟨script, builder, made, replayed, rendered⟩
    · have shape := Mark.mem_wellAnchored_iff.mpr fits
      rw [← spells.anchors, ← alike.marks] at shape
      exact absurd (unfit.symm.trans ((anchorsFit_new_iff _).mpr shape)) (by simp)

theorem ofText_of_canonical_groups :
    ∃ regex script builder, Regex.ofText "/^(\\d{2,3}?[b-d\\-]+)*$/gi".toList = .ok regex ∧
      regex.captures = 1 ∧ regex.script = .ok script ∧ script.replay = .ok builder ∧
      builder.render = .ok "/^(\\d{2,3}?[b-d\\-]+)*$/gi".toList := by
  have digits : Canonical.Item "\\d{2,3}?".toList 0 [] :=
    .repeated (.charClass 'd' (by decide)) (.betweenLazy 2 3 (by decide))
  have set : Canonical.Item "[b-d\\-]+".toList 0 [] :=
    .repeated (.bracketSet false
      (.range 'b' 'd' (by decide) (by decide) (by decide) (.char '-' (by decide) .nil))
      (by simp) (by simp)) .oneOrMore
  have group : Canonical.Item "(\\d{2,3}?[b-d\\-]+)*".toList 1 [] :=
    .repeated (.capture (.cons digits (.cons set .nil))) .zeroOrMore
  have canonical : Canonical.Sequence "^(\\d{2,3}?[b-d\\-]+)*$".toList 1 [.start, .stop] :=
    .cons .start (.cons group (.cons .stop .nil))
  obtain ⟨regex, read, -, captures, lowered⟩ :=
    ofText_of_canonical _ "gi".toList _ _ canonical (by decide)
  obtain ⟨script, builder, made, replayed, rendered⟩ := lowered (List.Sublist.refl _)
  exact ⟨regex, script, builder, read, captures, made, replayed, rendered⟩

end RegexForge
