import RegexForge.Proofs.Canonical
import RegexForge.Proofs.Derivation

/-!
Escapes in both contexts. One table of escapes serves texts and sets, although other characters mean
something inside a set than outside, and a backslash before a letter is not read the same. An
escaped text is scanned as one token for each of its characters, outside a set as inside. So the
calls that take characters and match one of them, none of them, or a text of the same length that
differs from them everywhere, are read back as sets of exactly these characters.
-/

namespace RegexForge

open Grammar Parse Outcome Node

def BracketSet.ofChars (chars : Text) (negated : Bool) : BracketSet :=
  ⟨chars.map .char, negated⟩

/-- What the calls that take a list of characters ask for, as sets. A text to differ from asks for
one set for each of its characters. -/
inductive AsksFor (chars : Text) : Call → Node → Prop where
  | anyOfChars : AsksFor chars (.anyOfChars chars) (.bracketSet (.ofChars chars false))
  | anythingButChars : AsksFor chars (.anythingButChars chars) (.bracketSet (.ofChars chars true))
  | anythingButString : AsksFor chars (.anythingButString chars)
      (.group false (chars.map fun c => .bracketSet (.ofChars [c] true)))

namespace BracketSet

variable {chars : Text}

theorem buildable_ofChars (filled : chars ≠ []) (negated : Bool) :
    (ofChars chars negated).Buildable := by
  have expressible : (ofChars chars negated).charsOnly? = some chars :=
    (charsOnly?_eq_some_iff _ chars).mpr rfl
  refine ⟨by simpa [ofChars] using filled, by simp [ofChars], fun _ => .inl ?_⟩
  rw [expressible]
  exact Option.some_ne_none _

theorem faithful_ofChars (written : '\x00' ∉ chars) (negated : Bool) :
    (ofChars chars negated).Faithful := by
  apply Canonical.faithful_of_plain
  intro member listed
  obtain ⟨c, here, rfl⟩ := List.mem_map.mp listed
  rintro rfl
  exact written here

theorem text_ofChars (chars : Text) (negated : Bool) :
    (ofChars chars negated).text = bracket ((if negated then ['^'] else []) ++ escape chars) := by
  cases negated <;> simp [text, ofChars, bracket, SetMember.flatMap_text_char]

end BracketSet

namespace Node

section Sets

variable {sets : List BracketSet} (each : ∀ set ∈ sets, set.Buildable ∧ set.Faithful)

include each

theorem lexes_sets {rest : Text} {later : List Token} (lexes : Lexes false rest later) :
    Lexes false (sets.flatMap BracketSet.text ++ rest)
      (sets.flatMap BracketSet.tokens ++ later) := by
  induction sets with
  | nil => exact lexes
  | cons set sets ih =>
      obtain ⟨⟨buildable, faithful⟩, others⟩ := List.forall_mem_cons.mp each
      simpa using set.lexes_text faithful buildable.1 (ih others)

theorem reads_sets : Reads (sets.flatMap BracketSet.tokens) (sets.map bracketSet) := by
  induction sets with
  | nil => exact .nil
  | cons set sets ih =>
      obtain ⟨⟨buildable, faithful⟩, others⟩ := List.forall_mem_cons.mp each
      exact (stands_bracketSet buildable faithful).once (ih others)

end Sets

theorem marks_sets (sets : List BracketSet) : marks (sets.map bracketSet) = [] := by
  induction sets with
  | nil => rfl
  | cons set sets ih => rw [List.map_cons, marks_cons, ih]; rfl

end Node

theorem Regex.readsAs_of_sets {element : Node} {sets : List BracketSet}
    (each : ∀ set ∈ sets, set.Buildable ∧ set.Faithful)
    (spelled : Node.render element = enclose ['(', '?', ':'] (sets.flatMap BracketSet.text)) :
    ReadsAs ⟨[element], .empty, 0⟩ (.group false (sets.map bracketSet)) := by
  have closed : Lexes false [')'] [.closeGroup] := .step rfl .done
  have lexes : Lexes false (enclose ['(', '?', ':'] (sets.flatMap BracketSet.text))
      (.openGroup .plain :: (sets.flatMap BracketSet.tokens ++ [.closeGroup])) :=
    .step rfl (lexes_sets each closed)
  have reads : Reads (.openGroup .plain :: (sets.flatMap BracketSet.tokens ++ [.closeGroup]))
      [.group false (sets.map bracketSet)] := by
    simpa [join, groupNode] using (stands_of_group .plain (reads_sets each)).once .nil
  refine readsAs_of_lexes (spelled ▸ lexes) reads ?_
  rw [marks_singleton]
  exact marks_sets sets

/-- A text that is not empty and has no null byte is neutral when it is escaped. Outside a set each
of its characters is one token, a literal or the class of a line control. And the calls that take
its characters for sets are read back, from the pattern and from the whole text, as these sets. -/
theorem escapes_read_back (text : Text) (filled : text ≠ []) (written : '\x00' ∉ text) :
    (∃ tokens, tokens? (escape text) = .ok tokens ∧ kinds tokens = text.map charToken) ∧
    ∀ call node, AsksFor text call node → ∃ after regex,
      Builder.new.apply call = .ok after ∧ after.regex = .ok regex ∧ regex.ReadsAs node := by
  constructor
  · have lexes : Lexes false (escape text) (text.map charToken) := by
      simpa using lexes_escape written .done
    obtain ⟨ending, kept⟩ := Cursor.scanAll_of_lexes lexes (Cursor.atStart _ 0) rfl rfl
    exact ⟨_, tokens?_eq_ok_iff.mpr ⟨ending, rfl⟩, kept⟩
  intro call node asks
  cases asks with
  | anyOfChars =>
      exact ⟨_, _, Builder.apply_anyOfChars _ filled, rfl,
        Regex.readsAs_of_set (BracketSet.buildable_ofChars filled false)
          (BracketSet.faithful_ofChars written false) (BracketSet.text_ofChars text false).symm⟩
  | anythingButChars =>
      exact ⟨_, _, Builder.apply_anythingButChars _ filled, rfl,
        Regex.readsAs_of_set (BracketSet.buildable_ofChars filled true)
          (BracketSet.faithful_ofChars written true) (BracketSet.text_ofChars text true).symm⟩
  | anythingButString =>
      have each : ∀ set ∈ text.map fun c => BracketSet.ofChars [c] true,
          set.Buildable ∧ set.Faithful := by
        intro set listed
        obtain ⟨c, here, rfl⟩ := List.mem_map.mp listed
        have other : '\x00' ∉ [c] := by
          rintro (_ | ⟨_, ⟨⟩⟩)
          exact written here
        exact ⟨BracketSet.buildable_ofChars (by simp) true, BracketSet.faithful_ofChars other true⟩
      have spelled : Node.render (.anythingButString (text.map Literal.ofChar)) =
          enclose ['(', '?', ':']
            ((text.map fun c => BracketSet.ofChars [c] true).flatMap BracketSet.text) := by
        simp [Node.render, List.flatMap_map, BracketSet.text_ofChars, Literal.ofChar,
          Literal.escaped]
      have read := Regex.readsAs_of_sets each spelled
      rw [List.map_map] at read
      exact ⟨_, _, Builder.apply_anythingButString _ filled, rfl, read⟩

theorem escapes_read_back_specials :
    ∃ after regex, Builder.new.apply (.anyOfChars ['^', '-', ']', '*', '\n']) = .ok after ∧
      after.regex = .ok regex ∧ regex.render = "/[\\^\\-\\]\\*\\n]/".toList ∧
      regex.ReadsAs
        (.bracketSet ⟨[.char '^', .char '-', .char ']', .char '*', .char '\n'], false⟩) := by
  obtain ⟨after, regex, accepted, whole, read⟩ :=
    (escapes_read_back ['^', '-', ']', '*', '\n'] (by simp) (by decide)).2 _ _ .anyOfChars
  cases accepted
  cases whole
  exact ⟨_, _, rfl, rfl, by decide, read⟩

end RegexForge
