import RegexForge.Proofs.BuiltNodes
import RegexForge.Proofs.Concatenation
import RegexForge.Proofs.Derivation
import RegexForge.Proofs.TreeShape

/-!
Quantifiers and their bounds. Several quantifiers are spelled with the same bounds in mind, and a
reader picks one of them, so a quantifier that is written and read again may come back as another
one; its bounds do not change. Which bounds have a quantifier is decided by the numbers alone. In a
pattern the spelling stands behind an atom: the scan of two texts that are put together is that of
the first and then that of the second, unless the first ends in a token that a character behind it
would change, and no atom ends in such a token.
-/

namespace RegexForge

open Grammar Outcome

namespace Quantifier

/-- A count of zero, an upper bound below the lower one, and a lazy repetition without an upper
bound from two on. -/
theorem ofBounds?_eq_none_iff (bounds : Bounds) :
    ofBounds? bounds = none ↔
      bounds.max = some 0 ∨ (∃ high, bounds.max = some high ∧ high < bounds.min) ∨
        (bounds.max = none ∧ bounds.isLazy = true ∧ 2 ≤ bounds.min) := by
  obtain ⟨low, max, isLazy⟩ := bounds
  cases max with
  | none =>
      have several : 2 ≤ low ↔ low ≠ 0 ∧ low ≠ 1 := by grind
      by_cases zero : low = 0
      · simp [ofBounds?, zero]
      · by_cases one : low = 1 <;> simp [ofBounds?, several, zero, one]
  | some high =>
      by_cases upwards : low < high
      · have filled : high ≠ 0 := by grind
        have ordered : ¬ high < low := by grind
        simp only [ofBounds?, upwards, ↓reduceIte, Option.some.injEq, filled,
          exists_eq_left', ordered, reduceCtorEq, false_and, or_false, iff_false]
        split
        · simp
        · split <;> simp
      · have refused : ¬ (low = high ∧ 0 < high) ↔ high = 0 ∨ high < low := by grind
        simp [ofBounds?, upwards, ← refused]

theorem isLazy_ofBounds? {bounds : Bounds} {q : Quantifier} (read : ofBounds? bounds = some q) :
    q.isLazy = true ↔ bounds.isLazy = true ∧ bounds.max ≠ some bounds.min := by
  unfold ofBounds? at read
  grind [isLazy]

theorem Proper.ordered {q : Quantifier} (proper : q.Proper) :
    q.max ≠ some 0 ∧ (∀ high, q.max = some high → q.min ≤ high) ∧
      (q.isLazy = true → q.max ≠ some q.min ∧ (q.max = none → q.min < 2)) := by
  cases q with
  | exactly count | atLeast count =>
      have filled : count ≠ 0 := by
        rintro rfl
        contradiction
      simp [min, max, isLazy, filled]
  | between low high | betweenLazy low high =>
      have upwards : low < high := proper
      have filled : high ≠ 0 := by grind
      have apart : high ≠ low := by grind
      simp [min, max, isLazy, filled, apart, UInt64.le_of_lt upwards]
  | _ => simp [min, max, isLazy]

theorem Proper.exists_ofBounds? {q : Quantifier} (proper : q.Proper) :
    ∃ again, ofBounds? q.bounds = some again ∧ again.bounds = q.bounds := by
  obtain ⟨filled, ordered, apart⟩ := proper.ordered
  cases read : ofBounds? q.bounds with
  | none =>
      rcases (ofBounds?_eq_none_iff q.bounds).mp read with zero | ⟨high, same, below⟩ |
        ⟨endless, isLazy, several⟩
      · exact absurd zero filled
      · exact absurd below (UInt64.not_lt.mpr (ordered high same))
      · exact absurd ((apart isLazy).2 endless) (UInt64.not_lt.mpr several)
  | some again =>
      have lazy : again.isLazy = q.isLazy := by
        rw [Bool.eq_iff_iff, isLazy_ofBounds? read]
        exact ⟨And.left, fun isLazy => ⟨isLazy, (apart isLazy).1⟩⟩
      refine ⟨again, rfl, ?_⟩
      rw [Quantifier.bounds, min_ofBounds? read, max_ofBounds? read, lazy]
      rfl

end Quantifier

theorem lexes_suffix_done (q : Quantifier) : Lexes false q.suffix [.repetition q.bounds] := by
  simpa using lexes_suffix q (by simp) .done

theorem Cursor.scanAll_suffix (q : Quantifier) (pos : Nat) :
    (atStart q.suffix pos).scanAll = ⟨[⟨pos, .repetition q.bounds⟩], none⟩ := by
  obtain ⟨ending, kept⟩ :=
    scanAll_of_lexes (lexes_suffix_done q) (atStart q.suffix pos) rfl rfl
  have first := head?_cuts ending
  cases scanned : (atStart q.suffix pos).scanAll with
  | mk tokens fault =>
      rw [scanned] at ending kept first
      obtain ⟨⟨start, kind⟩, rfl, rfl⟩ := List.map_eq_singleton_iff.mp kept
      cases ending
      cases first
      rfl

theorem Grammar.Atom.isComplete_getLast? {tokens : List Token} {node : Node}
    (atom : Atom tokens node) : ∀ last ∈ tokens.getLast?, last.isComplete = true := by
  cases atom with
  | literal c | charClass kind | any =>
      rintro last ⟨⟩
      rfl
  | bracketSet members expressible | capture inside | plain inside =>
      rw [List.getLast?_concat]
      rintro last ⟨⟩
      rfl

theorem tokens?_append_suffix {text : Text} {tokens : List PosToken} {node : Node}
    (scanned : tokens? text = .ok tokens) (atom : Atom (kinds tokens) node) (q : Quantifier) :
    tokens? (text ++ q.suffix) = .ok (tokens ++ [⟨Text.bytes text, .repetition q.bounds⟩]) := by
  obtain ⟨ending, rfl⟩ := tokens?_eq_ok_iff.mp scanned
  have complete : ∀ last ∈ (Cursor.atStart text 0).scanAll.tokens.getLast?,
      last.token.isComplete = true := by
    intro last listed
    apply atom.isComplete_getLast?
    rw [kinds, List.getLast?_map, Option.mem_def.mp listed]
    rfl
  have joined := (Cursor.atStart text 0).scanAll_append q.suffix ending complete
  rw [Cursor.scanAll_suffix] at joined
  rw [tokens?_eq_ok_iff]
  change (Cursor.atStart (text ++ q.suffix) 0).scanAll = _ at joined
  rw [joined]
  simp [Cursor.atStart]

/-- Bounds have no quantifier only if nothing can be repeated by them, if they are out of order, or
if they are lazy, without an upper bound, and start from two or more. Otherwise they have one that
keeps them, which every builder accepts, and which is lazy unless the bounds are equal. Written
behind an atom, a quantifier that some builder accepts is one token with its bounds, and these are
read as a quantifier that has them too. -/
theorem bounds_read_back :
    (∀ bounds : Bounds,
      (Quantifier.ofBounds? bounds = none ↔
        bounds.max = some 0 ∨ (∃ high, bounds.max = some high ∧ high < bounds.min) ∨
          (bounds.max = none ∧ bounds.isLazy = true ∧ 2 ≤ bounds.min)) ∧
      ∀ q, Quantifier.ofBounds? bounds = some q →
        q.min = bounds.min ∧ q.max = bounds.max ∧
          (q.isLazy = true ↔ bounds.isLazy = true ∧ bounds.max ≠ some bounds.min) ∧
          q.Accepted) ∧
    ∀ (q : Quantifier) (before after : Builder), before.quantify q = .ok after →
      (∀ text tokens node, tokens? text = .ok tokens → Grammar.Atom (kinds tokens) node →
        tokens? (text ++ q.suffix) =
          .ok (tokens ++ [⟨Text.bytes text, .repetition ⟨q.min, q.max, q.isLazy⟩⟩])) ∧
      ∃ again, Quantifier.ofBounds? ⟨q.min, q.max, q.isLazy⟩ = some again ∧
        again.min = q.min ∧ again.max = q.max ∧ again.isLazy = q.isLazy := by
  refine ⟨fun bounds => ⟨Quantifier.ofBounds?_eq_none_iff bounds, fun q read => ?_⟩,
    fun q before after accepted => ⟨fun text tokens node scanned atom => ?_, ?_⟩⟩
  · exact ⟨Quantifier.min_ofBounds? read, Quantifier.max_ofBounds? read,
      Quantifier.isLazy_ofBounds? read, Node.accepted_of_check (Node.check_of_ofBounds? read)⟩
  · exact tokens?_append_suffix scanned atom q
  · obtain ⟨checked, -, -⟩ := Builder.quantify_eq_ok_iff.mp accepted
    obtain ⟨again, read, same⟩ := (Quantifier.check_eq_ok_iff.mp checked).exists_ofBounds?
    exact ⟨again, read, congrArg Bounds.min same, congrArg Bounds.max same,
      congrArg Bounds.isLazy same⟩

theorem bounds_read_back_renamed :
    ∃ after again, Builder.new.quantify (.atLeast 1) = .ok after ∧
      tokens? "[b]{1,}".toList = .ok [⟨0, .openSet false⟩, ⟨1, .literal 'b'⟩, ⟨2, .closeSet⟩,
        ⟨3, .repetition ⟨1, none, false⟩⟩] ∧
      Quantifier.ofBounds? ⟨1, none, false⟩ = some again ∧ again = .oneOrMore ∧
      again.min = 1 ∧ again.max = none ∧ again.isLazy = false ∧ again.Accepted := by
  have scanned : tokens? "[b]".toList =
      .ok [⟨0, .openSet false⟩, ⟨1, .literal 'b'⟩, ⟨2, .closeSet⟩] := by decide +kernel
  have atom : Grammar.Atom (kinds [⟨0, .openSet false⟩, ⟨1, .literal 'b'⟩, ⟨2, .closeSet⟩])
      (.bracketSet ⟨[.char 'b'], false⟩) :=
    @Grammar.Atom.bracketSet [.literal 'b'] ⟨[.char 'b'], false⟩ (.char rfl (by simp) .nil)
      ⟨by simp, by simp⟩
  obtain ⟨readable, written⟩ := bounds_read_back
  obtain ⟨behind, again, read, low, high, lazy⟩ := written (.atLeast 1) .new _ rfl
  obtain ⟨-, -, -, accepted⟩ := (readable ⟨1, none, false⟩).2 again read
  cases read
  exact ⟨_, _, rfl, behind _ _ _ scanned atom, rfl, rfl, low, high, lazy, accepted⟩

end RegexForge
