import RegexForge.Proofs.Bounds
import RegexForge.Proofs.Reread

/-!
A text that is repeated as a whole. A quantifier in a pattern belongs to the one element in front of
it, so a text of several characters gets a group around it, and whether there are several is counted
in characters, neither in bytes nor in the characters of the spelling. What is read is then one
repeated element: a single character, or a group in which the characters of the text stand in order
and nothing else. The line controls among them come back as their classes, which is why the group
may hold more than one node.
-/

namespace RegexForge

open Grammar Parse Outcome

namespace Node

/-- The text that a literal stands for, or the class of a line control. -/
def plainText? : Node → Option Text
  | char literal | string literal => some literal.raw
  | charClass .newline => some ['\n']
  | charClass .carriageReturn => some ['\r']
  | charClass .tab => some ['\t']
  | _ => none

def plainTextAll? : List Node → Option Text
  | [] => some []
  | node :: rest => do return (← node.plainText?) ++ (← plainTextAll? rest)

theorem plainText?_charNode (c : Char) : (charNode c).plainText? = some [c] := by
  unfold charNode
  split
  · next feed => rw [feed]; rfl
  split
  · next carriage => rw [carriage]; rfl
  split
  · next tab => rw [tab]; rfl
  · rfl

theorem plainTextAll?_join (node : Node) (nodes : List Node) :
    plainTextAll? (join node nodes) = plainTextAll? (node :: nodes) := by
  unfold join
  split
  · simp [plainTextAll?, plainText?, Option.bind_assoc]
  · simp [plainTextAll?, plainText?, Option.bind_assoc]
  · rfl

theorem plainTextAll?_textNodes (text : Text) : plainTextAll? (textNodes text []) = some text := by
  induction text with
  | nil => rfl
  | cons c text ih =>
      change plainTextAll? (join (charNode c) (textNodes text [])) = _
      rw [plainTextAll?_join, plainTextAll?, plainText?_charNode, ih]
      rfl

end Node

open Node

theorem opened_map_charToken (text : Text) : opened (text.map charToken) = 0 := by
  induction text with
  | nil => rfl
  | cons c text ih =>
      obtain ⟨own, -⟩ := opened_of_leaf (leaf_charNode c)
      rw [List.map_cons, ← List.singleton_append, opened_append, own, ih]

theorem Regex.ofPattern_repeated {pattern : Text} {tokens : List Token} {item : Node}
    {bounds : Bounds} {quantifier : Quantifier}
    (lexes : Lexes false pattern (tokens ++ [.repetition bounds])) (stands : Stands tokens item)
    (wide : item.isZeroWidth = false) (read : Quantifier.ofBounds? bounds = some quantifier) :
    Regex.ofPattern pattern =
      .ok ⟨[.quantified item quantifier], .empty, opened tokens⟩ := by
  have reads : Reads (tokens ++ [.repetition bounds]) [.quantified item quantifier] := by
    simpa [join] using stands _ _ [] [] (.times item wide read) .nil
  rw [Regex.ofPattern_of_lexes lexes reads, opened_append]
  rfl

section Repeated

variable {quantifier again : Quantifier}
  (read : Quantifier.ofBounds? quantifier.bounds = some again)

include read

theorem Regex.ofPattern_repeated_char {c : Char} (written : c ≠ '\x00') :
    Regex.ofPattern (quantified (.string ⟨[c]⟩) quantifier).render =
      .ok ⟨[.quantified (charNode c) again], .empty, 0⟩ := by
  have spelled : (quantified (.string ⟨[c]⟩) quantifier).render =
      escapeChar c ++ quantifier.suffix := by
    simp [Node.render, needsGroup, Literal.isMulti, Literal.escaped, escape]
  obtain ⟨unopened, -⟩ := opened_of_leaf (leaf_charNode c)
  have wide := isZeroWidth_of_isAtom (isAtom_charNode c)
  have lexes : Lexes false (escapeChar c ++ quantifier.suffix)
      ([charToken c] ++ [.repetition quantifier.bounds]) :=
        lexes_escapeChar written (lexes_suffix_done quantifier)
  rw [spelled, Regex.ofPattern_repeated lexes (stands_of_leaf (leaf_charNode c)) wide read,
    unopened]

theorem Regex.ofPattern_repeated_text {text : Text} (several : 2 ≤ text.length)
    (written : '\x00' ∉ text) :
    Regex.ofPattern (quantified (.string ⟨text⟩) quantifier).render =
      .ok ⟨[.quantified (.group false (textNodes text [])) again], .empty, 0⟩ := by
  have spelled : (quantified (.string ⟨text⟩) quantifier).render =
      '(' :: '?' :: ':' :: (escape text ++ ')' :: quantifier.suffix) := by
    have multi : 1 < text.length := several
    simp [Node.render, needsGroup, Literal.isMulti, Literal.escaped, enclose, multi]
  have closed : Lexes false (')' :: quantifier.suffix)
      [.closeGroup, .repetition quantifier.bounds] := .step rfl (lexes_suffix_done quantifier)
  have lexes : Lexes false ('(' :: '?' :: ':' :: (escape text ++ ')' :: quantifier.suffix))
      (.openGroup .plain :: (text.map charToken ++ [.closeGroup, .repetition quantifier.bounds])) :=
    .step rfl (lexes_escape written closed)
  have inside := reads_textNodes text .nil
  rw [List.append_nil] at inside
  have unopened : opened (.openGroup .plain :: text.map charToken ++ [.closeGroup]) = 0 := by
    simpa [opened] using opened_map_charToken text
  rw [spelled, Regex.ofPattern_repeated (by simpa using lexes) (stands_of_group .plain inside) rfl
    read, unopened]
  rfl

end Repeated

/-- A text that is not empty and has no null byte can be repeated by every quantifier that a builder
accepts. Its pattern is read as one element with the same bounds, in which the text is spelled out:
a single character or line control, or a group of them. -/
theorem ofPattern_of_repeated_text (text : Text) (quantifier : Quantifier) (asked : Builder)
    (filled : text ≠ []) (written : '\x00' ∉ text)
    (accepted : Builder.new.quantify quantifier = .ok asked) :
    ∃ after regex inner again, asked.string text = .ok after ∧ after.regex = .ok regex ∧
      Regex.ofPattern (renderAll regex.nodes) = .ok ⟨[.quantified inner again], .empty, 0⟩ ∧
      again.bounds = quantifier.bounds ∧
      ((∃ c, text = [c] ∧ inner = charNode c) ∨
        (2 ≤ text.length ∧ ∃ children, inner = .group false children ∧
          plainTextAll? children = some text)) := by
  obtain ⟨checked, -, rfl⟩ := Builder.quantify_eq_ok_iff.mp accepted
  obtain ⟨again, read, same⟩ := (Quantifier.check_eq_ok_iff.mp checked).exists_ofBounds?
  have spelled : renderAll [quantified (.string ⟨text⟩) quantifier] =
      (quantified (.string ⟨text⟩) quantifier).render := List.append_nil _
  by_cases several : 2 ≤ text.length
  · have repeated := Regex.ofPattern_repeated_text read several written
    rw [← spelled] at repeated
    exact ⟨_, _, _, again, Builder.apply_string _ filled, rfl, repeated, same,
      .inr ⟨several, _, rfl, plainTextAll?_textNodes text⟩⟩
  · have positive := List.length_pos_iff.mpr filled
    have single : text.length = 1 := by omega
    obtain ⟨c, rfl⟩ := List.length_eq_one_iff.mp single
    have repeated := Regex.ofPattern_repeated_char read (by simpa [eq_comm] using written)
    rw [← spelled] at repeated
    exact ⟨_, _, _, again, Builder.apply_string _ filled, rfl, repeated, same, .inl ⟨c, rfl, rfl⟩⟩

theorem ofPattern_of_repeated_text_feed :
    ∃ asked after regex inner again, Builder.new.quantify (.atLeast 1) = .ok asked ∧
      asked.string ['.', '\n', '*'] = .ok after ∧ after.regex = .ok regex ∧
      renderAll regex.nodes = "(?:\\.\\n\\*){1,}".toList ∧
      Regex.ofPattern (renderAll regex.nodes) = .ok ⟨[.quantified inner again], .empty, 0⟩ ∧
      again.bounds = ⟨1, none, false⟩ ∧ ∃ children, inner = .group false children ∧
        plainTextAll? children = some ['.', '\n', '*'] := by
  obtain ⟨after, regex, inner, again, pushed, whole, read, same, shape⟩ :=
    ofPattern_of_repeated_text ['.', '\n', '*'] (.atLeast 1) _ (by simp) (by decide) rfl
  have grouped := shape.resolve_left (by simp)
  cases pushed
  cases whole
  exact ⟨_, _, _, inner, again, rfl, rfl, rfl, by decide +kernel, read, same, grouped.2⟩

end RegexForge
