import RegexForge.Proofs.Nesting
import RegexForge.Proofs.ScriptText

/-!
The lines of a printed script. Names of methods, digits and quoted texts never break a line,
whatever characters the texts hold, so a printed script has one line for the new builder and then
one for each call. With the nesting of scripts this gives the layout: a line is indented by the
containers that are open in front of it, and a replay never closes the root.
-/

namespace RegexForge

open Node

theorem lineBreak_notMem_methods : ∀ method ∈ methods, '\n' ∉ method.toList := by
  decide +kernel

theorem lineBreak_notMem_decimal (n : Nat) : '\n' ∉ Nat.toDigits 10 n :=
  notMem_decimal rfl n

namespace Text

theorem lineBreak_notMem_quotedChar (c : Char) : '\n' ∉ quotedChar c := by
  rcases quotedChar_cases c with ⟨letter, listed, one⟩ | one | ⟨-, -, one⟩
  · have plain : ∀ p ∈ letters, p.1 ≠ '\n' := by decide
    simp [one, (plain _ listed).symm]
  · have hexadecimal := notMem_toDigits (c := '\n') (by decide) c.toNat
    simp [one, codePoint, hexadecimal]
  · rw [one, List.mem_singleton]
    rintro rfl
    contradiction

theorem lineBreak_notMem_quoted (text : Text) : '\n' ∉ quoted text := by
  simp [quoted, lineBreak_notMem_quotedChar]

end Text

open Text

theorem Quantifier.lineBreak_notMem_text (quantifier : Quantifier) : '\n' ∉ quantifier.text := by
  have arguments : '\n' ∉ quantifier.arguments := by
    cases quantifier <;> simp [Quantifier.arguments, countText, lineBreak_notMem_decimal]
  simp [Quantifier.text, lineBreak_notMem_methods _ quantifier.method_mem, arguments]

theorem Call.lineBreak_notMem_text (call : Call) : '\n' ∉ call.text := by
  have arguments : '\n' ∉ call.arguments := by
    cases call <;> simp [Call.arguments, lineBreak_notMem_quoted, lineBreak_notMem_decimal]
  simp [Call.text, lineBreak_notMem_methods _ call.method_mem, arguments]

namespace Line

theorem lineBreak_notMem_text (line : Line) : '\n' ∉ line.text := by
  unfold text
  cases line.quantifier with
  | none => cases line.call.isFallible <;> simp [line.call.lineBreak_notMem_text]
  | some quantifier =>
      cases line.call.isFallible <;>
        simp [line.call.lineBreak_notMem_text, quantifier.lineBreak_notMem_text]

end Line

theorem Text.splitOn_lines (first : Text) (others : List Text) (whole : '\n' ∉ first)
    (plain : ∀ line ∈ others, '\n' ∉ line) :
    List.splitOn '\n' (first ++ others.flatMap ('\n' :: ·)) = first :: others := by
  rw [← intercalate_eq_flatMap]
  exact List.splitOn_intercalate '\n' (List.forall_mem_cons.mpr ⟨whole, plain⟩) (by simp)

theorem Script.splitOn_text (script : Script) :
    script.text.splitOn '\n' = "RegexBuilder::new()".toList :: script.map Line.text := by
  have plain : ∀ text ∈ script.map Line.text, '\n' ∉ text := by
    intro text listed
    obtain ⟨line, -, rfl⟩ := List.mem_map.mp listed
    exact line.lineBreak_notMem_text
  have split := Text.splitOn_lines "RegexBuilder::new()".toList _ (by decide +kernel) plain
  rw [List.flatMap_map] at split
  exact split

open Script

/-- A tree is refused, with an internal error, exactly for the two shapes that no call expresses.
Otherwise its script is well nested, a replay of it leaves nothing open and never closes the root,
and the printed script has one line for each call, indented by its depth. -/
theorem nested_or_inexpressible (regex : Regex) :
    ((∃ fault, regex.script = .error (.internal fault)) ↔
      ∃ node ∈ preorderAll regex.nodes, node.Inexpressible) ∧
    (∀ error, regex.script = .error error → ∃ fault, error = .internal fault) ∧
    ∀ script, regex.script = .ok script →
      script.WellNested ∧
      script.replay ≠ .error .unbalancedEnd ∧
      (∀ builder, script.replay = .ok builder → builder.isClosed = true) ∧
      script.text.splitOn '\n' = "RegexBuilder::new()".toList :: script.map Line.text ∧
      ∀ line ∈ script, ∃ rest,
        line.text = List.replicate (4 * (line.depth + 1)) ' ' ++ '.' :: rest := by
  refine ⟨regex.script_refused_iff, fun _ => regex.internal_of_script, fun script made => ?_⟩
  have nested := (regex.nested_script made).wellNested
  refine ⟨nested, nested.replay_ne_unbalancedEnd, fun _ => nested.isClosed_of_replay,
    script.splitOn_text, fun line _ => ?_⟩
  exact ⟨_, line.text_eq⟩

theorem nested_or_inexpressible_set :
    ∃ script, Regex.script ⟨[.quantified (.group true
        [.bracketSet ⟨[.char 'a', .range 'x' 'z'], false⟩, .string ⟨['\n', '"']⟩]) .oneOrMore],
        { global := true }, 1⟩ = .ok script ∧
      script.WellNested ∧
      script.text.splitOn '\n' =
        ["RegexBuilder::new()".toList,
          "    .allow_multiple_matches()".toList,
          "    .one_or_more()?.capture()".toList,
          "        .any_of()".toList,
          "            .char(\"a\")?".toList,
          "            .range(\"x\", \"z\")?".toList,
          "            .end()?".toList,
          "        .string(\"\\n\\\"\")?".toList,
          "        .end()?".toList] := by
  obtain ⟨-, -, nested⟩ := nested_or_inexpressible ⟨[.quantified (.group true
    [.bracketSet ⟨[.char 'a', .range 'x' 'z'], false⟩, .string ⟨['\n', '"']⟩]) .oneOrMore],
    { global := true }, 1⟩
  obtain ⟨wellNested, -, -, lines, -⟩ := nested _ rfl
  exact ⟨_, rfl, wellNested, lines.trans (by decide +kernel)⟩

end RegexForge
