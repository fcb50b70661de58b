import Mathlib.Data.List.Induction
import RegexForge.Proofs.Reread

/-!
The format of enclosed expressions. A text is accepted exactly when it is a delimiter, a pattern,
the delimiter again and distinct flags, and it is that in one way only: no flag is a delimiter, so
the pattern ends at the last delimiter, whatever delimiters it holds itself. A text that is refused
has one of five faults. Which of them is reported is a matter of the length of the text, of its
first character, of where that character stands again, and of the first character behind its last
place that is no flag or repeats one.
-/

namespace RegexForge

open Outcome

theorem Flag.ofChar?_eq_some_iff {c : Char} {flag : Flag} :
    Flag.ofChar? c = some flag ↔ c = flag.toChar := by
  constructor
  · intro read
    unfold Flag.ofChar? at read
    split at read <;> first | contradiction | (cases read; rfl)
  · rintro rfl
    exact Flag.ofChar?_toChar flag

theorem Flag.toChar_inj {first second : Flag} (same : first.toChar = second.toChar) :
    first = second := by
  have read := Flag.ofChar?_toChar first
  rw [same, Flag.ofChar?_toChar] at read
  exact (Option.some.inj read).symm

theorem Flags.contains_ofList (list : List Flag) (flag : Flag) :
    (Flags.ofList list).contains flag = true ↔ flag ∈ list := by
  simp [Flags.ofList, contains_foldl_insert]

theorem Flags.spelled_or_stops (text : Text) :
    (∃ list : List Flag, list.Nodup ∧ text = list.map Flag.toChar) ∨
      ∃ (list : List Flag) (c : Char) (after : Text), list.Nodup ∧
        text = list.map Flag.toChar ++ c :: after ∧ ∀ flag, c = Flag.toChar flag → flag ∈ list := by
  induction text using List.reverseRecOn with
  | nil => exact .inl ⟨[], .nil, rfl⟩
  | append_singleton front c ih =>
      rcases ih with ⟨list, distinct, rfl⟩ | ⟨list, stop, after, distinct, rfl, bad⟩
      · by_cases new : ∃ flag, c = Flag.toChar flag ∧ flag ∉ list
        · obtain ⟨flag, rfl, new⟩ := new
          exact .inl ⟨list ++ [flag], List.nodup_append.mpr ⟨distinct, by simp, by grind⟩, by simp⟩
        · exact .inr ⟨list, c, [], distinct, rfl, by grind⟩
      · exact .inr ⟨list, stop, after ++ [c], distinct, by simp, bad⟩

namespace Enclosed

/-- The text is made of these parts; `list` is the flags in the order in which they stand. -/
structure Spells (parts : Enclosed) (list : List Flag) (text : Text) : Prop where
  known : parts.delimiter ∈ delimiters
  distinct : list.Nodup
  flags : ∀ flag, parts.flags.contains flag = true ↔ flag ∈ list
  whole : text = parts.delimiter :: parts.pattern ++ parts.delimiter :: list.map Flag.toChar

/-- What is wrong with a text, and where. -/
inductive Refuses : Text → Fault → Prop where
  | tooShort {text : Text} (short : text.length < 2) : Refuses text ⟨0, .tooShort⟩
  | invalidDelimiter {c : Char} {rest : Text} (more : rest ≠ []) (foreign : c ∉ delimiters) :
      Refuses (c :: rest) ⟨0, .invalidDelimiter c⟩
  | missingDelimiter {delimiter : Char} {rest : Text} (more : rest ≠ [])
      (known : delimiter ∈ delimiters) (once : delimiter ∉ rest) :
      Refuses (delimiter :: rest) ⟨Text.bytes (delimiter :: rest), .missingDelimiter⟩
  | unknownFlag {delimiter c : Char} {pattern after : Text} {list : List Flag}
      (known : delimiter ∈ delimiters) (last : delimiter ∉ c :: after) (distinct : list.Nodup)
      (foreign : ∀ flag, c ≠ Flag.toChar flag) :
      Refuses (delimiter :: pattern ++ delimiter :: (list.map Flag.toChar ++ c :: after))
        ⟨Text.bytes (delimiter :: pattern ++ delimiter :: list.map Flag.toChar), .unknownFlag c⟩
  | duplicateFlag {delimiter : Char} {pattern after : Text} {list : List Flag} {flag : Flag}
      (known : delimiter ∈ delimiters) (last : delimiter ∉ after) (distinct : list.Nodup)
      (repeated : flag ∈ list) :
      Refuses (delimiter :: pattern ++ delimiter :: (list.map Flag.toChar ++ flag.toChar :: after))
        ⟨Text.bytes (delimiter :: pattern ++ delimiter :: list.map Flag.toChar),
          .duplicateFlag flag.toChar⟩

theorem notMem_flags {delimiter : Char} (known : delimiter ∈ delimiters) (list : List Flag) :
    delimiter ∉ list.map Flag.toChar := by
  have apart : ∀ flag : Flag, flag.toChar ∉ delimiters := by
    intro flag
    cases flag <;> decide
  intro member
  obtain ⟨flag, -, rfl⟩ := List.mem_map.mp member
  exact apart flag known

/-! What is accepted. -/

theorem ofText_of_spells {parts : Enclosed} {list : List Flag} {text : Text}
    (spells : parts.Spells list text) : ofText text = .ok parts := by
  obtain ⟨delimiter, pattern, flags⟩ := parts
  obtain ⟨known, distinct, same, rfl⟩ := spells
  have read := Flags.read_append list (Text.bytes (delimiter :: pattern ++ [delimiter])) .empty
    distinct (by simp) []
  have equal : list.foldl Flags.insert .empty = flags := by
    apply Flags.ext_contains
    intro flag
    rw [Bool.eq_iff_iff, same flag]
    exact Flags.contains_ofList list flag
  rw [List.append_nil, equal] at read
  rw [ofText_of_last known (notMem_flags known list), read]
  rfl

/-! What is refused. -/

theorem ofText_of_short {text : Text} (short : text.length < 2) :
    ofText text = .error ⟨0, .tooShort⟩ := by
  match text with
  | [] | [_] => rfl
  | _ :: _ :: _ =>
      simp only [List.length_cons] at short
      omega

theorem ofText_of_foreign {c : Char} {rest : Text} (more : rest ≠ []) (foreign : c ∉ delimiters) :
    ofText (c :: rest) = .error ⟨0, .invalidDelimiter c⟩ := by
  obtain ⟨second, rest, rfl⟩ := List.exists_cons_of_ne_nil more
  simp [ofText, foreign]

theorem ofText_of_once {delimiter : Char} {rest : Text} (more : rest ≠ [])
    (known : delimiter ∈ delimiters) (once : delimiter ∉ rest) :
    ofText (delimiter :: rest) = .error ⟨Text.bytes (delimiter :: rest), .missingDelimiter⟩ := by
  obtain ⟨second, rest, rfl⟩ := List.exists_cons_of_ne_nil more
  simp [ofText, known, splitLast?_eq_none_iff.mpr once]

theorem ofText_of_stop {delimiter c : Char} {pattern after : Text} {list : List Flag}
    (known : delimiter ∈ delimiters) (last : delimiter ∉ c :: after) (distinct : list.Nodup) :
    ofText (delimiter :: pattern ++ delimiter :: (list.map Flag.toChar ++ c :: after)) =
      (Flags.read (Text.bytes (delimiter :: pattern ++ delimiter :: list.map Flag.toChar))
        (Flags.ofList list) (c :: after)).map (⟨delimiter, pattern, ·⟩) := by
  have absent : delimiter ∉ list.map Flag.toChar ++ c :: after := by
    simpa using ⟨by simpa using notMem_flags known list, by simpa using last⟩
  rw [ofText_of_last known absent, Flags.read_append list _ .empty distinct (by simp)]
  simp [Flags.ofList, Nat.add_assoc]

theorem ofText_of_refuses {text : Text} {fault : Fault} (refuses : Refuses text fault) :
    ofText text = .error fault := by
  cases refuses with
  | tooShort short => exact ofText_of_short short
  | invalidDelimiter more foreign => exact ofText_of_foreign more foreign
  | missingDelimiter more known once => exact ofText_of_once more known once
  | @unknownFlag _ c _ after list known last distinct foreign =>
      have unread : Flag.ofChar? c = none := by
        apply Option.eq_none_iff_forall_ne_some.mpr
        intro flag read
        exact foreign flag (Flag.ofChar?_eq_some_iff.mp read)
      simp only [ofText_of_stop known last distinct, Flags.read, unread]
      rfl
  | @duplicateFlag delimiter _ after list flag known last distinct repeated =>
      have apart : delimiter ∉ flag.toChar :: after := by
        have other := notMem_flags known [flag]
        simpa using ⟨by simpa using other, last⟩
      have there := (Flags.contains_ofList list flag).mpr repeated
      simp only [ofText_of_stop known apart distinct, Flags.read, Flag.ofChar?_toChar, there, if_true]
      rfl

theorem spells_or_refuses (text : Text) :
    (∃ parts list, Spells parts list text) ∨ ∃ fault, Refuses text fault := by
  match text with
  | [] => exact .inr ⟨_, .tooShort (by simp)⟩
  | [_] => exact .inr ⟨_, .tooShort (by simp)⟩
  | delimiter :: second :: rest =>
      by_cases known : delimiter ∈ delimiters
      · cases found : splitLast? delimiter (second :: rest) with
        | none =>
            exact .inr ⟨_, .missingDelimiter (by simp) known (splitLast?_eq_none_iff.mp found)⟩
        | some halves =>
            obtain ⟨pattern, tail⟩ := halves
            obtain ⟨whole, last⟩ := eq_append_of_splitLast? found
            rw [whole, ← List.cons_append]
            rcases Flags.spelled_or_stops tail with
              ⟨list, distinct, rfl⟩ | ⟨list, c, after, distinct, rfl, bad⟩
            · exact .inl ⟨⟨delimiter, pattern, .ofList list⟩, list, known, distinct,
                Flags.contains_ofList list, rfl⟩
            · right
              have last : delimiter ∉ c :: after := fun member =>
                last (List.mem_append_right _ member)
              by_cases flagged : ∃ flag, c = Flag.toChar flag
              · obtain ⟨flag, rfl⟩ := flagged
                exact ⟨_, .duplicateFlag known (fun member => last (.tail _ member)) distinct
                  (bad flag rfl)⟩
              · exact ⟨_, .unknownFlag known last distinct (by simpa using flagged)⟩
      · exact .inr ⟨_, .invalidDelimiter (by simp) known⟩

theorem Spells.unique {parts others : Enclosed} {list rest : List Flag} {text : Text}
    (one : parts.Spells list text) (two : others.Spells rest text) :
    parts = others ∧ list = rest := by
  have same : parts = others :=
    Except.ok.inj ((ofText_of_spells one).symm.trans (ofText_of_spells two))
  subst same
  have tails := one.whole.symm.trans two.whole
  simp only [List.append_cancel_left_eq, List.cons.injEq, true_and] at tails
  exact ⟨rfl, List.map_injective_iff.mpr (fun _ _ => Flag.toChar_inj) tails⟩

end Enclosed

open Enclosed

/-- A text is accepted exactly when it is made of a delimiter, a pattern, the delimiter and distinct
flags, which it is in one way at most, and the pattern is what stands behind the delimiter. It is
refused exactly for the fault it has. Whatever is written between slashes is cut out again. -/
theorem ofText_iff_spells (text : Text) :
    (∀ parts, Enclosed.ofText text = .ok parts ↔ ∃ list, Spells parts list text) ∧
      (∀ parts others list rest, Spells parts list text → Spells others rest text →
        parts = others ∧ list = rest) ∧
      (∀ parts list, Spells parts list text → parts.offset = Text.bytes [parts.delimiter] ∧
        text.slice parts.offset (parts.offset + Text.bytes parts.pattern) = parts.pattern) ∧
      (∀ fault, Enclosed.ofText text = .error fault ↔ Refuses text fault) ∧
      ∀ pattern flags, Enclosed.ofText (slashed pattern flags) = .ok ⟨'/', pattern, flags⟩ ∧
        Enclosed.offset ⟨'/', pattern, flags⟩ = 1 := by
  refine ⟨?_, fun _ _ _ _ => Spells.unique, ?_, ?_, fun pattern flags =>
    ⟨Enclosed.ofText_slashed pattern flags, rfl⟩⟩
  · intro parts
    constructor
    · intro accepted
      rcases spells_or_refuses text with ⟨others, list, spells⟩ | ⟨fault, refuses⟩
      · rw [ofText_of_spells spells] at accepted
        cases accepted
        exact ⟨list, spells⟩
      · rw [ofText_of_refuses refuses] at accepted
        contradiction
    · rintro ⟨list, spells⟩
      exact ofText_of_spells spells
  · intro parts list spells
    have cut := Text.slice_append [parts.delimiter] parts.pattern
      (parts.delimiter :: list.map Flag.toChar)
    exact ⟨rfl, by rw [spells.whole]; exact cut⟩
  · intro fault
    constructor
    · intro refused
      rcases spells_or_refuses text with ⟨parts, list, spells⟩ | ⟨other, refuses⟩
      · rw [ofText_of_spells spells] at refused
        contradiction
      · rw [ofText_of_refuses refuses] at refused
        cases refused
        exact refuses
    · exact ofText_of_refuses

theorem ofText_iff_spells_inner :
    Enclosed.ofText "#a#é#gm".toList = .ok ⟨'#', "a#é".toList, .ofList [.multiline, .global]⟩ ∧
      (∀ others rest, Enclosed.Spells others rest "#a#é#gm".toList →
        others.pattern = "a#é".toList ∧ rest = [.global, .multiline]) ∧
      Enclosed.ofText "~é~gmgx".toList = .error ⟨6, .duplicateFlag 'g'⟩ := by
  have spells : Enclosed.Spells ⟨'#', "a#é".toList, .ofList [.multiline, .global]⟩
      [.global, .multiline] "#a#é#gm".toList := by
    refine ⟨by decide, by decide, ?_, rfl⟩
    intro flag
    cases flag <;> decide
  rcases ofText_iff_spells "#a#é#gm".toList with ⟨accepts, unique, -⟩
  refine ⟨(accepts _).mpr ⟨_, spells⟩, ?_, ?_⟩
  · intro others rest again
    obtain ⟨rfl, rfl⟩ := unique _ _ _ _ spells again
    exact ⟨rfl, rfl⟩
  · rcases ofText_iff_spells "~é~gmgx".toList with ⟨-, -, -, refuses, -⟩
    exact (refuses _).mpr (@Refuses.duplicateFlag '~' "é".toList "x".toList [.global, .multiline]
      .global (by decide) (by decide) (by decide) (by decide))

end RegexForge
