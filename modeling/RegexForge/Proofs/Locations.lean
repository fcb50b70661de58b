import RegexForge.Proofs.Modes
import RegexForge.Proofs.Relocation

/-!
Where faults are located. A text in enclosed form is refused at its delimiters, at its flags, or in
its pattern. The first two are found by counting through the text. In the pattern the reader only
hands on what the scan says, and the scan counts: its cursor stands between two parts of the text,
at the byte length of the first, and moves by the characters it takes. So each fault lies where a
character starts, or at the end, and none of them is the reader's own.
-/

namespace RegexForge

open Grammar Outcome

/-- A byte of a text at which a character starts, or its end. -/
def Text.Boundary (text : Text) (pos : Nat) : Prop :=
  ∃ before after, text = before ++ after ∧ Text.bytes before = pos

namespace Text.Boundary

theorem start (text : Text) : text.Boundary 0 := ⟨[], text, rfl, rfl⟩

theorem stop (text : Text) : text.Boundary text.bytes := ⟨text, [], by simp, rfl⟩

theorem le_bytes {text : Text} {pos : Nat} (boundary : text.Boundary pos) : pos ≤ text.bytes := by
  obtain ⟨before, after, rfl, rfl⟩ := boundary
  simp

theorem inside {middle : Text} {pos : Nat} (boundary : middle.Boundary pos) (before after : Text) :
    Text.Boundary (before ++ middle ++ after) (before.bytes + pos) := by
  obtain ⟨front, back, rfl, rfl⟩ := boundary
  exact ⟨before ++ front, back ++ after, by simp, by simp⟩

theorem span {text : Text} {start stop : Nat} (first : text.Boundary start)
    (second : text.Boundary stop) (ordered : start ≤ stop) :
    ∃ before middle after, text = before ++ middle ++ after ∧ Text.bytes before = start ∧
      Text.bytes before + Text.bytes middle = stop := by
  obtain ⟨before, fromStart, rfl, rfl⟩ := first
  obtain ⟨untilStop, after, same, rfl⟩ := second
  rcases List.append_eq_append_iff.mp same with ⟨middle, rfl, rfl⟩ | ⟨rest, rfl, rfl⟩
  · exact ⟨before, middle, after, by simp, rfl, by simp⟩
  · -- The second place is before the first in the text and not by its number, so they are one.
    have nothing : Text.bytes rest = 0 := by
      simp only [bytes_append] at ordered
      omega
    refine ⟨untilStop ++ rest, [], fromStart, by simp, rfl, ?_⟩
    simp [nothing]

end Text.Boundary

namespace Cursor

/-- The cursor reads a part of a text and knows where it stands in it. -/
structure Over (cursor : Cursor) (text : Text) : Prop where
  stands : ∃ before after, text = before ++ cursor.rest ++ after ∧ Text.bytes before = cursor.pos
  setStart : ∀ start, cursor.setStart = some start → text.Boundary start

variable {cursor after : Cursor} {text : Text}

theorem over_atStart (before middle after : Text) :
    (atStart middle before.bytes).Over (before ++ middle ++ after) :=
  ⟨⟨before, after, rfl, rfl⟩, by simp [atStart]⟩

theorem Over.boundary (reading : cursor.Over text) : text.Boundary cursor.pos := by
  obtain ⟨before, after, rfl, same⟩ := reading.stands
  exact ⟨before, cursor.rest ++ after, by simp, same⟩

theorem Over.moveTo (reading : cursor.Over text) {left : Text} (suffix : left <:+ cursor.rest) :
    (cursor.moveTo left).Over text := by
  obtain ⟨front, split⟩ := suffix
  obtain ⟨before, after, rfl, same⟩ := reading.stands
  refine ⟨⟨before ++ front, after, ?_, ?_⟩, reading.setStart⟩
  · simp [Cursor.moveTo, ← split]
  · simp [Cursor.moveTo, ← split, same]

theorem setStartAfter_eq_some {setStart : Option Nat} {pos start : Nat} {token : Token}
    (opened : setStartAfter setStart pos token = some start) :
    start = pos ∨ setStart = some start := by
  cases token with
  | openSet negated => exact .inl (Option.some.inj opened).symm
  | closeSet => contradiction
  | _ => exact .inr opened

theorem Over.of_scan_token {token : PosToken} (reading : cursor.Over text)
    (found : cursor.scan = .token token after) : token.pos = cursor.pos ∧ after.Over text := by
  obtain ⟨c, rest, left, split, read, place, rfl⟩ := Cursor.of_scan_token found
  have suffix : left <:+ cursor.rest := by
    have taken := lexeme_rest_suffix cursor.setStart c rest
    rw [lexeme_eq_front, read] at taken
    exact split ▸ taken.trans (List.suffix_cons c rest)
  refine ⟨place, (reading.moveTo suffix).stands, fun start opened => ?_⟩
  rcases setStartAfter_eq_some opened with rfl | before
  · exact reading.boundary
  · exact reading.setStart start before

theorem Over.of_scan_failed {fault : Fault} (reading : cursor.Over text)
    (failed : cursor.scan = .failed fault after) : text.Boundary fault.pos := by
  rcases Cursor.of_scan_failed failed with ⟨opened, -⟩ | ⟨left, suffix, rfl, here | there⟩
  · exact reading.setStart _ opened
  · exact here ▸ reading.boundary
  · exact there ▸ (reading.moveTo suffix).boundary

theorem Over.scanAll (reading : cursor.Over text) :
    ∀ pos ∈ cursor.scanAll.places, text.Boundary pos := by
  induction cursor using scanAll.induct with
  | case1 cursor finished => simp [scanAll_of_finished finished, Scanned.places]
  | case2 cursor fault after failed =>
      simpa [scanAll_of_failed failed, Scanned.places] using reading.of_scan_failed failed
  | case3 cursor token after found shorter ih =>
      obtain ⟨place, later⟩ := reading.of_scan_token found
      rw [scanAll_of_scan found]
      intro pos member
      rcases List.mem_cons.mp member with rfl | member
      · exact place ▸ reading.boundary
      · exact ih later pos member

end Cursor

theorem Flags.boundary_of_read {pos : Nat} {flags : Flags} {text : Text} {fault : Fault}
    (refused : flags.read pos text = .error fault) :
    ∃ offset, text.Boundary offset ∧ fault.pos = pos + offset := by
  induction text generalizing pos flags with
  | nil => contradiction
  | cons c rest ih =>
      unfold Flags.read at refused
      split at refused
      · cases refused
        exact ⟨0, .start _, rfl⟩
      split at refused
      · cases refused
        exact ⟨0, .start _, rfl⟩
      obtain ⟨offset, boundary, same⟩ := ih refused
      refine ⟨Text.bytes [c] + offset, ?_, ?_⟩
      · simpa using boundary.inside [c] []
      · simp [same, Nat.add_assoc]

namespace Enclosed

theorem split_of_ofText {text : Text} {parts : Enclosed} (read : ofText text = .ok parts) :
    ∃ tail, text = [parts.delimiter] ++ parts.pattern ++ parts.delimiter :: tail := by
  unfold ofText at read
  split at read
  · contradiction
  · contradiction
  · next delimiter rest _ =>
      split at read
      · split at read
        · contradiction
        · next pattern tail found =>
            obtain ⟨flags, -, read⟩ := bind_eq_ok_iff.mp read
            cases read
            exact ⟨tail, by simp [(eq_append_of_splitLast? found).1]⟩
      · contradiction

theorem boundary_of_ofText {text : Text} {fault : Fault} (refused : ofText text = .error fault) :
    text.Boundary fault.pos := by
  unfold ofText at refused
  split at refused
  · cases refused
    exact .start _
  · cases refused
    exact .start _
  · next delimiter rest _ =>
      split at refused
      · split at refused
        · cases refused
          exact .stop _
        · next pattern tail found =>
            have whole : delimiter :: rest = (delimiter :: pattern ++ [delimiter]) ++ tail := by
              simp [(eq_append_of_splitLast? found).1]
            have place : Text.bytes (delimiter :: rest) - tail.bytes =
                Text.bytes (delimiter :: pattern ++ [delimiter]) := by
              rw [whole, Text.bytes_append, Nat.add_sub_cancel]
            cases flagged : Flags.read (Text.bytes (delimiter :: rest) - tail.bytes) .empty tail with
            | ok flags =>
                rw [flagged] at refused
                contradiction
            | error found =>
                rw [flagged] at refused
                cases refused
                obtain ⟨offset, boundary, same⟩ := Flags.boundary_of_read flagged
                rw [same, place, whole]
                simpa using boundary.inside (delimiter :: pattern ++ [delimiter]) []
      · cases refused
        exact .start _

end Enclosed

theorem Parse.fault_of_scan {pattern : Text} {pos : Nat} {flags : Flags} {refusal : Refusal}
    (refused : regex (Cursor.atStart pattern pos).scanAll flags = .error refusal) :
    ∃ fault, refusal = .fault fault ∧
      fault.pos ∈ (Cursor.atStart pattern pos).scanAll.places := by
  obtain ⟨fault, rfl⟩ :=
    blamesText_regex (Cursor.atStart pattern pos).inPlace_scanAll flags refusal refused
  exact ⟨fault, rfl, pos_mem_places refused⟩

theorem Enclosed.fault_of_scan {text : Text} {parts : Enclosed} (read : ofText text = .ok parts)
    {refusal : Refusal}
    (refused : Parse.regex (Cursor.atStart parts.pattern parts.offset).scanAll parts.flags =
      .error refusal) : ∃ fault, refusal = .fault fault ∧ text.Boundary fault.pos := by
  obtain ⟨fault, rfl, place⟩ := Parse.fault_of_scan refused
  obtain ⟨tail, rfl⟩ := split_of_ofText read
  exact ⟨fault, rfl, (Cursor.over_atStart [parts.delimiter] _ _).scanAll _ place⟩

theorem Regex.boundary_of_ofText {text : Text} {error : Error}
    (refused : ofText text = .error error) :
    ∃ fault, error = .badText text fault ∧ text.Boundary fault.pos := by
  unfold ofText at refused
  cases read : Enclosed.ofText text with
  | error fault =>
      rw [read] at refused
      cases refused
      exact ⟨fault, rfl, Enclosed.boundary_of_ofText read⟩
  | ok parts =>
      rw [read, mapError_ok, ok_bind] at refused
      cases parsed : Parse.regex (Cursor.atStart parts.pattern parts.offset).scanAll parts.flags with
      | ok regex =>
          rw [parsed] at refused
          contradiction
      | error refusal =>
          rw [parsed] at refused
          cases refused
          obtain ⟨fault, rfl, boundary⟩ := Enclosed.fault_of_scan read parsed
          exact ⟨fault, rfl, boundary⟩

/-- A text is refused for a fault of its own, located where one of its characters starts or at its
end; and each token of its pattern is scanned in the mode that the tokens before it leave. -/
theorem fault_of_ofText (text : Text) :
    (∀ error, Regex.ofText text = .error error →
      ∃ fault, error = .badText text fault ∧ fault.pos ≤ text.bytes ∧ text.Boundary fault.pos) ∧
    ∀ parts, Enclosed.ofText text = .ok parts → ∀ before token after,
      kinds (Cursor.atStart parts.pattern parts.offset).scanAll.tokens = before ++ token :: after →
      if Token.insideAfterAll false before then
        (∃ c, token = .literal c) ∨ token = .minus ∨ token = .closeSet
      else token ≠ .minus ∧ token ≠ .closeSet := by
  constructor
  · intro error refused
    obtain ⟨fault, rfl, boundary⟩ := Regex.boundary_of_ofText refused
    exact ⟨fault, rfl, boundary.le_bytes, boundary⟩
  · intro parts _ before token after split
    have belongs := (Cursor.atStart parts.pattern parts.offset).inPlace_scanAll.belongs split
    change token.Belongs (Token.insideAfterAll false before) at belongs
    cases mode : Token.insideAfterAll false before with
    | true =>
        rw [mode] at belongs
        exact belongs
    | false =>
        rw [mode] at belongs
        constructor
        · rintro rfl
          exact belongs
        · rintro rfl
          exact belongs

theorem fault_of_ofText_unclosed :
    ∃ fault, Regex.ofText "/é[b-/".toList = .error (.badText "/é[b-/".toList fault) ∧
      fault.pos = 3 ∧ fault.pos ≤ Text.bytes "/é[b-/".toList ∧
      Text.Boundary "/é[b-/".toList fault.pos ∧
      ((∃ c, Token.literal 'b' = .literal c) ∨ Token.literal 'b' = .minus ∨
        Token.literal 'b' = .closeSet) := by
  have parted : Enclosed.ofText "/é[b-/".toList = .ok ⟨'/', "é[b-".toList, {}⟩ := by rfl
  have scanned : (Cursor.atStart "é[b-".toList 1).scanAll =
      ⟨[⟨1, .literal 'é'⟩, ⟨3, .openSet false⟩, ⟨4, .literal 'b'⟩, ⟨5, .minus⟩],
        some ⟨3, .unclosedSet⟩⟩ := by decide +kernel
  have refused : Regex.ofText "/é[b-/".toList =
      .error (.badText "/é[b-/".toList ⟨3, .unclosedSet⟩) := by
    simp only [Regex.ofText, parted, mapError_ok, ok_bind]
    change Except.mapError _ (Parse.regex (Cursor.atStart "é[b-".toList 1).scanAll _) = _
    rw [scanned]
    rfl
  obtain ⟨located, modes⟩ := fault_of_ofText "/é[b-/".toList
  obtain ⟨fault, same, inText, boundary⟩ := located _ refused
  have place : fault.pos = 3 := by
    cases same
    rfl
  refine ⟨fault, refused.trans (congrArg Except.error same), place, inText, boundary, ?_⟩
  exact modes _ parted [.literal 'é', .openSet false] (.literal 'b') [.minus]
    (congrArg (fun scanned => kinds scanned.tokens) scanned)

end RegexForge
