import RegexForge.Token.Stream

/-!
Quantifiers in braces. Behind the opening brace one or two numbers are read, each the longest run of
digits that stands there. `Counted` says which texts make bounds, whatever the number of their
digits, and `Unread` what is wrong with a text that does not start with one of them and a closing
brace. Every text is of exactly one of these two forms, since a number that has been read is the
same in both, so the scan is described completely by them.
-/

namespace RegexForge

namespace Braces

structure Digits (text : Text) : Prop where
  filled : text ≠ []
  all : ∀ c ∈ text, c.isDigit = true

/-- The digits write the count. There may be zeros in front. -/
structure Writes (digits : Text) (count : UInt64) : Prop extends Digits digits where
  value : Nat.ofDigitChars 10 digits 0 = count.toNat

structure Oversized (digits : Text) : Prop extends Digits digits where
  value : UInt64.size ≤ Nat.ofDigitChars 10 digits 0

def Undigited (text : Text) : Prop :=
  ∀ c, text.head? = some c → c.isDigit = false

inductive Counted : Text → UInt64 → Option UInt64 → Prop where
  | exactly {digits : Text} {count : UInt64} (writes : Writes digits count) :
      Counted digits count (some count)
  | atLeast {digits : Text} {count : UInt64} (writes : Writes digits count) :
      Counted (digits ++ [',']) count none
  | between {low high : Text} {min max : UInt64} (first : Writes low min)
      (second : Writes high max) : Counted (low ++ ',' :: high) min (some max)

/-- The text behind the bounds does not belong to them: it has no more digits, and no comma if they
have none themselves. -/
structure Ends (bounds rest : Text) : Prop where
  digits : Undigited rest
  comma : ',' ∈ bounds ∨ rest.head? ≠ some ','

/-- What is wrong with the text behind an opening brace, and how far from the brace it shows. -/
inductive Unread : Text → QuantifierFault → Nat → Prop where
  | noNumber {text : Text} (undigited : Undigited text) : Unread text .expectedNumber 0
  | lowTooLarge {low rest : Text} (oversized : Oversized low) (ends : Undigited rest) :
      Unread (low ++ rest) .countTooLarge 0
  | highTooLarge {low high rest : Text} {min : UInt64} (writes : Writes low min)
      (oversized : Oversized high) (ends : Undigited rest) :
      Unread (low ++ ',' :: (high ++ rest)) .countTooLarge 0
  | noBrace {bounds rest : Text} {min : UInt64} {max : Option UInt64}
      (counted : Counted bounds min max) (ends : Ends bounds rest)
      (unclosed : rest.head? ≠ some '}') :
      Unread (bounds ++ rest) .expectedBrace (Text.bytes ('{' :: bounds))

/-- Whether a repetition is lazy is said by the text behind it. -/
inductive Marked : Text → Bool → Text → Prop where
  | lazily (rest : Text) : Marked ('?' :: rest) true rest
  | greedily {rest : Text} (apart : rest.head? ≠ some '?') : Marked rest false rest

theorem undigited_cons {c : Char} (stops : c.isDigit = false) (rest : Text) :
    Undigited (c :: rest) := by
  simp [Undigited, stops]

theorem ends_brace (bounds rest : Text) : Ends bounds ('}' :: rest) :=
  ⟨undigited_cons (by decide) rest, .inr (by simp)⟩

inductive Numeral where
  | missing
  | oversized
  | count (value : UInt64)

inductive Numbered : Text → Numeral → Text → Prop where
  | missing {text : Text} (undigited : Undigited text) : Numbered text .missing text
  | oversized {digits rest : Text} (oversized : Oversized digits) (ends : Undigited rest) :
      Numbered (digits ++ rest) .oversized rest
  | count {digits rest : Text} {value : UInt64} (writes : Writes digits value)
      (ends : Undigited rest) : Numbered (digits ++ rest) (.count value) rest

section Runs

variable {digits rest : Text}

theorem takeWhile_undigited (ends : Undigited rest) : rest.takeWhile Char.isDigit = [] := by
  cases rest with
  | nil => rfl
  | cons c others => simp [ends c rfl]

theorem dropWhile_undigited (ends : Undigited rest) : rest.dropWhile Char.isDigit = rest := by
  cases rest with
  | nil => rfl
  | cons c others => simp [ends c rfl]

theorem takeWhile_digits (run : Digits digits) (ends : Undigited rest) :
    (digits ++ rest).takeWhile Char.isDigit = digits := by
  rw [List.takeWhile_append_of_pos run.all, takeWhile_undigited ends, List.append_nil]

theorem dropWhile_digits (run : Digits digits) (ends : Undigited rest) :
    (digits ++ rest).dropWhile Char.isDigit = rest := by
  rw [List.dropWhile_append_of_pos run.all, dropWhile_undigited ends]

theorem undigited_dropWhile (text : Text) : Undigited (text.dropWhile Char.isDigit) := by
  intro c head
  have stops := List.head?_dropWhile_not Char.isDigit text
  rwa [head] at stops

end Runs

theorem numbered (text : Text) : ∃ numeral rest, Numbered text numeral rest := by
  have split := List.takeWhile_append_dropWhile (p := Char.isDigit) (l := text)
  have ends := undigited_dropWhile text
  by_cases filled : text.takeWhile Char.isDigit = []
  · rw [filled, List.nil_append] at split
    exact ⟨_, _, .missing (split ▸ ends)⟩
  · have run : Digits (text.takeWhile Char.isDigit) :=
      ⟨filled, List.all_eq_true.mp List.all_takeWhile⟩
    rw [← split]
    by_cases fits : Nat.ofDigitChars 10 (text.takeWhile Char.isDigit) 0 < UInt64.size
    · exact ⟨_, _, .count ⟨run, (UInt64.toNat_ofNat_of_lt fits).symm⟩ ends⟩
    · exact ⟨_, _, .oversized ⟨run, Nat.le_of_not_lt fits⟩ ends⟩

end Braces

open Braces

namespace Lexeme

variable {text rest : Text} {numeral : Numeral}

theorem count?_of_writes {digits : Text} {count : UInt64} (writes : Writes digits count) :
    count? digits = some count := by
  simp only [count?, writes.value, count.toNat_lt_size, ↓reduceIte, UInt64.ofNat_toNat]

theorem count?_of_oversized {digits : Text} (oversized : Oversized digits) :
    count? digits = none := by
  simp only [count?, Nat.not_lt.mpr oversized.value, ↓reduceIte]

theorem braces_of_numbered (read : Numbered text numeral rest) :
    braces text =
      match numeral with
      | .missing => refused (.invalidQuantifier .expectedNumber) rest
      | .oversized => refused (.invalidQuantifier .countTooLarge) rest
      | .count min => afterLowerBound min rest := by
  cases read with
  | missing undigited =>
      simp only [braces, takeWhile_undigited undigited, dropWhile_undigited undigited]
  | @oversized digits _ oversized ends =>
      simp only [braces, takeWhile_digits oversized.toDigits ends,
        dropWhile_digits oversized.toDigits ends]
      obtain ⟨c, others, rfl⟩ := List.exists_cons_of_ne_nil oversized.filled
      simp only [count?_of_oversized oversized]
  | @count digits _ value writes ends =>
      simp only [braces, takeWhile_digits writes.toDigits ends,
        dropWhile_digits writes.toDigits ends]
      obtain ⟨c, others, rfl⟩ := List.exists_cons_of_ne_nil writes.filled
      simp only [count?_of_writes writes]

theorem upperBound_of_numbered (min : UInt64) (read : Numbered text numeral rest) :
    upperBound min text =
      match numeral with
      | .missing => closeBraces min none rest
      | .oversized => refused (.invalidQuantifier .countTooLarge) rest
      | .count max => closeBraces min (some max) rest := by
  cases read with
  | missing undigited =>
      simp only [upperBound, takeWhile_undigited undigited, dropWhile_undigited undigited]
  | oversized oversized ends =>
      simp only [upperBound, takeWhile_digits oversized.toDigits ends,
        dropWhile_digits oversized.toDigits ends]
      obtain ⟨c, others, rfl⟩ := List.exists_cons_of_ne_nil oversized.filled
      simp only [count?_of_oversized oversized]
  | count writes ends =>
      simp only [upperBound, takeWhile_digits writes.toDigits ends,
        dropWhile_digits writes.toDigits ends]
      obtain ⟨c, others, rfl⟩ := List.exists_cons_of_ne_nil writes.filled
      simp only [count?_of_writes writes]

theorem afterLowerBound_of_other (min : UInt64) (other : rest.head? ≠ some ',') :
    afterLowerBound min rest = closeBraces min (some min) rest := by
  unfold afterLowerBound
  split
  · simp at other
  · rfl

theorem closeBraces_of_other (min : UInt64) (max : Option UInt64) (other : rest.head? ≠ some '}') :
    closeBraces min max rest = missing (.invalidQuantifier .expectedBrace) rest := by
  unfold closeBraces
  split
  · simp at other
  · rfl

theorem repetition_plain (min : UInt64) (max : Option UInt64) (apart : rest.head? ≠ some '?') :
    repetition min max rest = .token (.repetition ⟨min, max, false⟩) rest := by
  unfold repetition
  split
  · simp at apart
  · rfl

theorem repetition_of_marked (min : UInt64) (max : Option UInt64) {isLazy : Bool}
    (marked : Marked text isLazy rest) :
    repetition min max text = .token (.repetition ⟨min, max, isLazy⟩) rest := by
  cases marked with
  | lazily => rfl
  | greedily apart => exact repetition_plain min max apart

theorem braces_of_counted {bounds : Text} {min : UInt64} {max : Option UInt64}
    (counted : Counted bounds min max) (ends : Ends bounds rest) :
    braces (bounds ++ rest) = closeBraces min max rest := by
  have comma : Char.isDigit ',' = false := by decide
  cases counted with
  | exactly writes =>
      -- Digits are no comma, so there is none behind them either.
      have other := ends.comma.resolve_left fun member => by simpa [comma] using writes.all _ member
      rw [braces_of_numbered (.count writes ends.digits)]
      exact afterLowerBound_of_other _ other
  | @atLeast digits count writes =>
      rw [List.append_assoc, List.singleton_append,
        braces_of_numbered (.count writes (undigited_cons comma _))]
      exact upperBound_of_numbered _ (.missing ends.digits)
  | @between low high min max first second =>
      rw [List.append_assoc, List.cons_append,
        braces_of_numbered (.count first (undigited_cons comma _))]
      exact upperBound_of_numbered _ (.count second ends.digits)

/-- A refused lexeme points at its first character, and one that lacks something at its end. -/
theorem braces_of_unread {kind : QuantifierFault} {offset : Nat}
    (unread : Unread text kind offset) :
    ∃ left, braces text = refused (.invalidQuantifier kind) left ∧ offset = 0 ∨
      braces text = missing (.invalidQuantifier kind) left ∧
        Text.bytes ('{' :: text) = offset + Text.bytes left := by
  have comma : Char.isDigit ',' = false := by decide
  cases unread with
  | noNumber undigited => exact ⟨_, .inl ⟨braces_of_numbered (.missing undigited), rfl⟩⟩
  | lowTooLarge oversized ends =>
      exact ⟨_, .inl ⟨braces_of_numbered (.oversized oversized ends), rfl⟩⟩
  | @highTooLarge low high rest min writes oversized ends =>
      refine ⟨rest, .inl ⟨?_, rfl⟩⟩
      rw [braces_of_numbered (.count writes (undigited_cons comma _))]
      exact upperBound_of_numbered min (.oversized oversized ends)
  | @noBrace bounds rest min max counted ends unclosed =>
      refine ⟨rest, .inr ⟨?_, Text.bytes_append ('{' :: bounds) rest⟩⟩
      rw [braces_of_counted counted ends, closeBraces_of_other min max unclosed]

theorem braces_closed {bounds : Text} {min : UInt64} {max : Option UInt64}
    (counted : Counted bounds min max) (closed : Text) :
    braces (bounds ++ '}' :: closed) = repetition min max closed :=
  braces_of_counted counted (ends_brace bounds closed)

end Lexeme

namespace Braces

theorem Counted.closed_or_unread {bounds rest : Text} {min : UInt64} {max : Option UInt64}
    (counted : Counted bounds min max) (ends : Ends bounds rest) :
    (∃ found min max closed, bounds ++ rest = found ++ '}' :: closed ∧ Counted found min max) ∨
      ∃ kind offset, Unread (bounds ++ rest) kind offset := by
  by_cases brace : rest.head? = some '}'
  · obtain ⟨closed, rfl⟩ := List.head?_eq_some_iff.mp brace
    exact .inl ⟨bounds, min, max, closed, rfl, counted⟩
  · exact .inr ⟨_, _, .noBrace counted ends brace⟩

theorem counted_or_unread (text : Text) :
    (∃ bounds min max closed, text = bounds ++ '}' :: closed ∧ Counted bounds min max) ∨
      ∃ kind offset, Unread text kind offset := by
  obtain ⟨numeral, rest, first⟩ := numbered text
  cases first with
  | missing undigited => exact .inr ⟨_, _, .noNumber undigited⟩
  | oversized oversized ends => exact .inr ⟨_, _, .lowTooLarge oversized ends⟩
  | @count low _ min writes ends =>
      by_cases comma : rest.head? = some ','
      · obtain ⟨later, rfl⟩ := List.head?_eq_some_iff.mp comma
        obtain ⟨numeral, rest, second⟩ := numbered later
        cases second with
        | missing undigited =>
            have found := (Counted.atLeast writes).closed_or_unread ⟨undigited, .inl (by simp)⟩
            rwa [List.append_assoc] at found
        | oversized oversized limit => exact .inr ⟨_, _, .highTooLarge writes oversized limit⟩
        | count others limit =>
            have found := (Counted.between writes others).closed_or_unread
              ⟨limit, .inl (by simp)⟩
            rwa [List.append_assoc] at found
      · exact (Counted.exactly writes).closed_or_unread ⟨ends, .inr comma⟩

theorem marked (text : Text) : ∃ isLazy rest, Marked text isLazy rest := by
  by_cases mark : text.head? = some '?'
  · obtain ⟨rest, rfl⟩ := List.head?_eq_some_iff.mp mark
    exact ⟨true, rest, .lazily rest⟩
  · exact ⟨false, text, .greedily mark⟩

end Braces

namespace Cursor

variable (pos : Nat)

theorem scan_of_counted {bounds : Bounds} {inner closed rest : Text}
    (counted : Counted inner bounds.min bounds.max) (marked : Marked closed bounds.isLazy rest) :
    scan ⟨pos, '{' :: (inner ++ '}' :: closed), none⟩ =
      .token ⟨pos, .repetition bounds⟩
        (moveTo ⟨pos, '{' :: (inner ++ '}' :: closed), none⟩ rest) := by
  have read : lexeme none '{' (inner ++ '}' :: closed) = .token (.repetition bounds) rest :=
    (Lexeme.braces_closed counted closed).trans
      (Lexeme.repetition_of_marked bounds.min bounds.max marked)
  simp only [scan, read, locate]
  rfl

theorem scan_of_unread {text : Text} {kind : QuantifierFault} {offset : Nat}
    (unread : Unread text kind offset) :
    ∃ after, scan ⟨pos, '{' :: text, none⟩ =
      .failed ⟨pos + offset, .invalidQuantifier kind⟩ after := by
  obtain ⟨left, ⟨read, rfl⟩ | ⟨read, size⟩⟩ := Lexeme.braces_of_unread unread
  · have read : lexeme none '{' text = .refused (.invalidQuantifier kind) left := read
    exact ⟨_, by simp only [scan, read, locate]; rfl⟩
  · have read : lexeme none '{' text = .missing (.invalidQuantifier kind) left := read
    refine ⟨moveTo ⟨pos, '{' :: text, none⟩ left, ?_⟩
    simp only [scan, read, locate, moveTo, size, Nat.add_sub_cancel_right]

theorem scan_of_brace (text : Text) :
    (∃ inner bounds closed rest, text = inner ++ '}' :: closed ∧
      Counted inner bounds.min bounds.max ∧ Marked closed bounds.isLazy rest ∧
      scan ⟨pos, '{' :: text, none⟩ =
        .token ⟨pos, .repetition bounds⟩ (moveTo ⟨pos, '{' :: text, none⟩ rest)) ∨
    ∃ kind offset after, Unread text kind offset ∧
      scan ⟨pos, '{' :: text, none⟩ = .failed ⟨pos + offset, .invalidQuantifier kind⟩ after := by
  rcases counted_or_unread text with ⟨inner, min, max, closed, rfl, counted⟩ |
    ⟨kind, offset, unread⟩
  · obtain ⟨isLazy, rest, marked⟩ := marked closed
    exact .inl ⟨inner, ⟨min, max, isLazy⟩, closed, rest, rfl, counted, marked,
      scan_of_counted pos counted marked⟩
  · obtain ⟨after, failed⟩ := scan_of_unread pos unread
    exact .inr ⟨kind, offset, after, unread, failed⟩

end Cursor

/-- A scan that starts at a brace outside a set reads a repetition exactly when bounds, a closing
brace and perhaps a mark of laziness stand there, and takes all of these. The numbers may be of any
length. Otherwise it fails, because there is no number or one too large, both told of the opening
brace, or at the place where the closing brace is missing. -/
theorem scan_braces (pos : Nat) (text : Text) :
    let cursor : Cursor := ⟨pos, '{' :: text, none⟩
    (∀ found after, cursor.scan = .token found after ↔
      ∃ inner bounds closed rest, text = inner ++ '}' :: closed ∧
        Counted inner bounds.min bounds.max ∧ Marked closed bounds.isLazy rest ∧
        found = ⟨pos, .repetition bounds⟩ ∧ after = cursor.moveTo rest) ∧
    (∀ fault, (∃ after, cursor.scan = .failed fault after) ↔
      ∃ kind offset, Unread text kind offset ∧ fault = ⟨pos + offset, .invalidQuantifier kind⟩) ∧
    cursor.scan ≠ .finished ∧
    [QuantifierFault.expectedNumber, .countTooLarge, .expectedBrace].map
        QuantifierFault.message =
      ["expected number", "count is too large", "expected \x7d"] := by
  intro cursor
  have described := Cursor.scan_of_brace pos text
  refine ⟨fun found after => ⟨fun read => ?_, ?_⟩, fun fault => ⟨?_, ?_⟩, fun finished => ?_, rfl⟩
  · rcases described with ⟨inner, bounds, closed, rest, split, counted, marked, scanned⟩ |
      ⟨kind, offset, left, unread, scanned⟩
    · cases scanned.symm.trans read
      exact ⟨inner, bounds, closed, rest, split, counted, marked, rfl, rfl⟩
    · cases scanned.symm.trans read
  · rintro ⟨inner, bounds, closed, rest, rfl, counted, marked, rfl, rfl⟩
    exact Cursor.scan_of_counted pos counted marked
  · rintro ⟨after, read⟩
    rcases described with ⟨inner, bounds, closed, rest, split, counted, marked, scanned⟩ |
      ⟨kind, offset, left, unread, scanned⟩
    · cases scanned.symm.trans read
    · cases scanned.symm.trans read
      exact ⟨kind, offset, unread, rfl⟩
  · rintro ⟨kind, offset, unread, rfl⟩
    exact Cursor.scan_of_unread pos unread
  · rcases described with ⟨_, _, _, _, _, _, _, scanned⟩ | ⟨_, _, _, _, scanned⟩ <;>
      cases scanned.symm.trans finished

-- Zeros in front do not count; and the second number is too large by one.
example :
    Cursor.scan ⟨2, "{007,}?b".toList, none⟩ =
        .token ⟨2, .repetition ⟨7, none, true⟩⟩ ⟨9, "b".toList, none⟩ ∧
      Cursor.scan ⟨2, "{1,18446744073709551616}".toList, none⟩ =
        .failed ⟨2, .invalidQuantifier .countTooLarge⟩ ⟨25, ['}'], none⟩ := by
  decide +kernel

end RegexForge
