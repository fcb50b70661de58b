import RegexForge.Proofs.Locations
import RegexForge.Token.Stream

/-!
Reading a part of a text in place. A scan looks at the characters of its part and at nothing beside
them, and computes every place from the one where it starts: a scan that starts further on finds the
same tokens and the same fault, each further on by as much. The same holds of a stream, whatever it
is asked, and of the reader of a pattern, so an enclosed expression reads as its bare pattern does.
-/

namespace RegexForge

open Outcome

/-- The same cursor over a part that starts further on. -/
def Cursor.shift (offset : Nat) (cursor : Cursor) : Cursor :=
  ⟨cursor.pos + offset, cursor.rest, cursor.setStart.map (· + offset)⟩

def Scan.shift (offset : Nat) : Scan → Scan
  | .token found after => .token (found.move (· + offset)) (after.shift offset)
  | .finished => .finished
  | .failed fault after => .failed (fault.move (· + offset)) (after.shift offset)

namespace Cursor

variable (offset : Nat)

theorem atStart_shift (text : Text) (pos : Nat) :
    (atStart text pos).shift offset = atStart text (pos + offset) :=
  rfl

theorem moveTo_shift (cursor : Cursor) (rest : Text) :
    (cursor.shift offset).moveTo rest = (cursor.moveTo rest).shift offset := by
  simp only [shift, moveTo, Nat.add_right_comm]

theorem setStartAfter_shift (setStart : Option Nat) (pos : Nat) (token : Token) :
    setStartAfter (setStart.map (· + offset)) (pos + offset) token =
      (setStartAfter setStart pos token).map (· + offset) := by
  cases token <;> rfl

theorem locate_shift (cursor : Cursor) (lexeme : Lexeme) :
    (cursor.shift offset).locate lexeme = (cursor.locate lexeme).shift offset := by
  cases lexeme with
  | token token rest =>
      simp only [locate, moveTo_shift]
      simp only [shift, setStartAfter_shift]
      rfl
  | refused kind rest =>
      simp only [locate, moveTo_shift]
      rfl
  | missing kind rest =>
      simp only [locate, moveTo_shift]
      rfl

theorem lexeme_shift (setStart : Option Nat) (c : Char) (rest : Text) :
    lexeme (setStart.map (· + offset)) c rest = lexeme setStart c rest := by
  cases setStart <;> rfl

theorem scan_shift (cursor : Cursor) :
    (cursor.shift offset).scan = cursor.scan.shift offset := by
  obtain ⟨pos, rest, setStart⟩ := cursor
  cases rest with
  | nil => cases setStart <;> rfl
  | cons c rest =>
      change locate (shift offset ⟨pos, c :: rest, setStart⟩)
        (lexeme (setStart.map (· + offset)) c rest) = _
      rw [lexeme_shift, locate_shift]
      rfl

theorem scanAll_shift (cursor : Cursor) :
    (cursor.shift offset).scanAll = cursor.scanAll.move (· + offset) := by
  induction cursor using scanAll.induct with
  | case1 cursor finished =>
      have shifted : (cursor.shift offset).scan = .finished := by rw [scan_shift, finished]; rfl
      rw [scanAll_of_finished finished, scanAll_of_finished shifted]
      rfl
  | case2 cursor fault after failed =>
      have shifted : (cursor.shift offset).scan =
          .failed (fault.move (· + offset)) (after.shift offset) := by rw [scan_shift, failed]; rfl
      rw [scanAll_of_failed failed, scanAll_of_failed shifted]
      rfl
  | case3 cursor token after found shorter ih =>
      have shifted : (cursor.shift offset).scan =
          .token (token.move (· + offset)) (after.shift offset) := by rw [scan_shift, found]; rfl
      rw [scanAll_of_scan found, scanAll_of_scan shifted, ih]
      rfl

end Cursor

def Error.within (input : Text) (offset : Nat) : Error → Error
  | .badText _ fault => .badText input (fault.move (· + offset))
  | error => error

namespace TokenStream

inductive Request where
  | peek
  | next
  | consume (token : Token)
  | pos

inductive Answer where
  | ahead (token : Option PosToken)
  | taken (outcome : Except Error (Option PosToken))
  | consumed (outcome : Except Error Bool)
  | stands (pos : Nat)

def respond (stream : TokenStream) : Request → Answer × TokenStream
  | .peek => (.ahead stream.peek, stream)
  | .next => (.taken stream.next.1, stream.next.2)
  | .consume token => (.consumed (stream.consume token).1, (stream.consume token).2)
  | .pos => (.stands stream.pos, stream)

def respondAll : TokenStream → List Request → List Answer
  | _, [] => []
  | stream, request :: rest =>
      (stream.respond request).1 :: (stream.respond request).2.respondAll rest

def Answer.within (input : Text) (offset : Nat) : Answer → Answer
  | .ahead token => .ahead (token.map (PosToken.move (· + offset)))
  | .taken outcome =>
      .taken ((outcome.map (Option.map (PosToken.move (· + offset)))).mapError
        (Error.within input offset))
  | .consumed outcome => .consumed (outcome.mapError (Error.within input offset))
  | .stands pos => .stands (pos + offset)

/-- The same stream over a part of `input`. -/
def within (input : Text) (offset : Nat) (stream : TokenStream) : TokenStream :=
  ⟨input, stream.cursor.shift offset, stream.ahead.map (PosToken.move (· + offset))⟩

variable (input : Text) (offset : Nat)

theorem start_shift (part : Text) (cursor : Cursor) :
    start input (cursor.shift offset) =
      ((start part cursor).map (within input offset)).mapError (Error.within input offset) := by
  unfold start
  rw [Cursor.scan_shift]
  cases cursor.scan <;> rfl

theorem next_within (stream : TokenStream) :
    (stream.within input offset).next =
      ((stream.next.1.map (Option.map (PosToken.move (· + offset)))).mapError
        (Error.within input offset), stream.next.2.within input offset) := by
  obtain ⟨part, cursor, ahead⟩ := stream
  cases ahead with
  | none => rfl
  | some token =>
      simp only [next, within, Option.map_some, Cursor.scan_shift]
      cases cursor.scan <;> rfl

theorem consume_within (stream : TokenStream) (token : Token) :
    (stream.within input offset).consume token =
      ((stream.consume token).1.mapError (Error.within input offset),
        (stream.consume token).2.within input offset) := by
  have same : (stream.within input offset).ahead.map PosToken.token =
      stream.ahead.map PosToken.token := by
    simp only [within, Option.map_map]
    rfl
  simp only [consume, same, next_within]
  split
  · cases stream.next.1 <;> rfl
  · rfl

theorem respond_within (stream : TokenStream) (request : Request) :
    (stream.within input offset).respond request =
      ((stream.respond request).1.within input offset,
        (stream.respond request).2.within input offset) := by
  cases request with
  | peek => rfl
  | next => simp only [respond, next_within, Answer.within]
  | consume token => simp only [respond, consume_within, Answer.within]
  | pos => rfl

theorem respondAll_within (stream : TokenStream) (requests : List Request) :
    (stream.within input offset).respondAll requests =
      (stream.respondAll requests).map (Answer.within input offset) := by
  induction requests generalizing stream with
  | nil => rfl
  | cons request rest ih => simp only [respondAll, respond_within, ih, List.map_cons]

theorem ofSpan_eq (before middle after : Text) :
    ofSpan (before ++ middle ++ after) before.bytes (before.bytes + middle.bytes) =
      ((ofText middle).map (within (before ++ middle ++ after) before.bytes)).mapError
        (Error.within (before ++ middle ++ after) before.bytes) := by
  unfold ofSpan ofText
  rw [Text.slice_append, ← start_shift, Cursor.atStart_shift, Nat.zero_add]

theorem badText_of_start {part : Text} {cursor : Cursor} {error : Error}
    (refused : start part cursor = .error error) : ∃ fault, error = .badText part fault := by
  unfold start at refused
  split at refused
  · contradiction
  · contradiction
  · next fault _ _ =>
      cases refused
      exact ⟨fault, rfl⟩

end TokenStream

theorem Parse.regex_flags (scanned : Scanned) (flags other : Flags) :
    regex scanned flags = (regex scanned other).map fun read => { read with flags := flags } := by
  unfold regex
  cases settle scanned.ending scanned.tokens with
  | error refusal => rfl
  | ok due =>
      simp only [ok_bind]
      cases sequence scanned.ending (scanned.tokens.length + 1) scanned.tokens with
      | error refusal => rfl
      | ok read =>
          obtain ⟨nodes, rest⟩ := read
          cases rest <;> rfl

/-- A pattern reads further on in a text as it does at the start of one. -/
theorem Parse.regex_shift (pattern : Text) (offset : Nat) (flags : Flags) :
    regex (Cursor.atStart pattern offset).scanAll flags =
      ((regex (Cursor.atStart pattern 0).scanAll .empty).map
        fun read => { read with flags := flags }).mapError (Refusal.move (· + offset)) := by
  have scanned : (Cursor.atStart pattern offset).scanAll =
      (Cursor.atStart pattern 0).scanAll.move (· + offset) := by
    rw [← Cursor.scanAll_shift, Cursor.atStart_shift, Nat.zero_add]
  rw [scanned, regex_move, regex_flags _ flags .empty]

/-- Reading in place agrees with reading what has been cut out. An enclosed expression is accepted
exactly when its bare pattern is, with the same nodes and groups, or refused for the same fault; and
a stream over a span answers every sequence of requests as one over the text of the span. All places
are further on by the start of the pattern or of the span. -/
theorem reads_in_place :
    (∀ text parts, Enclosed.ofText text = .ok parts →
      (∃ regex, Regex.ofPattern parts.pattern = .ok regex ∧
        Regex.ofText text = .ok { regex with flags := parts.flags }) ∨
      ∃ fault, Regex.ofPattern parts.pattern = .error (.badText parts.pattern fault) ∧
        Regex.ofText text = .error (.badText text ⟨fault.pos + parts.offset, fault.kind⟩)) ∧
    ∀ input start stop, start ≤ stop → Text.Boundary input start → Text.Boundary input stop →
      ∃ before middle after, input = before ++ middle ++ after ∧ Text.bytes before = start ∧
        Text.bytes before + Text.bytes middle = stop ∧
        ((∃ stream spanned, TokenStream.ofText middle = .ok stream ∧
            TokenStream.ofSpan input start stop = .ok spanned ∧
            ∀ requests, spanned.respondAll requests =
              (stream.respondAll requests).map (TokenStream.Answer.within input start)) ∨
          ∃ fault, TokenStream.ofText middle = .error (.badText middle fault) ∧
            TokenStream.ofSpan input start stop =
              .error (.badText input ⟨fault.pos + start, fault.kind⟩)) := by
  constructor
  · intro text parts read
    simp only [Regex.ofText, Regex.ofPattern, read, mapError_ok, ok_bind, Parse.regex_shift
      parts.pattern parts.offset]
    cases parsed : Parse.regex (Cursor.atStart parts.pattern 0).scanAll .empty with
    | ok regex => exact .inl ⟨regex, rfl, rfl⟩
    | error refusal =>
        obtain ⟨fault, rfl, -⟩ := Parse.fault_of_scan parsed
        exact .inr ⟨fault, rfl, rfl⟩
  · intro input start stop ordered first second
    obtain ⟨before, middle, after, rfl, rfl, rfl⟩ := first.span second ordered
    refine ⟨before, middle, after, rfl, rfl, rfl, ?_⟩
    rw [TokenStream.ofSpan_eq]
    cases made : TokenStream.ofText middle with
    | ok stream =>
        exact .inl ⟨stream, _, rfl, rfl, TokenStream.respondAll_within _ _ stream⟩
    | error error =>
        obtain ⟨fault, rfl⟩ := TokenStream.badText_of_start made
        exact .inr ⟨fault, rfl, rfl⟩

theorem reads_in_place_wide :
    Regex.ofText "#é{2,1}#g".toList =
      .error (.badText "#é{2,1}#g".toList ⟨3, .invalidQuantifier .outOfOrder⟩) ∧
    ∃ stream, TokenStream.ofSpan "/é[b-/g".toList 1 6 = .ok stream ∧
      stream.respondAll [.next, .consume (.openSet false), .peek, .next, .next, .pos] =
        [.taken (.ok (some ⟨1, .literal 'é'⟩)), .consumed (.ok true),
          .ahead (some ⟨4, .literal 'b'⟩), .taken (.ok (some ⟨4, .literal 'b'⟩)),
          .taken (.error (.badText "/é[b-/g".toList ⟨3, .unclosedSet⟩)), .stands 6] := by
  obtain ⟨enclosed, spans⟩ := reads_in_place
  constructor
  · have parted : Enclosed.ofText "#é{2,1}#g".toList =
        .ok ⟨'#', "é{2,1}".toList, Flags.ofList [.global]⟩ := by rfl
    have scanned : (Cursor.atStart "é{2,1}".toList 0).scanAll =
        ⟨[⟨0, .literal 'é'⟩, ⟨2, .repetition ⟨2, some 1, false⟩⟩], none⟩ := by decide +kernel
    have refused : Regex.ofPattern "é{2,1}".toList =
        .error (.badText "é{2,1}".toList ⟨2, .invalidQuantifier .outOfOrder⟩) := by
      unfold Regex.ofPattern
      rw [scanned]
      rfl
    rcases enclosed _ _ parted with ⟨regex, read, -⟩ | ⟨fault, same, inPlace⟩
    · rw [refused] at read
      contradiction
    · cases refused.symm.trans same
      exact inPlace
  · obtain ⟨before, middle, after, whole, first, last, agree⟩ :=
      spans "/é[b-/g".toList 1 6 (by decide) ⟨"/".toList, "é[b-/g".toList, rfl, rfl⟩
        ⟨"/é[b-".toList, "/g".toList, rfl, rfl⟩
    have part : middle = "é[b-".toList := by
      rw [← Text.slice_append before middle after, ← whole, last, first]
      rfl
    subst part
    rcases agree with ⟨stream, spanned, made, inPlace, answers⟩ | ⟨fault, refused, -⟩
    · cases made
      exact ⟨spanned, inPlace, answers _⟩
    · contradiction

end RegexForge
