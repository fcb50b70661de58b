import RegexForge.Proofs.Delivery

/-!
The places of a scan. A cursor keeps its place by counting the bytes it reads: from one scan to the
next it passes a piece of the text, and its place grows by the bytes of the piece, whether the scan
yields a token or fails. So a stream always stands between two characters of its span, with the rest
of the span before it, and never moves back. A token is not empty and starts where the scan before
it stopped. When the scan ends without a fault, its tokens therefore divide the span without gaps,
and they are no more than its characters.
-/

namespace RegexForge

open TokenStream

/-- Cuts a text at each of the places but the last. -/
def Text.pieces (text : Text) (cuts : List Nat) : List Text :=
  List.zipWith text.slice cuts cuts.tail

def cuts (tokens : List PosToken) (stop : Nat) : List Nat :=
  tokens.map PosToken.pos ++ [stop]

/-- The tokens divide the bytes of `input` from `start` to `stop` into pieces of text. -/
structure Tiles (input : Text) (start stop : Nat) (tokens : List PosToken) : Prop where
  first : (cuts tokens stop).head? = some start
  increasing : (cuts tokens stop).Pairwise (· < ·)
  filled : ∀ piece ∈ input.pieces (cuts tokens stop), piece ≠ []
  whole : (input.pieces (cuts tokens stop)).flatten = input.slice start stop

theorem Text.bytes_pos {text : Text} (filled : text ≠ []) : 0 < text.bytes := by
  cases text with
  | nil => contradiction
  | cons c rest => exact Nat.add_pos_left c.utf8Size_pos _

theorem Text.pieces_cons (text : Text) (first second : Nat) (others : List Nat) :
    text.pieces (first :: second :: others) =
      text.slice first second :: text.pieces (second :: others) :=
  rfl

theorem Tiles.cons {input : Text} {start middle stop : Nat} {token : PosToken}
    {rest : List PosToken} (tiles : Tiles input middle stop rest) (place : token.pos = start)
    (moves : start < middle) (filled : input.slice start middle ≠ [])
    (joined : input.slice start middle ++ input.slice middle stop = input.slice start stop) :
    Tiles input start stop (token :: rest) := by
  obtain ⟨others, split⟩ := List.head?_eq_some_iff.mp tiles.first
  have added : cuts (token :: rest) stop = start :: middle :: others := by
    rw [← split, ← place]
    rfl
  have increasing := tiles.increasing
  have pieces := tiles.filled
  have whole := tiles.whole
  rw [split] at increasing pieces whole
  constructor
  · rw [added]
    rfl
  · rw [added]
    refine increasing.cons fun cut member => ?_
    rcases List.mem_cons.mp member with rfl | later
    · exact moves
    · exact Nat.lt_trans moves (List.rel_of_pairwise_cons increasing later)
  · rw [added, Text.pieces_cons]
    exact List.forall_mem_cons.mpr ⟨filled, pieces⟩
  · rw [added, Text.pieces_cons, List.flatten_cons, whole, joined]

namespace Cursor

variable {cursor middle after : Cursor} {piece : Text}

/-- From the one cursor to the other the piece of text is read. -/
structure Passes (cursor : Cursor) (piece : Text) (after : Cursor) : Prop where
  text : cursor.rest = piece ++ after.rest
  bytes : after.pos = cursor.pos + piece.bytes

theorem passes_nil (cursor : Cursor) : cursor.Passes [] cursor :=
  ⟨rfl, rfl⟩

theorem Passes.trans {more : Text} (first : cursor.Passes piece middle)
    (second : middle.Passes more after) : cursor.Passes (piece ++ more) after :=
  ⟨by rw [first.text, second.text, List.append_assoc],
    by rw [second.bytes, first.bytes, Text.bytes_append, Nat.add_assoc]⟩

theorem Passes.le (passes : cursor.Passes piece after) : cursor.pos ≤ after.pos := by
  rw [passes.bytes]
  exact Nat.le_add_right _ _

theorem passes_moveTo (cursor : Cursor) {left : Text} (split : cursor.rest = piece ++ left) :
    cursor.Passes piece (cursor.moveTo left) :=
  ⟨split, by simp [moveTo, split]⟩

theorem passes_of_scan_token {token : PosToken} (found : cursor.scan = .token token after) :
    token.pos = cursor.pos ∧ ∃ piece, piece ≠ [] ∧ cursor.Passes piece after := by
  obtain ⟨c, rest, left, split, read, place, rfl⟩ := of_scan_token found
  have suffix := lexeme_rest_suffix cursor.setStart c rest
  rw [lexeme_eq_front, read] at suffix
  obtain ⟨front, rfl⟩ := suffix
  have passes : cursor.Passes (c :: front) (cursor.moveTo left) := cursor.passes_moveTo split
  exact ⟨place, c :: front, by simp, passes.text, passes.bytes⟩

theorem passes_of_scan_failed {fault : Fault} (failed : cursor.scan = .failed fault after) :
    ∃ piece, cursor.Passes piece after := by
  rcases of_scan_failed failed with ⟨-, rfl⟩ | ⟨left, ⟨front, split⟩, rfl, -⟩
  · exact ⟨[], passes_nil _⟩
  · exact ⟨front, cursor.passes_moveTo split.symm⟩

theorem head?_cuts (ending : cursor.scanAll.ending = none) :
    (cuts cursor.scanAll.tokens (cursor.pos + Text.bytes cursor.rest)).head? =
      some cursor.pos := by
  cases found : cursor.scan with
  | finished => simp [cuts, scanAll_of_finished found, (of_scan_finished found).1]
  | failed fault after => simp [scanAll_of_failed found] at ending
  | token token after => simp [cuts, scanAll_of_scan found, (passes_of_scan_token found).1]

theorem length_scanAll_le (cursor : Cursor) :
    cursor.scanAll.tokens.length ≤ cursor.rest.length := by
  induction cursor using scanAll.induct with
  | case1 cursor finished => simp [scanAll_of_finished finished]
  | case2 cursor fault after failed => simp [scanAll_of_failed failed]
  | case3 cursor token after found shorter ih =>
      rw [scanAll_of_scan found, List.length_cons]
      omega

theorem Passes.slice (passes : cursor.Passes piece after) (before behind : Text)
    (stands : cursor.pos = before.bytes) :
    (before ++ cursor.rest ++ behind).slice cursor.pos after.pos = piece := by
  have cut := Text.slice_append before piece (after.rest ++ behind)
  rwa [← stands, ← passes.bytes, List.append_assoc, ← List.append_assoc piece, ← passes.text,
    ← List.append_assoc] at cut

theorem slice_rest (before behind : Text) (stands : cursor.pos = before.bytes) :
    (before ++ cursor.rest ++ behind).slice cursor.pos (cursor.pos + Text.bytes cursor.rest) =
      cursor.rest := by
  rw [stands, Text.slice_append]

theorem Passes.stop (passes : cursor.Passes piece after) :
    after.pos + Text.bytes after.rest = cursor.pos + Text.bytes cursor.rest := by
  rw [passes.bytes, passes.text, Text.bytes_append, Nat.add_assoc]

theorem tiles_scanAll (before behind : Text) {cursor : Cursor}
    (stands : cursor.pos = before.bytes) (ending : cursor.scanAll.ending = none) :
    Tiles (before ++ cursor.rest ++ behind) cursor.pos (cursor.pos + Text.bytes cursor.rest)
      cursor.scanAll.tokens := by
  -- On the recursion of the scan; what a scan passes goes over into the part in front.
  induction cursor using scanAll.induct generalizing before with
  | case1 cursor finished =>
      obtain ⟨empty, -⟩ := of_scan_finished finished
      rw [scanAll_of_finished finished]
      constructor <;> simp [cuts, Text.pieces, Text.slice, Text.takeBytes, empty]
  | case2 cursor fault after failed => simp [scanAll_of_failed failed] at ending
  | case3 cursor token after found shorter ih =>
      obtain ⟨place, piece, filled, passes⟩ := passes_of_scan_token found
      rw [scanAll_of_scan found] at ending ⊢
      have moved : after.pos = Text.bytes (before ++ piece) := by
        rw [passes.bytes, stands, Text.bytes_append]
      have later := ih (before ++ piece) moved ending
      have same : before ++ piece ++ after.rest ++ behind = before ++ cursor.rest ++ behind := by
        rw [passes.text, List.append_assoc before]
      have taken := passes.slice before behind stands
      have others := slice_rest (before ++ piece) behind moved
      rw [same, passes.stop] at later others
      refine later.cons place ?_ (taken ▸ filled) ?_
      · have bytes := passes.bytes
        have positive := Text.bytes_pos filled
        omega
      · rw [taken, others, slice_rest before behind stands, passes.text]

structure Within (cursor : Cursor) (input : Text) (start stop : Nat) : Prop where
  started : start ≤ cursor.pos
  stopped : cursor.pos ≤ stop
  boundary : input.Boundary cursor.pos
  rest : input.slice cursor.pos stop = cursor.rest

theorem Passes.within {middle : Text} (before behind : Text)
    (passes : (atStart middle before.bytes).Passes piece after) :
    after.Within (before ++ middle ++ behind) before.bytes (before.bytes + middle.bytes) := by
  have stop : after.pos + Text.bytes after.rest = before.bytes + middle.bytes := passes.stop
  have stands : after.pos = Text.bytes (before ++ piece) := by
    rw [passes.bytes, Text.bytes_append]
    rfl
  have same : before ++ middle ++ behind = before ++ piece ++ after.rest ++ behind := by
    rw [List.append_assoc before piece, ← passes.text]
    rfl
  refine ⟨passes.le, stop ▸ Nat.le_add_right _ _, ?_, ?_⟩
  · exact ⟨before ++ piece, after.rest ++ behind, by rw [same, List.append_assoc], stands.symm⟩
  · rw [same, ← stop, slice_rest _ _ stands]

end Cursor

namespace Scanned

variable {input : Text} {left after : Scanned}

/-! What is left after a request is the end of what was left before it. -/

theorem Takes.suffix {outcome : Except Error PosToken} (takes : left.Takes input outcome after) :
    after.tokens <:+ left.tokens := by
  cases takes with
  | token whole => exact List.suffix_cons _ _
  | fault lost fault => exact List.nil_suffix

theorem Delivery.suffix {request : Request} {answer : Answer}
    (delivery : left.Delivery input request answer after) : after.tokens <:+ left.tokens := by
  cases delivery with
  | next takes => exact takes.suffix
  | consume stands takes => exact takes.suffix
  | _ => exact List.suffix_refl _

theorem Delivers.suffix {requests : List Request} {answers : List Answer}
    (delivers : left.Delivers input requests answers after) : after.tokens <:+ left.tokens := by
  induction delivers with
  | done left => exact List.suffix_refl _
  | step now later ih => exact ih.trans now.suffix

theorem Takes.length {outcome : Except Error PosToken} (takes : left.Takes input outcome after) :
    after.tokens.length + 1 = left.tokens.length := by
  cases takes <;> rfl

end Scanned

namespace TokenStream

variable (stream : TokenStream)

theorem passes_next : ∃ piece, stream.cursor.Passes piece stream.next.2.cursor := by
  cases stands : stream.ahead with
  | none =>
      rw [next_of_over stream stands]
      exact ⟨[], Cursor.passes_nil _⟩
  | some front =>
      rcases stream.next_of_ahead stands with
        ⟨later, after, scanned, same⟩ | ⟨scanned, same⟩ | ⟨fault, after, scanned, same⟩
      · obtain ⟨-, piece, -, passes⟩ := Cursor.passes_of_scan_token scanned
        rw [same]
        exact ⟨piece, passes⟩
      · rw [same]
        exact ⟨[], Cursor.passes_nil _⟩
      · obtain ⟨piece, passes⟩ := Cursor.passes_of_scan_failed scanned
        rw [same]
        exact ⟨piece, passes⟩

theorem passes_after (requests : List Request) :
    ∃ piece, stream.cursor.Passes piece (stream.after requests).cursor := by
  have step (later : TokenStream) (passed : ∃ piece, stream.cursor.Passes piece later.cursor) :
      ∃ piece, stream.cursor.Passes piece later.next.2.cursor := by
    obtain ⟨front, first⟩ := passed
    obtain ⟨piece, second⟩ := later.passes_next
    exact ⟨front ++ piece, first.trans second⟩
  exact stream.after_invariant step ⟨[], Cursor.passes_nil _⟩ requests

theorem passes_of_start {input : Text} {cursor : Cursor} {stream : TokenStream}
    (made : start input cursor = .ok stream) : ∃ piece, cursor.Passes piece stream.cursor := by
  rcases of_start made with ⟨token, after, scanned, rfl⟩ | ⟨scanned, rfl⟩
  · obtain ⟨-, piece, -, passes⟩ := Cursor.passes_of_scan_token scanned
    exact ⟨piece, passes⟩
  · exact ⟨[], Cursor.passes_nil cursor⟩

theorem after_nexts {count : Nat} (enough : stream.left.tokens.length ≤ count) :
    (stream.after (List.replicate count .next)).ahead = none := by
  induction count generalizing stream with
  | zero => exact stream.ahead_of_left_nil (List.length_eq_zero_iff.mp (Nat.le_zero.mp enough))
  | succ count ih =>
      cases ahead : stream.ahead with
      | none => rw [after_of_over stream ahead, ahead]
      | some front =>
          obtain ⟨outcome, -, takes⟩ := stream.takes_next ahead
          have fewer := takes.length
          exact ih stream.next.2 (by omega)

/-- What is not scanned yet holds no fault, and something is ahead until all is scanned. -/
structure Faultless (stream : TokenStream) : Prop where
  ending : stream.cursor.scanAll.ending = none
  ended : stream.ahead = none → stream.cursor.rest = []

variable {stream}

theorem Faultless.next (faultless : stream.Faultless) : stream.next.2.Faultless := by
  have ending := faultless.ending
  cases stands : stream.ahead with
  | none => rwa [next_of_over stream stands]
  | some front =>
      rcases stream.next_of_ahead stands with
        ⟨later, after, scanned, same⟩ | ⟨scanned, same⟩ | ⟨fault, after, scanned, same⟩
      · rw [same]
        rw [Cursor.scanAll_of_scan scanned] at ending
        exact ⟨ending, by simp⟩
      · rw [same]
        exact ⟨ending, fun _ => (Cursor.of_scan_finished scanned).1⟩
      · simp [Cursor.scanAll_of_failed scanned] at ending

theorem faultless_of_start {input : Text} {cursor : Cursor} (made : start input cursor = .ok stream)
    (ending : cursor.scanAll.ending = none) : stream.Faultless := by
  rcases of_start made with ⟨token, after, scanned, rfl⟩ | ⟨scanned, rfl⟩
  · rw [Cursor.scanAll_of_scan scanned] at ending
    exact ⟨ending, by simp⟩
  · exact ⟨ending, fun _ => (Cursor.of_scan_finished scanned).1⟩

theorem Faultless.head?_cuts (faultless : stream.Faultless) :
    (cuts (stream.left.tokens.drop 1) (stream.pos + Text.bytes stream.cursor.rest)).head? =
      some stream.pos := by
  cases ahead : stream.ahead with
  | none => simp [left_of_over stream ahead, cuts, faultless.ended ahead]
  | some front =>
      simp only [left, ahead, List.drop_one, List.tail_cons]
      exact Cursor.head?_cuts faultless.ending

end TokenStream

/-- The places of a stream over a span of a text. Whatever it is asked, the stream stands between two
characters of the span with the rest of the span before it, and does not move back; a fault leaves
it so too. The places of a scan without a fault divide the whole span, and the stream stands where
the token behind the one ahead starts, at last at the end of the span. There are no more tokens than
characters, so that as many requests for a token bring the stream to its end. -/
theorem places_tile (before middle after : Text) :
    let input := before ++ middle ++ after
    let start := before.bytes
    let stop := before.bytes + middle.bytes
    let first := Cursor.atStart middle start
    let made := TokenStream.ofSpan input start stop
    let scanned := first.scanAll
    (∀ stream, made = .ok stream → ∀ requests,
      (stream.after requests).cursor.Within input start stop ∧
      ∀ more, (stream.after requests).pos ≤ (stream.after (requests ++ more)).pos) ∧
    (∀ fault failed, first.scan = .failed fault failed → failed.Within input start stop) ∧
    (scanned.ending = none →
      Tiles input start stop scanned.tokens ∧
      ∀ stream, made = .ok stream → ∀ requests,
        (stream.after requests).left.tokens <:+ scanned.tokens ∧
        (cuts ((stream.after requests).left.tokens.drop 1) stop).head? =
          some (stream.after requests).pos ∧
        ((stream.after requests).peek = none → (stream.after requests).pos = stop)) ∧
    scanned.tokens.length ≤ middle.length ∧
    ∀ stream, made = .ok stream →
      (stream.after (List.replicate middle.length .next)).peek = none := by
  intro input start stop first made scanned
  have cut : made = TokenStream.start input first := by
    simp only [made, TokenStream.ofSpan, input, start, stop, first, Text.slice_append]
  rw [cut]
  have bound : scanned.tokens.length ≤ middle.length := first.length_scanAll_le
  have reached : ∀ stream, TokenStream.start input first = .ok stream → ∀ requests,
      ∃ piece, first.Passes piece (stream.after requests).cursor := fun stream began requests => by
    obtain ⟨front, began⟩ := passes_of_start began
    obtain ⟨piece, passes⟩ := stream.passes_after requests
    exact ⟨front ++ piece, began.trans passes⟩
  refine ⟨fun stream began requests => ⟨?_, fun more => ?_⟩, fun fault failed found => ?_,
    fun ending => ⟨?_, fun stream began requests => ?_⟩, bound, fun stream began => ?_⟩
  · obtain ⟨piece, passes⟩ := reached stream began requests
    exact passes.within before after
  · obtain ⟨piece, passes⟩ := (stream.after requests).passes_after more
    rw [stream.after_append]
    exact passes.le
  · obtain ⟨piece, passes⟩ := Cursor.passes_of_scan_failed found
    exact passes.within before after
  · exact Cursor.tiles_scanAll before after rfl ending
  · obtain ⟨piece, passes⟩ := reached stream began requests
    have faultless := stream.after_invariant (fun _ => Faultless.next)
      (faultless_of_start began ending) requests
    have delivers := stream.delivers_respondAll requests
    rw [(left_of_start began).2] at delivers
    have place := faultless.head?_cuts
    rw [show (stream.after requests).pos + _ = stop from passes.stop] at place
    refine ⟨delivers.suffix, place, fun nothing => ?_⟩
    rw [left_of_over _ nothing] at place
    exact (Option.some.inj place).symm
  · refine stream.after_nexts ?_
    rwa [(left_of_start began).2]

-- The pieces of a text, the first of two bytes.
example :
    let text : Text := "é(?<=b){2,}?".toList
    text.pieces (cuts (Cursor.atStart text 0).scanAll.tokens text.bytes) =
      ["é".toList, "(?<=".toList, "b".toList, ")".toList, "{2,}?".toList] := by
  decide +kernel

end RegexForge
