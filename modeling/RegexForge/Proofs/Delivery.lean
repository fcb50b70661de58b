import RegexForge.Proofs.Spans

/-!
What a stream hands out is the scan itself. `Delivery` says how one request is answered from what is
left of a scan, by a reader that knows the tokens beforehand: it takes them from the front, and a
fault is reported in place of the last of them. A stream knows one token only, but what is left for
it can be told from its cursor, and answering a request leaves what `Delivery` says. So the answers
to any sequence of requests are those of the reader that knows all tokens.
-/

namespace RegexForge

open Grammar TokenStream

namespace Scanned

variable (input : Text)

/-- Takes the front token away. The last token before a fault is given up for the fault, and then
nothing is left. -/
inductive Takes : Scanned → Except Error PosToken → Scanned → Prop where
  | token {token : PosToken} {rest : List PosToken} {ending : Option Fault}
      (whole : rest = [] → ending = none) :
      Takes ⟨token :: rest, ending⟩ (.ok token) ⟨rest, ending⟩
  | fault (lost : PosToken) (fault : Fault) :
      Takes ⟨[lost], some fault⟩ (.error (.badText input fault)) ⟨[], none⟩

/-- How a request is answered from what is left, and what is left then. Nothing is said of the place
where the scan stands. -/
inductive Delivery : Scanned → Request → Answer → Scanned → Prop where
  | peek (left : Scanned) : Delivery left .peek (.ahead left.tokens.head?) left
  | next {left after : Scanned} {outcome : Except Error PosToken}
      (takes : left.Takes input outcome after) :
      Delivery left .next (.taken (outcome.map some)) after
  | ended {left : Scanned} (nothing : left.tokens = []) :
      Delivery left .next (.taken (.ok none)) left
  | consume {left after : Scanned} {outcome : Except Error PosToken} {front : PosToken}
      (stands : left.tokens.head? = some front) (takes : left.Takes input outcome after) :
      Delivery left (.consume front.token) (.consumed (outcome.map fun _ => true)) after
  | keep {left : Scanned} {token : Token}
      (other : left.tokens.head?.map PosToken.token ≠ some token) :
      Delivery left (.consume token) (.consumed (.ok false)) left
  | pos (left : Scanned) (pos : Nat) : Delivery left .pos (.stands pos) left

inductive Delivers : Scanned → List Request → List Answer → Scanned → Prop where
  | done (left : Scanned) : Delivers left [] [] left
  | step {left middle after : Scanned} {request : Request} {answer : Answer}
      {requests : List Request} {answers : List Answer}
      (now : left.Delivery input request answer middle)
      (later : Delivers middle requests answers after) :
      Delivers left (request :: requests) (answer :: answers) after

end Scanned

namespace TokenStream

def handed? : Request → Answer → Option Token
  | .next, .taken (.ok found) => found.map PosToken.token
  | .consume token, .consumed (.ok true) => some token
  | _, _ => none

def handed : List Request → List Answer → List Token
  | request :: requests, answer :: answers =>
      (handed? request answer).toList ++ handed requests answers
  | _, _ => []

def after : TokenStream → List Request → TokenStream
  | stream, [] => stream
  | stream, request :: rest => (stream.respond request).2.after rest

/-- What the stream has not handed out yet. -/
def left (stream : TokenStream) : Scanned :=
  match stream.ahead with
  | none => ⟨[], none⟩
  | some token => ⟨token :: stream.cursor.scanAll.tokens, stream.cursor.scanAll.ending⟩

end TokenStream

namespace Scanned

variable {input : Text} {left after : Scanned}

/-- What was handed out so far and what is left make up the scan, unless its fault was met: then all
but the last token were handed out, and nothing is left. -/
def Divides (scanned : Scanned) (handed : List Token) (left : Scanned) : Prop :=
  kinds scanned.tokens = handed ++ kinds left.tokens ∧ left.ending = scanned.ending ∨
    scanned.ending ≠ none ∧ left = ⟨[], none⟩ ∧
      ∃ lost, kinds scanned.tokens = handed ++ [lost]

theorem Takes.divides {outcome : Except Error PosToken} (takes : left.Takes input outcome after) :
    left.Divides (outcome.toOption.map PosToken.token).toList after := by
  cases takes with
  | token whole => exact .inl ⟨rfl, rfl⟩
  | fault lost fault => exact .inr ⟨by simp, rfl, lost.token, rfl⟩

theorem Takes.front {outcome : Except Error PosToken} {front : PosToken}
    (takes : left.Takes input outcome after) (stands : left.tokens.head? = some front) :
    outcome = .ok front ∨ ∃ error, outcome = .error error := by
  cases takes with
  | token whole =>
      cases stands
      exact .inl rfl
  | fault lost fault => exact .inr ⟨_, rfl⟩

theorem Delivery.divides {request : Request} {answer : Answer}
    (delivery : left.Delivery input request answer after) :
    left.Divides (handed? request answer).toList after := by
  cases delivery with
  | next takes =>
      have divides := takes.divides
      cases takes <;> exact divides
  | consume stands takes =>
      have divides := takes.divides
      rcases takes.front stands with rfl | ⟨error, rfl⟩ <;> exact divides
  | _ => exact .inl ⟨rfl, rfl⟩

theorem Divides.trans {scanned middle : Scanned} {first second : List Token}
    (divides : scanned.Divides first middle) (again : middle.Divides second after) :
    scanned.Divides (first ++ second) after := by
  rcases divides with ⟨tokens, ending⟩ | ⟨faulty, rfl, lost, tokens⟩
  · rcases again with ⟨others, same⟩ | ⟨faulty, nothing, lost, others⟩
    · exact .inl ⟨by rw [tokens, others, List.append_assoc], same.trans ending⟩
    · exact .inr ⟨ending ▸ faulty, nothing, lost, by rw [tokens, others, List.append_assoc]⟩
  · -- Nothing is left to be handed out after the fault.
    rcases again with ⟨others, same⟩ | ⟨faultless, -, -⟩
    · obtain ⟨rfl, empty⟩ := List.append_eq_nil_iff.mp others.symm
      obtain ⟨rest, ending⟩ := after
      obtain rfl : rest = [] := List.map_eq_nil_iff.mp empty
      cases same
      exact .inr ⟨faulty, rfl, lost, by rw [tokens, List.append_nil]⟩
    · exact absurd rfl faultless

theorem Delivers.divides {requests : List Request} {answers : List Answer}
    (delivers : left.Delivers input requests answers after) :
    left.Divides (handed requests answers) after := by
  induction delivers with
  | done left => exact .inl ⟨rfl, rfl⟩
  | step now later ih => exact now.divides.trans ih

end Scanned

namespace TokenStream

variable (stream : TokenStream)

theorem head?_left : stream.left.tokens.head? = stream.ahead := by
  cases ahead : stream.ahead <;> simp [left, ahead]

theorem left_of_over (nothing : stream.ahead = none) : stream.left = ⟨[], none⟩ := by
  rw [left, nothing]

/-! What a stream does with the scan behind the token ahead. -/

theorem next_of_over (nothing : stream.ahead = none) : stream.next = (.ok none, stream) := by
  rw [next, nothing]

theorem next_of_ahead {front : PosToken} (stands : stream.ahead = some front) :
    (∃ later after, stream.cursor.scan = .token later after ∧
      stream.next = (.ok (some front), { stream with cursor := after, ahead := some later })) ∨
    (stream.cursor.scan = .finished ∧
      stream.next = (.ok (some front), { stream with ahead := none })) ∨
    ∃ fault after, stream.cursor.scan = .failed fault after ∧
      stream.next =
        (.error (.badText stream.input fault), { stream with cursor := after, ahead := none }) := by
  cases scanned : stream.cursor.scan with
  | token later after => exact .inl ⟨later, after, rfl, by simp only [next, stands, scanned]⟩
  | finished => exact .inr (.inl ⟨rfl, by simp only [next, stands, scanned]⟩)
  | failed fault after =>
      exact .inr (.inr ⟨fault, after, rfl, by simp only [next, stands, scanned]⟩)

theorem of_start {input : Text} {cursor : Cursor} {stream : TokenStream}
    (made : start input cursor = .ok stream) :
    (∃ token after, cursor.scan = .token token after ∧ stream = ⟨input, after, some token⟩) ∨
      cursor.scan = .finished ∧ stream = ⟨input, cursor, none⟩ := by
  unfold start at made
  cases scanned : cursor.scan with
  | token token after =>
      rw [scanned] at made
      cases made
      exact .inl ⟨token, after, rfl, rfl⟩
  | finished =>
      rw [scanned] at made
      cases made
      exact .inr ⟨rfl, rfl⟩
  | failed fault after =>
      rw [scanned] at made
      contradiction

theorem takes_next {front : PosToken} (stands : stream.ahead = some front) :
    ∃ outcome, stream.next.1 = outcome.map some ∧
      stream.left.Takes stream.input outcome stream.next.2.left := by
  rcases stream.next_of_ahead stands with
    ⟨later, after, scanned, same⟩ | ⟨scanned, same⟩ | ⟨fault, after, scanned, same⟩
  · refine ⟨.ok front, congrArg Prod.fst same, ?_⟩
    simp only [same, left, stands, Cursor.scanAll_of_scan scanned]
    exact .token (by simp)
  · refine ⟨.ok front, congrArg Prod.fst same, ?_⟩
    simp only [same, left, stands, Cursor.scanAll_of_finished scanned]
    exact .token (fun _ => rfl)
  · refine ⟨.error (.badText stream.input fault), congrArg Prod.fst same, ?_⟩
    simp only [same, left, stands, Cursor.scanAll_of_failed scanned]
    exact .fault front fault

theorem consume_of_front {front : PosToken} (stands : stream.ahead = some front) :
    stream.consume front.token = (stream.next.1.map fun _ => true, stream.next.2) := by
  rw [consume, stands, Option.map_some, if_pos rfl]

theorem consume_of_other {token : Token}
    (other : stream.ahead.map PosToken.token ≠ some token) :
    stream.consume token = (.ok false, stream) := by
  rw [consume, if_neg other]

theorem unchanged_of_refused {token : Token} (refused : (stream.consume token).1 = .ok false) :
    (stream.consume token).2 = stream := by
  unfold consume at refused ⊢
  split
  · -- A token that is consumed is never answered so.
    next same =>
      rw [if_pos same] at refused
      cases answer : stream.next.1 <;> simp [answer, Except.map] at refused
  · rfl

theorem delivery_respond (request : Request) :
    stream.left.Delivery stream.input request (stream.respond request).1
      (stream.respond request).2.left := by
  cases request with
  | peek =>
      rw [respond, peek, ← head?_left]
      exact .peek _
  | next =>
      cases ahead : stream.ahead with
      | none =>
          rw [respond, next_of_over stream ahead]
          exact .ended (by rw [left_of_over stream ahead])
      | some front =>
          obtain ⟨outcome, answered, takes⟩ := stream.takes_next ahead
          rw [respond, answered]
          exact .next takes
  | consume token =>
      by_cases same : stream.ahead.map PosToken.token = some token
      · obtain ⟨front, ahead, rfl⟩ := Option.map_eq_some_iff.mp same
        obtain ⟨outcome, answered, takes⟩ := stream.takes_next ahead
        rw [respond, consume_of_front stream ahead, answered]
        have front := (stream.head?_left).trans ahead
        have consumed := Scanned.Delivery.consume front takes
        cases outcome <;> exact consumed
      · rw [respond, consume_of_other stream same]
        exact .keep (by rwa [head?_left])
  | pos => exact .pos _ _

theorem respond_cases (request : Request) :
    (stream.respond request).2 = stream ∨ (stream.respond request).2 = stream.next.2 := by
  cases request with
  | next => exact .inr rfl
  | consume token =>
      by_cases same : stream.ahead.map PosToken.token = some token
      · obtain ⟨front, ahead, rfl⟩ := Option.map_eq_some_iff.mp same
        exact .inr (by rw [respond, consume_of_front stream ahead])
      · exact .inl (by rw [respond, consume_of_other stream same])
  | _ => exact .inl rfl

theorem input_next : stream.next.2.input = stream.input := by
  unfold next
  split
  · rfl
  · split <;> rfl

theorem input_respond (request : Request) : (stream.respond request).2.input = stream.input := by
  rcases stream.respond_cases request with same | taken
  · rw [same]
  · rw [taken, input_next]

theorem delivers_respondAll (requests : List Request) :
    stream.left.Delivers stream.input requests (stream.respondAll requests)
      (stream.after requests).left := by
  induction requests generalizing stream with
  | nil => exact .done _
  | cons request rest ih =>
      have later := ih (stream.respond request).2
      rw [stream.input_respond] at later
      exact .step (stream.delivery_respond request) later

theorem respond_of_over (nothing : stream.ahead = none) (request : Request) :
    (stream.respond request).2 = stream := by
  rcases stream.respond_cases request with same | taken
  · exact same
  · rw [taken, next_of_over stream nothing]

theorem after_of_over (nothing : stream.ahead = none) (requests : List Request) :
    stream.after requests = stream := by
  induction requests with
  | nil => rfl
  | cons request rest ih => rw [after, respond_of_over stream nothing, ih]

/-- What is kept when the token ahead is taken is kept by requests of all kinds. -/
theorem after_invariant {kept : TokenStream → Prop}
    (step : ∀ stream, kept stream → kept stream.next.2) (holds : kept stream)
    (requests : List Request) : kept (stream.after requests) := by
  induction requests generalizing stream with
  | nil => exact holds
  | cons request rest ih =>
      refine ih (stream.respond request).2 ?_
      rcases stream.respond_cases request with same | taken
      · rwa [same]
      · exact taken ▸ step stream holds

theorem after_append (first second : List Request) :
    stream.after (first ++ second) = (stream.after first).after second := by
  induction first generalizing stream with
  | nil => rfl
  | cons request rest ih => exact ih _

theorem start_eq_error_iff {input : Text} {cursor : Cursor} {error : Error} :
    start input cursor = .error error ↔
      ∃ fault, cursor.scanAll = ⟨[], some fault⟩ ∧ error = .badText input fault := by
  unfold start
  cases scanned : cursor.scan with
  | token token after => simp [Cursor.scanAll_of_scan scanned]
  | finished => simp [Cursor.scanAll_of_finished scanned]
  | failed fault after => simp [Cursor.scanAll_of_failed scanned, eq_comm]

theorem left_of_start {input : Text} {cursor : Cursor} {stream : TokenStream}
    (made : start input cursor = .ok stream) :
    stream.input = input ∧ stream.left = cursor.scanAll := by
  rcases of_start made with ⟨token, after, scanned, rfl⟩ | ⟨scanned, rfl⟩
  · exact ⟨rfl, (Cursor.scanAll_of_scan scanned).symm⟩
  · exact ⟨rfl, (Cursor.scanAll_of_finished scanned).symm⟩

theorem ahead_of_left_nil (nothing : stream.left.tokens = []) : stream.ahead = none := by
  rw [← head?_left, nothing]
  rfl

end TokenStream

/-- A stream over a span of a text hands out the scan of the span. It cannot be made exactly when the
scan fails at once. Otherwise requests of any kind and number are answered from the tokens of the
scan in their order. To look ahead changes nothing, nor does a token that is asked for in vain; and
when nothing is left, no request changes the stream any more. -/
theorem delivers_scan (before middle after : Text) :
    let input := before ++ middle ++ after
    let made := TokenStream.ofSpan input before.bytes (before.bytes + middle.bytes)
    let scanned := (Cursor.atStart middle before.bytes).scanAll
    (∀ error, made = .error error ↔
      ∃ fault, scanned = ⟨[], some fault⟩ ∧ error = .badText input fault) ∧
    ∀ stream, made = .ok stream → ∀ requests, ∃ left,
      scanned.Delivers input requests (stream.respondAll requests) left ∧
      scanned.Divides (handed requests (stream.respondAll requests)) left ∧
      stream.after (requests ++ [.peek]) = stream.after requests ∧
      (∀ token, ((stream.after requests).consume token).1 = .ok false →
        ((stream.after requests).consume token).2 = stream.after requests) ∧
      (left.tokens = [] → ∀ more, stream.after (requests ++ more) = stream.after requests) := by
  intro input made scanned
  have cut : made = TokenStream.start input (Cursor.atStart middle before.bytes) := by
    simp only [made, TokenStream.ofSpan, input, Text.slice_append]
  rw [cut]
  refine ⟨fun error => TokenStream.start_eq_error_iff, fun stream began requests => ?_⟩
  obtain ⟨same, whole⟩ := TokenStream.left_of_start began
  have delivers := stream.delivers_respondAll requests
  rw [same, whole] at delivers
  refine ⟨_, delivers, delivers.divides, stream.after_append _ _,
    fun token => TokenStream.unchanged_of_refused _, fun nothing more => ?_⟩
  rw [stream.after_append, TokenStream.after_of_over _ (TokenStream.ahead_of_left_nil _ nothing)]

-- The fault behind `b` is reported in place of `b`, once.
example :
    (TokenStream.ofText "ab|".toList).map
        (respondAll · [.consume (.literal 'b'), .next, .peek, .next, .peek, .next, .pos]) =
      .ok [.consumed (.ok false), .taken (.ok (some ⟨0, .literal 'a'⟩)),
        .ahead (some ⟨1, .literal 'b'⟩),
        .taken (.error (.badText "ab|".toList ⟨2, .unsupported .alternation⟩)), .ahead none,
        .taken (.ok none), .stands 3] := by
  rfl

end RegexForge
