import RegexForge.Proofs.Invariants

/-!
Requests to a builder, seen from one of its frames. A request either passes the frame by, hands one
node to it, puts a quantifier before its next element, or closes it. Which of these happens, and
what becomes of the frames inside and around, does not depend on what the frame holds; only a
quantifier asks whether another one waits there. So two builders that differ in one frame take the
same requests side by side.
-/

namespace RegexForge

open Outcome

namespace Builder

inductive Request where
  | call (call : Call)
  | quantify (quantifier : Quantifier)
  | merge (expression : Builder) (options : MergeOptions)

def perform (builder : Builder) : Request → Except Error Builder
  | .call call => builder.apply call
  | .quantify quantifier => builder.quantify quantifier
  | .merge expression options => builder.subexpression expression options

def performAll (builder : Builder) (requests : List Request) : Except Error Builder :=
  requests.foldlM perform builder

/-- The node that the request hands to the frame with so many frames around it: a leaf or a merged
element if that frame is the current one, a container if the frame directly inside it is closed. -/
def handed (depth : Nat) (builder : Builder) : Request → List Node
  | .call .close =>
      if builder.outer.length = depth + 1 then
        [builder.current.container.node builder.current.elements]
      else []
  | .call call => if builder.outer.length = depth then call.leaf?.toList else []
  | .merge expression options =>
      if builder.outer.length = depth then [.subexpression (builder.copies expression options)]
      else []
  | .quantify _ => []

def handedAll (depth : Nat) : Builder → List Request → List Node
  | _, [] => []
  | builder, request :: rest =>
      match builder.perform request with
      | .ok next => builder.handed depth request ++ handedAll depth next rest
      | .error _ => []

def StaysOpen (depth : Nat) (builder : Builder) (requests : List Request) : Prop :=
  ∀ front middle, front <+: requests → builder.performAll front = .ok middle →
    depth ≤ middle.outer.length

theorem performAll_append_singleton {before middle : Builder} {front : List Request}
    (performed : before.performAll front = .ok middle) (request : Request) :
    before.performAll (front ++ [request]) = middle.perform request := by
  rw [performAll] at performed
  rw [performAll, List.foldlM_append, performed, ok_bind, List.foldlM_cons]
  cases middle.perform request <;> rfl

theorem handedAll_append_singleton (depth : Nat) {before middle after : Builder}
    {front : List Request} {request : Request} (performed : before.performAll front = .ok middle)
    (taken : middle.perform request = .ok after) :
    handedAll depth before (front ++ [request]) =
      handedAll depth before front ++ middle.handed depth request := by
  induction front generalizing before with
  | nil =>
      cases performed
      simp [handedAll, taken]
  | cons first rest ih =>
      obtain ⟨next, one, others⟩ := bind_eq_ok_iff.mp performed
      simp only [List.cons_append, handedAll, one, ih others, List.append_assoc]

theorem handed_call (depth : Nat) (builder : Builder) {call : Call} (still : call ≠ .close) :
    builder.handed depth (.call call) =
      if builder.outer.length = depth then call.leaf?.toList else [] := by
  cases call <;> first | rfl | contradiction

def around (inner : List Frame) (frame : Frame) (outer : List Frame) (declared : Declarations) :
    Builder :=
  match inner with
  | [] => ⟨frame, outer, declared⟩
  | current :: rest => ⟨current, rest ++ frame :: outer, declared⟩

/-- What a request does to any frame that stands in this place. -/
inductive Seen (request : Request) (inner outer : List Frame) (declared : Declarations)
    (frame : Frame) : Prop where
  | apart (rest : List Frame) (next : Declarations)
      (unhanded : (around inner frame outer declared).handed outer.length request = [])
      (acts : ∀ other, (around inner other outer declared).perform request =
        .ok (around rest other outer next))
  | hand (node : Node) (next : Declarations)
      (handed : (around inner frame outer declared).handed outer.length request = [node])
      (acts : ∀ other, (around inner other outer declared).perform request =
        .ok (around [] (other.push node) outer next))
  | ask (quantifier : Quantifier) (idle : frame.pending = none)
      (unhanded : (around inner frame outer declared).handed outer.length request = [])
      (acts : ∀ other : Frame, other.pending = none →
        (around inner other outer declared).perform request =
          .ok (around [] { other with pending := some quantifier } outer declared))
  | fold (parent : Frame) (rest : List Frame) (split : outer = parent :: rest)
      (acts : ∀ other : Frame, (around inner other outer declared).perform request =
        .ok (around [] (parent.push (other.container.node other.elements)) rest declared))

variable {inner outer : List Frame} {declared : Declarations} {frame : Frame} {after : Builder}

@[simp] theorem around_declared : (around inner frame outer declared).declared = declared := by
  cases inner <;> rfl

theorem seen_of_append {call : Call} {node : Node} (leaf : call.leaf? = some node)
    (appends : ∀ builder : Builder, builder.apply call = do
      let declared ← builder.declared.meetAll node.mark?.toList
      return { builder with declared := declared }.push node)
    (accepted : (around inner frame outer declared).apply call = .ok after) :
    Seen (.call call) inner outer declared frame := by
  have still := (Call.of_leaf leaf).2
  rw [appends, around_declared] at accepted
  obtain ⟨next, met, -⟩ := bind_eq_ok_iff.mp accepted
  have pushed (other : Frame) : (around inner other outer declared).perform (.call call) =
      .ok ({ around inner other outer declared with declared := next }.push node) := by
    rw [perform, appends, around_declared, met]
    rfl
  cases inner with
  | nil =>
      refine .hand node next ?_ pushed
      simp [handed_call _ _ still, leaf, around]
  | cons current rest =>
      refine .apart (current.push node :: rest) next ?_ pushed
      simp only [handed_call _ _ still, around, List.length_append, List.length_cons]
      exact if_neg (by omega)

theorem seen_of_close (accepted : (around inner frame outer declared).apply .close = .ok after) :
    Seen (.call .close) inner outer declared frame := by
  obtain ⟨parent, rest, split, -⟩ := close_eq_ok_iff.mp accepted
  -- The frame itself is closed, or one directly inside it, or one further in.
  match inner with
  | [] =>
      obtain rfl : outer = parent :: rest := split
      exact .fold parent rest rfl fun other => rfl
  | [current] =>
      refine .hand (current.container.node current.elements) declared ?_ fun other => rfl
      simp [handed, around]
  | current :: next :: others =>
      refine .apart (next.push (current.container.node current.elements) :: others)
        declared ?_ fun other => rfl
      simp only [handed, around, List.length_append, List.length_cons]
      exact if_neg (by omega)

theorem seen_of_call {call : Call}
    (accepted : (around inner frame outer declared).apply call = .ok after) :
    Seen (.call call) inner outer declared frame := by
  cases call.effect with
  | flag flag sets =>
      subst sets
      refine .apart inner (declared.declareFlag flag) ?_ fun other => ?_
      · simp [handed_call, Call.leaf?]
      · cases inner <;> rfl
  | append node leaf _ _ appends => exact seen_of_append leaf appends accepted
  | enter container proper opens =>
      subst opens
      rw [container.apply_opening proper, around_declared] at accepted
      obtain ⟨next, met, -⟩ := bind_eq_ok_iff.mp accepted
      refine .apart (.empty container :: inner) next ?_ fun other => ?_
      · cases container <;> simp [handed_call, Container.opening, Call.leaf?]
      · rw [perform, container.apply_opening proper, around_declared, met]
        cases inner <;> rfl
  | close ends =>
      subst ends
      exact seen_of_close accepted
  | refused fault refuses =>
      rw [refuses] at accepted
      contradiction

theorem seen_of_quantify {quantifier : Quantifier}
    (accepted : (around inner frame outer declared).quantify quantifier = .ok after) :
    Seen (.quantify quantifier) inner outer declared frame := by
  obtain ⟨checked, idle, -⟩ := quantify_eq_ok_iff.mp accepted
  cases inner with
  | nil =>
      refine .ask quantifier idle rfl fun other waitless => ?_
      exact quantify_eq_ok_iff.mpr ⟨checked, waitless, rfl⟩
  | cons current rest =>
      refine .apart ({ current with pending := some quantifier } :: rest) declared rfl
        fun other => ?_
      exact quantify_eq_ok_iff.mpr ⟨checked, idle, rfl⟩

theorem seen_of_merge {expression : Builder} {options : MergeOptions}
    (accepted : (around inner frame outer declared).subexpression expression options = .ok after) :
    Seen (.merge expression options) inner outer declared frame := by
  obtain ⟨closed, adopted, taken, -⟩ := subexpression_eq_ok_iff.mp accepted
  rw [around_declared] at taken
  -- The copies depend on what was declared, and not on the frames.
  have copies (other : Frame) : (around inner other outer declared).copies expression options =
      (around inner frame outer declared).copies expression options := by
    simp only [Builder.copies, around_declared]
  have pushed (other : Frame) :
      (around inner other outer declared).perform (.merge expression options) =
        .ok ({ around inner other outer declared with
          declared :=
            if options.keepFlags then adopted.addFlags expression.declared.flags else adopted
        }.push
          (.subexpression ((around inner frame outer declared).copies expression options))) := by
    rw [perform, subexpression_eq _ _ closed, copies, around_declared, taken]
    rfl
  cases inner with
  | nil => exact .hand _ _ (if_pos rfl) pushed
  | cons current rest =>
      refine .apart (current.push (.subexpression
        ((around (current :: rest) frame outer declared).copies expression options)) :: rest) _ ?_
        pushed
      simp only [handed, around, List.length_append, List.length_cons]
      exact if_neg (by omega)

theorem seen {request : Request}
    (accepted : (around inner frame outer declared).perform request = .ok after) :
    Seen request inner outer declared frame := by
  cases request with
  | call call => exact seen_of_call accepted
  | quantify quantifier => exact seen_of_quantify accepted
  | merge expression options => exact seen_of_merge accepted

end Builder

end RegexForge
