import RegexForge.Proofs.Requests

/-!
Where a quantifier goes that a builder accepted. A run with the request is compared with the run of
the same requests without it. The two builders differ in one frame at most: first the quantifier
waits there, then one node is wrapped in it, in that frame or inside a container that the frame
became, or nothing is left of it after a lookaround or the end of the frame. As long as the frame
stays open, the nodes handed to it decide which of these it is, and where.
-/

namespace RegexForge

open Outcome

namespace Node

def isAnchor : Node → Bool
  | anchor _ => true
  | _ => false

/-- The second node is the first one with a single node inside it, or itself, repeated in place. -/
inductive Wraps (quantifier : Quantifier) : Node → Node → Prop where
  | here {node : Node} (wide : node.isZeroWidth = false) :
      Wraps quantifier node (.quantified node quantifier)
  | inside (container : Container) (front back : List Node) {inner whole : Node}
      (wraps : Wraps quantifier inner whole) :
      Wraps quantifier (container.node (front ++ inner :: back))
        (container.node (front ++ whole :: back))
  | repeated (other : Quantifier) {inner whole : Node} (wraps : Wraps quantifier inner whole) :
      Wraps quantifier (.quantified inner other) (.quantified whole other)

end Node

open Node

namespace Frame

theorem wrap_some_eq (quantifier : Quantifier) (node : Node) :
    wrap (some quantifier) node =
      if node.isZeroWidth then node else .quantified node quantifier := by
  cases node <;> rfl

theorem push_of_anchor {node : Node} (anchor : node.isAnchor = true) (frame : Frame) :
    frame.push node = { frame with elements := frame.elements ++ [node] } := by
  obtain ⟨container, pending, elements⟩ := frame
  cases node with
  | anchor _ => cases pending <;> rfl
  | _ => contradiction

theorem push_of_other {node : Node} (other : node.isAnchor = false) (frame : Frame) :
    frame.push node = ⟨frame.container, none, frame.elements ++ [wrap frame.pending node]⟩ := by
  cases node with
  | anchor _ => contradiction
  | _ => rfl

theorem isAnchor_node (container : Container) (children : List Node) :
    (container.node children).isAnchor = false := by
  cases container <;> rfl

/-- The frames with and without the quantifier that was requested in one of them, which still waits
in the second, or is around one node of it, or is gone. -/
inductive Differs (quantifier : Quantifier) : Frame → Frame → Prop where
  | waits {bare : Frame} (idle : bare.pending = none) :
      Differs quantifier bare { bare with pending := some quantifier }
  | wrapped (container : Container) (pending : Option Quantifier) (front back : List Node)
      {inner whole : Node} (wraps : Wraps quantifier inner whole) :
      Differs quantifier ⟨container, pending, front ++ inner :: back⟩
        ⟨container, pending, front ++ whole :: back⟩
  | same (frame : Frame) : Differs quantifier frame frame

variable {quantifier : Quantifier} {bare frame : Frame}

theorem Differs.push (differs : Differs quantifier bare frame) (node : Node) :
    Differs quantifier (bare.push node) (frame.push node) := by
  cases differs with
  | waits idle =>
      cases anchor : node.isAnchor with
      | true =>
          -- Both store the anchor as it is, and the quantifier waits on.
          rw [push_of_anchor anchor, push_of_anchor anchor]
          exact @waits quantifier { bare with elements := bare.elements ++ [node] } idle
      | false =>
          rw [push_of_other anchor, push_of_other anchor, idle, wrap_some_eq]
          cases wide : node.isZeroWidth with
          | true => exact same _
          | false => exact wrapped bare.container none bare.elements [] (.here wide)
  | wrapped container pending front back wraps =>
      simp only [Frame.push, List.append_assoc, List.cons_append]
      exact wrapped container _ front _ wraps
  | same frame => exact same _

theorem wraps_wrap {container : Container} {front back : List Node} {inner whole : Node}
    (wraps : Wraps quantifier inner whole) (pending : Option Quantifier) :
    Wraps quantifier (wrap pending (container.node (front ++ inner :: back)))
      (wrap pending (container.node (front ++ whole :: back))) := by
  have inside := wraps.inside container front back
  cases pending with
  | none => exact inside
  | some other =>
      cases container with
      | lookaround kind => exact inside
      | _ => exact .repeated other inside

theorem Differs.fold (differs : Differs quantifier bare frame) (parent : Frame) :
    Differs quantifier (parent.push (bare.container.node bare.elements))
      (parent.push (frame.container.node frame.elements)) := by
  cases differs with
  | waits _ => exact same _
  | wrapped container pending front back wraps =>
      rw [push_of_other (isAnchor_node container _), push_of_other (isAnchor_node container _)]
      exact wrapped parent.container none parent.elements [] (wraps_wrap wraps parent.pending)
  | same frame => exact same _

/-- The frame after these nodes were handed to it, without the quantifier that was requested when it
was `start`, and with it. Anchors are stored as they are and leave it waiting; the first other node
takes it, unless that is a lookaround, and what comes later is the same in both. -/
inductive Answers (quantifier : Quantifier) (start : Frame) : List Node → Frame → Frame → Prop where
  | waiting {anchors : List Node} (skipped : ∀ node ∈ anchors, node.isAnchor = true) :
      Answers quantifier start anchors { start with elements := start.elements ++ anchors }
        { start with elements := start.elements ++ anchors, pending := some quantifier }
  | reached {anchors : List Node} {node : Node} (rest later : List Node)
      (pending : Option Quantifier) (skipped : ∀ node ∈ anchors, node.isAnchor = true)
      (first : node.isAnchor = false) :
      Answers quantifier start (anchors ++ node :: rest)
        ⟨start.container, pending, start.elements ++ anchors ++ node :: later⟩
        ⟨start.container, pending, start.elements ++ anchors ++
          (if node.isZeroWidth then node else .quantified node quantifier) :: later⟩

variable {start : Frame} {given : List Node}

theorem answers_start (start : Frame) :
    Answers quantifier start [] start { start with pending := some quantifier } := by
  have waiting := @Answers.waiting quantifier start [] (by simp)
  simpa only [List.append_nil] using waiting

theorem Answers.push (idle : start.pending = none)
    (answers : Answers quantifier start given bare frame) (node : Node) :
    Answers quantifier start (given ++ [node]) (bare.push node) (frame.push node) := by
  cases answers with
  | waiting skipped =>
      cases anchor : node.isAnchor with
      | true =>
          simp only [push_of_anchor anchor, List.append_assoc]
          refine .waiting fun other listed => ?_
          rcases List.mem_append.mp listed with early | last
          · exact skipped other early
          · rw [List.mem_singleton.mp last, anchor]
      | false =>
          simp only [push_of_other anchor, idle, wrap_some_eq]
          exact .reached [] [] none skipped anchor
  | reached rest later pending skipped first =>
      simp only [Frame.push, List.append_assoc, List.cons_append]
      rw [← List.append_assoc, ← List.append_assoc]
      exact .reached (rest ++ [node]) (later ++ [wrap pending node]) _ skipped first

theorem Answers.request (answers : Answers quantifier start given bare frame)
    (idle : frame.pending = none) (other : Quantifier) :
    bare.pending = none ∧
      Answers quantifier start given { bare with pending := some other }
        { frame with pending := some other } := by
  cases answers with
  | waiting _ => contradiction
  | reached rest later pending skipped first =>
      exact ⟨idle, .reached rest later (some other) skipped first⟩

theorem Answers.pending (answers : Answers quantifier start given bare frame)
    (anchors : ∀ node ∈ given, node.isAnchor = true) : frame.pending = some quantifier := by
  cases answers with
  | waiting _ => rfl
  | @reached _ node _ _ _ _ first => simp [anchors node (by simp)] at first

end Frame

namespace Builder

variable {quantifier : Quantifier}

def DiffersBy (quantifier : Quantifier) (plain after : Builder) : Prop :=
  ∃ inner bare frame outer declared, plain = around inner bare outer declared ∧
    after = around inner frame outer declared ∧ bare.Differs quantifier frame

theorem DiffersBy.perform {plain after next : Builder} {request : Request}
    (differs : DiffersBy quantifier plain after) (taken : after.perform request = .ok next) :
    ∃ other, plain.perform request = .ok other ∧ DiffersBy quantifier other next := by
  obtain ⟨inner, bare, frame, outer, declared, rfl, rfl, differs⟩ := differs
  cases seen taken with
  | apart rest changed _ acts =>
      cases (acts frame).symm.trans taken
      exact ⟨_, acts bare, rest, bare, frame, outer, changed, rfl, rfl, differs⟩
  | hand node changed _ acts =>
      cases (acts frame).symm.trans taken
      exact ⟨_, acts bare, [], _, _, outer, changed, rfl, rfl, differs.push node⟩
  | ask requested idle _ acts =>
      cases (acts frame idle).symm.trans taken
      cases differs with
      | waits _ => contradiction
      | wrapped container pending front back wraps =>
          exact ⟨_, acts _ idle, [], _, _, outer, declared, rfl, rfl,
            .wrapped container (some requested) front back wraps⟩
      | same frame => exact ⟨_, acts _ idle, [], _, _, outer, declared, rfl, rfl, .same _⟩
  | fold parent rest split acts =>
      cases (acts frame).symm.trans taken
      exact ⟨_, acts bare, [], _, _, rest, declared, rfl, rfl, differs.fold parent⟩

theorem quantify_conflict {builder : Builder} {pending requested : Quantifier}
    (waits : builder.current.pending = some pending) (checked : requested.check = .ok ()) :
    builder.quantify requested = .error (.quantifierConflict pending requested) := by
  rw [quantify, checked, waits]
  rfl

theorem quantify_error_congr {one other : Builder} (same : one.current = other.current)
    (requested : Quantifier) (error : Error) :
    one.quantify requested = .error error ↔ other.quantify requested = .error error := by
  unfold quantify
  rw [same]
  cases requested.check with
  | error fault => simp
  | ok _ => cases other.current.pending <;> simp

theorem differsBy_of_performAll {before armed after : Builder} {requests : List Request}
    (accepted : before.quantify quantifier = .ok armed)
    (performed : armed.performAll requests = .ok after) :
    ∃ plain, before.performAll requests = .ok plain ∧ DiffersBy quantifier plain after := by
  obtain ⟨-, idle, rfl⟩ := quantify_eq_ok_iff.mp accepted
  have start : ∃ plain, before.performAll [] = .ok plain ∧ DiffersBy quantifier plain
      { before with current := { before.current with pending := some quantifier } } :=
    ⟨before, rfl, [], _, _, before.outer, before.declared, rfl, rfl, .waits idle⟩
  refine foldlM_invariant (fun next passed => ∃ plain, before.performAll passed = .ok plain ∧
    DiffersBy quantifier plain next) ?_ requests start performed
  rintro next last passed request ⟨plain, ran, differs⟩ taken
  obtain ⟨other, done, differs⟩ := differs.perform taken
  exact ⟨other, (performAll_append_singleton ran request).trans done, differs⟩

/-- The run as long as the frame of the request is open, beside the run without the request. -/
structure Along (quantifier : Quantifier) (before armed : Builder) (requests : List Request)
    (after : Builder) : Prop where
  performed : armed.performAll requests = .ok after
  beside : armed.StaysOpen before.outer.length requests →
    ∃ inner bare frame declared,
      before.performAll requests = .ok (around inner bare before.outer declared) ∧
      after = around inner frame before.outer declared ∧
      Frame.Answers quantifier before.current
        (armed.handedAll before.outer.length requests) bare frame

theorem StaysOpen.of_append {depth : Nat} {builder : Builder} {front back : List Request}
    (stays : builder.StaysOpen depth (front ++ back)) : builder.StaysOpen depth front :=
  fun first middle part => stays first middle (part.trans (List.prefix_append front back))

theorem Along.start {before armed : Builder} (accepted : before.quantify quantifier = .ok armed) :
    Along quantifier before armed [] armed := by
  obtain ⟨-, -, rfl⟩ := quantify_eq_ok_iff.mp accepted
  exact ⟨rfl, fun _ => ⟨[], before.current, _, before.declared, rfl, rfl,
    Frame.answers_start before.current⟩⟩

theorem Along.step {before armed after next : Builder} {requests : List Request} {request : Request}
    (idle : before.current.pending = none) (along : Along quantifier before armed requests after)
    (taken : after.perform request = .ok next) :
    Along quantifier before armed (requests ++ [request]) next := by
  have whole := (performAll_append_singleton along.performed request).trans taken
  refine ⟨whole, fun stays => ?_⟩
  have still := stays _ next (List.prefix_refl _) whole
  obtain ⟨inner, bare, frame, declared, ran, rfl, answers⟩ := along.beside stays.of_append
  rw [handedAll_append_singleton _ along.performed taken, performAll_append_singleton ran]
  cases seen taken with
  | apart rest changed unhanded acts =>
      cases (acts frame).symm.trans taken
      rw [unhanded, List.append_nil]
      exact ⟨rest, bare, frame, changed, acts bare, rfl, answers⟩
  | hand node changed handed acts =>
      cases (acts frame).symm.trans taken
      rw [handed]
      exact ⟨[], _, _, changed, acts bare, rfl, answers.push idle node⟩
  | ask requested free unhanded acts =>
      cases (acts frame free).symm.trans taken
      obtain ⟨unarmed, answers⟩ := answers.request free requested
      rw [unhanded, List.append_nil]
      exact ⟨[], _, _, declared, acts bare unarmed, rfl, answers⟩
  | fold parent rest split acts =>
      -- The frame of the request would be closed.
      cases (acts frame).symm.trans taken
      simp only [split, around, List.length_cons] at still
      omega

/-- A quantifier that was accepted reaches one node at most. With and without it the same requests
are accepted, and the two builders differ by it in one frame only. As long as the frame of the
request is open, the first node handed to it that is not an anchor takes the quantifier, or
discards it if it is a lookaround. Until then the quantifier waits: another one is refused in that
frame, while inside it quantifiers are answered as if this one had not been requested. -/
theorem quantifier_reaches_one_node (quantifier : Quantifier) (before armed after : Builder)
    (requests : List Request) (accepted : before.quantify quantifier = .ok armed)
    (performed : armed.performAll requests = .ok after) :
    ∃ plain, before.performAll requests = .ok plain ∧ DiffersBy quantifier plain after ∧
      (armed.StaysOpen before.outer.length requests →
        ∃ inner bare frame declared,
          plain = around inner bare before.outer declared ∧
          after = around inner frame before.outer declared ∧
          Frame.Answers quantifier before.current
            (armed.handedAll before.outer.length requests) bare frame ∧
          ((∀ node ∈ armed.handedAll before.outer.length requests, node.isAnchor = true) →
            (inner = [] → ∀ other, other.check = .ok () →
              after.quantify other = .error (.quantifierConflict quantifier other)) ∧
            (inner ≠ [] → ∀ other error,
              after.quantify other = .error error ↔ plain.quantify other = .error error))) := by
  obtain ⟨plain, ran, differs⟩ := differsBy_of_performAll accepted performed
  refine ⟨plain, ran, differs, fun stays => ?_⟩
  have idle := (quantify_eq_ok_iff.mp accepted).2.1
  have along : Along quantifier before armed requests after :=
    foldlM_invariant (fun next passed => Along quantifier before armed passed next)
      (fun _ _ _ _ along taken => along.step idle taken) requests (Along.start accepted) performed
  obtain ⟨inner, bare, frame, declared, beside, rfl, answers⟩ := along.beside stays
  cases ran.symm.trans beside
  refine ⟨inner, bare, frame, declared, rfl, rfl, answers, fun anchors => ⟨?_, ?_⟩⟩
  · rintro rfl other checked
    exact quantify_conflict (answers.pending anchors) checked
  · intro nested other error
    obtain ⟨current, rest, rfl⟩ := List.exists_cons_of_ne_nil nested
    have same : (around (current :: rest) frame before.outer declared).current =
        (around (current :: rest) bare before.outer declared).current := rfl
    exact quantify_error_congr same other error

theorem quantifier_reaches_one_node_group :
    ∃ armed after plain, new.quantify .oneOrMore = .ok armed ∧
      armed.performAll [.call .startOfInput, .call .group, .quantify .optional,
        .call (.char ['a']), .call .close] = .ok after ∧
      DiffersBy .oneOrMore plain after ∧
      Frame.Answers .oneOrMore (.empty .root)
        [.anchor .start, .group false [.quantified (.char (.ofChar 'a')) .optional]]
        plain.current after.current ∧
      after.current.elements =
        [.anchor .start,
          .quantified (.group false [.quantified (.char (.ofChar 'a')) .optional]) .oneOrMore] := by
  obtain ⟨plain, -, differs, beside⟩ :=
    quantifier_reaches_one_node .oneOrMore new ⟨⟨.root, some .oneOrMore, []⟩, [], {}⟩
      ⟨⟨.root, none, [.anchor .start, .quantified (.group false
        [.quantified (.char (.ofChar 'a')) .optional]) .oneOrMore]⟩, [], { hasStart := true }⟩
      [.call .startOfInput, .call .group, .quantify .optional, .call (.char ['a']), .call .close]
      rfl rfl
  obtain ⟨inner, bare, frame, declared, rfl, whole, answers, -⟩ :=
    beside fun _ _ _ _ => Nat.zero_le _
  cases inner with
  | nil =>
      cases whole
      exact ⟨_, _, _, rfl, rfl, differs, answers, rfl⟩
  | cons current rest => exact absurd (congrArg Builder.outer whole) (by simp [around])

end Builder

end RegexForge
