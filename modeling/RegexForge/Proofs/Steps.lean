import RegexForge.Proofs.Marks
import RegexForge.Proofs.Outcome

/-!
What one call can do to a builder. `Declarations.meet` is the effect of a mark on the declarations,
with its check. Read off the call alone, a call sets a flag, appends one leaf, opens a container,
closes one, or is refused by every builder because of its arguments; a leaf and a container have
their mark met first, and only this depends on what a builder has declared. So an accepted call
changes a builder in one of four ways, and whatever holds of these holds of every call.
-/

namespace RegexForge

open Outcome

namespace Declarations

theorem declareName_eq_ok_iff {declared next : Declarations} {name : Text} :
    declared.declareName name = .ok next ↔
      name ∉ declared.names ∧ isGroupName name = true ∧
        next = { declared with names := declared.names ++ [name] } := by
  simp only [declareName, hasName, List.contains_iff_mem]
  by_cases known : name ∈ declared.names
  · simp [known]
  · by_cases valid : isGroupName name = true
    · simp [known, valid, eq_comm]
    · simp [known, valid]

theorem declareStart_eq_ok_iff {declared next : Declarations} :
    declared.declareStart = .ok next ↔
      declared.hasStart = false ∧ declared.hasStop = false ∧
        next = { declared with hasStart := true } := by
  unfold declareStart
  by_cases started : declared.hasStart = true
  · simp [started]
  · by_cases stopped : declared.hasStop = true
    · simp [started, stopped]
    · simp [started, stopped, eq_comm]

theorem declareStop_eq_ok_iff {declared next : Declarations} :
    declared.declareStop = .ok next ↔
      declared.hasStop = false ∧ next = { declared with hasStop := true } := by
  unfold declareStop
  by_cases stopped : declared.hasStop = true
  · simp [stopped]
  · simp [stopped, eq_comm]

def meet (declared : Declarations) : Mark → Except Error Declarations
  | .anchor .start => declared.declareStart
  | .anchor .stop => declared.declareStop
  | .capture none => .ok declared.addCapture
  | .capture (some name) => do return (← declared.declareName name).addCapture
  | .reference index =>
      if 0 < index ∧ index ≤ declared.captures then .ok declared
      else .error (.badArgument (.backreference index declared.captures))
  | .namedReference name =>
      if declared.hasName name then .ok declared else .error (.unknownGroup name)

def meetAll (declared : Declarations) (marks : List Mark) : Except Error Declarations :=
  marks.foldlM meet declared

@[simp] theorem meetAll_nil (declared : Declarations) : declared.meetAll [] = .ok declared := rfl

theorem meetAll_cons (declared : Declarations) (mark : Mark) (rest : List Mark) :
    declared.meetAll (mark :: rest) = declared.meet mark >>= fun next => next.meetAll rest :=
  List.foldlM_cons

@[simp] theorem meetAll_singleton (declared : Declarations) (mark : Mark) :
    declared.meetAll [mark] = declared.meet mark := by
  rw [meetAll_cons]
  cases declared.meet mark <;> rfl

theorem meetAll_append (declared : Declarations) (first second : List Mark) :
    declared.meetAll (first ++ second) =
      declared.meetAll first >>= fun next => next.meetAll second :=
  List.foldlM_append

end Declarations

/-- Some call expresses the set: it is filled, its ranges run upwards, and it does not mix
characters and ranges while it is negated. -/
def BracketSet.Buildable (set : BracketSet) : Prop :=
  set.members ≠ [] ∧ (∀ low high, .range low high ∈ set.members → low < high) ∧
    (set.negated = true → set.charsOnly? ≠ none ∨ set.singleRange? ≠ none)

namespace Node

/-- What can be quantified: an element of the tree that a quantifier was not given to before and
that stands for input. -/
def takesQuantifier : Node → Bool
  | noop | anchor _ | lookaround _ _ | quantified _ _ => false
  | _ => true

/-- What a call pushes by itself. Containers and quantified nodes come from several calls; the
other nodes come from merges and from patterns. -/
def isNative : Node → Bool
  | noop | bracketSet _ | group _ _ | namedGroup _ _ | lookaround _ _ | anyOf _ | subexpression _
  | quantified _ _ => false
  | char literal => literal.raw.length == 1
  | _ => true

theorem children_of_isNative {node : Node} (native : node.isNative = true) :
    node.children = [] := by
  cases node with
  | group _ _ | namedGroup _ _ | lookaround _ _ | anyOf _ | subexpression _ | quantified _ _ =>
      contradiction
  | _ => rfl

def Buildable : Node → Prop
  | char literal | string literal | anyOfChars literal | anythingButChars literal =>
      literal.raw ≠ []
  | anythingButString literals =>
      literals ≠ [] ∧ ∀ literal ∈ literals, ∃ c, literal = .ofChar c
  | bracketSet set => set.Buildable
  | range low high | anythingButRange low high => low < high
  | quantified inner quantifier => quantifier.check = .ok () ∧ inner.takesQuantifier = true
  | _ => True

end Node

theorem nonempty_eq_ok_iff {name : String} {text : Text} {literal : Literal} :
    nonempty name text = .ok literal ↔ text ≠ [] ∧ literal = ⟨text⟩ := by
  unfold nonempty
  split
  · next empty => simp [empty]
  · next filled => simp [filled, eq_comm]

theorem single?_eq_some_iff {text : Text} {c : Char} : text.single? = some c ↔ text = [c] := by
  unfold Text.single?
  split <;> simp_all

theorem rangeBounds_eq_ok_iff {low high : Text} {first last : Char} :
    rangeBounds low high = .ok (first, last) ↔ low = [first] ∧ high = [last] ∧ first < last := by
  simp only [← single?_eq_some_iff, rangeBounds, checkRange]
  cases low.single? with
  | none => simp
  | some c =>
      cases high.single? with
      | none => simp
      | some d => by_cases upwards : c < d <;> simp [upwards] <;> grind

namespace Builder

theorem close_eq_ok_iff {before after : Builder} :
    before.close = .ok after ↔
      ∃ parent outer, before.outer = parent :: outer ∧
        after = ⟨parent.push (before.current.container.node before.current.elements), outer,
          before.declared⟩ := by
  unfold close
  cases split : before.outer with
  | nil => simp
  | cons parent outer =>
      constructor
      · intro closed
        cases closed
        exact ⟨parent, outer, rfl, rfl⟩
      · rintro ⟨_, _, ⟨⟩, rfl⟩
        rfl

theorem quantify_eq_ok_iff {before after : Builder} {quantifier : Quantifier} :
    before.quantify quantifier = .ok after ↔
      quantifier.check = .ok () ∧ before.current.pending = none ∧
        after = { before with current := { before.current with pending := some quantifier } } := by
  unfold quantify
  cases quantifier.check with
  | error fault => simp
  | ok _ =>
      cases before.current.pending with
      | none => simp [eq_comm]
      | some pending => simp

theorem marks_quantify {before after : Builder} {quantifier : Quantifier}
    (accepted : before.quantify quantifier = .ok after) : after.marks = before.marks := by
  rcases quantify_eq_ok_iff.mp accepted with ⟨-, -, rfl⟩
  rw [marks_eq, marks_eq]
  rfl

/-! Calls whose elements have a mark. -/

theorem apply_startOfInput (builder : Builder) :
    builder.apply .startOfInput = do
      let declared ← builder.declared.meetAll [.anchor .start]
      return { builder with declared := declared }.push (.anchor .start) := by
  rw [Declarations.meetAll_singleton]
  rfl

theorem apply_endOfInput (builder : Builder) :
    builder.apply .endOfInput = do
      let declared ← builder.declared.meetAll [.anchor .stop]
      return { builder with declared := declared }.push (.anchor .stop) := by
  rw [Declarations.meetAll_singleton]
  rfl

theorem apply_backreference (builder : Builder) (index : Nat) :
    builder.apply (.backreference index) = do
      let declared ← builder.declared.meetAll [.reference index]
      return { builder with declared := declared }.push (.backreference index) := by
  rw [Declarations.meetAll_singleton, apply, backreference, Declarations.meet]
  split <;> rfl

theorem apply_namedBackreference (builder : Builder) (name : Text) :
    builder.apply (.namedBackreference name) = do
      let declared ← builder.declared.meetAll [.namedReference name]
      return { builder with declared := declared }.push (.namedBackreference name) := by
  rw [Declarations.meetAll_singleton, apply, namedBackreference, Declarations.meet]
  split <;> rfl

end Builder

namespace Container

def opening : Container → Call
  | root | group => .group
  | capture => .capture
  | namedCapture name => .namedCapture name
  | anyOf => .anyOf
  | lookaround kind => .lookaround kind

theorem apply_opening (container : Container) (inner : container ≠ .root) (builder : Builder) :
    builder.apply container.opening = do
      let declared ← builder.declared.meetAll container.mark?.toList
      return { builder with declared := declared }.enter container := by
  cases container with
  | root => contradiction
  | namedCapture name =>
      simp only [opening, Builder.apply, Builder.namedCapture, mark?, Option.toList,
        Declarations.meetAll_singleton, Declarations.meet, bind_assoc]
      rfl
  | _ => rfl

end Container

namespace Call

def leaf? : Call → Option Node
  | charClass kind => some (.charClass kind)
  | startOfInput => some (.anchor .start)
  | endOfInput => some (.anchor .stop)
  | char text => text.single?.map fun c => .char (.ofChar c)
  | string text => some (.string ⟨text⟩)
  | range low high => do return .range (← low.single?) (← high.single?)
  | anythingButRange low high => do return .anythingButRange (← low.single?) (← high.single?)
  | anyOfChars chars => some (.anyOfChars ⟨chars⟩)
  | anythingButChars chars => some (.anythingButChars ⟨chars⟩)
  | anythingButString text => some (.anythingButString (text.map Literal.ofChar))
  | backreference index => some (.backreference index)
  | namedBackreference name => some (.namedBackreference name)
  | flag _ | group | capture | namedCapture _ | anyOf | lookaround _ | close => none

/-- What a call asks of every builder. -/
inductive Effect (call : Call) : Prop where
  | flag (flag : Flag) (sets : call = .flag flag)
  | append (node : Node) (leaf : call.leaf? = some node) (native : node.isNative = true)
      (buildable : node.Buildable)
      (appends : ∀ builder : Builder, builder.apply call = do
        let declared ← builder.declared.meetAll node.mark?.toList
        return { builder with declared := declared }.push node)
  | enter (container : Container) (inner : container ≠ .root) (opens : call = container.opening)
  | close (ends : call = .close)
  | refused (fault : ArgumentFault)
      (refuses : ∀ builder : Builder, builder.apply call = .error (.badArgument fault))

theorem effect_of_check {α : Type} {call : Call} (node : α → Node) (check : Except ArgumentFault α)
    (checks : ∀ builder : Builder, builder.apply call =
      (check.mapError Error.badArgument >>= fun value => .ok (builder.push (node value))))
    (inert : ∀ value, (node value).isNative = true ∧ (node value).mark? = none)
    (passes : ∀ value, check = .ok value →
      call.leaf? = some (node value) ∧ (node value).Buildable) : call.Effect := by
  cases checked : check with
  | error fault =>
      refine .refused fault fun builder => ?_
      rw [checks, checked]
      rfl
  | ok value =>
      obtain ⟨leaf, buildable⟩ := passes value checked
      refine .append (node value) leaf (inert value).1 buildable fun builder => ?_
      rw [checks, checked, (inert value).2]
      rfl

theorem effect_of_text {call : Call} (node : Literal → Node) (name : String) (text : Text)
    (checks : ∀ builder : Builder, builder.apply call =
      ((nonempty name text).mapError Error.badArgument >>= fun literal =>
        .ok (builder.push (node literal))))
    (inert : ∀ literal, (node literal).isNative = true ∧ (node literal).mark? = none)
    (leaf : call.leaf? = some (node ⟨text⟩)) (buildable : text ≠ [] → (node ⟨text⟩).Buildable) :
    call.Effect := by
  refine effect_of_check node (nonempty name text) checks inert fun literal checked => ?_
  obtain ⟨filled, rfl⟩ := nonempty_eq_ok_iff.mp checked
  exact ⟨leaf, buildable filled⟩

theorem effect (call : Call) : call.Effect := by
  cases call with
  | flag flag => exact .flag flag rfl
  | charClass kind => exact .append _ rfl rfl trivial fun _ => rfl
  | startOfInput => exact .append _ rfl rfl trivial Builder.apply_startOfInput
  | endOfInput => exact .append _ rfl rfl trivial Builder.apply_endOfInput
  | char text =>
      cases single : text.single? with
      | none =>
          refine .refused (.notAChar text) fun builder => ?_
          rw [Builder.apply, Builder.char, single]
      | some c =>
          obtain rfl := single?_eq_some_iff.mp single
          exact .append (.char (.ofChar c)) rfl rfl (by simp [Node.Buildable, Literal.ofChar])
            fun _ => rfl
  | string text =>
      exact effect_of_text .string "string" text (fun _ => rfl) (fun _ => ⟨rfl, rfl⟩) rfl id
  | range low high =>
      refine effect_of_check (fun bounds => .range bounds.1 bounds.2) (rangeBounds low high)
        (fun _ => rfl) (fun _ => ⟨rfl, rfl⟩) fun bounds checked => ?_
      obtain ⟨rfl, rfl, upwards⟩ := rangeBounds_eq_ok_iff.mp checked
      exact ⟨rfl, upwards⟩
  | anythingButRange low high =>
      refine effect_of_check (fun bounds => .anythingButRange bounds.1 bounds.2)
        (rangeBounds low high) (fun _ => rfl) (fun _ => ⟨rfl, rfl⟩) fun bounds checked => ?_
      obtain ⟨rfl, rfl, upwards⟩ := rangeBounds_eq_ok_iff.mp checked
      exact ⟨rfl, upwards⟩
  | anyOfChars chars =>
      exact effect_of_text .anyOfChars "chars" chars (fun _ => rfl) (fun _ => ⟨rfl, rfl⟩) rfl id
  | anythingButChars chars =>
      exact effect_of_text .anythingButChars "chars" chars (fun _ => rfl) (fun _ => ⟨rfl, rfl⟩)
        rfl id
  | anythingButString text =>
      refine effect_of_text (fun literal => .anythingButString (literal.raw.map Literal.ofChar))
        "str" text (fun _ => rfl) (fun _ => ⟨rfl, rfl⟩) rfl fun filled => ⟨by simpa using filled, ?_⟩
      intro literal member
      obtain ⟨c, _, rfl⟩ := List.mem_map.mp member
      exact ⟨c, rfl⟩
  | backreference index =>
      exact .append _ rfl rfl trivial fun builder => builder.apply_backreference index
  | namedBackreference name =>
      exact .append _ rfl rfl trivial fun builder => builder.apply_namedBackreference name
  | group => exact .enter .group (by simp) rfl
  | capture => exact .enter .capture (by simp) rfl
  | namedCapture name => exact .enter (.namedCapture name) (by simp) rfl
  | anyOf => exact .enter .anyOf (by simp) rfl
  | lookaround kind => exact .enter (.lookaround kind) (by simp) rfl
  | close => exact .close rfl

theorem of_leaf {call : Call} {node : Node} (leaf : call.leaf? = some node) :
    call.opens = false ∧ call ≠ .close := by
  cases call <;> simp_all [leaf?, opens]

end Call

namespace Builder

/-- The ways in which an accepted call changes a builder. -/
inductive Step (before : Builder) : Builder → Prop where
  | flag (flag : Flag) : Step before (before.flag flag)
  | push {declared : Declarations} {node : Node} (native : node.isNative = true)
      (buildable : node.Buildable)
      (met : before.declared.meetAll node.mark?.toList = .ok declared) :
      Step before ({ before with declared := declared }.push node)
  | enter {declared : Declarations} {container : Container} (inner : container ≠ .root)
      (met : before.declared.meetAll container.mark?.toList = .ok declared) :
      Step before ({ before with declared := declared }.enter container)
  | close {after : Builder} (closed : before.close = .ok after) : Step before after

theorem apply_step {before after : Builder} {call : Call}
    (accepted : before.apply call = .ok after) : Step before after := by
  cases call.effect with
  | flag flag sets =>
      subst sets
      cases accepted
      exact .flag flag
  | append node leaf native buildable appends =>
      obtain ⟨declared, met, pushed⟩ := bind_eq_ok_iff.mp ((appends before).symm.trans accepted)
      cases pushed
      exact .push native buildable met
  | enter container inner opens =>
      subst opens
      rw [container.apply_opening inner] at accepted
      obtain ⟨declared, met, entered⟩ := bind_eq_ok_iff.mp accepted
      cases entered
      exact .enter inner met
  | close ends =>
      subst ends
      exact .close accepted
  | refused fault refuses =>
      rw [refuses] at accepted
      contradiction

end Builder

end RegexForge
