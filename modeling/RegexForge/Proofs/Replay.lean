import RegexForge.Proofs.Steps
import RegexForge.Script

/-!
Replaying the script of a tree. A call hands over an element in one form only: a character list
instead of a set of characters, alternatives instead of a set of characters and ranges, a group
instead of a merged element that is repeated. `rebuilt` is the tree in these forms. The main
statement is that the script of every tree whose nodes are buildable exists, and that replaying it
in any frame meets the marks of the tree, in document order, and then appends the rebuilt tree to
the frame; it fails exactly as the first mark that is refused.
-/

namespace RegexForge

open Outcome

namespace SetMember

def node : SetMember → Node
  | char c => .char (.ofChar c)
  | range low high => .range low high

end SetMember

def BracketSet.rebuilt (set : BracketSet) : Node :=
  match set.charsOnly?, set.singleRange? with
  | some chars, _ => if set.negated then .anythingButChars ⟨chars⟩ else .anyOfChars ⟨chars⟩
  | none, some (low, high) => if set.negated then .anythingButRange low high else .range low high
  | none, none => .anyOf (set.members.map SetMember.node)

theorem members_of_singleRange? {set : BracketSet} {bounds : Char × Char}
    (single : set.singleRange? = some bounds) : set.members = [.range bounds.1 bounds.2] := by
  unfold BracketSet.singleRange? at single
  split at single
  · next low high members =>
      cases single
      exact members
  · contradiction

namespace Node

mutual

/-- A node as one element. -/
def rebuilt : Node → Node
  | char literal => if literal.isMulti then string literal else char literal
  | bracketSet set => set.rebuilt
  | group capturing children => group capturing (rebuiltAll children)
  | namedGroup name children => namedGroup name (rebuiltAll children)
  | lookaround kind children => lookaround kind (rebuiltAll children)
  | anyOf children => anyOf (rebuiltAll children)
  | subexpression children => group false (rebuiltAll children)
  | quantified inner quantifier => quantified (rebuilt inner) quantifier
  | node => node

/-- A list of nodes in place, where merged elements dissolve. -/
def rebuiltAll : List Node → List Node
  | [] => []
  | noop :: rest => rebuiltAll rest
  | subexpression children :: rest => rebuiltAll children ++ rebuiltAll rest
  | node :: rest => rebuilt node :: rebuiltAll rest

end

/-- What a node leaves in a frame, given the quantifier requested before it. -/
def replayed : Option Quantifier → Node → List Node
  | none, node => rebuiltAll [node]
  | some quantifier, node => [quantified (rebuilt node) quantifier]

theorem rebuiltAll_cons (node : Node) (rest : List Node) :
    rebuiltAll (node :: rest) = rebuiltAll [node] ++ rebuiltAll rest := by
  cases node <;> simp [rebuiltAll]

end Node

namespace Builder

def awaiting (builder : Builder) (quantifier : Option Quantifier) : Builder :=
  { builder with current := { builder.current with pending := quantifier } }

def extend (builder : Builder) (declared : Declarations) (nodes : List Node) : Builder :=
  { builder with
    current := { builder.current with elements := builder.current.elements ++ nodes }
    declared := declared }

theorem extend_extend (builder : Builder) (first second : Declarations) (front back : List Node) :
    (builder.extend first front).extend second back = builder.extend second (front ++ back) := by
  simp [extend]

theorem awaiting_none {builder : Builder} (idle : builder.current.pending = none) :
    builder.awaiting none = builder := by
  simp [awaiting, ← idle]

theorem push_awaiting {builder : Builder} (idle : builder.current.pending = none)
    {quantifier : Option Quantifier} {node : Node}
    (suits : quantifier = none ∨ node.takesQuantifier = true) (declared : Declarations) :
    { builder.awaiting quantifier with declared := declared }.push node =
      builder.extend declared [Frame.wrap quantifier node] := by
  have used : Frame.stillPending quantifier node = none := by
    cases node with
    | anchor _ => simpa [Node.takesQuantifier, Frame.stillPending] using suits
    | _ => rfl
  simp [push, Frame.push, awaiting, extend, used, idle]

theorem push_of_idle {builder : Builder} (idle : builder.current.pending = none)
    (declared : Declarations) (node : Node) :
    { builder with declared := declared }.push node = builder.extend declared [node] := by
  have pushed := @push_awaiting _ idle none node (.inl rfl) declared
  rwa [awaiting_none idle] at pushed

/-! Calls whose arguments pass the checks. -/

theorem apply_char (builder : Builder) (c : Char) :
    builder.apply (.char [c]) = .ok (builder.push (.char (.ofChar c))) :=
  rfl

theorem apply_string (builder : Builder) {text : Text} (filled : text ≠ []) :
    builder.apply (.string text) = .ok (builder.push (.string ⟨text⟩)) := by
  simp [apply, string, nonempty_eq_ok_iff.mpr ⟨filled, rfl⟩]

theorem apply_range (builder : Builder) {low high : Char} (upwards : low < high) :
    builder.apply (.range [low] [high]) = .ok (builder.push (.range low high)) := by
  simp [apply, range, rangeBounds_eq_ok_iff.mpr ⟨rfl, rfl, upwards⟩]

theorem apply_anythingButRange (builder : Builder) {low high : Char} (upwards : low < high) :
    builder.apply (.anythingButRange [low] [high]) =
      .ok (builder.push (.anythingButRange low high)) := by
  simp [apply, anythingButRange, rangeBounds_eq_ok_iff.mpr ⟨rfl, rfl, upwards⟩]

theorem apply_anyOfChars (builder : Builder) {chars : Text} (filled : chars ≠ []) :
    builder.apply (.anyOfChars chars) = .ok (builder.push (.anyOfChars ⟨chars⟩)) := by
  simp [apply, anyOfChars, nonempty_eq_ok_iff.mpr ⟨filled, rfl⟩]

theorem apply_anythingButChars (builder : Builder) {chars : Text} (filled : chars ≠ []) :
    builder.apply (.anythingButChars chars) = .ok (builder.push (.anythingButChars ⟨chars⟩)) := by
  simp [apply, anythingButChars, nonempty_eq_ok_iff.mpr ⟨filled, rfl⟩]

theorem apply_anythingButString (builder : Builder) {text : Text} (filled : text ≠ []) :
    builder.apply (.anythingButString text) =
      .ok (builder.push (.anythingButString (text.map Literal.ofChar))) := by
  simp [apply, anythingButString, nonempty_eq_ok_iff.mpr ⟨filled, rfl⟩]

end Builder

namespace Script

def continueOn (builder : Builder) (script : Script) : Except Error Builder :=
  script.foldlM step builder

@[simp] theorem continueOn_nil (builder : Builder) : continueOn builder [] = .ok builder := rfl

theorem continueOn_cons (builder : Builder) (line : Line) (rest : Script) :
    continueOn builder (line :: rest) = step builder line >>= fun next => continueOn next rest :=
  List.foldlM_cons

theorem continueOn_append (builder : Builder) (first second : Script) :
    continueOn builder (first ++ second) =
      continueOn builder first >>= fun next => continueOn next second :=
  List.foldlM_append

def Accepts (quantifier : Option Quantifier) : Prop :=
  ∀ q, quantifier = some q → q.check = .ok ()

theorem step_eq {builder : Builder} (idle : builder.current.pending = none) (depth : Nat)
    {quantifier : Option Quantifier} (accepts : Accepts quantifier) (call : Call) :
    step builder ⟨depth, quantifier, call⟩ = (builder.awaiting quantifier).apply call := by
  cases quantifier with
  | none => rw [Builder.awaiting_none idle, step]
  | some q => simp [step, Builder.quantify, accepts q rfl, idle, Builder.awaiting]

/-- The script appends these elements to any frame after meeting these marks. -/
def Appends (script : Script) (marks : List Mark) (elements : List Node) : Prop :=
  ∀ builder : Builder, builder.current.pending = none →
    continueOn builder script = do
      let declared ← builder.declared.meetAll marks
      return builder.extend declared elements

theorem appends_nil : Appends [] [] [] := by
  intro builder idle
  simp [Builder.extend]

theorem Appends.append {first second : Script} {front back : List Mark} {left right : List Node}
    (one : Appends first front left) (other : Appends second back right) :
    Appends (first ++ second) (front ++ back) (left ++ right) := by
  intro builder idle
  rw [continueOn_append, one builder idle, Declarations.meetAll_append]
  -- If all marks of the first script are met, no quantifier waits when the second one starts.
  cases builder.declared.meetAll front with
  | error refusal => rfl
  | ok declared =>
      simp only [ok_bind, pure_eq_ok]
      rw [other _ (by simpa [Builder.extend] using idle)]
      simp only [Builder.extend_extend]
      rfl

theorem appends_line {call : Call} {node : Node} {marks : List Mark} (depth : Nat)
    {quantifier : Option Quantifier} (accepts : Accepts quantifier)
    (suits : quantifier = none ∨ node.takesQuantifier = true)
    (pushes : ∀ builder : Builder, builder.apply call = do
      let declared ← builder.declared.meetAll marks
      return { builder with declared := declared }.push node) :
    Appends [⟨depth, quantifier, call⟩] marks [Frame.wrap quantifier node] := by
  intro builder idle
  rw [continueOn_cons, step_eq idle depth accepts, pushes]
  change (builder.declared.meetAll marks >>= _) >>= _ = _
  cases builder.declared.meetAll marks with
  | error refusal => rfl
  | ok declared =>
      simp only [ok_bind, pure_eq_ok, Builder.push_awaiting idle suits, continueOn_nil]

/-- A container, its contents in a frame of their own, and the element that closing it hands to the
frame around it. -/
theorem appends_block (container : Container) {body : Script} {marks : List Mark}
    {elements : List Node} (depth : Nat) {quantifier : Option Quantifier}
    (accepts : Accepts quantifier) (inner : container ≠ .root)
    (suits : quantifier = none ∨ (container.node elements).takesQuantifier = true)
    (inside : Appends body marks elements) :
    Appends (block depth quantifier container.opening body) (container.mark?.toList ++ marks)
      [Frame.wrap quantifier (container.node elements)] := by
  intro builder idle
  rw [block, List.cons_append, continueOn_cons, step_eq idle depth accepts,
    container.apply_opening inner, Declarations.meetAll_append]
  change (builder.declared.meetAll container.mark?.toList >>= _) >>= _ = _
  cases builder.declared.meetAll container.mark?.toList with
  | error refusal => rfl
  | ok opened =>
      simp only [ok_bind, pure_eq_ok]
      -- Nothing waits in the new frame; the quantifier waits in the one around it.
      rw [continueOn_append, inside _ rfl]
      change (opened.meetAll marks >>= _) >>= _ = _
      cases opened.meetAll marks with
      | error refusal => rfl
      | ok declared =>
          simp only [ok_bind, pure_eq_ok]
          rw [continueOn_cons]
          exact congrArg (fun after => (Except.ok after : Except Error Builder))
            (Builder.push_awaiting idle suits declared)

theorem appends_unmarked {call : Call} {node : Node} (depth : Nat)
    {quantifier : Option Quantifier} (accepts : Accepts quantifier)
    (suits : quantifier = none ∨ node.takesQuantifier = true)
    (pushes : ∀ builder : Builder, builder.apply call = .ok (builder.push node)) :
    Appends [⟨depth, quantifier, call⟩] [] [Frame.wrap quantifier node] :=
  appends_line depth accepts suits pushes

/-! The lines for one member of a set and for a whole set. -/

theorem appends_member (member : SetMember)
    (ordered : ∀ low high, member = .range low high → low < high) (depth : Nat) :
    Appends [⟨depth, none, member.call⟩] [] [member.node] := by
  have accepts : Accepts none := by simp [Accepts]
  cases member with
  | char c => exact appends_unmarked depth accepts (.inl rfl) fun builder => builder.apply_char c
  | range low high =>
      exact appends_unmarked depth accepts (.inl rfl) fun builder =>
        builder.apply_range (ordered low high rfl)

theorem appends_members (members : List SetMember)
    (ordered : ∀ low high, .range low high ∈ members → low < high) (depth : Nat) :
    Appends (members.map fun member => ⟨depth, none, member.call⟩) []
      (members.map SetMember.node) := by
  induction members with
  | nil => exact appends_nil
  | cons member rest ih =>
      have first := appends_member member
        (fun low high same => ordered low high (by simp [same])) depth
      have later := ih (fun low high member => ordered low high (List.mem_cons_of_mem _ member))
      exact first.append later

theorem set_appends {set : BracketSet} (buildable : set.Buildable) (depth : Nat)
    {quantifier : Option Quantifier} (accepts : Accepts quantifier) :
    ∃ script, set.script depth quantifier = .ok script ∧
      Appends script [] [Frame.wrap quantifier set.rebuilt] := by
  obtain ⟨nonempty, ordered, expressible⟩ := buildable
  unfold BracketSet.script BracketSet.rebuilt
  cases chars : set.charsOnly? with
  | some text =>
      have filled : text ≠ [] := by
        rintro rfl
        exact nonempty ((set.charsOnly?_eq_some_iff []).mp chars)
      refine ⟨_, rfl, ?_⟩
      cases set.negated with
      | false =>
          exact appends_unmarked depth accepts (.inr rfl) fun builder =>
            builder.apply_anyOfChars filled
      | true =>
          exact appends_unmarked depth accepts (.inr rfl) fun builder =>
            builder.apply_anythingButChars filled
  | none =>
      cases range : set.singleRange? with
      | some bounds =>
          have upwards := ordered bounds.1 bounds.2 (by simp [members_of_singleRange? range])
          refine ⟨_, rfl, ?_⟩
          cases set.negated with
          | false =>
              exact appends_unmarked depth accepts (.inr rfl) fun builder =>
                builder.apply_range upwards
          | true =>
              exact appends_unmarked depth accepts (.inr rfl) fun builder =>
                builder.apply_anythingButRange upwards
      | none =>
          have positive : set.negated = false := by simpa [chars, range] using expressible
          simp only [positive, Bool.false_eq_true, ↓reduceIte]
          refine ⟨_, rfl, ?_⟩
          exact appends_block .anyOf depth accepts (by simp) (.inr rfl)
            (appends_members set.members ordered (depth + 1))

end Script

namespace Node

open Script

theorem wrap_some {node : Node} (takes : node.takesQuantifier = true) (quantifier : Quantifier) :
    Frame.wrap (some quantifier) node = .quantified node quantifier := by
  cases node with
  | anchor _ | lookaround _ _ => contradiction
  | _ => rfl

theorem replayed_single {quantifier : Option Quantifier} {node : Node}
    (single : rebuiltAll [node] = [rebuilt node])
    (suits : quantifier = none ∨ (rebuilt node).takesQuantifier = true) :
    replayed quantifier node = [Frame.wrap quantifier (rebuilt node)] := by
  cases quantifier with
  | none => exact single
  | some q =>
      have takes : (rebuilt node).takesQuantifier = true := by simpa using suits
      rw [wrap_some takes]
      rfl

theorem set_takesQuantifier (set : BracketSet) :
    (rebuilt (bracketSet set)).takesQuantifier = true := by
  simp only [rebuilt, BracketSet.rebuilt]
  cases set.negated <;> split <;> rfl

theorem char_or_multi {literal : Literal} (filled : literal.raw ≠ []) :
    (∃ c, literal = .ofChar c) ∨ literal.raw.single? = none ∧ literal.isMulti = true := by
  obtain ⟨raw⟩ := literal
  match raw with
  | [] => contradiction
  | [c] => exact .inl ⟨c, rfl⟩
  | _ :: _ :: _ => exact .inr ⟨rfl, by simp [Literal.isMulti]⟩

theorem flatMap_raw {literals : List Literal}
    (single : ∀ literal ∈ literals, ∃ c, literal = .ofChar c) :
    (literals.flatMap Literal.raw).map Literal.ofChar = literals := by
  induction literals with
  | nil => rfl
  | cons literal rest ih =>
      obtain ⟨c, rfl⟩ := single literal (by simp)
      have later := ih fun literal member => single literal (List.mem_cons_of_mem _ member)
      simp only [List.flatMap_cons, List.map_append, later]
      rfl

theorem rebuilt_of_isNative {node : Node} (native : node.isNative = true) :
    rebuilt node = node := by
  cases node with
  | char literal =>
      have one : literal.raw.length = 1 := by simpa [isNative] using native
      simp [rebuilt, Literal.isMulti, one]
  | bracketSet _ | group _ _ | namedGroup _ _ | lookaround _ _ | anyOf _ | subexpression _
  | quantified _ _ => contradiction
  | _ => rfl

/-- The converse of `Call.Effect`: what a call pushes by itself is the script of that one call. -/
theorem exists_call_of_isNative {node : Node} (native : node.isNative = true)
    (buildable : node.Buildable) :
    ∃ call : Call,
      (∀ depth quantifier, node.script depth quantifier = .ok [⟨depth, quantifier, call⟩]) ∧
      ∀ builder : Builder, builder.apply call = do
        let declared ← builder.declared.meetAll (marks [node])
        return { builder with declared := declared }.push node := by
  cases node with
  | noop | bracketSet _ | group _ _ | namedGroup _ _ | lookaround _ _ | anyOf _
  | subexpression _ | quantified _ _ => contradiction
  | anchor a =>
      cases a with
      | start => exact ⟨_, fun _ _ => rfl, Builder.apply_startOfInput⟩
      | stop => exact ⟨_, fun _ _ => rfl, Builder.apply_endOfInput⟩
  | charClass kind => exact ⟨_, fun _ _ => rfl, fun _ => rfl⟩
  | char literal =>
      obtain ⟨raw⟩ := literal
      obtain ⟨c, rfl⟩ := List.length_eq_one_iff.mp (by simpa [isNative] using native)
      exact ⟨_, fun _ _ => rfl, fun builder => builder.apply_char c⟩
  | string literal => exact ⟨_, fun _ _ => rfl, fun builder => builder.apply_string buildable⟩
  | range low high => exact ⟨_, fun _ _ => rfl, fun builder => builder.apply_range buildable⟩
  | anythingButRange low high =>
      exact ⟨_, fun _ _ => rfl, fun builder => builder.apply_anythingButRange buildable⟩
  | anyOfChars literal =>
      exact ⟨_, fun _ _ => rfl, fun builder => builder.apply_anyOfChars buildable⟩
  | anythingButChars literal =>
      exact ⟨_, fun _ _ => rfl, fun builder => builder.apply_anythingButChars buildable⟩
  | anythingButString literals =>
      obtain ⟨nonempty, single⟩ := buildable
      -- The call takes one text and splits it into characters again.
      have whole := flatMap_raw single
      have filled : literals.flatMap Literal.raw ≠ [] := by
        intro empty
        rw [empty] at whole
        exact nonempty whole.symm
      refine ⟨_, fun _ _ => rfl, fun builder => ?_⟩
      rw [builder.apply_anythingButString filled, whole]
      rfl
  | backreference index =>
      exact ⟨_, fun _ _ => rfl, fun builder => builder.apply_backreference index⟩
  | namedBackreference name =>
      exact ⟨_, fun _ _ => rfl, fun builder => builder.apply_namedBackreference name⟩

/-- The calls for a node exist, and append it to any frame in the quantifier requested for it. -/
def Scripted (node : Node) (depth : Nat) (quantifier : Option Quantifier) : Prop :=
  ∃ script, node.script depth quantifier = .ok script ∧
    Appends script (marks [node]) (replayed quantifier node)

def ScriptedAll (nodes : List Node) (depth : Nat) : Prop :=
  ∃ script, scriptAll nodes depth = .ok script ∧ Appends script (marks nodes) (rebuiltAll nodes)

section

variable {depth : Nat} {quantifier : Option Quantifier}

theorem scripted_native {node : Node} (native : node.isNative = true) (buildable : node.Buildable)
    (accepts : Accepts quantifier) (suits : quantifier = none ∨ node.takesQuantifier = true) :
    Scripted node depth quantifier := by
  obtain ⟨call, made, pushes⟩ := exists_call_of_isNative native buildable
  have same := rebuilt_of_isNative native
  have alone : rebuiltAll [node] = [rebuilt node] := by
    cases node with
    | noop | subexpression _ => contradiction
    | _ => rfl
  refine ⟨_, made depth quantifier, ?_⟩
  rw [replayed_single alone (by rwa [same]), same]
  exact appends_line depth accepts suits pushes

theorem scripted_char {literal : Literal} (filled : literal.raw ≠ [])
    (accepts : Accepts quantifier) : Scripted (char literal) depth quantifier := by
  rcases char_or_multi filled with ⟨c, rfl⟩ | ⟨several, isMulti⟩
  · exact scripted_native rfl filled accepts (.inr rfl)
  · -- Several characters in one node are built by the call for a string.
    obtain ⟨script, made, appends⟩ : Scripted (string literal) depth quantifier :=
      scripted_native rfl filled accepts (.inr rfl)
    refine ⟨script, ?_, ?_⟩
    · simpa only [Node.script, charCall, several] using made
    · have same : rebuilt (char literal) = rebuilt (string literal) := by simp [rebuilt, isMulti]
      have left : replayed quantifier (char literal) = replayed quantifier (string literal) := by
        cases quantifier <;> simp [replayed, rebuiltAll, same]
      rwa [left]

theorem scripted_bracketSet {set : BracketSet} (buildable : set.Buildable)
    (accepts : Accepts quantifier) : Scripted (bracketSet set) depth quantifier := by
  unfold Scripted
  rw [replayed_single rfl (.inr (set_takesQuantifier set))]
  exact set_appends buildable depth accepts

theorem scripted_container (container : Container) (inner : container ≠ .root)
    {children : List Node} (accepts : Accepts quantifier)
    (suits : quantifier = none ∨ (container.node children).takesQuantifier = true)
    (inside : ScriptedAll children (depth + 1)) :
    Scripted (container.node children) depth quantifier := by
  obtain ⟨body, made, appends⟩ := inside
  have lines : (container.node children).script depth quantifier =
      .ok (block depth quantifier container.opening body) := by
    cases container with
    | root => contradiction
    | _ => simp [Container.node, Container.opening, Node.script, made]
  have rebuilds : rebuilt (container.node children) = container.node (rebuiltAll children) := by
    cases container <;> rfl
  have alone : rebuiltAll [container.node children] = [rebuilt (container.node children)] := by
    cases container <;> rfl
  have takes : (container.node (rebuiltAll children)).takesQuantifier =
      (container.node children).takesQuantifier := by
    cases container <;> rfl
  refine ⟨_, lines, ?_⟩
  rw [replayed_single alone (by rwa [rebuilds, takes]), rebuilds, container.marks_node]
  exact appends_block container depth accepts inner (by rwa [takes]) appends

/-- A merged element leaves its children in place, unless a quantifier needs them in a group. -/
theorem scripted_merged {children : List Node} (accepts : Accepts quantifier)
    (inside : ∀ depth, ScriptedAll children depth) :
    Scripted (subexpression children) depth quantifier := by
  cases quantifier with
  | none =>
      obtain ⟨body, made, appends⟩ := inside depth
      refine ⟨body, made, ?_⟩
      rw [marks_singleton]
      simpa [replayed, rebuiltAll, mark?, Node.children] using appends
  | some q =>
      obtain ⟨body, made, appends⟩ := inside (depth + 1)
      refine ⟨block depth (some q) .group body, by simp [Node.script, made], ?_⟩
      rw [marks_singleton]
      exact appends_block .group depth accepts (by simp) (.inr rfl) appends

end

mutual

theorem script_appends (node : Node) (buildable : Everywhere Buildable [node]) (depth : Nat)
    (quantifier : Option Quantifier) (accepts : Accepts quantifier)
    (suits : quantifier = none ∨ node.takesQuantifier = true) :
    Scripted node depth quantifier := by
  obtain ⟨here, below⟩ := everywhere_singleton.mp buildable
  cases node with
  | noop =>
      obtain rfl : quantifier = none := by simpa [takesQuantifier] using suits
      exact ⟨[], rfl, appends_nil⟩
  | char literal => exact scripted_char here accepts
  | bracketSet set => exact scripted_bracketSet here accepts
  | group capturing children =>
      have inside := scriptAll_appends children below (depth + 1)
      cases capturing with
      | true => exact scripted_container .capture (by simp) accepts suits inside
      | false => exact scripted_container .group (by simp) accepts suits inside
  | namedGroup name children =>
      have inside := scriptAll_appends children below (depth + 1)
      exact scripted_container (.namedCapture name) (by simp) accepts suits inside
  | lookaround kind children =>
      have inside := scriptAll_appends children below (depth + 1)
      exact scripted_container (.lookaround kind) (by simp) accepts suits inside
  | anyOf children =>
      have inside := scriptAll_appends children below (depth + 1)
      exact scripted_container .anyOf (by simp) accepts suits inside
  | subexpression children =>
      exact scripted_merged accepts (scriptAll_appends children below)
  | quantified inner q =>
      obtain rfl : quantifier = none := by simpa [takesQuantifier] using suits
      obtain ⟨checked, takes⟩ := here
      -- The quantifier goes to the line that builds the inner node.
      unfold Scripted
      rw [marks_singleton]
      exact script_appends inner below depth (some q) (by simpa [Accepts] using checked)
        (.inr takes)
  | _ => exact scripted_native rfl here accepts suits

theorem scriptAll_appends (nodes : List Node) (buildable : Everywhere Buildable nodes)
    (depth : Nat) : ScriptedAll nodes depth := by
  cases nodes with
  | nil => exact ⟨[], rfl, appends_nil⟩
  | cons node rest =>
      obtain ⟨alone, later⟩ := everywhere_cons.mp buildable
      obtain ⟨first, firstMade, firstAppends⟩ :=
        script_appends node alone depth none (by simp [Accepts]) (.inl rfl)
      obtain ⟨second, secondMade, secondAppends⟩ := scriptAll_appends rest later depth
      refine ⟨first ++ second, by simp [scriptAll, firstMade, secondMade], ?_⟩
      rw [marks_cons, rebuiltAll_cons]
      exact firstAppends.append secondAppends

end

end Node

end RegexForge
