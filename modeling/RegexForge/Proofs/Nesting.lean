import RegexForge.Proofs.InOrder
import RegexForge.Proofs.Invariants
import RegexForge.Proofs.Replay

/-!
Scripts are well nested. Two shapes of a tree have no call: a repetition that is repeated, and a
negated set that is neither a list of characters nor a single range. Every other tree has a script,
and its depths are those of the containers that are open: a block puts its contents one level down
and closes what it opened, and every other line stands at the level at which it was asked for. A
replay opens and closes its frames together with the lines, so it never closes the root.
-/

namespace RegexForge

open Outcome

/-! Trees without a script. -/

namespace BracketSet

def IsChars (set : BracketSet) : Prop :=
  ∀ member ∈ set.members, ∃ c, member = .char c

def IsRange (set : BracketSet) : Prop :=
  ∃ low high, set.members = [.range low high]

theorem exists_charsOnly?_iff (set : BracketSet) :
    (∃ chars, set.charsOnly? = some chars) ↔ set.IsChars := by
  simp only [charsOnly?_eq_some_iff, IsChars]
  constructor
  · rintro ⟨chars, members⟩ member listed
    rw [members, List.mem_map] at listed
    obtain ⟨c, -, rfl⟩ := listed
    exact ⟨c, rfl⟩
  · intro chars
    choose! charOf spelled using chars
    refine ⟨set.members.map charOf, ?_⟩
    rw [List.map_map]
    exact (List.map_id'' (fun _ => rfl) _).symm.trans (List.map_congr_left spelled)

theorem exists_singleRange?_iff (set : BracketSet) :
    (∃ bounds, set.singleRange? = some bounds) ↔ set.IsRange := by
  constructor
  · rintro ⟨⟨low, high⟩, single⟩
    exact ⟨low, high, members_of_singleRange? single⟩
  · rintro ⟨low, high, members⟩
    exact ⟨(low, high), by rw [singleRange?, members]⟩

theorem exists_script_iff (set : BracketSet) (depth : Nat) (quantifier : Option Quantifier) :
    (∃ script, set.script depth quantifier = .ok script) ↔
      ¬ (set.negated = true ∧ ¬ set.IsChars ∧ ¬ set.IsRange) := by
  rw [← exists_charsOnly?_iff, ← exists_singleRange?_iff, script]
  cases set.charsOnly? with
  | some chars => simp
  | none =>
      cases set.singleRange? with
      | some bounds => simp
      | none => cases set.negated <;> simp

end BracketSet

namespace Node

def isQuantified : Node → Bool
  | quantified _ _ => true
  | _ => false

/-- No call expresses the node, whatever is inside. -/
def Inexpressible : Node → Prop
  | quantified inner _ => inner.isQuantified = true
  | bracketSet set => set.negated = true ∧ ¬ set.IsChars ∧ ¬ set.IsRange
  | _ => False

theorem exists_wrapped_iff {ε α β : Type} {first : Except ε α} {wrap : α → β} :
    (∃ result, (first >>= fun value => pure (wrap value)) = .ok result) ↔
      ∃ result, first = .ok result := by
  cases first <;> simp

theorem expressible_iff_of_children {node : Node} (quantifier : Option Quantifier)
    (plain : node.isQuantified = false) (fits : ¬ node.Inexpressible) :
    ((quantifier = none ∨ node.isQuantified = false) ∧ ¬ node.Inexpressible ∧
        Everywhere (fun inner => ¬ inner.Inexpressible) node.children) ↔
      Everywhere (fun inner => ¬ inner.Inexpressible) node.children := by
  simp [plain, fits]

mutual

theorem exists_script_iff (node : Node) (depth : Nat) (quantifier : Option Quantifier) :
    (∃ script, node.script depth quantifier = .ok script) ↔
      (quantifier = none ∨ node.isQuantified = false) ∧
        Everywhere (fun inner => ¬ inner.Inexpressible) [node] := by
  rw [everywhere_singleton]
  cases node with
  | bracketSet set =>
      simp [script, set.exists_script_iff, isQuantified, Inexpressible, children]
  | group capturing children =>
      rw [expressible_iff_of_children quantifier rfl id]
      cases capturing <;>
        exact exists_wrapped_iff.trans (exists_scriptAll_iff children (depth + 1))
  | namedGroup _ children | lookaround _ children | anyOf children =>
      rw [expressible_iff_of_children quantifier rfl id]
      exact exists_wrapped_iff.trans (exists_scriptAll_iff children (depth + 1))
  | subexpression children =>
      rw [expressible_iff_of_children quantifier rfl id]
      cases quantifier with
      | none => exact exists_scriptAll_iff children depth
      | some q => exact exists_wrapped_iff.trans (exists_scriptAll_iff children (depth + 1))
  | quantified inner q =>
      cases quantifier with
      | none =>
          have inside := exists_script_iff inner depth (some q)
          simpa [script, isQuantified, Inexpressible, children] using inside
      | some other => simp [script, isQuantified]
  | anchor kind =>
      cases kind <;> simp [script, isQuantified, Inexpressible, children]
  | _ => simp [script, isQuantified, Inexpressible, children]

/-- A tree has a script unless one of its nodes, at any depth, has no call. -/
theorem exists_scriptAll_iff (nodes : List Node) (depth : Nat) :
    (∃ script, scriptAll nodes depth = .ok script) ↔
      Everywhere (fun inner => ¬ inner.Inexpressible) nodes := by
  cases nodes with
  | nil => simp [scriptAll]
  | cons node rest =>
      have first := exists_script_iff node depth none
      have later := exists_scriptAll_iff rest depth
      rw [everywhere_cons, ← later]
      simp only [true_or, true_and] at first
      rw [← first, scriptAll]
      constructor
      · rintro ⟨whole, made⟩
        obtain ⟨front, one, made⟩ := bind_eq_ok_iff.mp made
        obtain ⟨back, other, -⟩ := bind_eq_ok_iff.mp made
        exact ⟨⟨front, one⟩, ⟨back, other⟩⟩
      · rintro ⟨⟨front, one⟩, ⟨back, other⟩⟩
        exact ⟨front ++ back, by rw [one, other]; rfl⟩

end

end Node

open Node

namespace Regex

theorem exists_script_iff (regex : Regex) :
    (∃ script, regex.script = .ok script) ↔
      Everywhere (fun node => ¬ node.Inexpressible) regex.nodes := by
  rw [← exists_scriptAll_iff regex.nodes 0, script]
  cases scriptAll regex.nodes 0 <;> simp

theorem internal_of_script {regex : Regex} {error : Error} (refused : regex.script = .error error) :
    ∃ fault, error = .internal fault := by
  unfold script at refused
  cases made : scriptAll regex.nodes 0 with
  | error fault =>
      rw [made] at refused
      cases refused
      exact ⟨fault, rfl⟩
  | ok body =>
      rw [made] at refused
      contradiction

theorem script_refused_iff (regex : Regex) :
    (∃ fault, regex.script = .error (.internal fault)) ↔
      ∃ node ∈ preorderAll regex.nodes, node.Inexpressible := by
  have expressible := regex.exists_script_iff
  cases made : regex.script with
  | error error =>
      obtain ⟨fault, rfl⟩ := internal_of_script made
      simpa [made, Everywhere] using expressible
  | ok script => simpa [made, Everywhere] using expressible

end Regex

/-! Depths. -/

namespace Script

def opens (script : Script) : Nat :=
  script.countP fun line => line.call.opens

def closes (script : Script) : Nat :=
  script.countP fun line => line.call = .close

/-- Every line stands as deep as there are containers open before it, no prefix closes more than it
opened, and the whole closes all that it opened. -/
structure WellNested (script : Script) : Prop where
  depths : InOrder (fun before line => line.depth = opens before - closes before) script
  prefixes : ∀ front, front <+: script → closes front ≤ opens front
  balanced : closes script = opens script

/-- A part of a script that starts and ends at a depth, and is never above it. -/
structure Nested (depth : Nat) (script : Script) : Prop where
  depths : InOrder (fun before line => line.depth + closes before = depth + opens before) script
  below : ∀ line ∈ script, depth ≤ line.depth
  balanced : closes script = opens script

@[simp] theorem opens_append (first second : Script) :
    opens (first ++ second) = opens first + opens second :=
  List.countP_append

@[simp] theorem closes_append (first second : Script) :
    closes (first ++ second) = closes first + closes second :=
  List.countP_append

theorem nested_nil (depth : Nat) : Nested depth [] :=
  ⟨inOrder_nil _, by simp, rfl⟩

theorem Nested.append {depth : Nat} {first second : Script} (one : Nested depth first)
    (other : Nested depth second) : Nested depth (first ++ second) where
  depths := by
    refine inOrder_append.mpr ⟨one.depths, other.depths.imp fun before line level => ?_⟩
    have closed := one.balanced
    simp only [opens_append, closes_append]
    omega
  below := by
    intro line listed
    rcases List.mem_append.mp listed with front | back
    · exact one.below line front
    · exact other.below line back
  balanced := by
    rw [opens_append, closes_append, one.balanced, other.balanced]

theorem nested_line (depth : Nat) (quantifier : Option Quantifier) {call : Call}
    (shut : call.opens = false) (still : call ≠ .close) :
    Nested depth [⟨depth, quantifier, call⟩] where
  depths := inOrder_singleton.mpr (by simp [opens, closes])
  below := by simp
  balanced := by simp [opens, closes, shut, still]

theorem nested_block (depth : Nat) (quantifier : Option Quantifier) {opening : Call} {body : Script}
    (starts : opening.opens = true) (inside : Nested (depth + 1) body) :
    Nested depth (block depth quantifier opening body) := by
  have still : opening ≠ .close := by
    rintro rfl
    contradiction
  have one : opens [⟨depth, quantifier, opening⟩] = 1 := by simp [opens, starts]
  have none : closes [⟨depth, quantifier, opening⟩] = 0 := by simp [closes, still]
  have closed := inside.balanced
  change Nested depth ([⟨depth, quantifier, opening⟩] ++ body ++ [⟨depth + 1, .none, .close⟩])
  constructor
  · refine inOrder_append.mpr ⟨inOrder_append.mpr ⟨?_, ?_⟩, ?_⟩
    · exact inOrder_singleton.mpr (by simp [opens, closes])
    · refine inside.depths.imp fun before line level => ?_
      simp only [opens_append, closes_append, one, none]
      omega
    · refine inOrder_singleton.mpr ?_
      simp only [List.append_nil, opens_append, closes_append, one, none]
      omega
  · intro line listed
    rcases List.mem_append.mp listed with front | last
    · rcases List.mem_append.mp front with first | within
      · exact Nat.le_of_eq (congrArg Line.depth (List.mem_singleton.mp first).symm)
      · exact Nat.le_of_succ_le (inside.below line within)
    · rw [List.mem_singleton.mp last]
      exact Nat.le_succ depth
  · simp only [opens_append, closes_append, one, none, closed]
    simp [opens, closes, Call.opens, Nat.add_comm]

theorem nested_lines (depth : Nat) (calls : List Call)
    (leaves : ∀ call ∈ calls, call.opens = false ∧ call ≠ .close) :
    Nested depth (calls.map fun call => ⟨depth, none, call⟩) := by
  induction calls with
  | nil => exact nested_nil depth
  | cons call rest ih =>
      obtain ⟨shut, still⟩ := leaves call (by simp)
      have later := ih fun call listed => leaves call (List.mem_cons_of_mem _ listed)
      exact (nested_line depth none shut still).append later

theorem Nested.prefix_le {depth : Nat} {script front : Script} (nested : Nested depth script)
    (part : front <+: script) : closes front ≤ opens front := by
  obtain ⟨rest, rfl⟩ := part
  cases rest with
  | nil => exact Nat.le_of_eq (by simpa using nested.balanced)
  | cons line rest =>
      -- The next line tells how many containers are open here.
      have level := nested.depths front line rest rfl
      have deep := nested.below line (by simp)
      omega

theorem Nested.wellNested {script : Script} (nested : Nested 0 script) : WellNested script where
  depths := by
    intro before line after split
    have level := nested.depths before line after split
    omega
  prefixes := fun _ part => nested.prefix_le part
  balanced := nested.balanced

end Script

open Script

theorem BracketSet.nested_script {set : BracketSet} {depth : Nat} {quantifier : Option Quantifier}
    {lines : Script} (made : set.script depth quantifier = .ok lines) : Nested depth lines := by
  unfold BracketSet.script at made
  split at made
  · cases made
    exact nested_line depth quantifier (by split <;> rfl) (by split <;> simp)
  · cases made
    exact nested_line depth quantifier (by split <;> rfl) (by split <;> simp)
  · split at made
    · contradiction
    · cases made
      have members := nested_lines (depth + 1) (set.members.map SetMember.call) ?_
      · rw [List.map_map] at members
        exact nested_block depth quantifier rfl members
      · intro call listed
        obtain ⟨member, -, rfl⟩ := List.mem_map.mp listed
        cases member <;> exact ⟨rfl, by simp [SetMember.call]⟩

namespace Node

theorem nested_of_wrapped {children : Except InternalFault Script} {depth : Nat}
    {quantifier : Option Quantifier} {opening : Call} {lines : Script}
    (made : (children >>= fun body => pure (block depth quantifier opening body)) = .ok lines)
    (starts : opening.opens = true)
    (inside : ∀ body, children = .ok body → Nested (depth + 1) body) : Nested depth lines := by
  obtain ⟨body, below, made⟩ := bind_eq_ok_iff.mp made
  cases made
  exact nested_block depth quantifier starts (inside body below)

mutual

theorem nested_script (node : Node) (depth : Nat) (quantifier : Option Quantifier) {lines : Script}
    (made : node.script depth quantifier = .ok lines) : Nested depth lines := by
  cases node with
  | noop =>
      cases made
      exact nested_nil depth
  | bracketSet set => exact set.nested_script made
  | group capturing children =>
      cases capturing <;>
        exact nested_of_wrapped made rfl fun body => nested_scriptAll children (depth + 1)
  | namedGroup _ children | lookaround _ children | anyOf children =>
      exact nested_of_wrapped made rfl fun body => nested_scriptAll children (depth + 1)
  | subexpression children =>
      cases quantifier with
      | none => exact nested_scriptAll children depth made
      | some q =>
          exact nested_of_wrapped made rfl fun body => nested_scriptAll children (depth + 1)
  | quantified inner q =>
      cases quantifier with
      | none => exact nested_script inner depth (some q) made
      | some other => contradiction
  | anchor kind =>
      cases kind <;> cases made <;> exact nested_line depth quantifier rfl (by simp)
  | char literal =>
      cases made
      exact nested_line depth quantifier (by unfold charCall; split <;> rfl)
        (by unfold charCall; split <;> simp)
  | _ =>
      cases made
      exact nested_line depth quantifier rfl (by simp)

theorem nested_scriptAll (nodes : List Node) (depth : Nat) {lines : Script}
    (made : scriptAll nodes depth = .ok lines) : Nested depth lines := by
  cases nodes with
  | nil =>
      cases made
      exact nested_nil depth
  | cons node rest =>
      obtain ⟨first, one, made⟩ := bind_eq_ok_iff.mp made
      obtain ⟨later, others, made⟩ := bind_eq_ok_iff.mp made
      cases made
      exact (nested_script node depth none one).append (nested_scriptAll rest depth others)

end

end Node

theorem Regex.nested_script {regex : Regex} {lines : Script} (made : regex.script = .ok lines) :
    Nested 0 lines := by
  obtain ⟨body, read, made⟩ := bind_eq_ok_iff.mp made
  cases made
  have flags := nested_lines 0 (regex.flags.toList.map .flag) ?_
  · rw [List.map_map] at flags
    exact flags.append (Node.nested_scriptAll regex.nodes 0 (mapError_eq_ok_iff.mp read))
  · intro call listed
    obtain ⟨flag, -, rfl⟩ := List.mem_map.mp listed
    exact ⟨rfl, by simp⟩

/-! Replays. -/

theorem Builder.outer_length_of_apply {before after : Builder} {call : Call}
    (accepted : before.apply call = .ok after) :
    after.outer.length + (if call = .close then 1 else 0) =
      before.outer.length + (if call.opens = true then 1 else 0) := by
  cases call.effect with
  | flag flag sets =>
      subst sets
      cases accepted
      rfl
  | append node leaf _ _ appends =>
      obtain ⟨declared, -, pushed⟩ := bind_eq_ok_iff.mp ((appends before).symm.trans accepted)
      cases pushed
      obtain ⟨shut, still⟩ := Call.of_leaf leaf
      simp [shut, still, push]
  | enter container inner opens =>
      subst opens
      rw [container.apply_opening inner] at accepted
      obtain ⟨declared, -, entered⟩ := bind_eq_ok_iff.mp accepted
      cases entered
      cases container with
      | root => contradiction
      | _ => rfl
  | close ends =>
      subst ends
      obtain ⟨parent, outer, split, rfl⟩ := close_eq_ok_iff.mp accepted
      simp [split, Call.opens]
  | refused fault refuses =>
      rw [refuses] at accepted
      contradiction

namespace Declarations

theorem meet_ne_unbalancedEnd (declared : Declarations) (mark : Mark) :
    declared.meet mark ≠ .error .unbalancedEnd := by
  rcases mark with (_ | _) | (_ | name) | index | name
  · simp only [meet, declareStart]
    split
    · simp
    · split <;> simp
  · simp only [meet, declareStop]
    split <;> simp
  · simp [meet]
  · simp only [meet, declareName]
    split
    · simp
    · split <;> simp
  · simp only [meet]
    split <;> simp
  · simp only [meet]
    split <;> simp

theorem meetAll_ne_unbalancedEnd (declared : Declarations) (marks : List Mark) :
    declared.meetAll marks ≠ .error .unbalancedEnd := by
  induction marks generalizing declared with
  | nil => simp
  | cons mark rest ih =>
      rw [meetAll_cons]
      cases met : declared.meet mark with
      | error refusal =>
          rintro ⟨⟩
          exact declared.meet_ne_unbalancedEnd mark met
      | ok next => exact ih next

end Declarations

theorem Builder.quantify_ne_unbalancedEnd (builder : Builder) (quantifier : Quantifier) :
    builder.quantify quantifier ≠ .error .unbalancedEnd := by
  unfold quantify
  cases quantifier.check with
  | error fault => simp
  | ok _ => cases builder.current.pending <;> simp

theorem Builder.of_unbalancedEnd {builder : Builder} {call : Call}
    (refused : builder.apply call = .error .unbalancedEnd) :
    call = .close ∧ builder.outer = [] := by
  have met {marks : List Mark} {change : Declarations → Builder} :
      (builder.declared.meetAll marks >>= fun declared => pure (change declared)) ≠
        .error .unbalancedEnd := by
    cases found : builder.declared.meetAll marks with
    | error refusal =>
        rintro ⟨⟩
        exact builder.declared.meetAll_ne_unbalancedEnd marks found
    | ok declared => simp
  cases call.effect with
  | flag flag sets =>
      subst sets
      contradiction
  | append node leaf _ _ appends => exact absurd ((appends builder).symm.trans refused) met
  | enter container inner opens =>
      subst opens
      exact absurd ((container.apply_opening inner builder).symm.trans refused) met
  | close ends =>
      subst ends
      simp only [apply, close] at refused
      split at refused
      · next root => exact ⟨rfl, root⟩
      · contradiction
  | refused fault refuses =>
      rw [refuses] at refused
      cases refused

namespace Script

theorem outer_length_of_step {before after : Builder} {line : Line}
    (accepted : step before line = .ok after) :
    after.outer.length + closes [line] = before.outer.length + opens [line] := by
  have called {builder : Builder} (applied : builder.apply line.call = .ok after) :=
    Builder.outer_length_of_apply applied
  unfold step at accepted
  split at accepted
  · simpa [opens, closes, List.countP_singleton] using called accepted
  · obtain ⟨middle, quantified, applied⟩ := bind_eq_ok_iff.mp accepted
    obtain ⟨-, -, rfl⟩ := Builder.quantify_eq_ok_iff.mp quantified
    simpa [opens, closes, List.countP_singleton] using called applied

theorem of_unbalancedEnd {builder : Builder} {line : Line}
    (refused : step builder line = .error .unbalancedEnd) :
    line.call = .close ∧ builder.outer = [] := by
  unfold step at refused
  split at refused
  · exact Builder.of_unbalancedEnd refused
  · next q requested =>
      cases quantified : builder.quantify q with
      | error fault =>
          rw [quantified] at refused
          cases refused
          exact absurd quantified (builder.quantify_ne_unbalancedEnd q)
      | ok middle =>
          rw [quantified, ok_bind] at refused
          obtain ⟨-, -, rfl⟩ := Builder.quantify_eq_ok_iff.mp quantified
          have closed := Builder.of_unbalancedEnd refused
          exact closed

theorem outer_length_of_continueOn {before after : Builder} {script : Script}
    (accepted : continueOn before script = .ok after) :
    after.outer.length + closes script = before.outer.length + opens script := by
  refine foldlM_invariant (fun builder passed =>
    builder.outer.length + closes passed = before.outer.length + opens passed) ?_ script
    (show before.outer.length + closes [] = before.outer.length + opens [] from rfl) accepted
  intro builder next passed line holds taken
  have one := outer_length_of_step taken
  simp only [closes_append, opens_append]
  omega

namespace WellNested

variable {script : Script} (nested : WellNested script)

include nested

theorem isClosed_of_replay {builder : Builder} (accepted : replay script = .ok builder) :
    builder.isClosed = true := by
  have level := outer_length_of_continueOn accepted
  have balanced := nested.balanced
  have new : Builder.new.outer.length = 0 := rfl
  have root : builder.outer.length = 0 := by omega
  rw [Builder.isClosed, List.eq_nil_of_length_eq_zero root]
  rfl

theorem replay_ne_unbalancedEnd : replay script ≠ .error .unbalancedEnd := by
  intro refused
  obtain ⟨before, line, after, middle, split, passed, stopped⟩ :=
    exists_of_foldlM_error script refused
  obtain ⟨closing, root⟩ := of_unbalancedEnd stopped
  -- The refused line closes more than was opened, counted up to it.
  have level := outer_length_of_continueOn passed
  have part := nested.prefixes (before ++ [line]) ⟨after, by simp [split]⟩
  have last : closes [line] = 1 ∧ opens [line] = 0 := by
    simp [closes, opens, closing, Call.opens]
  have new : Builder.new.outer.length = 0 := rfl
  simp only [closes_append, opens_append, root, List.length_nil] at level part
  omega

end WellNested

end Script

end RegexForge
