import RegexForge.Proofs.Inlining
import RegexForge.Proofs.Reread

/-!
The classes that calls ask for. A range asks for itself, and alternatives that are characters,
character lists and ranges, without anything else, ask for one set of them all. The builder keeps
what it was given and writes it between brackets, next to whatever stands there already; the
question is whether it is read as what was asked for. It is whenever the set is spelled faithfully:
every member then scans as itself beside any neighbour, and the reader takes no minus for another.
-/

namespace RegexForge

open Grammar Outcome

namespace Call

def members : Call → List SetMember
  | char text | anyOfChars text => text.map .char
  | range [low] [high] | anythingButRange [low] [high] => [.range low high]
  | _ => []

def isMember : Call → Bool
  | char _ | anyOfChars _ | range _ _ => true
  | _ => false

end Call

/-- The calls ask for one set: a range, what lies outside a range, or alternatives that go into a
bracket without exception. -/
inductive Asks : List Call → BracketSet → Prop where
  | range (low high : Text) : Asks [.range low high] ⟨(Call.range low high).members, false⟩
  | anythingButRange (low high : Text) :
      Asks [.anythingButRange low high] ⟨(Call.anythingButRange low high).members, true⟩
  | anyOf {children : List Call} (filled : children ≠ [])
      (members : ∀ call ∈ children, call.isMember = true) :
      Asks (.anyOf :: children ++ [.close]) ⟨children.flatMap Call.members, false⟩

namespace Node

/-- The elements go into the shared bracket, and spell these members there. -/
structure Gathered (nodes : List Node) (members : List SetMember) : Prop where
  text : memberText nodes = members.flatMap SetMember.text
  outside : renderAlternatives nodes = []
  ordered : ∀ low high, .range low high ∈ members → low < high

theorem memberText_append (first second : List Node) :
    memberText (first ++ second) = memberText first ++ memberText second := by
  simp [memberText]

theorem gathered_nil : Gathered [] [] :=
  ⟨rfl, rfl, by simp⟩

theorem gathered_chars {node : Node} {text : Text} (member : node.member? = some (escape text)) :
    Gathered [node] (text.map .char) := by
  refine ⟨?_, by simp [renderAlternatives, member], by simp⟩
  simp [memberText, member, SetMember.flatMap_text_char]

theorem gathered_range {low high : Char} (upwards : low < high) :
    Gathered [.range low high] [.range low high] := by
  refine ⟨rfl, rfl, ?_⟩
  intro first last listed
  cases List.mem_singleton.mp listed
  exact upwards

theorem Gathered.append {front back : List Node} {first second : List SetMember}
    (one : Gathered front first) (other : Gathered back second) :
    Gathered (front ++ back) (first ++ second) := by
  refine ⟨?_, ?_, ?_⟩
  · rw [memberText_append, one.text, other.text, List.flatMap_append]
  · rw [renderAlternatives_append, one.outside, other.outside, List.append_nil]
  · intro low high listed
    rcases List.mem_append.mp listed with early | late
    · exact one.ordered low high early
    · exact other.ordered low high late

theorem Gathered.render {nodes : List Node} {members : List SetMember}
    (gathered : Gathered nodes members) :
    (anyOf nodes).render = BracketSet.text ⟨members, false⟩ := by
  simp [Node.render, gathered.text, gathered.outside, alternation, bracket, BracketSet.text]

end Node

namespace Builder

theorem push_of_bounds {before after : Builder} {low high : Text} (node : Char → Char → Node)
    (accepted : ((rangeBounds low high).mapError Error.badArgument >>= fun bounds =>
      .ok (before.push (node bounds.1 bounds.2))) = .ok after) :
    ∃ first last, low = [first] ∧ high = [last] ∧ first < last ∧
      after = before.push (node first last) := by
  obtain ⟨⟨first, last⟩, checked, pushed⟩ := bind_eq_ok_iff.mp accepted
  cases pushed
  obtain ⟨rfl, rfl, upwards⟩ := rangeBounds_eq_ok_iff.mp (mapError_eq_ok_iff.mp checked)
  exact ⟨first, last, rfl, rfl, upwards, rfl⟩

theorem apply_member {before after : Builder} {call : Call} (member : call.isMember = true)
    (accepted : before.apply call = .ok after) :
    ∃ node, after = before.push node ∧ Node.Gathered [node] call.members ∧ call.members ≠ [] := by
  cases call with
  | char text =>
      simp only [apply, char] at accepted
      split at accepted
      · next c single =>
          cases accepted
          obtain rfl := single?_eq_some_iff.mp single
          exact ⟨_, rfl, Node.gathered_chars rfl, by simp [Call.members]⟩
      · contradiction
  | anyOfChars chars =>
      obtain ⟨literal, checked, pushed⟩ := bind_eq_ok_iff.mp accepted
      cases pushed
      obtain ⟨filled, rfl⟩ := nonempty_eq_ok_iff.mp (mapError_eq_ok_iff.mp checked)
      exact ⟨_, rfl, Node.gathered_chars rfl, by simpa [Call.members] using filled⟩
  | range low high =>
      obtain ⟨first, last, rfl, rfl, upwards, rfl⟩ := push_of_bounds .range accepted
      exact ⟨_, rfl, Node.gathered_range upwards, by simp [Call.members]⟩
  | _ => contradiction

theorem apply_members {before after : Builder} {calls : List Call}
    (members : ∀ call ∈ calls, call.isMember = true) (idle : before.current.pending = none)
    (accepted : calls.foldlM apply before = .ok after) :
    ∃ nodes, after = before.extend before.declared nodes ∧
      Node.Gathered nodes (calls.flatMap Call.members) ∧ ∀ call ∈ calls, call.members ≠ [] := by
  induction calls generalizing before with
  | nil =>
      cases accepted
      exact ⟨[], by simp [extend], Node.gathered_nil, by simp⟩
  | cons call calls ih =>
      obtain ⟨here, others⟩ := List.forall_mem_cons.mp members
      rw [List.foldlM_cons] at accepted
      obtain ⟨next, first, later⟩ := bind_eq_ok_iff.mp accepted
      obtain ⟨node, rfl, gathered, filled⟩ := apply_member here first
      -- Nothing waits in the block, so the element is stored as it is.
      have stored := push_of_idle idle before.declared node
      obtain ⟨nodes, rfl, rest, filledRest⟩ := ih others (by rw [stored]; exact idle) later
      refine ⟨node :: nodes, ?_, gathered.append rest, List.forall_mem_cons.mpr ⟨filled, filledRest⟩⟩
      rw [stored, extend_extend]
      rfl

theorem foldlM_singleton (builder : Builder) (call : Call) :
    [call].foldlM apply builder = builder.apply call := by
  simp only [List.foldlM_cons, List.foldlM_nil, bind_pure]

theorem pushes_of_asks {before after : Builder} {calls : List Call} {set : BracketSet}
    (asks : Asks calls set) (accepted : calls.foldlM apply before = .ok after) :
    ∃ node, after = before.push node ∧ node.render = set.text ∧ set.Buildable := by
  cases asks with
  | range low high =>
      rw [foldlM_singleton] at accepted
      obtain ⟨first, last, rfl, rfl, upwards, rfl⟩ := push_of_bounds .range accepted
      refine ⟨_, rfl, rfl, by simp [Call.members], ?_, by simp⟩
      simpa [Call.members] using upwards
  | anythingButRange low high =>
      rw [foldlM_singleton] at accepted
      obtain ⟨first, last, rfl, rfl, upwards, rfl⟩ := push_of_bounds .anythingButRange accepted
      refine ⟨_, rfl, rfl, by simp [Call.members], ?_, by simp [Call.members, BracketSet.singleRange?]⟩
      simpa [Call.members] using upwards
  | @anyOf children filled members =>
      rw [List.cons_append, List.foldlM_cons] at accepted
      obtain ⟨opened, entered, inside⟩ := bind_eq_ok_iff.mp accepted
      cases entered
      rw [List.foldlM_append] at inside
      obtain ⟨last, collected, ended⟩ := bind_eq_ok_iff.mp inside
      rw [foldlM_singleton] at ended
      obtain ⟨nodes, rfl, gathered, filledEach⟩ := apply_members members rfl collected
      cases ended
      refine ⟨.anyOf nodes, rfl, gathered.render, ?_, gathered.ordered, by simp⟩
      obtain ⟨call, listed⟩ := List.exists_mem_of_ne_nil children filled
      intro empty
      exact filledEach call listed (List.flatMap_eq_nil_iff.mp empty call listed)

end Builder

/-- A null byte is not read back: it is spelled as an octal escape, and what is read behind a
backslash in a set stands for itself, so three zeros come back. -/
theorem asks_null_byte :
    ∃ after regex, Asks [.anyOf, .char ['\x00'], .close] ⟨[.char '\x00'], false⟩ ∧
      [.anyOf, .char ['\x00'], .close].foldlM Builder.apply .new = .ok after ∧
      after.regex = .ok regex ∧
      Regex.ofPattern (Node.renderAll regex.nodes) =
        .ok ⟨[.bracketSet ⟨[.char '0', .char '0', .char '0'], false⟩], .empty, 0⟩ := by
  have asks := @Asks.anyOf [.char ['\x00']] (by simp) (by simp [Call.isMember])
  exact ⟨_, _, asks, rfl, rfl, by decide +kernel⟩

/-- Calls that ask for a set leave one element, and its spelling is read as that set, if the set is
spelled faithfully. On a new builder the element is the whole expression. -/
theorem ofPattern_of_asks (before after : Builder) (calls : List Call) (set : BracketSet)
    (asks : Asks calls set) (accepted : calls.foldlM Builder.apply before = .ok after)
    (faithful : set.Faithful) :
    ∃ node, after = before.push node ∧
      (before = .new → after.regex = .ok ⟨[node], .empty, 0⟩) ∧
      Regex.ofPattern (Node.renderAll [node]) = .ok ⟨[.bracketSet set], .empty, 0⟩ := by
  obtain ⟨node, rfl, spelled, buildable⟩ := Builder.pushes_of_asks asks accepted
  refine ⟨node, rfl, ?_, ?_⟩
  · rintro rfl
    rfl
  · exact (Regex.readsAs_of_set buildable faithful spelled).pattern

theorem ofPattern_of_asks_minus :
    ∃ after regex,
      [.anyOf, .char ['^'], .anyOfChars ['a', ']'], .range ['+'] ['-'], .close].foldlM
        Builder.apply .new = .ok after ∧
      after.regex = .ok regex ∧ Node.renderAll regex.nodes = "[\\^a\\]+--]".toList ∧
      Regex.ofPattern (Node.renderAll regex.nodes) =
        .ok ⟨[.bracketSet ⟨[.char '^', .char 'a', .char ']', .range '+' '-'], false⟩],
          .empty, 0⟩ := by
  have asks := @Asks.anyOf [.char ['^'], .anyOfChars ['a', ']'], .range ['+'] ['-']] (by simp)
    (by simp [Call.isMember])
  have faithful : BracketSet.Faithful
      ⟨[.char '^', .char 'a', .char ']', .range '+' '-'], false⟩ := by
    refine ⟨by simp [SetMember.Faithful], by simp, ?_⟩
    intro before c high after split
    have listed : SetMember.range '-' high ∈ before ++ .char c :: .range '-' high :: after := by
      simp
    rw [← split] at listed
    simp at listed
  obtain ⟨node, -, whole, read⟩ := ofPattern_of_asks .new _ _ _ asks rfl faithful
  cases whole rfl
  exact ⟨_, _, rfl, rfl, by decide, read⟩

end RegexForge
