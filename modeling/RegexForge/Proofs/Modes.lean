import RegexForge.Proofs.Lexing

/-!
The scan and the reader agree on where a bracketed set starts and ends. The scan keeps a mark for
it; the reader has none, and goes by which of its functions is at work. Inside a set the scan yields
characters, minus signs and the closing bracket, and the last two nowhere else. What the reader
takes as one element closes the sets that it opens, so behind each element both are outside again,
and the refusals that would be breaches of the reader's own invariants do not occur.
-/

namespace RegexForge

open Grammar Outcome

/-- The token is one that the scan yields where a set is open, or where none is. -/
def Token.Belongs : Bool → Token → Prop
  | true => Token.Inside
  | false => Token.Outside

def Token.insideAfterAll (inside : Bool) (tokens : List Token) : Bool :=
  tokens.foldl (fun inside token => token.insideAfter inside) inside

def InPlace : Bool → List Token → Prop
  | _, [] => True
  | inside, token :: rest => token.Belongs inside ∧ InPlace (token.insideAfter inside) rest

namespace Token

@[simp] theorem insideAfterAll_nil (inside : Bool) : insideAfterAll inside [] = inside := rfl

@[simp] theorem insideAfterAll_cons (inside : Bool) (token : Token) (rest : List Token) :
    insideAfterAll inside (token :: rest) = insideAfterAll (token.insideAfter inside) rest := rfl

@[simp] theorem insideAfterAll_append (inside : Bool) (first second : List Token) :
    insideAfterAll inside (first ++ second) =
      insideAfterAll (insideAfterAll inside first) second :=
  List.foldl_append

end Token

theorem inPlace_append {inside : Bool} {first second : List Token} :
    InPlace inside (first ++ second) ↔
      InPlace inside first ∧ InPlace (Token.insideAfterAll inside first) second := by
  induction first generalizing inside with
  | nil => simp [InPlace]
  | cons token rest ih => simp [InPlace, ih, and_assoc]

theorem InPlace.belongs {inside : Bool} {tokens before after : List Token} {token : Token}
    (inPlace : InPlace inside tokens) (split : tokens = before ++ token :: after) :
    token.Belongs (Token.insideAfterAll inside before) := by
  rw [split, inPlace_append] at inPlace
  exact inPlace.2.1

theorem Lexeme.front_belongs {inside : Bool} {c : Char} {rest left : Text} {token : Token}
    (read : front inside c rest = .token token left) : token.Belongs inside := by
  cases inside with
  | true => exact inside_token read
  | false => exact outside_token read

theorem Cursor.inPlace_scanAll (cursor : Cursor) :
    InPlace cursor.setStart.isSome (kinds cursor.scanAll.tokens) := by
  induction cursor using scanAll.induct with
  | case1 cursor finished =>
      rw [scanAll_of_finished finished]
      trivial
  | case2 cursor fault after failed =>
      rw [scanAll_of_failed failed]
      trivial
  | case3 cursor token after found shorter ih =>
      rw [scanAll_of_scan found]
      obtain ⟨c, rest, left, -, read, -, rfl⟩ := of_scan_token found
      rw [setStartAfter_isSome] at ih
      exact ⟨Lexeme.front_belongs read, ih⟩

/-! What has been read as a whole leaves the scan outside. -/

namespace Grammar

theorem Leaf.insideAfterAll {tokens : List Token} {item : Node} (leaf : Leaf tokens item) :
    Token.insideAfterAll false tokens = false := by
  cases leaf with
  | bracketSet members expressible =>
      rw [Token.insideAfterAll_append, Token.insideAfterAll_cons]
      rfl
  | _ => rfl

theorem Repeated.insideAfterAll {tokens : List Token} {item node : Node}
    (repeated : Repeated tokens item node) (inside : Bool) :
    Token.insideAfterAll inside tokens = inside := by
  cases repeated <;> rfl

theorem Reads.insideAfterAll {tokens : List Token} {nodes : List Node}
    (reads : Reads tokens nodes) : Token.insideAfterAll false tokens = false := by
  induction reads with
  | nil => rfl
  | leaf stands repeated later ih =>
      rw [Token.insideAfterAll_append, Token.insideAfterAll_append, stands.insideAfterAll,
        repeated.insideAfterAll, ih]
  | group kind inside repeated later insideIh laterIh =>
      simp only [List.cons_append, Token.insideAfterAll_cons, Token.insideAfterAll_append,
        Token.insideAfter, insideIh, repeated.insideAfterAll, laterIh]

end Grammar

/-! The reader blames the text, never itself. -/

namespace Parse

variable {α β : Type}

/-- What is refused is refused for a fault of the text. -/
def BlamesText (outcome : Except Refusal α) : Prop :=
  ∀ refusal, outcome = .error refusal → ∃ fault, refusal = .fault fault

theorem blamesText_ok (value : α) : BlamesText (.ok value : Except Refusal α) := by
  intro refusal refused
  contradiction

theorem blamesText_refuse (pos : Nat) (kind : FaultKind) :
    BlamesText (refuse pos kind : Except Refusal α) := by
  rintro refusal ⟨⟩
  exact ⟨_, rfl⟩

theorem blamesText_settle (ending : Option Fault) (tokens : List PosToken) :
    BlamesText (settle ending tokens) := by
  cases tokens with
  | cons token rest => exact blamesText_ok ()
  | nil =>
      cases ending with
      | none => exact blamesText_ok ()
      | some fault => exact blamesText_refuse fault.pos fault.kind

theorem blamesText_bind {first : Except Refusal α} {next : α → Except Refusal β}
    (here : BlamesText first) (later : ∀ value, first = .ok value → BlamesText (next value)) :
    BlamesText (first >>= next) := by
  cases read : first with
  | error refusal =>
      rintro other ⟨⟩
      exact here refusal read
  | ok value => exact later value read

theorem blamesText_quantified (ending : Option Fault) (item : Node) (tokens : List PosToken) :
    BlamesText (quantified ending item tokens) := by
  unfold quantified
  split
  · split
    · exact blamesText_refuse _ _
    · refine blamesText_bind (blamesText_settle _ _) fun _ _ => ?_
      split
      · exact blamesText_ok _
      · exact blamesText_refuse _ _
  · exact blamesText_ok _

/-- Inside a set every token but the closing bracket stands for a character and leaves it open. -/
theorem member_of_inPlace {token : Token} {rest : List Token} (inPlace : InPlace true (token :: rest))
    (opens : token ≠ .closeSet) : (∃ c, setChar? token = some c) ∧ InPlace true rest := by
  obtain ⟨⟨c, rfl⟩ | rfl | rfl, later⟩ := inPlace
  · exact ⟨⟨c, rfl⟩, later⟩
  · exact ⟨⟨'-', rfl⟩, later⟩
  · contradiction

theorem blamesText_setBody (ending : Option Fault) (start : Nat) (set : BracketSet)
    (tokens : List PosToken) (inPlace : InPlace true (kinds tokens)) :
    BlamesText (setBody ending start set tokens) := by
  -- On the recursion of the reader. Whether a token stands for a character is asked only after the
  -- closing bracket has been dealt with, so the answer is always that it does.
  match tokens with
  | [] => exact blamesText_refuse _ _
  | ⟨pos, token⟩ :: rest =>
      unfold setBody
      refine blamesText_bind (blamesText_settle _ _) fun _ _ => ?_
      split
      · exact blamesText_ok _
      next opens =>
      obtain ⟨⟨low, stands⟩, restInPlace⟩ := member_of_inPlace inPlace opens
      rw [stands]
      dsimp only
      split
      · next after _ =>
          refine blamesText_bind (blamesText_settle _ _) fun _ _ => ?_
          have afterInPlace : InPlace true (kinds after) := restInPlace.2
          split
          · exact blamesText_refuse _ _
          next following later _ _ =>
          split
          · exact blamesText_setBody ending start _ (following :: later) afterInPlace
          next opens =>
          have laterInPlace := (member_of_inPlace afterInPlace opens).2
          split
          · exact blamesText_refuse _ _
          refine blamesText_bind (blamesText_settle _ _) fun _ _ => ?_
          split
          · next grown _ => exact blamesText_setBody ending start grown later laterInPlace
          · exact blamesText_refuse _ _
      · exact blamesText_setBody ending start _ rest restInPlace
termination_by tokens.length

theorem blamesText_bracketSet (ending : Option Fault) (start : Nat) (negated : Bool)
    (tokens : List PosToken) (inPlace : InPlace true (kinds tokens)) :
    BlamesText (bracketSet ending start negated tokens) := by
  unfold bracketSet
  refine blamesText_bind (blamesText_setBody _ _ _ _ inPlace) fun _ _ => ?_
  dsimp only
  split
  · exact blamesText_refuse _ _
  split
  · exact blamesText_ok _
  split
  · exact blamesText_refuse _ _
  · exact blamesText_ok _

theorem blamesText_element (ending : Option Fault)
    {children : List PosToken → Except Refusal (List Node × List PosToken)} {pos : Nat}
    {token : Token} {rest : List PosToken} (inPlace : InPlace false (token :: kinds rest))
    (inside : InPlace false (kinds rest) → BlamesText (children rest)) :
    BlamesText (element ending children pos token rest) := by
  obtain ⟨outside, inPlace⟩ := inPlace
  cases token with
  | literal c => exact blamesText_ok _
  | charClass kind => exact blamesText_ok _
  | any => exact blamesText_ok _
  | caret => exact blamesText_ok _
  | dollar => exact blamesText_ok _
  | openSet negated => exact blamesText_bracketSet _ _ _ _ inPlace
  | openGroup kind =>
      refine blamesText_bind (inside inPlace) fun read _ => ?_
      dsimp only
      split
      · exact blamesText_bind (blamesText_settle _ _) fun _ _ => blamesText_ok _
      · exact blamesText_refuse _ _
  | repetition bounds => exact blamesText_refuse _ _
  | closeGroup => exact blamesText_refuse _ _
  | closeSet => contradiction
  | minus => contradiction

theorem insideAfterAll_element {ending : Option Fault} {fuel pos : Nat} {token : Token}
    {item : Node} {tokens rest : List PosToken} (settled : settle ending tokens = .ok ())
    (read : element ending (sequence ending fuel) pos token tokens = .ok (item, rest)) :
    settle ending rest = .ok () ∧ ∃ used, tokens = used ++ rest ∧
      Token.insideAfterAll false (token :: kinds used) = false := by
  obtain ⟨kept, stands⟩ := element_sound (sequence_sound fuel) settled read
  refine ⟨kept, ?_⟩
  rcases stands with ⟨used, rfl, leaf⟩ | ⟨kind, body, close, children, rfl, rfl, inside, rfl⟩
  · exact ⟨used, rfl, leaf.insideAfterAll⟩
  · refine ⟨body ++ [⟨close, .closeGroup⟩], by simp, ?_⟩
    simp [Token.insideAfter, inside.insideAfterAll]

theorem inPlace_after {ending : Option Fault} {fuel pos : Nat} {token : Token} {item node : Node}
    {tokens left rest : List PosToken} (inPlace : InPlace false (token :: kinds tokens))
    (settled : settle ending tokens = .ok ())
    (itemRead : element ending (sequence ending fuel) pos token tokens = .ok (item, left))
    (suffixRead : quantified ending item left = .ok (node, rest)) :
    InPlace false (kinds rest) ∧ rest.length ≤ tokens.length := by
  obtain ⟨kept, used, rfl, closed⟩ := insideAfterAll_element settled itemRead
  obtain ⟨suffix, rfl, repeated, -⟩ := quantified_sound kept suffixRead
  rw [kinds_append, kinds_append, ← List.cons_append, inPlace_append, inPlace_append, closed,
    repeated.insideAfterAll] at inPlace
  refine ⟨inPlace.2.2, ?_⟩
  simp only [List.length_append]
  omega

theorem blamesText_sequence (ending : Option Fault) {fuel : Nat} {tokens : List PosToken}
    (enough : tokens.length < fuel) (inPlace : InPlace false (kinds tokens)) :
    BlamesText (sequence ending fuel tokens) := by
  -- On the fuel, for any tokens: the hypothesis serves the inside of a group and what follows it.
  induction fuel generalizing tokens with
  | zero => contradiction
  | succ fuel ih =>
      match tokens with
      | [] => exact blamesText_ok _
      | ⟨pos, token⟩ :: later =>
          have enough : later.length < fuel := Nat.lt_of_succ_lt_succ enough
          unfold sequence
          split
          · exact blamesText_ok _
          refine blamesText_bind (blamesText_settle _ _) fun _ settled => ?_
          refine blamesText_bind (blamesText_element ending inPlace (ih enough)) fun item itemRead => ?_
          refine blamesText_bind (blamesText_quantified _ _ _) fun node suffixRead => ?_
          obtain ⟨inPlace, shorter⟩ := inPlace_after inPlace settled itemRead suffixRead
          refine blamesText_bind (ih (by omega) inPlace) fun items laterRead => ?_
          exact blamesText_ok _

theorem blamesText_regex {scanned : Scanned} (inPlace : InPlace false (kinds scanned.tokens))
    (flags : Flags) : BlamesText (regex scanned flags) := by
  unfold regex
  refine blamesText_bind (blamesText_settle _ _) fun _ _ => ?_
  refine blamesText_bind (blamesText_sequence _ (Nat.lt_succ_self _) inPlace) fun read _ => ?_
  dsimp only
  split
  · exact blamesText_ok _
  · exact blamesText_refuse _ _

end Parse

end RegexForge
