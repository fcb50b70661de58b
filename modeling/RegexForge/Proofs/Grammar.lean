import RegexForge.Proofs.Outcome
import RegexForge.Regex.Parse

/-!
The grammar of patterns, over tokens without their places. `Members` says how the inside of a
bracketed set splits into characters and ranges, `Leaf` what stands for one node without a sequence
inside it, `Repeated` how a quantifier attaches to the node before it, and `Reads` how a sequence is
made of these and of groups. Neighbouring characters without a quantifier are one node, which `join`
sees to. The main statement says that reading a scanned pattern succeeds exactly when the scan came
to its end and its tokens derive a sequence, and that the sequence derived is the one returned.
-/

namespace RegexForge.Grammar

open Parse Outcome

/-- A minus after a member makes a range, unless the set ends there. -/
inductive Members : List Token → List SetMember → Prop where
  | nil : Members [] []
  | char {token : Token} {c : Char} {rest : List Token} {members : List SetMember}
      (stands : setChar? token = some c) (single : rest.head? ≠ some .minus)
      (later : Members rest members) : Members (token :: rest) (.char c :: members)
  | range {first last : Token} {low high : Char} {rest : List Token} {members : List SetMember}
      (lowStands : setChar? first = some low) (highStands : setChar? last = some high)
      (upwards : low < high)
      (later : Members rest members) :
      Members (first :: .minus :: last :: rest) (.range low high :: members)
  | trailing {token : Token} {c : Char} (stands : setChar? token = some c) :
      Members [token, .minus] [.char c, .char '-']

/-- What no call of a builder expresses is refused: nothing between the brackets, or a negated set
that mixes characters and ranges. -/
def Expressible (set : BracketSet) : Prop :=
  set.members ≠ [] ∧
    (set.negated = true → set.charsOnly? ≠ none ∨ set.singleRange? ≠ none)

inductive Leaf : List Token → Node → Prop where
  | literal (c : Char) : Leaf [.literal c] (.char (.ofChar c))
  | charClass (kind : CharClass) : Leaf [.charClass kind] (.charClass kind)
  | any : Leaf [.any] (.charClass .anyChar)
  | caret : Leaf [.caret] (.anchor .start)
  | dollar : Leaf [.dollar] (.anchor .stop)
  | bracketSet {body : List Token} {set : BracketSet} (members : Members body set.members)
      (expressible : Expressible set) :
      Leaf (.openSet set.negated :: body ++ [.closeSet]) (.bracketSet set)

inductive Repeated : List Token → Node → Node → Prop where
  | once (item : Node) : Repeated [] item item
  | times {bounds : Bounds} {quantifier : Quantifier} (item : Node)
      (wide : item.isZeroWidth = false) (read : Quantifier.ofBounds? bounds = some quantifier) :
      Repeated [.repetition bounds] item (.quantified item quantifier)

inductive Reads : List Token → List Node → Prop where
  | nil : Reads [] []
  | leaf {head suffix rest : List Token} {item node : Node} {nodes : List Node}
      (stands : Leaf head item) (repeated : Repeated suffix item node) (later : Reads rest nodes) :
      Reads (head ++ suffix ++ rest) (join node nodes)
  | group {body suffix rest : List Token} {children nodes : List Node} {node : Node}
      (kind : GroupKind) (inside : Reads body children)
      (repeated : Repeated suffix (groupNode kind children) node) (later : Reads rest nodes) :
      Reads (.openGroup kind :: body ++ .closeGroup :: suffix ++ rest) (join node nodes)

/-- The tokens read as the item, whatever quantifier and whatever sequence come behind them. -/
def Stands (tokens : List Token) (item : Node) : Prop :=
  ∀ suffix node rest later, Repeated suffix item node → Reads rest later →
    Reads (tokens ++ suffix ++ rest) (join node later)

theorem stands_of_leaf {tokens : List Token} {item : Node} (leaf : Leaf tokens item) :
    Stands tokens item := by
  intro suffix node rest later repeated reads
  exact .leaf leaf repeated reads

theorem stands_of_group {tokens : List Token} {children : List Node} (kind : GroupKind)
    (inside : Reads tokens children) :
    Stands (.openGroup kind :: tokens ++ [.closeGroup]) (groupNode kind children) := by
  intro suffix node rest later repeated reads
  simpa using Reads.group kind inside repeated reads

theorem Stands.once {tokens rest : List Token} {item : Node} {later : List Node}
    (stands : Stands tokens item) (reads : Reads rest later) :
    Reads (tokens ++ rest) (join item later) := by
  simpa using stands [] item rest later (.once item) reads

def kinds (tokens : List PosToken) : List Token :=
  tokens.map PosToken.token

/-- A sequence stops at the end or before a closing parenthesis. -/
def Stops (rest : List Token) : Prop :=
  rest = [] ∨ rest.head? = some .closeGroup

def opened (tokens : List Token) : Nat :=
  tokens.countP (· = .openGroup .capture)

@[simp] theorem kinds_nil : kinds [] = [] := rfl

@[simp] theorem kinds_cons (token : PosToken) (rest : List PosToken) :
    kinds (token :: rest) = token.token :: kinds rest := rfl

@[simp] theorem kinds_append (first second : List PosToken) :
    kinds (first ++ second) = kinds first ++ kinds second :=
  List.map_append

@[simp] theorem settle_none (tokens : List PosToken) : settle none tokens = .ok () := by
  cases tokens <;> rfl

/-! What the reader accepts has a derivation. Beside the derivation each lemma keeps that the tokens
left over are settled: no fault is due before them. -/

theorem quantified_sound {ending : Option Fault} {item node : Node} {tokens rest : List PosToken}
    (settled : settle ending tokens = .ok ())
    (read : quantified ending item tokens = .ok (node, rest)) :
    ∃ suffix, tokens = suffix ++ rest ∧ Repeated (kinds suffix) item node ∧
      settle ending rest = .ok () := by
  unfold quantified at read
  split at read
  · next pos bounds later =>
      split at read
      · contradiction
      · next wide =>
          obtain ⟨⟨⟩, due, read⟩ := bind_eq_ok_iff.mp read
          split at read
          · next quantifier found =>
              cases read
              exact ⟨[⟨pos, .repetition bounds⟩], rfl, .times item (by simpa using wide) found, due⟩
          · contradiction
  · cases read
    exact ⟨[], rfl, .once item, settled⟩

theorem addRange_ok {set read : BracketSet} {low high : Char}
    (added : set.addRange low high = .ok read) :
    low < high ∧ read = { set with members := set.members ++ [.range low high] } := by
  unfold BracketSet.addRange checkRange at added
  split at added
  · next upwards =>
      cases added
      exact ⟨upwards, rfl⟩
  · contradiction

theorem setBody_closed {ending : Option Fault} {start pos : Nat} {set read : BracketSet}
    {later rest : List PosToken}
    (accepted : setBody ending start set (⟨pos, .closeSet⟩ :: later) = .ok (read, rest)) :
    read = set ∧ later = rest ∧ settle ending rest = .ok () := by
  unfold setBody at accepted
  rw [bind_eq_ok_iff] at accepted
  obtain ⟨⟨⟩, due, accepted⟩ := accepted
  cases accepted
  exact ⟨rfl, rfl, due⟩

/-- What one call of the reader takes from the front of the tokens, and the call that goes on. -/
inductive SetStep (ending : Option Fault) (start : Nat) (set : BracketSet)
    (result : BracketSet × List PosToken) : List PosToken → Prop where
  | close {pos : Nat} {later : List PosToken} :
      SetStep ending start set result (⟨pos, .closeSet⟩ :: later)
  | char {pos : Nat} {token : Token} {c : Char} {later : List PosToken}
      (stands : setChar? token = some c) (single : (kinds later).head? ≠ some .minus)
      (goesOn : setBody ending start (set.addChar c) later = .ok result) :
      SetStep ending start set result (⟨pos, token⟩ :: later)
  | range {pos minus place : Nat} {first last : Token} {low high : Char} {later : List PosToken}
      (lowStands : setChar? first = some low) (highStands : setChar? last = some high)
      (upwards : low < high)
      (goesOn : setBody ending start { set with members := set.members ++ [.range low high] }
        later = .ok result) :
      SetStep ending start set result (⟨pos, first⟩ :: ⟨minus, .minus⟩ :: ⟨place, last⟩ :: later)
  | trailing {pos minus place : Nat} {token : Token} {c : Char} {later : List PosToken}
      (stands : setChar? token = some c)
      (goesOn : setBody ending start ((set.addChar c).addChar '-') (⟨place, .closeSet⟩ :: later) =
        .ok result) :
      SetStep ending start set result
        (⟨pos, token⟩ :: ⟨minus, .minus⟩ :: ⟨place, .closeSet⟩ :: later)

theorem setBody_step {ending : Option Fault} {start : Nat} {set : BracketSet}
    {result : BracketSet × List PosToken} {tokens : List PosToken}
    (accepted : setBody ending start set tokens = .ok result) :
    SetStep ending start set result tokens := by
  match tokens with
  | [] => simp [setBody, refuse] at accepted
  | ⟨pos, token⟩ :: later =>
      unfold setBody at accepted
      rw [bind_eq_ok_iff] at accepted
      obtain ⟨⟨⟩, _, accepted⟩ := accepted
      split at accepted
      · next close =>
          subst close
          exact .close
      split at accepted
      · contradiction
      next low lowStands =>
      split at accepted
      · next minus after =>
          rw [bind_eq_ok_iff] at accepted
          obtain ⟨⟨⟩, _, accepted⟩ := accepted
          split at accepted
          · contradiction
          next following later _ =>
          obtain ⟨place, last⟩ := following
          split at accepted
          · next close =>
              subst close
              exact .trailing lowStands accepted
          split at accepted
          · contradiction
          next high highStands =>
          rw [bind_eq_ok_iff] at accepted
          obtain ⟨⟨⟩, _, accepted⟩ := accepted
          split at accepted
          · next grown added =>
              obtain ⟨upwards, rfl⟩ := addRange_ok added
              exact .range lowStands highStands upwards accepted
          · contradiction
      · next single =>
          have bare : (kinds later).head? ≠ some .minus := by
            cases later with
            | nil => simp
            | cons next later =>
                obtain ⟨place, kind⟩ := next
                rintro ⟨⟩
                exact single place _ rfl
          exact .char lowStands bare accepted

theorem setBody_sound {ending : Option Fault} {start : Nat} {set read : BracketSet}
    {tokens rest : List PosToken} (accepted : setBody ending start set tokens = .ok (read, rest)) :
    ∃ body pos members, tokens = body ++ ⟨pos, .closeSet⟩ :: rest ∧
      Members (kinds body) members ∧
      read = { set with members := set.members ++ members } ∧ settle ending rest = .ok () := by
  -- On the recursion of the reader, which takes one member in each call.
  cases setBody_step accepted with
  | @close pos =>
      obtain ⟨rfl, rfl, due⟩ := setBody_closed accepted
      exact ⟨[], pos, [], rfl, .nil, by simp, due⟩
  | @char pos token c _ stands single goesOn =>
      obtain ⟨body, last, members, rfl, derived, rfl, kept⟩ := setBody_sound goesOn
      -- The reader saw no minus in what follows, and the body is the front of that.
      have bare : (kinds body).head? ≠ some .minus := by
        cases body with
        | nil => simp
        | cons next body => simpa using single
      exact ⟨⟨pos, token⟩ :: body, last, .char c :: members, rfl, .char stands bare derived,
        by simp [BracketSet.addChar], kept⟩
  | @range pos minus place first last low high _ lowStands highStands upwards goesOn =>
      obtain ⟨body, close, members, rfl, derived, rfl, kept⟩ := setBody_sound goesOn
      exact ⟨⟨pos, first⟩ :: ⟨minus, .minus⟩ :: ⟨place, last⟩ :: body, close,
        .range low high :: members, rfl, .range lowStands highStands upwards derived, by simp, kept⟩
  | @trailing pos minus place token c _ stands goesOn =>
      obtain ⟨rfl, rfl, due⟩ := setBody_closed goesOn
      exact ⟨[⟨pos, token⟩, ⟨minus, .minus⟩], place, [.char c, .char '-'], rfl, .trailing stands,
        by simp [BracketSet.addChar], due⟩
termination_by tokens.length

theorem bracketSet_sound {ending : Option Fault} {start : Nat} {negated : Bool} {node : Node}
    {tokens rest : List PosToken}
    (read : bracketSet ending start negated tokens = .ok (node, rest)) :
    ∃ body pos set, tokens = body ++ ⟨pos, .closeSet⟩ :: rest ∧ node = .bracketSet set ∧
      set.negated = negated ∧ Members (kinds body) set.members ∧ Expressible set ∧
      settle ending rest = .ok () := by
  unfold bracketSet at read
  rw [bind_eq_ok_iff] at read
  obtain ⟨⟨set, left⟩, accepted, read⟩ := read
  obtain ⟨body, pos, members, rfl, derived, same, kept⟩ := setBody_sound accepted
  -- The body is read as that of a positive set, and inverted at the end.
  have positive : set.negated = false := by simp [same, BracketSet.empty]
  have derived : Members (kinds body) set.members := by simpa [same, BracketSet.empty] using derived
  clear same accepted
  dsimp only at read
  split at read
  · contradiction
  next nonempty =>
  have nonempty : set.members ≠ [] := by simpa [BracketSet.isEmpty] using nonempty
  split at read
  · next plain =>
      cases read
      have plain : negated = false := by simpa using plain
      exact ⟨body, pos, set, rfl, rfl, positive.trans plain.symm, derived,
        ⟨nonempty, by simp [positive]⟩, kept⟩
  next isNegated =>
  split at read
  · contradiction
  next pure =>
  cases read
  have isNegated : negated = true := by simpa using isNegated
  refine ⟨body, pos, set.invert, rfl, rfl, ?_, derived, ⟨nonempty, fun _ => ?_⟩, kept⟩
  · simp [BracketSet.invert, positive, isNegated]
  · exact Classical.not_and_iff_not_or_not.mp pure

def ReadsInside (ending : Option Fault)
    (children : List PosToken → Except Refusal (List Node × List PosToken)) : Prop :=
  ∀ tokens nodes rest, settle ending tokens = .ok () → children tokens = .ok (nodes, rest) →
    ∃ used, tokens = used ++ rest ∧ Reads (kinds used) nodes ∧ Stops (kinds rest) ∧
      settle ending rest = .ok ()

theorem element_sound {ending : Option Fault}
    {children : List PosToken → Except Refusal (List Node × List PosToken)}
    (inside : ReadsInside ending children) {pos : Nat} {token : Token} {item : Node}
    {tokens rest : List PosToken} (settled : settle ending tokens = .ok ())
    (read : element ending children pos token tokens = .ok (item, rest)) :
    settle ending rest = .ok () ∧
      ((∃ used, tokens = used ++ rest ∧ Leaf (token :: kinds used) item) ∨
        ∃ kind body close nodes, token = .openGroup kind ∧
          tokens = body ++ ⟨close, .closeGroup⟩ :: rest ∧ Reads (kinds body) nodes ∧
          item = groupNode kind nodes) := by
  cases token with
  | literal c =>
      cases read
      exact ⟨settled, .inl ⟨[], rfl, .literal c⟩⟩
  | charClass kind =>
      cases read
      exact ⟨settled, .inl ⟨[], rfl, .charClass kind⟩⟩
  | any =>
      cases read
      exact ⟨settled, .inl ⟨[], rfl, .any⟩⟩
  | caret =>
      cases read
      exact ⟨settled, .inl ⟨[], rfl, .caret⟩⟩
  | dollar =>
      cases read
      exact ⟨settled, .inl ⟨[], rfl, .dollar⟩⟩
  | openSet negated =>
      obtain ⟨body, close, set, rfl, rfl, rfl, members, expressible, kept⟩ :=
        bracketSet_sound read
      refine ⟨kept, .inl ⟨body ++ [⟨close, .closeSet⟩], by simp, ?_⟩⟩
      simpa using Leaf.bracketSet members expressible
  | openGroup kind =>
      unfold element at read
      rw [bind_eq_ok_iff] at read
      obtain ⟨⟨nodes, left⟩, accepted, read⟩ := read
      obtain ⟨body, rfl, derived, -, -⟩ := inside _ _ _ settled accepted
      dsimp only at read
      split at read
      · next close later =>
          rw [bind_eq_ok_iff] at read
          obtain ⟨⟨⟩, kept, read⟩ := read
          cases read
          exact ⟨kept, .inr ⟨kind, body, close, nodes, rfl, rfl, derived, rfl⟩⟩
      · contradiction
  | repetition _ => contradiction
  | closeGroup => contradiction
  | closeSet => contradiction
  | minus => contradiction

theorem sequence_sound {ending : Option Fault} (fuel : Nat) :
    ReadsInside ending (Parse.sequence ending fuel) := by
  -- On the fuel, for any tokens: the hypothesis serves the inside of a group and what follows it.
  induction fuel with
  | zero =>
      intro tokens nodes rest _ read
      contradiction
  | succ fuel ih =>
      intro tokens nodes rest settled read
      match tokens with
      | [] =>
          cases read
          exact ⟨[], rfl, .nil, .inl rfl, settled⟩
      | ⟨pos, token⟩ :: later =>
          unfold Parse.sequence at read
          split at read
          · next close =>
              cases read
              subst close
              exact ⟨[], rfl, .nil, .inr rfl, settled⟩
          rw [bind_eq_ok_iff] at read
          obtain ⟨⟨⟩, due, read⟩ := read
          rw [bind_eq_ok_iff] at read
          obtain ⟨⟨item, afterItem⟩, itemRead, read⟩ := read
          rw [bind_eq_ok_iff] at read
          obtain ⟨⟨node, afterSuffix⟩, suffixRead, read⟩ := read
          rw [bind_eq_ok_iff] at read
          obtain ⟨⟨items, left⟩, laterRead, read⟩ := read
          cases read
          obtain ⟨keptItem, stands⟩ := element_sound ih due itemRead
          obtain ⟨suffix, rfl, repeated, keptSuffix⟩ := quantified_sound keptItem suffixRead
          obtain ⟨used, rfl, derived, stops, kept⟩ := ih _ _ _ keptSuffix laterRead
          rcases stands with ⟨head, rfl, leaf⟩ | ⟨kind, body, close, children, rfl, rfl, inside, rfl⟩
          · refine ⟨⟨pos, token⟩ :: head ++ suffix ++ used, by simp, ?_, stops, kept⟩
            simpa using Reads.leaf leaf repeated derived
          · refine ⟨⟨pos, .openGroup kind⟩ :: body ++ ⟨close, .closeGroup⟩ :: suffix ++ used,
              by simp, ?_, stops, kept⟩
            simpa using Reads.group kind inside repeated derived

/-! What has a derivation is accepted, once the scan has come to its end. -/

theorem kinds_eq_cons {tokens : List PosToken} {token : Token} {rest : List Token}
    (same : kinds tokens = token :: rest) :
    ∃ pos later, tokens = ⟨pos, token⟩ :: later ∧ kinds later = rest := by
  obtain ⟨⟨pos, kind⟩, later, rfl, rfl, rfl⟩ := List.map_eq_cons_iff.mp same
  exact ⟨pos, later, rfl, rfl⟩

theorem kinds_eq_append {tokens : List PosToken} {first second : List Token}
    (same : kinds tokens = first ++ second) :
    ∃ front back, tokens = front ++ back ∧ kinds front = first ∧ kinds back = second :=
  List.map_eq_append_iff.mp same

theorem setBody_char {start : Nat} {set : BracketSet} {pos : Nat} {token : Token} {c : Char}
    {rest : List PosToken} (stands : setChar? token = some c)
    (single : (kinds rest).head? ≠ some .minus) :
    setBody none start set (⟨pos, token⟩ :: rest) = setBody none start (set.addChar c) rest := by
  have inside : token ≠ .closeSet := by
    rintro rfl
    contradiction
  rw [setBody]
  simp only [settle_none, ok_bind, inside, ↓reduceIte, stands]
  split
  · next place after _ => simp at single
  · rfl

theorem setBody_range {start : Nat} {set : BracketSet} {pos middle place : Nat}
    {first last : Token} {low high : Char} {rest : List PosToken}
    (lowStands : setChar? first = some low) (highStands : setChar? last = some high)
    (upwards : low < high) :
    setBody none start set (⟨pos, first⟩ :: ⟨middle, .minus⟩ :: ⟨place, last⟩ :: rest) =
      setBody none start { set with members := set.members ++ [.range low high] } rest := by
  have firstInside : first ≠ .closeSet := by
    rintro rfl
    contradiction
  have lastInside : last ≠ .closeSet := by
    rintro rfl
    contradiction
  rw [setBody]
  simp only [settle_none, ok_bind, firstInside, lastInside, ↓reduceIte, lowStands, highStands,
    BracketSet.addRange, checkRange, upwards, pure_eq_ok]

theorem setBody_trailing {start : Nat} {set : BracketSet} {pos middle place : Nat}
    {token : Token} {c : Char} {rest : List PosToken} (stands : setChar? token = some c) :
    setBody none start set (⟨pos, token⟩ :: ⟨middle, .minus⟩ :: ⟨place, .closeSet⟩ :: rest) =
      .ok ((set.addChar c).addChar '-', rest) := by
  have inside : token ≠ .closeSet := by
    rintro rfl
    contradiction
  rw [setBody]
  simp only [settle_none, ok_bind, inside, ↓reduceIte, stands]
  simp [setBody]

theorem setBody_complete {body : List PosToken} {kindsOfBody : List Token}
    {members : List SetMember} (derived : Members kindsOfBody members)
    (same : kinds body = kindsOfBody) (start : Nat) (set : BracketSet) (pos : Nat)
    (rest : List PosToken) :
    setBody none start set (body ++ ⟨pos, .closeSet⟩ :: rest) =
      .ok ({ set with members := set.members ++ members }, rest) := by
  induction derived generalizing body set with
  | nil =>
      obtain rfl : body = [] := List.map_eq_nil_iff.mp same
      simp [setBody]
  | char stands single later ih =>
      obtain ⟨place, body, rfl, rfl⟩ := kinds_eq_cons same
      have single : (kinds (body ++ ⟨pos, .closeSet⟩ :: rest)).head? ≠ some .minus := by
        cases body <;> simp_all
      rw [List.cons_append, setBody_char stands single, ih rfl]
      simp [BracketSet.addChar]
  | range lowStands highStands upwards later ih =>
      obtain ⟨place, fromMinus, rfl, afterFirst⟩ := kinds_eq_cons same
      obtain ⟨middle, fromLast, rfl, afterMinus⟩ := kinds_eq_cons afterFirst
      obtain ⟨finish, body, rfl, afterLast⟩ := kinds_eq_cons afterMinus
      simp only [List.cons_append]
      rw [setBody_range lowStands highStands upwards, ih afterLast]
      simp
  | trailing stands =>
      obtain ⟨place, fromMinus, rfl, afterFirst⟩ := kinds_eq_cons same
      obtain ⟨middle, body, rfl, empty⟩ := kinds_eq_cons afterFirst
      obtain rfl : body = [] := List.map_eq_nil_iff.mp empty
      simp only [List.cons_append, List.nil_append]
      rw [setBody_trailing stands]
      simp [BracketSet.addChar]

theorem bracketSet_complete {body : List PosToken} {set : BracketSet}
    (derived : Members (kinds body) set.members) (expressible : Expressible set) (start pos : Nat)
    (rest : List PosToken) :
    bracketSet none start set.negated (body ++ ⟨pos, .closeSet⟩ :: rest) =
      .ok (.bracketSet set, rest) := by
  obtain ⟨members, negated⟩ := set
  obtain ⟨nonempty, pure⟩ := expressible
  dsimp only at derived nonempty pure
  have nonempty : members.isEmpty = false := by simpa using nonempty
  rw [bracketSet, setBody_complete derived rfl]
  simp only [ok_bind, BracketSet.empty, List.nil_append, BracketSet.isEmpty, nonempty]
  cases negated with
  | false => rfl
  | true =>
      have allowed : ¬((BracketSet.mk members false).charsOnly? = none ∧
          (BracketSet.mk members false).singleRange? = none) :=
        Classical.not_and_iff_not_or_not.mpr (pure rfl)
      simp [allowed, BracketSet.invert]

theorem quantified_complete {suffix : List PosToken} {item node : Node}
    (repeated : Repeated (kinds suffix) item node) {rest : List PosToken}
    (follows : ∀ bounds, (kinds rest).head? ≠ some (.repetition bounds)) :
    quantified none item (suffix ++ rest) = .ok (node, rest) := by
  generalize same : kinds suffix = head at repeated
  cases repeated with
  | once =>
      -- Without a suffix the reader looks at what follows, which is not a repetition.
      obtain rfl : suffix = [] := List.map_eq_nil_iff.mp same
      unfold quantified
      split
      · next bounds later head =>
          rw [List.nil_append] at head
          subst head
          exact absurd rfl (follows bounds)
      · rfl
  | times _ wide read =>
      obtain ⟨pos, none, rfl, empty⟩ := kinds_eq_cons same
      obtain rfl : none = [] := List.map_eq_nil_iff.mp empty
      simp [quantified, wide, read]

theorem leaf_complete {pos : Nat} {token : Token} {head : List PosToken} {item : Node}
    (leaf : Leaf (token :: kinds head) item) {rest : List PosToken}
    {children : List PosToken → Except Refusal (List Node × List PosToken)} :
    element none children pos token (head ++ rest) = .ok (item, rest) := by
  generalize same : token :: kinds head = all at leaf
  cases leaf with
  | bracketSet members expressible =>
      obtain ⟨rfl, inside⟩ := List.cons.inj same
      obtain ⟨body, last, rfl, rfl, closes⟩ := kinds_eq_append inside
      obtain ⟨close, none, rfl, empty⟩ := kinds_eq_cons closes
      obtain rfl : none = [] := List.map_eq_nil_iff.mp empty
      rw [List.append_assoc]
      exact bracketSet_complete members expressible pos close rest
  | _ =>
      obtain ⟨rfl, inside⟩ := List.cons.inj same
      obtain rfl : head = [] := List.map_eq_nil_iff.mp inside
      rfl

theorem group_complete {pos close : Nat} {kind : GroupKind} {body rest : List PosToken}
    {nodes : List Node} {children : List PosToken → Except Refusal (List Node × List PosToken)}
    (read : children (body ++ ⟨close, .closeGroup⟩ :: rest) =
      .ok (nodes, ⟨close, .closeGroup⟩ :: rest)) :
    element none children pos (.openGroup kind) (body ++ ⟨close, .closeGroup⟩ :: rest) =
      .ok (groupNode kind nodes, rest) := by
  simp [element, read]

theorem reads_head {tokens : List Token} {nodes : List Node} (reads : Reads tokens nodes)
    {rest : List Token} (stops : Stops rest) (bounds : Bounds) :
    (tokens ++ rest).head? ≠ some (.repetition bounds) := by
  cases reads with
  | nil => rcases stops with rfl | close <;> simp_all
  | leaf stands repeated later => cases stands <;> simp
  | group kind inside repeated later => simp

theorem leaf_head {head : List Token} {item : Node} (leaf : Leaf head item) :
    ∃ token inner, head = token :: inner ∧ token ≠ .closeGroup := by
  cases leaf <;> exact ⟨_, _, rfl, by simp⟩

theorem sequence_step {fuel pos : Nat} {token : Token} {later afterItem afterSuffix rest : List PosToken}
    {item node : Node} {items : List Node} (opened : token ≠ .closeGroup)
    (itemRead : element none (Parse.sequence none fuel) pos token later = .ok (item, afterItem))
    (suffixRead : quantified none item afterItem = .ok (node, afterSuffix))
    (laterRead : Parse.sequence none fuel afterSuffix = .ok (items, rest)) :
    Parse.sequence none (fuel + 1) (⟨pos, token⟩ :: later) = .ok (join node items, rest) := by
  rw [Parse.sequence]
  simp only [opened, ↓reduceIte, settle_none, ok_bind, itemRead, suffixRead, laterRead, pure_eq_ok]

theorem sequence_complete {tokens : List Token} {nodes : List Node} (reads : Reads tokens nodes)
    {used : List PosToken} (same : kinds used = tokens) (rest : List PosToken)
    (stops : Stops (kinds rest)) {fuel : Nat} (enough : used.length < fuel) :
    Parse.sequence none fuel (used ++ rest) = .ok (nodes, rest) := by
  -- On the derivation. Each part of the tokens is shorter than the whole, so that what is left of
  -- the fuel after one step is enough for it.
  induction reads generalizing used rest fuel with
  | nil =>
      obtain rfl : used = [] := List.map_eq_nil_iff.mp same
      obtain ⟨fuel, rfl⟩ := Nat.exists_eq_add_of_lt enough
      cases rest with
      | nil => rfl
      | cons next rest =>
          obtain ⟨pos, kind⟩ := next
          obtain rfl : kind = .closeGroup := by simpa [Stops] using stops
          simp [Parse.sequence]
  | leaf stands repeated reads ih =>
      obtain ⟨front, last, rfl, frontSame, rfl⟩ := kinds_eq_append same
      obtain ⟨head, suffix, rfl, rfl, rfl⟩ := kinds_eq_append frontSame
      obtain ⟨token, inner, headSame, opened⟩ := leaf_head stands
      obtain ⟨pos, inner, rfl, rfl⟩ := kinds_eq_cons headSame
      obtain ⟨fuel, rfl⟩ : ∃ n, fuel = n + 1 := ⟨fuel - 1, by omega⟩
      have enough : last.length < fuel := by
        simp only [List.length_append, List.length_cons] at enough
        omega
      have follows := reads_head reads stops
      rw [← kinds_append] at follows
      simp only [List.cons_append, List.append_assoc]
      exact sequence_step opened (leaf_complete stands)
        (quantified_complete repeated follows) (ih rfl rest stops enough)
  | group kind inside repeated reads insideRead laterRead =>
      obtain ⟨front, last, rfl, frontSame, rfl⟩ := kinds_eq_append same
      obtain ⟨head, closing, rfl, headSame, closingSame⟩ := kinds_eq_append frontSame
      obtain ⟨pos, body, rfl, rfl⟩ := kinds_eq_cons headSame
      obtain ⟨close, suffix, rfl, rfl⟩ := kinds_eq_cons closingSame
      obtain ⟨fuel, rfl⟩ : ∃ n, fuel = n + 1 := ⟨fuel - 1, by omega⟩
      simp only [List.length_append, List.length_cons] at enough
      have follows := reads_head reads stops
      rw [← kinds_append] at follows
      have shorter : body.length < fuel := by omega
      have children := insideRead rfl (⟨close, .closeGroup⟩ :: (suffix ++ (last ++ rest))) (.inr rfl)
        shorter
      simp only [List.cons_append, List.append_assoc]
      exact sequence_step (by simp) (group_complete children)
        (quantified_complete repeated follows) (laterRead rfl rest stops (by omega))

/-- A pattern is read exactly when its scan came to the end and its tokens derive a sequence. -/
theorem regex_eq_ok_iff {scanned : Scanned} {flags : Flags} {regex : Regex} :
    Parse.regex scanned flags = .ok regex ↔
      scanned.ending = none ∧ Reads (kinds scanned.tokens) regex.nodes ∧ regex.flags = flags ∧
        regex.captures = opened (kinds scanned.tokens) := by
  have counted : scanned.tokens.countP isCapture = opened (kinds scanned.tokens) := by
    rw [opened, kinds, List.countP_map]
    rfl
  constructor
  · intro read
    unfold Parse.regex at read
    rw [bind_eq_ok_iff] at read
    obtain ⟨⟨⟩, due, read⟩ := read
    rw [bind_eq_ok_iff] at read
    obtain ⟨⟨nodes, rest⟩, accepted, read⟩ := read
    obtain ⟨used, split, reads, _, settled⟩ := sequence_sound _ _ _ _ due accepted
    cases rest with
    | cons next rest => contradiction
    | nil =>
        cases read
        rw [List.append_nil] at split
        rw [split] at counted ⊢
        -- A fault of the scan is due where the tokens end, and nothing was due there.
        have finished : scanned.ending = none := by
          cases ending : scanned.ending with
          | none => rfl
          | some fault =>
              rw [ending] at settled
              contradiction
        exact ⟨finished, reads, rfl, counted⟩
  · rintro ⟨finished, reads, rfl, captures⟩
    have accepted := sequence_complete reads rfl [] (.inl rfl) (Nat.lt_succ_self _)
    rw [List.append_nil] at accepted
    unfold Parse.regex
    rw [finished, settle_none, accepted]
    simp only [ok_bind, pure_eq_ok, counted, ← captures]

end RegexForge.Grammar
