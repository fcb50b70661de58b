import RegexForge.Proofs.Outcome
import RegexForge.Regex.Parse

/-!
Reading looks at no place. The reader of a pattern hands places on, from tokens to faults, and
decides nothing by them: if the places of all tokens and of the fault that ends the scan are renamed,
by any function at all, then the same tree is read, or the same fault is found at the renamed place.
Each reading function commutes with the renaming, the larger ones because the smaller ones do. One
consequence is that a fault is reported only at a place that the scan gave.
-/

namespace RegexForge

open Outcome

def PosToken.move (f : Nat → Nat) (token : PosToken) : PosToken :=
  ⟨f token.pos, token.token⟩

def Fault.move (f : Nat → Nat) (fault : Fault) : Fault :=
  ⟨f fault.pos, fault.kind⟩

def Refusal.move (f : Nat → Nat) : Refusal → Refusal
  | .fault found => .fault (found.move f)
  | .internal found => .internal found

def Scanned.move (f : Nat → Nat) (scanned : Scanned) : Scanned :=
  ⟨scanned.tokens.map (PosToken.move f), scanned.ending.map (Fault.move f)⟩

/-- The places of the tokens, and of the fault if there is one. -/
def Scanned.places (scanned : Scanned) : List Nat :=
  scanned.tokens.map PosToken.pos ++ scanned.ending.toList.map Fault.pos

namespace Parse

variable (f : Nat → Nat) {α β : Type}

/-- What a reader returns, with the places renamed in the tokens left over or in the fault. -/
def moved : Except Refusal (α × List PosToken) → Except Refusal (α × List PosToken)
  | .ok (value, rest) => .ok (value, rest.map (PosToken.move f))
  | .error refusal => .error (refusal.move f)

theorem moved_bind {first : Except Refusal (α × List PosToken)}
    {next other : α × List PosToken → Except Refusal (β × List PosToken)}
    (agree : ∀ value rest,
      other (value, rest.map (PosToken.move f)) = moved f (next (value, rest))) :
    (moved f first >>= other) = moved f (first >>= next) := by
  cases first with
  | error refusal => rfl
  | ok result => exact agree result.1 result.2

theorem settle_move (ending : Option Fault) (tokens : List PosToken) :
    settle (ending.map (Fault.move f)) (tokens.map (PosToken.move f)) =
      (settle ending tokens).mapError (Refusal.move f) := by
  cases tokens with
  | cons token rest => rfl
  | nil => cases ending <;> rfl

theorem moved_settle {ending : Option Fault} {tokens : List PosToken}
    {next other : Unit → Except Refusal (α × List PosToken)}
    (agree : other () = moved f (next ())) :
    (settle (ending.map (Fault.move f)) (tokens.map (PosToken.move f)) >>= other) =
      moved f (settle ending tokens >>= next) := by
  rw [settle_move]
  cases settle ending tokens with
  | error refusal => rfl
  | ok due => exact agree

theorem quantified_move (ending : Option Fault) (item : Node) (tokens : List PosToken) :
    quantified (ending.map (Fault.move f)) item (tokens.map (PosToken.move f)) =
      moved f (quantified ending item tokens) := by
  cases tokens with
  | nil => rfl
  | cons token rest =>
      obtain ⟨pos, token⟩ := token
      cases token with
      | repetition bounds =>
          simp only [List.map_cons, PosToken.move, quantified]
          by_cases narrow : item.isZeroWidth = true
          · simp only [narrow, if_true]
            rfl
          · simp only [narrow]
            apply moved_settle
            cases Quantifier.ofBounds? bounds <;> rfl
      | _ => rfl

theorem setBody_move (ending : Option Fault) (start : Nat) (set : BracketSet)
    (tokens : List PosToken) :
    setBody (ending.map (Fault.move f)) (f start) set (tokens.map (PosToken.move f)) =
      moved f (setBody ending start set tokens) := by
  -- On the recursion of the reader, which takes a member in each call.
  match tokens with
  | [] => rfl
  | ⟨pos, token⟩ :: rest =>
      rw [List.map_cons, PosToken.move, setBody, setBody]
      apply moved_settle
      by_cases close : token = .closeSet
      · simp only [close, if_true]
        rfl
      simp only [close, if_false]
      cases setChar? token with
      | none => rfl
      | some low =>
          dsimp only
          match rest with
          | [] => exact setBody_move ending start (set.addChar low) []
          | ⟨place, second⟩ :: after =>
              cases second with
              | minus =>
                  apply moved_settle
                  match after with
                  | [] => rfl
                  | ⟨behind, last⟩ :: later =>
                      simp only [List.map_cons, PosToken.move]
                      by_cases final : last = .closeSet
                      · subst final
                        simp only [if_true]
                        exact setBody_move ending start _ (⟨behind, .closeSet⟩ :: later)
                      · simp only [final, if_false]
                        cases setChar? last with
                        | none => rfl
                        | some high =>
                            apply moved_settle
                            cases set.addRange low high with
                            | error range => rfl
                            | ok grown => exact setBody_move ending start grown later
              | _ => exact setBody_move ending start (set.addChar low) (_ :: after)
termination_by tokens.length

theorem bracketSet_move (ending : Option Fault) (start : Nat) (negated : Bool)
    (tokens : List PosToken) :
    bracketSet (ending.map (Fault.move f)) (f start) negated (tokens.map (PosToken.move f)) =
      moved f (bracketSet ending start negated tokens) := by
  unfold bracketSet
  rw [setBody_move]
  apply moved_bind
  intro set rest
  dsimp only
  by_cases nothing : set.isEmpty = true
  · simp only [nothing, if_true]
    rfl
  by_cases plain : (!negated) = true
  · simp only [nothing, plain, if_true]
    rfl
  by_cases mixed : set.charsOnly? = none ∧ set.singleRange? = none
  · simp only [nothing, plain, mixed, and_self, if_true]
    rfl
  · simp only [nothing, plain, mixed]
    rfl

theorem element_move {ending : Option Fault}
    {children other : List PosToken → Except Refusal (List Node × List PosToken)}
    (agree : ∀ tokens, other (tokens.map (PosToken.move f)) = moved f (children tokens))
    (pos : Nat) (token : Token) (rest : List PosToken) :
    element (ending.map (Fault.move f)) other (f pos) token (rest.map (PosToken.move f)) =
      moved f (element ending children pos token rest) := by
  cases token with
  | openSet negated => exact bracketSet_move f ending pos negated rest
  | openGroup kind =>
      simp only [element]
      rw [agree]
      apply moved_bind
      intro nodes left
      cases left with
      | nil => rfl
      | cons next later =>
          obtain ⟨place, token⟩ := next
          cases token with
          | closeGroup => exact moved_settle f rfl
          | _ => rfl
  | _ => rfl

theorem sequence_move (ending : Option Fault) (fuel : Nat) (tokens : List PosToken) :
    sequence (ending.map (Fault.move f)) fuel (tokens.map (PosToken.move f)) =
      moved f (sequence ending fuel tokens) := by
  induction fuel generalizing tokens with
  | zero => rfl
  | succ fuel ih =>
      cases tokens with
      | nil => rfl
      | cons token rest =>
          obtain ⟨pos, token⟩ := token
          simp only [List.map_cons, PosToken.move, sequence]
          by_cases close : token = .closeGroup
          · simp only [close, if_true]
            rfl
          · simp only [close, if_false]
            apply moved_settle
            rw [element_move f ih]
            apply moved_bind
            intro item rest
            dsimp only
            rw [quantified_move]
            apply moved_bind
            intro item rest
            dsimp only
            rw [ih]
            apply moved_bind
            intro items rest
            rfl

theorem regex_move (scanned : Scanned) (flags : Flags) :
    regex (scanned.move f) flags = (regex scanned flags).mapError (Refusal.move f) := by
  obtain ⟨tokens, ending⟩ := scanned
  have counted : (tokens.map (PosToken.move f)).countP isCapture = tokens.countP isCapture :=
    List.countP_map
  simp only [regex, Scanned.move, List.length_map, counted, settle_move, sequence_move]
  cases settle ending tokens with
  | error refusal => rfl
  | ok due =>
      simp only [mapError_ok, ok_bind]
      cases sequence ending (tokens.length + 1) tokens with
      | error refusal => rfl
      | ok read =>
          obtain ⟨nodes, rest⟩ := read
          cases rest <;> rfl

end Parse

theorem Scanned.move_eq_self {f : Nat → Nat} {scanned : Scanned}
    (fixed : ∀ pos ∈ scanned.places, f pos = pos) : scanned.move f = scanned := by
  obtain ⟨tokens, ending⟩ := scanned
  have tokensFixed : tokens.map (PosToken.move f) = tokens := by
    refine (List.map_congr_left fun token member => ?_).trans (List.map_id tokens)
    have given : token.pos ∈ places ⟨tokens, ending⟩ :=
      List.mem_append_left _ (List.mem_map_of_mem member)
    rw [PosToken.move, fixed _ given]
    rfl
  have endingFixed : ending.map (Fault.move f) = ending := by
    cases ending with
    | none => rfl
    | some fault =>
        have given : fault.pos ∈ places ⟨tokens, some fault⟩ :=
          List.mem_append_right _ (by simp)
        rw [Option.map_some, Fault.move, fixed _ given]
  rw [move, tokensFixed, endingFixed]

theorem Parse.pos_mem_places {scanned : Scanned} {flags : Flags} {fault : Fault}
    (refused : regex scanned flags = .error (.fault fault)) : fault.pos ∈ scanned.places := by
  -- If it were reported elsewhere, renaming that place would change the fault and not the scan.
  refine Decidable.byContradiction fun foreign => ?_
  obtain ⟨f, fixed, moves⟩ : ∃ f : Nat → Nat,
      (∀ pos ∈ scanned.places, f pos = pos) ∧ f fault.pos ≠ fault.pos := by
    refine ⟨fun pos => if pos = fault.pos then pos + 1 else pos, ?_, by simp⟩
    intro pos given
    have other : pos ≠ fault.pos := fun same => foreign (same ▸ given)
    simp [other]
  have same := regex_move f scanned flags
  rw [Scanned.move_eq_self fixed, refused, mapError_error, Except.error.injEq, Refusal.move,
    Refusal.fault.injEq] at same
  exact moves (congrArg Fault.pos same).symm

end RegexForge
