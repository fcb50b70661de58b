import RegexForge.Proofs.Grammar

/-!
Scanning without places. `Lexes` says which tokens a text is made of when the scan stands outside a
set or inside one, and the scan comes to its end without a fault exactly when the text has such
tokens. What a lexeme takes depends on the text after it only where a question mark follows a
repetition or an opening parenthesis, or a caret an opening bracket.
-/

namespace RegexForge

def Token.insideAfter (inside : Bool) : Token → Bool
  | .openSet _ => true
  | .closeSet => false
  | _ => inside

def Token.Inside (token : Token) : Prop :=
  (∃ c, token = .literal c) ∨ token = .minus ∨ token = .closeSet

/-- The tokens that are scanned outside a set, a class only for a letter that names it. -/
def Token.Outside : Token → Prop
  | .charClass kind => ∃ c, CharClass.ofEscape? c = some kind
  | .minus | .closeSet => False
  | _ => True

namespace Lexeme

def front : Bool → Char → Text → Lexeme
  | false => outside
  | true => inside

theorem repetition_token {min : UInt64} {max : Option UInt64} {text left : Text} {token : Token}
    (read : repetition min max text = .token token left) :
    ∃ isLazy, token = .repetition ⟨min, max, isLazy⟩ := by
  unfold repetition at read
  split at read
  · cases read
    exact ⟨true, rfl⟩
  · cases read
    exact ⟨false, rfl⟩

theorem closeBraces_token {min : UInt64} {max : Option UInt64} {text left : Text} {token : Token}
    (read : closeBraces min max text = .token token left) : ∃ bounds, token = .repetition bounds := by
  unfold closeBraces at read
  split at read
  · obtain ⟨isLazy, rfl⟩ := repetition_token read
    exact ⟨_, rfl⟩
  · contradiction

theorem upperBound_token {min : UInt64} {text left : Text} {token : Token}
    (read : upperBound min text = .token token left) : ∃ bounds, token = .repetition bounds := by
  unfold upperBound at read
  split at read
  · exact closeBraces_token read
  · split at read
    · contradiction
    · exact closeBraces_token read

theorem afterLowerBound_token {min : UInt64} {text left : Text} {token : Token}
    (read : afterLowerBound min text = .token token left) :
    ∃ bounds, token = .repetition bounds := by
  unfold afterLowerBound at read
  split at read
  · exact upperBound_token read
  · exact closeBraces_token read

theorem braces_token {text left : Text} {token : Token} (read : braces text = .token token left) :
    ∃ bounds, token = .repetition bounds := by
  unfold braces at read
  split at read
  · contradiction
  · split at read
    · contradiction
    · exact afterLowerBound_token read

theorem outside_token {c : Char} {rest left : Text} {token : Token}
    (read : outside c rest = .token token left) : token.Outside := by
  unfold outside at read
  -- The first case is the backslash; the others yield tokens of their own kind.
  split at read
  · unfold escapeOutside at read
    split at read
    · contradiction
    · next d later =>
        split at read
        · next kind found =>
            cases read
            exact ⟨d, found⟩
        · split at read
          · contradiction
          · cases read
            trivial
  · cases read
    trivial
  · cases read
    trivial
  · cases read
    trivial
  · unfold openSet at read
    split at read <;> cases read <;> trivial
  · unfold group at read
    split at read <;> cases read <;> trivial
  · cases read
    trivial
  · obtain ⟨isLazy, rfl⟩ := repetition_token read
    trivial
  · obtain ⟨isLazy, rfl⟩ := repetition_token read
    trivial
  · obtain ⟨isLazy, rfl⟩ := repetition_token read
    trivial
  · obtain ⟨bounds, rfl⟩ := braces_token read
    trivial
  · contradiction
  · cases read
    trivial

theorem inside_token {c : Char} {rest left : Text} {token : Token}
    (read : inside c rest = .token token left) : token.Inside := by
  unfold inside at read
  split at read
  · cases read
    exact .inr (.inr rfl)
  · cases read
    exact .inr (.inl rfl)
  · unfold escapeInside at read
    split at read
    · contradiction
    · cases read
      exact .inl ⟨_, rfl⟩
    · cases read
      exact .inl ⟨_, rfl⟩
    · cases read
      exact .inl ⟨_, rfl⟩
    · split at read
      · contradiction
      · cases read
        exact .inl ⟨_, rfl⟩
  · cases read
    exact .inl ⟨_, rfl⟩

theorem front_charClass {inside : Bool} {c : Char} {rest left : Text} {kind : CharClass}
    (read : front inside c rest = .token (.charClass kind) left) :
    ∃ d, CharClass.ofEscape? d = some kind := by
  cases inside with
  | true =>
      obtain ⟨d, same⟩ | same | same := inside_token read <;> contradiction
  | false => exact outside_token read

end Lexeme

inductive Lexes : Bool → Text → List Token → Prop where
  | done : Lexes false [] []
  | step {inside : Bool} {c : Char} {rest left : Text} {token : Token} {tokens : List Token}
      (read : Lexeme.front inside c rest = .token token left)
      (later : Lexes (token.insideAfter inside) left tokens) :
      Lexes inside (c :: rest) (token :: tokens)

theorem Lexes.charClass {inside : Bool} {text : Text} {tokens : List Token}
    (lexes : Lexes inside text tokens) {kind : CharClass} (member : .charClass kind ∈ tokens) :
    ∃ c, CharClass.ofEscape? c = some kind := by
  induction lexes with
  | done => simp at member
  | step read later ih =>
      rcases List.mem_cons.mp member with same | member
      · rw [← same] at read
        exact Lexeme.front_charClass read
      · exact ih member

namespace Cursor

open Grammar

theorem setStartAfter_isSome (setStart : Option Nat) (pos : Nat) (token : Token) :
    (setStartAfter setStart pos token).isSome = token.insideAfter setStart.isSome := by
  cases token <;> rfl

theorem lexeme_eq_front (setStart : Option Nat) (c : Char) (rest : Text) :
    lexeme setStart c rest = Lexeme.front setStart.isSome c rest := by
  cases setStart <;> rfl

/-! What one scan does: it finds the end, reads the lexeme at the front, or fails at it. -/

theorem of_scan_finished {cursor : Cursor} (finished : cursor.scan = .finished) :
    cursor.rest = [] ∧ cursor.setStart = none := by
  obtain ⟨pos, rest, setStart⟩ := cursor
  cases rest with
  | nil =>
      cases setStart with
      | none => exact ⟨rfl, rfl⟩
      | some start => contradiction
  | cons c rest => cases read : lexeme setStart c rest <;> simp [scan, read, locate] at finished

theorem of_scan_token {cursor after : Cursor} {token : PosToken}
    (found : cursor.scan = .token token after) :
    ∃ c rest left, cursor.rest = c :: rest ∧
      Lexeme.front cursor.setStart.isSome c rest = .token token.token left ∧
      token.pos = cursor.pos ∧
      after = { cursor.moveTo left with
        setStart := setStartAfter cursor.setStart cursor.pos token.token } := by
  obtain ⟨pos, rest, setStart⟩ := cursor
  cases rest with
  | nil => cases setStart <;> contradiction
  | cons c rest =>
      simp only [scan, lexeme_eq_front] at found
      cases read : Lexeme.front setStart.isSome c rest with
      | token kind left =>
          rw [read] at found
          cases found
          exact ⟨c, rest, left, rfl, read, rfl, rfl⟩
      | refused kind left => simp [read, locate] at found
      | missing kind left => simp [read, locate] at found

/-- A scan fails in front of a lexeme, past what was read of it, or at the bracket of a set that is
still open at the end. -/
theorem of_scan_failed {cursor after : Cursor} {fault : Fault}
    (failed : cursor.scan = .failed fault after) :
    (cursor.setStart = some fault.pos ∧ after = cursor) ∨
      ∃ left, left <:+ cursor.rest ∧ after = cursor.moveTo left ∧
        (fault.pos = cursor.pos ∨ fault.pos = after.pos) := by
  obtain ⟨pos, rest, setStart⟩ := cursor
  cases rest with
  | nil =>
      cases setStart with
      | none => contradiction
      | some start =>
          cases failed
          exact .inl ⟨rfl, rfl⟩
  | cons c rest =>
      have suffix := (lexeme_rest_suffix setStart c rest).trans (List.suffix_cons c rest)
      simp only [scan] at failed
      cases read : lexeme setStart c rest with
      | token kind left => simp [read, locate] at failed
      | refused kind left =>
          rw [read] at failed suffix
          cases failed
          exact .inr ⟨left, suffix, rfl, .inl rfl⟩
      | missing kind left =>
          rw [read] at failed suffix
          cases failed
          exact .inr ⟨left, suffix, rfl, .inr rfl⟩

theorem scanAll_of_finished {cursor : Cursor} (finished : cursor.scan = .finished) :
    cursor.scanAll = ⟨[], none⟩ := by
  rw [scanAll]
  split
  · rfl
  · next failed => simp [finished] at failed
  · next found => simp [finished] at found

theorem scanAll_of_failed {cursor after : Cursor} {fault : Fault}
    (failed : cursor.scan = .failed fault after) : cursor.scanAll = ⟨[], some fault⟩ := by
  rw [scanAll]
  split
  · next finished => simp [failed] at finished
  · next again =>
      rw [failed] at again
      cases again
      rfl
  · next found => simp [failed] at found

theorem scanAll_of_scan {cursor after : Cursor} {token : PosToken}
    (found : cursor.scan = .token token after) :
    cursor.scanAll = ⟨token :: after.scanAll.tokens, after.scanAll.ending⟩ := by
  rw [scanAll]
  split
  · next finished => simp [found] at finished
  · next failed => simp [found] at failed
  · next again =>
      rw [found] at again
      cases again
      rfl

theorem scanAll_of_lexes {inside : Bool} {text : Text} {tokens : List Token}
    (lexes : Lexes inside text tokens) (cursor : Cursor) (reads : cursor.rest = text)
    (mode : cursor.setStart.isSome = inside) :
    cursor.scanAll.ending = none ∧ kinds cursor.scanAll.tokens = tokens := by
  induction lexes generalizing cursor with
  | done =>
      obtain ⟨pos, rest, setStart⟩ := cursor
      cases setStart with
      | none =>
          subst reads
          rw [scanAll]
          exact ⟨rfl, rfl⟩
      | some start => contradiction
  | @step inside c rest left token tokens read later ih =>
      obtain ⟨pos, text, setStart⟩ := cursor
      subst reads mode
      have scanned : scan ⟨pos, c :: rest, setStart⟩ =
          .token ⟨pos, token⟩ { moveTo ⟨pos, c :: rest, setStart⟩ left with
            setStart := setStartAfter setStart pos token } := by
        simp only [scan, lexeme_eq_front, read, locate]
      rcases ih { moveTo ⟨pos, c :: rest, setStart⟩ left with
          setStart := setStartAfter setStart pos token } rfl
        (setStartAfter_isSome setStart pos token) with ⟨ending, kept⟩
      rw [scanAll_of_scan scanned]
      exact ⟨ending, congrArg (token :: ·) kept⟩

theorem lexes_of_scanAll (cursor : Cursor) (ending : cursor.scanAll.ending = none) :
    Lexes cursor.setStart.isSome cursor.rest (kinds cursor.scanAll.tokens) := by
  -- On the recursion of the scan: at its end, at a fault, or in front of a token.
  induction cursor using scanAll.induct with
  | case1 cursor finished =>
      obtain ⟨nothing, outside⟩ := of_scan_finished finished
      rw [scanAll_of_finished finished, nothing, outside]
      exact .done
  | case2 cursor fault after failed =>
      rw [scanAll_of_failed failed] at ending
      contradiction
  | case3 cursor token after found shorter ih =>
      rw [scanAll_of_scan found] at ending ⊢
      have later := ih ending
      obtain ⟨c, rest, left, split, read, -, rfl⟩ := of_scan_token found
      rw [setStartAfter_isSome] at later
      rw [split]
      exact .step read later

/-- No escape is read as the class of the null byte. -/
theorem nullByte_notMem (cursor : Cursor) (ending : cursor.scanAll.ending = none) :
    .charClass .nullByte ∉ kinds cursor.scanAll.tokens := by
  intro member
  obtain ⟨c, escaped⟩ := (lexes_of_scanAll cursor ending).charClass member
  unfold CharClass.ofEscape? at escaped
  split at escaped <;> simp at escaped

end Cursor

end RegexForge
