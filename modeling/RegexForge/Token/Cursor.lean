import RegexForge.Token.Lexeme

/-!
Scanning a text into tokens with places. A cursor knows the byte it stands at, the text still to be
read, and, inside a bracketed set, where the set was opened. One scan reads one lexeme, or finds
the end; a set still open at the end is a fault at its opening bracket. A failed scan keeps the
place where reading stopped. `scanAll` repeats the scan: it ends because each scan that yields a
token leaves a shorter text.
-/

namespace RegexForge

structure Cursor where
  pos : Nat
  rest : Text
  setStart : Option Nat
deriving DecidableEq

inductive Scan where
  | token (token : PosToken) (after : Cursor)
  | finished
  | failed (fault : Fault) (after : Cursor)
deriving DecidableEq

/-- All tokens of a text, up to its end or to the fault that ends the scan early. -/
structure Scanned where
  tokens : List PosToken
  ending : Option Fault
deriving DecidableEq

namespace Cursor

def atStart (text : Text) (pos : Nat) : Cursor :=
  ⟨pos, text, none⟩

/-- Moves to a later place, given by the text still to be read from there. -/
def moveTo (cursor : Cursor) (rest : Text) : Cursor :=
  { cursor with pos := cursor.pos + (Text.bytes cursor.rest - Text.bytes rest), rest := rest }

/-- The set that is open after a token that starts at byte `pos`. -/
def setStartAfter (setStart : Option Nat) (pos : Nat) : Token → Option Nat
  | .openSet _ => some pos
  | .closeSet => none
  | _ => setStart

def locate (cursor : Cursor) : Lexeme → Scan
  | .token token rest =>
      .token ⟨cursor.pos, token⟩
        { cursor.moveTo rest with
          setStart := setStartAfter cursor.setStart cursor.pos token }
  | .refused kind rest => .failed ⟨cursor.pos, kind⟩ (cursor.moveTo rest)
  | .missing kind rest =>
      .failed ⟨(cursor.moveTo rest).pos, kind⟩ (cursor.moveTo rest)

def lexeme (setStart : Option Nat) (c : Char) (rest : Text) : Lexeme :=
  match setStart with
  | none => Lexeme.outside c rest
  | some _ => Lexeme.inside c rest

def scan (cursor : Cursor) : Scan :=
  match cursor.rest, cursor.setStart with
  | [], none => .finished
  | [], some start => .failed ⟨start, .unclosedSet⟩ cursor
  | c :: rest, setStart => cursor.locate (lexeme setStart c rest)

theorem lexeme_rest_suffix (setStart : Option Nat) (c : Char) (rest : Text) :
    (lexeme setStart c rest).rest <:+ rest := by
  cases setStart with
  | none => exact Lexeme.outside_rest_suffix c rest
  | some start => exact Lexeme.inside_rest_suffix c rest

theorem scan_shorter {cursor after : Cursor} {token : PosToken}
    (read : cursor.scan = .token token after) : after.rest.length < cursor.rest.length := by
  unfold scan at read
  split at read
  · contradiction
  · contradiction
  · next c rest split =>
      have suffix := (lexeme_rest_suffix cursor.setStart c rest).length_le
      cases spelled : lexeme cursor.setStart c rest with
      | token kind left =>
          rw [spelled] at read suffix
          cases read
          simp only [Lexeme.rest, moveTo] at suffix ⊢
          rw [split, List.length_cons]
          omega
      | refused kind left => rw [spelled] at read; contradiction
      | missing kind left => rw [spelled] at read; contradiction

def scanAll (cursor : Cursor) : Scanned :=
  match step : cursor.scan with
  | .finished => ⟨[], none⟩
  | .failed fault _ => ⟨[], some fault⟩
  | .token token after =>
      have := scan_shorter step
      let later := scanAll after
      ⟨token :: later.tokens, later.ending⟩
termination_by cursor.rest.length

end Cursor

def tokens? (pattern : Text) : Except Fault (List PosToken) :=
  let scanned := (Cursor.atStart pattern 0).scanAll
  match scanned.ending with
  | some fault => .error fault
  | none => .ok scanned.tokens

end RegexForge
