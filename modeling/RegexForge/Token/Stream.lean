import RegexForge.Token.Cursor

/-!
A stream of tokens that scans one token ahead of its reader. A fault in the token ahead is reported
in place of the token before it; after that the stream is at its end and stays there.
-/

namespace RegexForge

structure TokenStream where
  input : Text
  cursor : Cursor
  ahead : Option PosToken
deriving DecidableEq

namespace TokenStream

/-- Starts at a cursor over part of `input`, whose first token is scanned at once. -/
def start (input : Text) (cursor : Cursor) : Except Error TokenStream :=
  match cursor.scan with
  | .token token after => .ok ⟨input, after, some token⟩
  | .finished => .ok ⟨input, cursor, none⟩
  | .failed fault _ => .error (.badText input fault)

/-- Reads the bytes of `input` from `first` to `last`. Places are counted from the start of the
whole of `input`. -/
def ofSpan (input : Text) (first last : Nat) : Except Error TokenStream :=
  start input (Cursor.atStart (input.slice first last) first)

def ofText (input : Text) : Except Error TokenStream :=
  start input (Cursor.atStart input 0)

def peek (stream : TokenStream) : Option PosToken :=
  stream.ahead

def pos (stream : TokenStream) : Nat :=
  stream.cursor.pos

def next (stream : TokenStream) : Except Error (Option PosToken) × TokenStream :=
  match stream.ahead with
  | none => (.ok none, stream)
  | some token =>
      match stream.cursor.scan with
      | .token later after =>
          (.ok (some token), { stream with cursor := after, ahead := some later })
      | .finished => (.ok (some token), { stream with ahead := none })
      | .failed fault after =>
          (.error (.badText stream.input fault), { stream with cursor := after, ahead := none })

def consume (stream : TokenStream) (token : Token) : Except Error Bool × TokenStream :=
  if stream.ahead.map PosToken.token = some token then
    let (answer, after) := stream.next
    (answer.map fun _ => true, after)
  else (.ok false, stream)

def take : Nat → TokenStream → List (Except Error PosToken)
  | 0, _ => []
  | n + 1, stream =>
      match stream.next with
      | (.ok none, _) => []
      | (.ok (some token), after) => .ok token :: take n after
      | (.error error, after) => .error error :: take n after

/-- Everything the stream yields. No token is shorter than a character, so one answer more than
there are characters left is enough. -/
def toList (stream : TokenStream) : List (Except Error PosToken) :=
  stream.take (stream.cursor.rest.length + 1)

end TokenStream

end RegexForge
