/-!
A text is a list of characters. Places in a text are counted in bytes of its UTF-8 form, the unit
in which files and editors count, so every operation that moves through a text moves by `bytes`.
The main statements say that cutting a concatenation at the byte length of its first part gives
the parts back.
-/

namespace RegexForge

abbrev Text := List Char

namespace Text

def bytes : Text → Nat
  | [] => 0
  | c :: rest => c.utf8Size + bytes rest

def dropBytes : Nat → Text → Text
  | 0, text => text
  | _ + 1, [] => []
  | n + 1, c :: rest => dropBytes (n + 1 - c.utf8Size) rest

def takeBytes : Nat → Text → Text
  | 0, _ => []
  | _ + 1, [] => []
  | n + 1, c :: rest => c :: takeBytes (n + 1 - c.utf8Size) rest

/-- Cuts out the bytes from `start` to `stop`, both on character boundaries. -/
def slice (text : Text) (start stop : Nat) : Text :=
  takeBytes (stop - start) (dropBytes start text)

@[simp] theorem bytes_nil : bytes [] = 0 := rfl

@[simp] theorem bytes_cons (c : Char) (rest : Text) :
    bytes (c :: rest) = c.utf8Size + bytes rest := rfl

@[simp] theorem bytes_append (first second : Text) :
    bytes (first ++ second) = bytes first + bytes second := by
  induction first with
  | nil => simp
  | cons c rest ih =>
      simp only [List.cons_append, bytes_cons, ih]
      omega

theorem dropBytes_append (first second : Text) :
    dropBytes (bytes first) (first ++ second) = second := by
  induction first with
  | nil => simp [dropBytes]
  | cons c rest ih =>
      have positive := c.utf8Size_pos
      cases size : c.utf8Size + bytes rest with
      | zero => omega
      | succ n =>
          have left : n + 1 - c.utf8Size = bytes rest := by omega
          simp only [List.cons_append, bytes_cons, size, dropBytes, left, ih]

theorem takeBytes_append (first second : Text) :
    takeBytes (bytes first) (first ++ second) = first := by
  induction first with
  | nil => simp [takeBytes]
  | cons c rest ih =>
      have positive := c.utf8Size_pos
      cases size : c.utf8Size + bytes rest with
      | zero => omega
      | succ n =>
          have left : n + 1 - c.utf8Size = bytes rest := by omega
          simp only [List.cons_append, bytes_cons, size, takeBytes, left, ih]

theorem slice_append (before middle after : Text) :
    slice (before ++ middle ++ after) (bytes before) (bytes before + bytes middle) = middle := by
  simp only [slice, List.append_assoc, dropBytes_append, Nat.add_sub_cancel_left,
    takeBytes_append]

theorem intercalate_eq_flatMap (separator : Char) (first : Text) (others : List Text) :
    List.intercalate [separator] (first :: others) =
      first ++ others.flatMap (separator :: ·) := by
  induction others generalizing first with
  | nil => simp
  | cons second others ih => simp [List.intercalate_cons_cons, ih]

end Text

def Text.single? : Text → Option Char
  | [c] => some c
  | _ => none

end RegexForge
