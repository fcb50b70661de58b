import RegexForge.Node.Render

/-!
Escaped texts and what they were escaped from. A character is written as one, two or four
characters, and all spellings but the plain ones share the backslash they start with. What stands
behind it decides: a special character stands for itself, and no name of the null byte or of a line
control starts with a special one. So `unescape` knows after each spelling which character it was,
whatever comes next, and an escaped text is that of one text only.
-/

namespace RegexForge

/-- The null byte and the three line controls, for which escapes have names. -/
def controls : Text :=
  ['\x00', '\n', '\r', '\t']

def escapeNames : List (Char × Text) :=
  [('\x00', ['0', '0', '0']), ('\n', ['n']), ('\r', ['r']), ('\t', ['t'])]

theorem escapeChar_cases (c : Char) :
    (∃ name, (c, name) ∈ escapeNames ∧ escapeChar c = '\\' :: name) ∨
      (isSpecial c = true ∧ escapeChar c = ['\\', c]) ∨
      (isSpecial c = false ∧ c ∉ controls ∧ escapeChar c = [c]) := by
  by_cases control : c ∈ controls
  · have spelled : ∀ entry ∈ escapeNames, escapeChar entry.1 = '\\' :: entry.2 := by decide
    have named : c ∈ escapeNames.map Prod.fst := control
    obtain ⟨⟨_, name⟩, listed, rfl⟩ := List.mem_map.mp named
    exact .inl ⟨name, listed, spelled _ listed⟩
  · have unnamed : c ≠ '\x00' ∧ c ≠ '\n' ∧ c ≠ '\r' ∧ c ≠ '\t' := by
      simpa [controls] using control
    cases special : isSpecial c with
    | true => exact .inr (.inl ⟨rfl, by simp [escapeChar, unnamed, special]⟩)
    | false => exact .inr (.inr ⟨rfl, control, by simp [escapeChar, unnamed, special]⟩)

def unescape : Text → Text
  | '\\' :: '0' :: '0' :: '0' :: rest => '\x00' :: unescape rest
  | '\\' :: 'n' :: rest => '\n' :: unescape rest
  | '\\' :: 'r' :: rest => '\r' :: unescape rest
  | '\\' :: 't' :: rest => '\t' :: unescape rest
  | '\\' :: c :: rest => c :: unescape rest
  | c :: rest => c :: unescape rest
  | [] => []

theorem unescape_named {c : Char} {name : Text} (listed : (c, name) ∈ escapeNames) (rest : Text) :
    unescape ('\\' :: name ++ rest) = c :: unescape rest := by
  have all : ∀ entry ∈ escapeNames,
      unescape ('\\' :: entry.2 ++ rest) = entry.1 :: unescape rest := by
    simp [escapeNames, unescape]
  exact all _ listed

theorem unescape_special {c : Char} (special : isSpecial c = true) (rest : Text) :
    unescape ('\\' :: c :: rest) = c :: unescape rest := by
  have noName : ∀ x ∈ specialChars, x ≠ '0' ∧ x ≠ 'n' ∧ x ≠ 'r' ∧ x ≠ 't' := by
    simp [specialChars]
  have unnamed := noName c (by simpa [isSpecial] using special)
  simp [unescape, unnamed]

theorem unescape_plain {c : Char} (bare : c ≠ '\\') (rest : Text) :
    unescape (c :: rest) = c :: unescape rest := by
  simp [unescape, bare]

theorem unescape_escapeChar (c : Char) (rest : Text) :
    unescape (escapeChar c ++ rest) = c :: unescape rest := by
  rcases escapeChar_cases c with ⟨name, listed, spelled⟩ | ⟨special, spelled⟩ | ⟨plain, -, spelled⟩
  · rw [spelled]
    exact unescape_named listed rest
  · rw [spelled]
    exact unescape_special special rest
  · rw [spelled]
    refine unescape_plain ?_ rest
    rintro rfl
    contradiction

theorem unescape_escape (text : Text) : unescape (escape text) = text := by
  induction text with
  | nil => rfl
  | cons c rest ih => rw [escape, List.flatMap_cons, unescape_escapeChar, ← escape, ih]

/-- An escaped text is read back as the text, the null byte included. So texts are the same as soon
as their escaped forms are, and no two of them are rendered alike. -/
theorem escape_inj (first second : Text) :
    unescape (escape first) = first ∧ (escape first = escape second ↔ first = second) ∧
      (Node.render (.string ⟨first⟩) = Node.render (.string ⟨second⟩) ↔ first = second) := by
  have same : escape first = escape second ↔ first = second := by
    constructor
    · intro spelled
      rw [← unescape_escape first, spelled, unescape_escape]
    · rintro rfl
      rfl
  exact ⟨unescape_escape first, same, same⟩

/-- A null byte before a zero, and a backslash before as many zeros as name one. -/
example :
    escape "\x000\\000".toList = "\\0000\\\\000".toList ∧
      unescape "\\0000\\\\000".toList = "\x000\\000".toList := by
  decide

end RegexForge
