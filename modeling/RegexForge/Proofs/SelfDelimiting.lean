import RegexForge.Text.Quoted

/-!
Written values that end where they end. What is printed one behind the other can only be taken apart
again if each piece tells where it stops, whatever stands behind it: an indentation at the first
character that is no space, a number at the first that is no digit, a code point at its brace, a
quoted text at the first quote that no backslash escapes. `SelfDelimiting` says so of a way of
writing; no text that is quoted can then close its quotation and go on as something else.
-/

namespace RegexForge

/-- Nothing behind a written value can be taken for a part of it, or the other way round. -/
def SelfDelimiting {α : Type} (write : α → Text) : Prop :=
  ∀ first second after other,
    write first ++ after = write second ++ other → first = second ∧ after = other

/-- Values written one behind the other are taken apart again, up to texts that start like none. -/
theorem SelfDelimiting.flatMap_inj {α : Type} {write : α → Text} (cuts : SelfDelimiting write)
    {first second : List α} {after other : Text} (stop : ∀ x rest, write x ++ rest ≠ after)
    (halt : ∀ x rest, write x ++ rest ≠ other)
    (same : first.flatMap write ++ after = second.flatMap write ++ other) :
    first = second ∧ after = other := by
  induction first generalizing second with
  | nil =>
      cases second with
      | nil => exact ⟨rfl, same⟩
      | cons y second =>
          simp only [List.flatMap_cons, List.append_assoc] at same
          exact absurd same.symm (stop y _)
  | cons x first ih =>
      cases second with
      | nil =>
          simp only [List.flatMap_cons, List.append_assoc] at same
          exact absurd same (halt x _)
      | cons y second =>
          simp only [List.flatMap_cons, List.append_assoc] at same
          obtain ⟨rfl, later⟩ := cuts x y _ _ same
          obtain ⟨rfl, behind⟩ := ih later
          exact ⟨rfl, behind⟩

theorem cut_inj {continues : Char → Bool} {first second after other : Text} {c d : Char}
    (one : ∀ x ∈ first, continues x = true) (two : ∀ x ∈ second, continues x = true)
    (stop : continues c = false) (halt : continues d = false)
    (same : first ++ c :: after = second ++ d :: other) :
    first = second ∧ c :: after = d :: other := by
  have front := congrArg (List.takeWhile continues) same
  rw [List.takeWhile_append_of_pos one, List.takeWhile_append_of_pos two] at front
  have equal : first = second := by simpa [stop, halt] using front
  subst equal
  exact ⟨rfl, List.append_cancel_left same⟩

/-! Numbers. -/

theorem digitChar_inj {m n : Nat} (small : m < 16) (low : n < 16)
    (same : Nat.digitChar m = Nat.digitChar n) : m = n := by
  have all : ∀ a b : Fin 16, Nat.digitChar a = Nat.digitChar b → a = b := by decide
  exact congrArg Fin.val (all ⟨m, small⟩ ⟨n, low⟩ same)

theorem toDigits_inj {base m n : Nat} (wide : 1 < base) (narrow : base ≤ 16)
    (same : Nat.toDigits base m = Nat.toDigits base n) : m = n := by
  -- On the last digit; a number below the base has no other.
  induction m using Nat.strongRecOn generalizing n with
  | ind m ih =>
      have positive : 0 < base := by omega
      by_cases small : m < base
      · rw [Nat.toDigits_of_lt_base small] at same
        by_cases low : n < base
        · rw [Nat.toDigits_of_lt_base low] at same
          exact digitChar_inj (by omega) (by omega) (List.singleton_inj.mp same)
        · rw [Nat.toDigits_of_base_le wide (by omega), List.singleton_eq_append_iff] at same
          simp at same
      · rw [Nat.toDigits_of_base_le wide (by omega)] at same
        by_cases low : n < base
        · rw [Nat.toDigits_of_lt_base low, List.append_eq_singleton_iff] at same
          simp at same
        · have high : base ≤ n := by omega
          rw [Nat.toDigits_of_base_le wide high, List.append_singleton_inj] at same
          have quotient := ih (m / base) (Nat.div_lt_self (by omega) wide) same.1
          have remainder := digitChar_inj (Nat.lt_of_lt_of_le (Nat.mod_lt m positive) narrow)
            (Nat.lt_of_lt_of_le (Nat.mod_lt n positive) narrow) same.2
          rw [← Nat.div_add_mod m base, ← Nat.div_add_mod n base, quotient, remainder]

theorem decimal_inj {m n : Nat} {after other : Text} {c d : Char} (stop : c.isDigit = false)
    (halt : d.isDigit = false)
    (same : Nat.toDigits 10 m ++ c :: after = Nat.toDigits 10 n ++ d :: other) :
    m = n ∧ c :: after = d :: other := by
  have digits (k : Nat) : ∀ x ∈ Nat.toDigits 10 k, x.isDigit = true :=
    fun _ => Nat.isDigit_of_mem_toDigits (by decide) (by decide)
  obtain ⟨number, behind⟩ := cut_inj (digits m) (digits n) stop halt same
  exact ⟨toDigits_inj (by decide) (by decide) number, behind⟩

theorem notMem_decimal {c : Char} (noDigit : c.isDigit = false) (n : Nat) :
    c ∉ Nat.toDigits 10 n := by
  intro listed
  have digit : c.isDigit = true := Nat.isDigit_of_mem_toDigits (by decide) (by decide) listed
  rw [noDigit] at digit
  contradiction

theorem notMem_toDigits {c : Char} (noDigit : ∀ k : Fin 16, Nat.digitChar k ≠ c) (n : Nat) :
    c ∉ Nat.toDigits 16 n := by
  induction n using Nat.strongRecOn with
  | ind n ih =>
      by_cases small : n < 16
      · rw [Nat.toDigits_of_lt_base small, List.mem_singleton]
        exact (noDigit ⟨n, small⟩).symm
      · rw [Nat.toDigits_of_base_le (by decide) (by omega), List.mem_append, not_or,
          List.mem_singleton]
        exact ⟨ih (n / 16) (by omega), (noDigit ⟨n % 16, Nat.mod_lt n (by decide)⟩).symm⟩

namespace Text

/-! Quoted texts. -/

def letters : List (Char × Char) :=
  [('"', '"'), ('\\', '\\'), ('0', '\x00'), ('t', '\t'), ('n', '\n'), ('r', '\r')]

theorem quotedChar_cases (c : Char) :
    (∃ letter, (letter, c) ∈ letters ∧ quotedChar c = ['\\', letter]) ∨
      quotedChar c = codePoint c ∨ c ≠ '"' ∧ c ≠ '\\' ∧ quotedChar c = [c] := by
  unfold quotedChar
  split
  · next same => exact .inl ⟨'"', by simp [letters, same], rfl⟩
  split
  · next same => exact .inl ⟨'\\', by simp [letters, same], rfl⟩
  split
  · next same => exact .inl ⟨'0', by simp [letters, same], rfl⟩
  split
  · next same => exact .inl ⟨'t', by simp [letters, same], rfl⟩
  split
  · next same => exact .inl ⟨'n', by simp [letters, same], rfl⟩
  split
  · next same => exact .inl ⟨'r', by simp [letters, same], rfl⟩
  split
  · exact .inr (.inl rfl)
  · next unquoted bare _ _ _ _ _ => exact .inr (.inr ⟨unquoted, bare, rfl⟩)

theorem codePoint_selfDelimiting : SelfDelimiting codePoint := by
  intro c d after other same
  have digits (n : Nat) : ∀ x ∈ Nat.toDigits 16 n, (x != '}') = true := by
    intro x member
    have apart : x ≠ '}' := by
      rintro rfl
      exact notMem_toDigits (by decide) n member
    simpa using apart
  simp only [codePoint, List.append_assoc, List.append_cancel_left_eq, List.cons_append,
    List.cons.injEq, true_and, List.nil_append] at same
  obtain ⟨number, behind⟩ := cut_inj (digits c.toNat) (digits d.toNat) rfl rfl same
  exact ⟨Char.toNat_inj.mp (toDigits_inj (by decide) (by decide) number),
    (List.cons.inj behind).2⟩

theorem quotedChar_selfDelimiting : SelfDelimiting quotedChar := by
  intro c d after other same
  have oneMeaning : ∀ p ∈ letters, ∀ q ∈ letters, p.1 = q.1 → p.2 = q.2 := by decide
  have noPoint (e : Char) : ('u', e) ∉ letters := by simp [letters]
  -- Only two of the three forms start with a backslash, and the letter behind it tells them apart.
  rcases quotedChar_cases c with ⟨letter, listed, one⟩ | one | ⟨-, bare, one⟩
  · rcases quotedChar_cases d with ⟨name, known, two⟩ | two | ⟨-, plain, two⟩
    · simp only [one, two, List.cons_append, List.nil_append, List.cons.injEq, true_and] at same
      exact ⟨oneMeaning _ listed _ known same.1, same.2⟩
    · simp [one, two, codePoint] at same
      exact absurd (same.1 ▸ listed) (noPoint c)
    · simp [one, two, plain.symm] at same
  · rcases quotedChar_cases d with ⟨name, known, two⟩ | two | ⟨-, plain, two⟩
    · simp [one, two, codePoint] at same
      exact absurd (same.1 ▸ known) (noPoint d)
    · rw [one, two] at same
      exact codePoint_selfDelimiting c d after other same
    · simp [one, two, codePoint, plain.symm] at same
  · rcases quotedChar_cases d with ⟨name, known, two⟩ | two | ⟨-, plain, two⟩
    · simp [one, two, bare] at same
    · simp [one, two, codePoint, bare] at same
    · simpa [one, two] using same

theorem quotedChar_append_ne (c : Char) (after other : Text) :
    quotedChar c ++ after ≠ '"' :: other := by
  rcases quotedChar_cases c with ⟨letter, -, one⟩ | one | ⟨unquoted, -, one⟩
  · simp [one]
  · simp [one, codePoint]
  · simp [one, unquoted]

theorem quoted_selfDelimiting : SelfDelimiting quoted := by
  intro first second after other same
  simp only [quoted, List.cons_append, List.append_assoc, List.cons.injEq, true_and,
    List.nil_append] at same
  obtain ⟨rfl, closing⟩ := quotedChar_selfDelimiting.flatMap_inj
    (fun c _ => quotedChar_append_ne c _ _) (fun c _ => quotedChar_append_ne c _ _) same
  exact ⟨rfl, (List.cons.inj closing).2⟩

end Text

end RegexForge
