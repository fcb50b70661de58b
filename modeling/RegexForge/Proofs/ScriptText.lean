import Mathlib.Data.List.Nodup
import RegexForge.Proofs.SelfDelimiting
import RegexForge.Script

/-!
A printed script says which script it is. The name of a method tells which quantifier or which call
it is, up to the arguments, and the arguments end with their parenthesis; a quantifier in front of a
call cannot be taken for a call, since no two methods share a name. So a line is taken apart from
its front, and a script line by line, whatever texts and names the calls hold.
-/

namespace RegexForge

/-! Names of methods. -/

/-- The quantifier without its counts. -/
def Quantifier.shape : Quantifier → Quantifier
  | .exactly _ => .exactly 0
  | .atLeast _ => .atLeast 0
  | .between _ _ => .between 0 0
  | .betweenLazy _ _ => .betweenLazy 0 0
  | quantifier => quantifier

def Quantifier.shapes : List Quantifier :=
  [.optional, .zeroOrMore, .zeroOrMoreLazy, .oneOrMore, .oneOrMoreLazy, .exactly 0, .atLeast 0,
    .between 0 0, .betweenLazy 0 0]

def Call.shape : Call → Call
  | .char _ => .char []
  | .string _ => .string []
  | .range _ _ => .range [] []
  | .anythingButRange _ _ => .anythingButRange [] []
  | .anyOfChars _ => .anyOfChars []
  | .anythingButChars _ => .anythingButChars []
  | .anythingButString _ => .anythingButString []
  | .backreference _ => .backreference 0
  | .namedBackreference _ => .namedBackreference []
  | .namedCapture _ => .namedCapture []
  | call => call

def Call.shapes : List Call :=
  Flag.all.map .flag ++
    [.charClass .anyChar, .charClass .digit, .charClass .nonDigit, .charClass .word,
      .charClass .nonWord, .charClass .whitespace, .charClass .nonWhitespace,
      .charClass .wordBoundary, .charClass .nonWordBoundary, .charClass .newline,
      .charClass .carriageReturn, .charClass .tab, .charClass .nullByte, .startOfInput,
      .endOfInput, .char [], .string [], .range [] [], .anythingButRange [] [], .anyOfChars [],
      .anythingButChars [], .anythingButString [], .backreference 0, .namedBackreference [],
      .group, .capture, .namedCapture [], .anyOf, .lookaround .ahead, .lookaround .notAhead,
      .lookaround .behind, .lookaround .notBehind, .close]

def methods : List String :=
  Quantifier.shapes.map Quantifier.method ++ Call.shapes.map Call.method

theorem methods_nodup : methods.Nodup := by
  decide +kernel

theorem paren_notMem_methods : ∀ method ∈ methods, '(' ∉ method.toList := by
  decide +kernel

theorem Quantifier.method_shape (quantifier : Quantifier) :
    quantifier.shape ∈ shapes ∧ quantifier.shape.method = quantifier.method := by
  cases quantifier <;> exact ⟨List.contains_iff_mem.mp rfl, rfl⟩

theorem Call.method_shape (call : Call) :
    call.shape ∈ shapes ∧ call.shape.method = call.method := by
  cases call with
  | flag flag => cases flag <;> exact ⟨List.contains_iff_mem.mp rfl, rfl⟩
  | charClass kind => cases kind <;> exact ⟨List.contains_iff_mem.mp rfl, rfl⟩
  | lookaround kind => cases kind <;> exact ⟨List.contains_iff_mem.mp rfl, rfl⟩
  | _ => exact ⟨List.contains_iff_mem.mp rfl, rfl⟩

theorem Quantifier.shape_eq_of_method {first second : Quantifier}
    (same : first.method = second.method) : first.shape = second.shape := by
  obtain ⟨one, named⟩ := first.method_shape
  obtain ⟨two, called⟩ := second.method_shape
  have distinct := (List.nodup_append.mp methods_nodup).1
  exact List.inj_on_of_nodup_map distinct one two (named.trans (same.trans called.symm))

theorem Call.shape_eq_of_method {first second : Call} (same : first.method = second.method) :
    first.shape = second.shape := by
  obtain ⟨one, named⟩ := first.method_shape
  obtain ⟨two, called⟩ := second.method_shape
  have distinct := (List.nodup_append.mp methods_nodup).2.1
  exact List.inj_on_of_nodup_map distinct one two (named.trans (same.trans called.symm))

theorem method_ne (quantifier : Quantifier) (call : Call) : quantifier.method ≠ call.method := by
  obtain ⟨one, named⟩ := quantifier.method_shape
  obtain ⟨two, called⟩ := call.method_shape
  rw [← named, ← called]
  exact (List.nodup_append.mp methods_nodup).2.2 _ (List.mem_map_of_mem one) _
    (List.mem_map_of_mem two)

theorem Quantifier.method_mem (quantifier : Quantifier) : quantifier.method ∈ methods := by
  obtain ⟨listed, named⟩ := quantifier.method_shape
  rw [← named]
  exact List.mem_append_left _ (List.mem_map_of_mem listed)

theorem Call.method_mem (call : Call) : call.method ∈ methods := by
  obtain ⟨listed, named⟩ := call.method_shape
  rw [← named]
  exact List.mem_append_right _ (List.mem_map_of_mem listed)

theorem method_inj {first second : String} {after other : Text} (one : first ∈ methods)
    (two : second ∈ methods) (same : first.toList ++ '(' :: after = second.toList ++ '(' :: other) :
    first = second ∧ after = other := by
  have name {method : String} (listed : method ∈ methods) :
      ∀ c ∈ method.toList, (c != '(') = true := by
    intro c member
    have apart : c ≠ '(' := by
      rintro rfl
      exact paren_notMem_methods method listed member
    simpa using apart
  obtain ⟨named, behind⟩ := cut_inj (name one) (name two) rfl rfl same
  exact ⟨String.toList_inj.mp named, (List.cons.inj behind).2⟩

/-! Arguments, up to the closing parenthesis. -/

theorem countText_inj {m n : UInt64} {after other : Text} {c d : Char} (stop : c.isDigit = false)
    (halt : d.isDigit = false) (same : countText m ++ c :: after = countText n ++ d :: other) :
    m = n ∧ c :: after = d :: other := by
  obtain ⟨number, behind⟩ := decimal_inj stop halt same
  exact ⟨UInt64.toNat_inj.mp number, behind⟩

theorem separator_append (text : Text) : ", ".toList ++ text = ',' :: ' ' :: text := rfl

theorem Quantifier.arguments_inj {first second : Quantifier} {after other : Text}
    (alike : first.shape = second.shape)
    (same : first.arguments ++ ')' :: after = second.arguments ++ ')' :: other) :
    first = second ∧ after = other := by
  cases first with
  | exactly count | atLeast count =>
      cases second <;> cases alike
      obtain ⟨rfl, behind⟩ := countText_inj rfl rfl same
      exact ⟨rfl, (List.cons.inj behind).2⟩
  | between low high | betweenLazy low high =>
      cases second <;> cases alike
      simp only [arguments, List.append_assoc, separator_append, List.cons_append] at same
      obtain ⟨rfl, between⟩ := countText_inj rfl rfl same
      simp only [List.cons.injEq, true_and] at between
      obtain ⟨rfl, behind⟩ := countText_inj rfl rfl between
      exact ⟨rfl, (List.cons.inj behind).2⟩
  | _ =>
      cases second <;> cases alike
      exact ⟨rfl, (List.cons.inj same).2⟩

theorem Call.arguments_inj {first second : Call} {after other : Text}
    (alike : first.shape = second.shape)
    (same : first.arguments ++ ')' :: after = second.arguments ++ ')' :: other) :
    first = second ∧ after = other := by
  cases first with
  | char text | string text | anyOfChars text | anythingButChars text | anythingButString text
  | namedBackreference text | namedCapture text =>
      cases second <;> cases alike
      obtain ⟨rfl, behind⟩ := Text.quoted_selfDelimiting _ _ _ _ same
      exact ⟨rfl, (List.cons.inj behind).2⟩
  | range low high | anythingButRange low high =>
      cases second <;> cases alike
      simp only [arguments, List.append_assoc, separator_append, List.cons_append] at same
      obtain ⟨rfl, between⟩ := Text.quoted_selfDelimiting _ _ _ _ same
      simp only [List.cons.injEq, true_and] at between
      obtain ⟨rfl, behind⟩ := Text.quoted_selfDelimiting _ _ _ _ between
      exact ⟨rfl, (List.cons.inj behind).2⟩
  | backreference index =>
      cases second <;> cases alike
      obtain ⟨rfl, behind⟩ := decimal_inj rfl rfl same
      exact ⟨rfl, (List.cons.inj behind).2⟩
  | _ =>
      cases second <;> cases alike
      exact ⟨rfl, (List.cons.inj same).2⟩

theorem Quantifier.text_selfDelimiting : SelfDelimiting Quantifier.text := by
  intro first second after other same
  simp only [text, List.append_assoc, List.cons_append, List.nil_append] at same
  obtain ⟨named, written⟩ := method_inj first.method_mem second.method_mem same
  exact arguments_inj (shape_eq_of_method named) written

theorem Call.text_selfDelimiting : SelfDelimiting Call.text := by
  intro first second after other same
  simp only [text, List.append_assoc, List.cons_append, List.nil_append] at same
  obtain ⟨named, written⟩ := method_inj first.method_mem second.method_mem same
  exact arguments_inj (shape_eq_of_method named) written

theorem quantifier_text_ne (quantifier : Quantifier) (call : Call) (after other : Text) :
    quantifier.text ++ after ≠ call.text ++ other := by
  intro same
  simp only [Quantifier.text, Call.text, List.append_assoc, List.cons_append] at same
  obtain ⟨named, -⟩ := method_inj quantifier.method_mem call.method_mem same
  exact method_ne quantifier call named

/-! Lines. -/

namespace Line

def callText (call : Call) : Text :=
  call.text ++ if call.isFallible then ['?'] else []

/-- What stands in a line behind its first dot. -/
def requests : Option Quantifier → Call → Text
  | some quantifier, call => quantifier.text ++ '?' :: '.' :: callText call
  | none, call => callText call

theorem text_eq (line : Line) :
    line.text =
      List.replicate (4 * (line.depth + 1)) ' ' ++ '.' :: requests line.quantifier line.call := by
  unfold text requests callText
  cases line.quantifier <;> simp

theorem callText_selfDelimiting : SelfDelimiting callText := by
  intro first second after other same
  simp only [callText, List.append_assoc] at same
  obtain ⟨rfl, behind⟩ := Call.text_selfDelimiting _ _ _ _ same
  exact ⟨rfl, List.append_cancel_left behind⟩

theorem requests_inj {one two : Option Quantifier} {first second : Call} {after other : Text}
    (same : requests one first ++ after = requests two second ++ other) :
    one = two ∧ first = second ∧ after = other := by
  cases one with
  | none =>
      cases two with
      | none =>
          obtain ⟨call, behind⟩ := callText_selfDelimiting _ _ _ _ same
          exact ⟨rfl, call, behind⟩
      | some quantifier =>
          simp only [requests, callText, List.append_assoc] at same
          exact absurd same.symm (quantifier_text_ne quantifier first _ _)
  | some quantifier =>
      cases two with
      | none =>
          simp only [requests, callText, List.append_assoc] at same
          exact absurd same (quantifier_text_ne quantifier second _ _)
      | some requested =>
          simp only [requests, List.append_assoc, List.cons_append] at same
          obtain ⟨rfl, chained⟩ := Quantifier.text_selfDelimiting _ _ _ _ same
          simp only [List.cons.injEq, true_and] at chained
          obtain ⟨call, behind⟩ := callText_selfDelimiting _ _ _ _ chained
          exact ⟨rfl, call, behind⟩

theorem text_selfDelimiting : SelfDelimiting Line.text := by
  intro first second after other same
  simp only [text_eq, List.append_assoc, List.cons_append] at same
  have spaces (n : Nat) : ∀ c ∈ List.replicate n ' ', (c == ' ') = true := by
    intro c member
    simp [List.eq_of_mem_replicate member]
  obtain ⟨indented, written⟩ := cut_inj (spaces _) (spaces _) rfl rfl same
  have depth : first.depth = second.depth := by
    have width := congrArg List.length indented
    simp only [List.length_replicate] at width
    omega
  obtain ⟨quantifier, call, behind⟩ := requests_inj (List.cons.inj written).2
  exact ⟨Line.mk.injEq .. ▸ ⟨depth, quantifier, call⟩, behind⟩

end Line

namespace Script

theorem lines_inj {first second : Script}
    (same : (first.flatMap fun line => '\n' :: line.text) =
      second.flatMap fun line => '\n' :: line.text) : first = second := by
  have cuts : SelfDelimiting fun line : Line => '\n' :: line.text := by
    intro one other after behind written
    exact Line.text_selfDelimiting one other after behind (List.cons.inj written).2
  have filled (line : Line) (rest : Text) : '\n' :: line.text ++ rest ≠ [] := by simp
  exact (cuts.flatMap_inj filled filled (by simpa using same)).1

/-- Scripts that are printed alike have the same lines: the same depths, quantifiers and calls, with
the same texts and names in them. -/
theorem text_inj (first second : Script) : first.text = second.text ↔ first = second := by
  constructor
  · intro same
    exact lines_inj (List.append_cancel_left same)
  · rintro rfl
    rfl

/-- A text that spells the end of its own call and one more line stays inside its quotes. -/
example :
    text [⟨0, none, .string "a\")?\n    .char(\"b".toList⟩] =
      "RegexBuilder::new()\n    .string(\"a\\\")?\\n    .char(\\\"b\")?".toList := by
  decide +kernel

end Script

end RegexForge
