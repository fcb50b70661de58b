import RegexForge.Proofs.Spelling
import RegexForge.Proofs.Tiling

/-!
Texts put together. A lexeme takes as much as belongs to it, so more text behind it changes it only
where its token ends the text and could go on. A scan of two texts that are put together is
therefore the scan of the first and then that of the second, from where the first ended, unless the
last token of the first could go on.
-/

namespace RegexForge

/-- Whether no text behind it changes the token: a question mark would make a repetition lazy and
open another kind of group than a capture, and a caret would negate a set. -/
def Token.isComplete : Token → Bool
  | repetition bounds => bounds.isLazy
  | openGroup .capture | openSet false => false
  | _ => true

namespace Lexeme

variable {text left : Text} {token : Token}

theorem repetition_append {min : UInt64} {max : Option UInt64}
    (read : repetition min max text = .token token left)
    (complete : left ≠ [] ∨ token.isComplete = true) (more : Text) :
    repetition min max (text ++ more) = .token token (left ++ more) := by
  unfold repetition at read
  split at read
  · cases read
    rfl
  · next other =>
      cases read
      have filled : text ≠ [] := complete.resolve_right (by simp [Token.isComplete])
      obtain ⟨c, rest, rfl⟩ := List.exists_cons_of_ne_nil filled
      refine repetition_plain min max ?_
      rintro ⟨⟩
      exact other rest rfl

theorem braces_append (read : braces text = .token token left)
    (complete : left ≠ [] ∨ token.isComplete = true) (more : Text) :
    braces (text ++ more) = .token token (left ++ more) := by
  rcases Braces.counted_or_unread text with ⟨bounds, min, max, closed, rfl, counted⟩ |
    ⟨kind, offset, unread⟩
  · rw [braces_closed counted] at read
    rw [List.append_assoc, List.cons_append, braces_closed counted]
    exact repetition_append read complete more
  · obtain ⟨rest, ⟨refused, -⟩ | ⟨missing, -⟩⟩ := braces_of_unread unread
    · cases refused.symm.trans read
    · cases missing.symm.trans read

theorem escapeOutside_append
    (read : escapeOutside text = .token token left) (more : Text) :
    escapeOutside (text ++ more) = .token token (left ++ more) := by
  cases text with
  | nil => contradiction
  | cons c rest =>
      simp only [escapeOutside, List.cons_append] at read ⊢
      split at read
      · cases read
        rfl
      · split at read
        · contradiction
        · next noDigit =>
            cases read
            rw [if_neg noDigit]

theorem escapeInside_append
    (read : escapeInside text = .token token left) (more : Text) :
    escapeInside (text ++ more) = .token token (left ++ more) := by
  unfold escapeInside at read
  split at read
  · contradiction
  · cases read
    rfl
  · cases read
    rfl
  · cases read
    rfl
  · next c rest noFeed noCarriage noTab =>
      split at read
      · contradiction
      · next noClass =>
          cases read
          simp [escapeInside, noClass]

theorem openSet_append (read : openSet text = .token token left)
    (complete : left ≠ [] ∨ token.isComplete = true) (more : Text) :
    openSet (text ++ more) = .token token (left ++ more) := by
  unfold openSet at read
  split at read
  · cases read
    rfl
  · next other =>
      cases read
      have filled : text ≠ [] := complete.resolve_right (by simp [Token.isComplete])
      obtain ⟨c, rest, rfl⟩ := List.exists_cons_of_ne_nil filled
      have plain : c ≠ '^' := by
        rintro rfl
        exact other rest rfl
      simp [openSet, plain]

theorem group_append (read : group text = .token token left)
    (complete : left ≠ [] ∨ token.isComplete = true) (more : Text) :
    group (text ++ more) = .token token (left ++ more) := by
  unfold group at read
  split at read
  · cases read
    rfl
  · cases read
    rfl
  · cases read
    rfl
  · cases read
    rfl
  · cases read
    rfl
  · contradiction
  · next other =>
      cases read
      have filled : text ≠ [] := complete.resolve_right (by simp [Token.isComplete])
      obtain ⟨c, rest, rfl⟩ := List.exists_cons_of_ne_nil filled
      have plain : c ≠ '?' := by
        rintro rfl
        exact other rest rfl
      simp [group, plain]

theorem inside_append {c : Char}
    (read : inside c text = .token token left) (more : Text) :
    inside c (text ++ more) = .token token (left ++ more) := by
  unfold inside at read
  split at read
  · cases read
    rfl
  · cases read
    rfl
  · exact escapeInside_append read more
  · next unclosed single bare =>
      cases read
      exact inside_plain unclosed single bare _

theorem outside_append {c : Char}
    (read : outside c text = .token token left)
    (complete : left ≠ [] ∨ token.isComplete = true) (more : Text) :
    outside c (text ++ more) = .token token (left ++ more) := by
  unfold outside at read
  split at read
  · exact escapeOutside_append read more
  · cases read
    rfl
  · cases read
    rfl
  · cases read
    rfl
  · exact openSet_append read complete more
  · exact group_append read complete more
  · cases read
    rfl
  · exact repetition_append read complete more
  · exact repetition_append read complete more
  · exact repetition_append read complete more
  · exact braces_append read complete more
  · contradiction
  · cases read
    unfold outside
    split <;> first | rfl | contradiction

theorem front_append {inside : Bool} {c : Char}
    (read : front inside c text = .token token left)
    (complete : left ≠ [] ∨ token.isComplete = true) (more : Text) :
    front inside c (text ++ more) = .token token (left ++ more) := by
  cases inside with
  | true => exact inside_append read more
  | false => exact outside_append read complete more

end Lexeme

namespace Cursor

theorem tokens_of_ended {cursor : Cursor} (ended : cursor.rest = []) :
    cursor.scanAll.tokens = [] := by
  have none := length_scanAll_le cursor
  rw [ended] at none
  simpa using none

theorem scan_append {cursor after : Cursor} {token : PosToken}
    (found : cursor.scan = .token token after)
    (complete : after.rest ≠ [] ∨ token.token.isComplete = true) (more : Text) :
    scan { cursor with rest := cursor.rest ++ more } =
      .token token { after with rest := after.rest ++ more } := by
  obtain ⟨c, rest, left, split, read, place, rfl⟩ := of_scan_token found
  obtain ⟨pos, text, setStart⟩ := cursor
  obtain ⟨start, kind⟩ := token
  subst split place
  have longer := Lexeme.front_append read complete more
  -- The bytes of what was put behind count on both sides of the place.
  have place : Text.bytes (c :: (rest ++ more)) - Text.bytes (left ++ more) =
      Text.bytes (c :: rest) - Text.bytes left := by
    simp only [Text.bytes_cons, Text.bytes_append]
    omega
  simp only [scan, List.cons_append, lexeme_eq_front, longer, locate, moveTo, place]

/-- The tokens of two texts that are put together are those of the first and then, from where it
ends, those of the second. -/
theorem scanAll_append (cursor : Cursor) (more : Text) (ending : cursor.scanAll.ending = none)
    (complete : ∀ token ∈ cursor.scanAll.tokens.getLast?, token.token.isComplete = true) :
    scanAll { cursor with rest := cursor.rest ++ more } =
      let later := scanAll (atStart more (cursor.pos + Text.bytes cursor.rest))
      ⟨cursor.scanAll.tokens ++ later.tokens, later.ending⟩ := by
  induction cursor using scanAll.induct with
  | case1 cursor finished =>
      obtain ⟨nothing, outside⟩ := of_scan_finished finished
      obtain ⟨pos, rest, setStart⟩ := cursor
      subst nothing outside
      rw [scanAll_of_finished finished]
      rfl
  | case2 cursor fault after failed =>
      rw [scanAll_of_failed failed] at ending
      contradiction
  | case3 cursor token after found shorter ih =>
      rw [scanAll_of_scan found] at ending complete ⊢
      obtain ⟨-, piece, -, passes⟩ := passes_of_scan_token found
      -- The token is the last one, or there is text behind it already.
      have whole : after.rest ≠ [] ∨ token.token.isComplete = true := by
        by_cases ended : after.rest = []
        · exact .inr (complete token (by simp [tokens_of_ended ended]))
        · exact .inl ended
      have later := ih ending fun last listed =>
        complete last (by simp [List.getLast?_cons, Option.mem_def.mp listed])
      rw [scanAll_of_scan (scan_append found whole more), later, passes.stop]
      rfl

end Cursor

end RegexForge
