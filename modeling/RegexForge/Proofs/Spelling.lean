import RegexForge.Proofs.Braces
import RegexForge.Proofs.Lexing
import RegexForge.Proofs.LiteralText
import RegexForge.Proofs.ReadTree

/-!
Spellings scan back. Each spelling of the renderer, with any text behind it, is scanned as tokens
that say what was spelled, followed by the tokens of the text behind it. Escapes do this for every
character but the null byte, whose spelling reads as a reference outside a set and as three zeros
inside one. The bounds of a range are not escaped, so a set scans back only when no bound means
something at its place; `Faithful` says which.
-/

namespace RegexForge

open Lexeme

theorem special_plain {c : Char} (special : isSpecial c = true) :
    CharClass.ofEscape? c = none ∧ c.isDigit = false := by
  simp only [isSpecial, specialChars, List.contains_iff_mem, List.mem_cons, List.not_mem_nil,
    or_false] at special
  repeat
    rcases special with rfl | special
    · exact ⟨rfl, rfl⟩

theorem outside_plain {c : Char} (plain : isSpecial c = false) (rest : Text) :
    outside c rest = .token (.literal c) rest := by
  unfold outside
  split <;> first | rfl | simp [isSpecial, specialChars] at plain

theorem inside_plain {c : Char} (unclosed : c ≠ ']') (single : c ≠ '-') (bare : c ≠ '\\')
    (rest : Text) : inside c rest = .token (.literal c) rest := by
  unfold inside
  split <;> first | rfl | contradiction

theorem escapeChar_eq_cons (c : Char) :
    ∃ first others, escapeChar c = first :: others ∧ (first = '\\' ∨ isSpecial first = false) := by
  rcases escapeChar_cases c with ⟨name, -, spelled⟩ | ⟨-, spelled⟩ | ⟨plain, -, spelled⟩
  · exact ⟨'\\', name, spelled, .inl rfl⟩
  · exact ⟨'\\', [c], spelled, .inl rfl⟩
  · exact ⟨c, [], spelled, .inr plain⟩

def charToken (c : Char) : Token :=
  if c = '\n' then .charClass .newline
  else if c = '\r' then .charClass .carriageReturn
  else if c = '\t' then .charClass .tab
  else .literal c

theorem lexes_escapeChar {c : Char} (written : c ≠ '\x00') {rest : Text} {tokens : List Token}
    (later : Lexes false rest tokens) :
    Lexes false (escapeChar c ++ rest) (charToken c :: tokens) := by
  by_cases feed : c = '\n'
  · subst feed
    exact .step rfl later
  by_cases carriage : c = '\r'
  · subst carriage
    exact .step rfl later
  by_cases tab : c = '\t'
  · subst tab
    exact .step rfl later
  simp only [escapeChar, charToken, written, feed, carriage, tab, if_false]
  by_cases special : isSpecial c = true
  · rcases special_plain special with ⟨noClass, noDigit⟩
    rw [if_pos special]
    change Lexes false ('\\' :: c :: rest) _
    refine .step ?_ later
    simp [front, outside, escapeOutside, noClass, noDigit]
  · rw [if_neg special]
    exact .step (outside_plain (by simpa using special) rest) later

theorem lexes_escape {text : Text} (written : '\x00' ∉ text) {rest : Text} {tokens : List Token}
    (later : Lexes false rest tokens) :
    Lexes false (escape text ++ rest) (text.map charToken ++ tokens) := by
  induction text with
  | nil => exact later
  | cons c text ih =>
      simp only [List.mem_cons, not_or] at written
      have tail := ih written.2
      simpa [escape] using lexes_escapeChar (Ne.symm written.1) tail

/-! Inside a set. -/

theorem escapeInside_special {c : Char} (special : isSpecial c = true) (rest : Text) :
    escapeInside (c :: rest) = .token (.literal c) rest := by
  rcases special_plain special with ⟨noClass, -⟩
  -- The letters of the line controls have a meaning behind a backslash, and are not special.
  have noFeed : c ≠ 'n' := by
    rintro rfl
    contradiction
  have noCarriage : c ≠ 'r' := by
    rintro rfl
    contradiction
  have noTab : c ≠ 't' := by
    rintro rfl
    contradiction
  simp [escapeInside, noClass]

theorem lexes_escapeChar_inside {c : Char} (written : c ≠ '\x00') {rest : Text}
    {tokens : List Token} (later : Lexes true rest tokens) :
    Lexes true (escapeChar c ++ rest) (.literal c :: tokens) := by
  by_cases feed : c = '\n'
  · subst feed
    exact .step rfl later
  by_cases carriage : c = '\r'
  · subst carriage
    exact .step rfl later
  by_cases tab : c = '\t'
  · subst tab
    exact .step rfl later
  simp only [escapeChar, written, feed, carriage, tab, if_false]
  by_cases special : isSpecial c = true
  · rw [if_pos special]
    exact .step (escapeInside_special special rest) later
  · rw [if_neg special]
    refine .step (inside_plain ?_ ?_ ?_ rest) later
    · rintro rfl
      exact special rfl
    · rintro rfl
      exact special rfl
    · rintro rfl
      exact special rfl

namespace SetMember

def boundToken (bound : Char) : Token :=
  if bound = '-' then .minus else .literal bound

def tokens : SetMember → List Token
  | char c => [.literal c]
  | range low high => [boundToken low, .minus, boundToken high]

/-- A character that is escaped in a way that reads back, or bounds that neither end the set nor
escape what follows them. -/
def Faithful : SetMember → Prop
  | char c => c ≠ '\x00'
  | range low high => low ≠ ']' ∧ low ≠ '\\' ∧ high ≠ ']' ∧ high ≠ '\\'

theorem setChar?_boundToken (bound : Char) : Parse.setChar? (boundToken bound) = some bound := by
  by_cases minus : bound = '-'
  · rw [boundToken, if_pos minus, minus]
    rfl
  · rw [boundToken, if_neg minus]
    rfl

theorem lexes_bound {bound : Char} (unclosed : bound ≠ ']') (bare : bound ≠ '\\') {rest : Text}
    {tokens : List Token} (later : Lexes true rest tokens) :
    Lexes true (bound :: rest) (boundToken bound :: tokens) := by
  by_cases minus : bound = '-'
  · subst minus
    exact .step rfl later
  · rw [boundToken, if_neg minus]
    exact .step (inside_plain unclosed minus bare rest) later

theorem lexes_text {member : SetMember} (faithful : member.Faithful) {rest : Text}
    {later : List Token} (lexes : Lexes true rest later) :
    Lexes true (member.text ++ rest) (member.tokens ++ later) := by
  cases member with
  | char c => exact lexes_escapeChar_inside faithful lexes
  | range low high =>
      rcases faithful with ⟨lowOpen, lowBare, highOpen, highBare⟩
      exact lexes_bound lowOpen lowBare (.step rfl (lexes_bound highOpen highBare lexes))

end SetMember

namespace BracketSet

/-- Besides its members each by itself: a caret is not the first character after the bracket, where
it would negate the set, and a minus as a lower bound does not stand behind a character, of which it
would make a range. -/
structure Faithful (set : BracketSet) : Prop where
  members : ∀ member ∈ set.members, member.Faithful
  caret : set.negated = false → ∀ high rest, set.members ≠ .range '^' high :: rest
  minus : ∀ before c high after,
    set.members ≠ before ++ .char c :: .range '-' high :: after

theorem lexes_members {members : List SetMember} (faithful : ∀ member ∈ members, member.Faithful)
    {rest : Text} {later : List Token} (lexes : Lexes true rest later) :
    Lexes true (members.flatMap SetMember.text ++ rest)
      (members.flatMap SetMember.tokens ++ later) := by
  induction members with
  | nil => exact lexes
  | cons member members ih =>
      have tail := ih fun other listed => faithful other (.tail _ listed)
      simpa using (SetMember.lexes_text (faithful member (.head _)) tail)

def tokens (set : BracketSet) : List Token :=
  .openSet set.negated :: set.members.flatMap SetMember.tokens ++ [.closeSet]

theorem openSet_text {set : BracketSet} (faithful : set.Faithful) (filled : set.members ≠ [])
    (rest : Text) :
    openSet ((if set.negated then ['^'] else []) ++ set.members.flatMap SetMember.text ++ rest) =
      .token (.openSet set.negated) (set.members.flatMap SetMember.text ++ rest) := by
  by_cases negated : set.negated = true
  · simp [negated, openSet]
  · have plain : set.negated = false := by simpa using negated
    simp only [plain]
    cases spelled : set.members with
    | nil => exact absurd spelled filled
    | cons member members =>
        cases member with
        | char c =>
            obtain ⟨first, others, text, plain⟩ := escapeChar_eq_cons c
            have other : first ≠ '^' := by
              rintro rfl
              simp [isSpecial, specialChars] at plain
            simp [SetMember.text, text, openSet, other]
        | range low high =>
            have other : low ≠ '^' := by
              rintro rfl
              exact faithful.caret plain high members spelled
            simp [SetMember.text, openSet, other]

theorem lexes_text {set : BracketSet} (faithful : set.Faithful) (filled : set.members ≠ [])
    {rest : Text} {later : List Token} (lexes : Lexes false rest later) :
    Lexes false (set.text ++ rest) (set.tokens ++ later) := by
  have closed : Lexes true (']' :: rest) (.closeSet :: later) := .step rfl lexes
  have body := lexes_members faithful.members closed
  have opened : front false '[' ((if set.negated then ['^'] else []) ++
      set.members.flatMap SetMember.text ++ ']' :: rest) =
        .token (.openSet set.negated) (set.members.flatMap SetMember.text ++ ']' :: rest) :=
    openSet_text faithful filled (']' :: rest)
  simpa [text, tokens] using Lexes.step opened body

end BracketSet

/-! Quantifiers. Behind a repetition no question mark may follow that does not belong to it. -/

theorem writes_countText (count : UInt64) : Braces.Writes (countText count) count :=
  ⟨⟨Nat.toDigits_ne_nil, fun _ => Nat.isDigit_of_mem_toDigits (by decide) (by decide)⟩,
    Nat.ofDigitChars_ten_toDigits⟩

theorem lexes_suffix (quantifier : Quantifier) {rest : Text} {tokens : List Token}
    (apart : rest.head? ≠ some '?') (later : Lexes false rest tokens) :
    Lexes false (quantifier.suffix ++ rest) (.repetition quantifier.bounds :: tokens) := by
  cases quantifier with
  | optional => exact .step (repetition_plain 0 (some 1) apart) later
  | zeroOrMore => exact .step (repetition_plain 0 none apart) later
  | zeroOrMoreLazy => exact .step rfl later
  | oneOrMore => exact .step (repetition_plain 1 none apart) later
  | oneOrMoreLazy => exact .step rfl later
  | exactly count =>
      have read : front false '{' (countText count ++ '}' :: rest) =
          .token (.repetition (Quantifier.exactly count).bounds) rest :=
        (braces_closed (.exactly (writes_countText count)) rest).trans
          (repetition_plain count (some count) apart)
      simpa [Quantifier.suffix, Quantifier.braced] using Lexes.step read later
  | atLeast count =>
      have read : front false '{' ((countText count ++ [',']) ++ '}' :: rest) =
          .token (.repetition (Quantifier.atLeast count).bounds) rest :=
        (braces_closed (.atLeast (writes_countText count)) rest).trans
          (repetition_plain count none apart)
      simpa [Quantifier.suffix, Quantifier.braced] using Lexes.step read later
  | between low high =>
      have read : front false '{' ((countText low ++ ',' :: countText high) ++ '}' :: rest) =
          .token (.repetition (Quantifier.between low high).bounds) rest :=
        (braces_closed (.between (writes_countText low) (writes_countText high)) rest).trans
          (repetition_plain low (some high) apart)
      simpa [Quantifier.suffix, Quantifier.braced] using Lexes.step read later
  | betweenLazy low high =>
      have read : front false '{' ((countText low ++ ',' :: countText high) ++ '}' :: '?' :: rest) =
          .token (.repetition (Quantifier.betweenLazy low high).bounds) rest :=
        braces_closed (.between (writes_countText low) (writes_countText high)) ('?' :: rest)
      simpa [Quantifier.suffix, Quantifier.braced] using Lexes.step read later

/-! Trees. -/

namespace Node

mutual

def tokens : Node → List Token
  | anchor .start => [.caret]
  | anchor .stop => [.dollar]
  | charClass .anyChar => [.any]
  | charClass kind => [.charClass kind]
  | char literal | string literal => literal.raw.map charToken
  | bracketSet set => set.tokens
  | group true children => .openGroup .capture :: tokensAll children ++ [.closeGroup]
  | group false children => .openGroup .plain :: tokensAll children ++ [.closeGroup]
  | lookaround kind children =>
      .openGroup (.lookaround kind) :: tokensAll children ++ [.closeGroup]
  | quantified inner quantifier => tokens inner ++ [.repetition quantifier.bounds]
  | _ => []

def tokensAll : List Node → List Token
  | [] => []
  | node :: rest => tokens node ++ tokensAll rest

end

/-- The spelling of the node itself reads back, whatever is inside it. -/
def Faithful : Node → Prop
  | char literal | string literal => '\x00' ∉ literal.raw
  | bracketSet set => set.Faithful
  | _ => True

/-- A node that was read and is spelled faithfully. No pattern reads as the class of the null
byte. -/
def Rereads (node : Node) : Prop :=
  node.Legible ∧ node.Faithful ∧ node ≠ .charClass .nullByte

theorem needsGroup_of_isAtom {node : Node} (atom : node.isAtom = true) :
    node.needsGroup = false := by
  cases node <;> first | rfl | contradiction

theorem render_eq_cons (node : Node) (legible : Everywhere Legible [node]) :
    ∃ first others, node.render = first :: others ∧ first ≠ '?' := by
  rcases everywhere_singleton.mp legible with ⟨own, inside⟩
  cases node with
  | anchor a => cases a <;> exact ⟨_, _, rfl, by decide⟩
  | charClass kind => cases kind <;> exact ⟨_, _, rfl, by decide⟩
  | char literal =>
      obtain ⟨c, rfl⟩ := own
      obtain ⟨first, others, text, plain⟩ := escapeChar_eq_cons c
      refine ⟨first, others, by simp [render, Literal.escaped, Literal.ofChar, escape, text], ?_⟩
      rintro rfl
      simp [isSpecial, specialChars] at plain
  | string literal =>
      cases raw : literal.raw with
      | nil => simp [Legible, Literal.isMulti, raw] at own
      | cons c text =>
          obtain ⟨first, others, spelled, plain⟩ := escapeChar_eq_cons c
          refine ⟨first, others ++ escape text,
            by simp [render, Literal.escaped, escape, raw, spelled], ?_⟩
          rintro rfl
          simp [isSpecial, specialChars] at plain
  | bracketSet set => exact ⟨'[', _, rfl, by decide⟩
  | group capturing children => cases capturing <;> exact ⟨'(', _, rfl, by decide⟩
  | lookaround kind children => cases kind <;> exact ⟨'(', _, rfl, by decide⟩
  | quantified inner quantifier =>
      obtain ⟨first, others, spelled, other⟩ := render_eq_cons inner inside
      have plain := needsGroup_of_isAtom own.2
      exact ⟨first, others ++ quantifier.suffix, by simp [render, plain, spelled], other⟩
  | _ => exact own.elim

theorem renderAll_apart (nodes : List Node) (legible : Everywhere Legible nodes) {rest : Text}
    (apart : rest.head? ≠ some '?') : (renderAll nodes ++ rest).head? ≠ some '?' := by
  cases nodes with
  | nil => exact apart
  | cons node nodes =>
      rcases everywhere_cons.mp legible with ⟨own, -⟩
      obtain ⟨first, others, spelled, other⟩ := render_eq_cons node own
      simpa [spelled] using other

theorem lexes_group {text : Text} {later : List Token} (apart : text.head? ≠ some '?')
    (lexes : Lexes false text later) :
    Lexes false ('(' :: text) (.openGroup .capture :: later) := by
  have read : front false '(' text = .token (.openGroup .capture) text := by
    simp only [front, outside, Lexeme.group]
    split <;> first | rfl | simp at apart
  exact .step read lexes

theorem lexes_opener (kind : Lookaround) {text : Text} {later : List Token}
    (lexes : Lexes false text later) :
    Lexes false (kind.opener ++ text) (.openGroup (.lookaround kind) :: later) := by
  cases kind <;> exact .step rfl lexes

theorem lexes_symbol {kind : CharClass} (written : kind ≠ .nullByte) {rest : Text}
    {later : List Token} (lexes : Lexes false rest later) :
    Lexes false (kind.symbol ++ rest) (tokens (.charClass kind) ++ later) := by
  cases kind with
  | nullByte => contradiction
  | _ => exact .step rfl lexes

mutual

/-- Where a repetition ends the spelling of the node, no question mark may follow. -/
theorem lexes_render (node : Node) (rereads : Everywhere Rereads [node]) {rest : Text}
    {later : List Token} (apart : node.isAtom = true ∨ rest.head? ≠ some '?')
    (lexes : Lexes false rest later) :
    Lexes false (node.render ++ rest) (node.tokens ++ later) := by
  rcases everywhere_singleton.mp rereads with ⟨⟨legible, faithful, written⟩, inside⟩
  cases node with
  | anchor a => cases a <;> exact .step rfl lexes
  | charClass kind =>
      refine lexes_symbol ?_ lexes
      rintro rfl
      exact written rfl
  | char literal => exact lexes_escape faithful lexes
  | string literal => exact lexes_escape faithful lexes
  | bracketSet set => exact set.lexes_text faithful legible.1 lexes
  | group capturing children =>
      have closed : Lexes false (')' :: rest) (.closeGroup :: later) := .step rfl lexes
      have body := lexes_renderAll children inside (by simp) closed
      cases capturing with
      | true =>
          -- Behind the parenthesis a question mark would open another kind of group.
          have next : (renderAll children ++ ')' :: rest).head? ≠ some '?' :=
            renderAll_apart children (inside.imp fun _ reread => reread.1) (by simp)
          simpa [render, enclose, tokens] using lexes_group next body
      | false =>
          have opened : Lexes false ('(' :: '?' :: ':' :: (renderAll children ++ ')' :: rest))
              (.openGroup .plain :: (tokensAll children ++ .closeGroup :: later)) :=
            .step rfl body
          simpa [render, enclose, tokens] using opened
  | lookaround kind children =>
      have closed : Lexes false (')' :: rest) (.closeGroup :: later) := .step rfl lexes
      have body := lexes_renderAll children inside (by simp) closed
      simpa [render, enclose, tokens] using lexes_opener kind body
  | quantified inner quantifier =>
      have wide : rest.head? ≠ some '?' := by simpa [isAtom] using apart
      have repeated := lexes_suffix quantifier wide lexes
      have body := lexes_render inner inside (.inl legible.2) repeated
      simpa [render, needsGroup_of_isAtom legible.2, tokens] using body
  | _ => exact legible.elim

theorem lexes_renderAll (nodes : List Node) (rereads : Everywhere Rereads nodes) {rest : Text}
    {later : List Token} (apart : rest.head? ≠ some '?') (lexes : Lexes false rest later) :
    Lexes false (renderAll nodes ++ rest) (tokensAll nodes ++ later) := by
  cases nodes with
  | nil => exact lexes
  | cons node nodes =>
      rcases everywhere_cons.mp rereads with ⟨own, others⟩
      have tail := lexes_renderAll nodes others apart lexes
      -- The next spelling does not start with a question mark, which a repetition would take.
      have next := renderAll_apart nodes (others.imp fun _ reread => reread.1) apart
      have front := lexes_render node own (.inr next) tail
      simpa [tokensAll] using front

end

end Node

end RegexForge
