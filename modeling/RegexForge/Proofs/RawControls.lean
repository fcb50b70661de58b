import RegexForge.Proofs.LiteralText
import RegexForge.Proofs.RangeBounds
import RegexForge.Proofs.ReadBack
import RegexForge.Proofs.References
import RegexForge.Proofs.SelfDelimiting

/-!
Controls that a rendered text holds raw. Literals are escaped character by character, and what the
renderer adds by itself, between them and around them, holds neither a null byte nor a line control;
nor does the name of a group. The bounds of a range are the one thing that is written as it is,
although a character of a set is escaped. So the rendering holds a control exactly as often as some
range has it for a bound: by induction over the tree, where an alternation moves the bounds of its
members but loses none.
-/

namespace RegexForge

open Outcome

/-- The text holds no control raw. -/
def Text.Clean (text : Text) : Prop :=
  ∀ c ∈ text, c ∉ controls

instance (text : Text) : Decidable text.Clean :=
  List.decidableBAll (· ∉ controls) text

namespace Text

@[simp] theorem clean_nil : Clean [] := by
  simp [Clean]

@[simp] theorem clean_cons {c : Char} {rest : Text} :
    Clean (c :: rest) ↔ c ∉ controls ∧ rest.Clean :=
  List.forall_mem_cons

@[simp] theorem clean_append {first second : Text} :
    Clean (first ++ second) ↔ first.Clean ∧ second.Clean :=
  List.forall_mem_append

theorem clean_flatMap {α : Type} {write : α → Text} {list : List α}
    (each : ∀ x ∈ list, (write x).Clean) : Clean (list.flatMap write) := by
  intro c listed
  obtain ⟨x, member, written⟩ := List.mem_flatMap.mp listed
  exact each x member c written

theorem Clean.count {text : Text} {c : Char} (clean : text.Clean) (control : c ∈ controls) :
    text.count c = 0 :=
  List.count_eq_zero.mpr fun listed => clean c listed control

theorem count_cons_of_notMem {c x : Char} (control : c ∈ controls) (plain : x ∉ controls)
    (rest : Text) : (x :: rest).count c = rest.count c := by
  refine List.count_cons_of_ne ?_
  rintro rfl
  exact plain control

end Text

/-! What is written without a control. -/

theorem clean_escapeChar (c : Char) : (escapeChar c).Clean := by
  rcases escapeChar_cases c with ⟨name, listed, spelled⟩ | ⟨special, spelled⟩ | ⟨-, plain, spelled⟩
  · have names : ∀ entry ∈ escapeNames, Text.Clean ('\\' :: entry.2) := by
      simp [escapeNames, controls]
    rw [spelled]
    exact names _ listed
  · have marked : ∀ x ∈ specialChars, Text.Clean ['\\', x] := by
      simp [specialChars, controls]
    rw [spelled]
    exact marked c (by simpa [isSpecial] using special)
  · simp [spelled, plain]

theorem clean_escape (text : Text) : (escape text).Clean :=
  Text.clean_flatMap fun c _ => clean_escapeChar c

theorem clean_decimal (n : Nat) : Text.Clean (Nat.toDigits 10 n) := by
  have noDigit : ∀ c ∈ controls, c.isDigit = false := by simp [controls]
  exact fun c listed control => notMem_decimal (noDigit c control) n listed

theorem clean_groupName {name : Text} (valid : isGroupName name = true) : name.Clean := by
  have foreign : ∀ c ∈ controls, c.isAlpha = false ∧ c.isAlphanum = false ∧ c ≠ '_' := by
    simp [controls]
  obtain ⟨first, rest, rfl, letter, word⟩ := isGroupName_iff.mp valid
  refine Text.clean_cons.mpr ⟨fun control => ?_, fun c listed control => ?_⟩
  · exact absurd letter (by simp [foreign first control])
  · obtain ⟨-, noWord, noLine⟩ := foreign c control
    rcases word c listed with wide | same
    · exact absurd wide (by simp [noWord])
    · exact noLine same

theorem CharClass.clean_symbol (kind : CharClass) : kind.symbol.Clean := by
  cases kind <;> decide

theorem Lookaround.clean_opener (kind : Lookaround) : kind.opener.Clean := by
  cases kind <;> decide

theorem Quantifier.clean_suffix (quantifier : Quantifier) : quantifier.suffix.Clean := by
  have count (n : UInt64) : (countText n).Clean := clean_decimal _
  cases quantifier with
  | exactly _ | atLeast _ | between _ _ | betweenLazy _ _ =>
      simp [suffix, braced, count, controls]
  | _ => decide

theorem Flags.clean_text (flags : Flags) : flags.text.Clean := by
  intro c listed
  obtain ⟨flag, -, rfl⟩ := List.mem_map.mp listed
  cases flag <;> decide

namespace Node

def name : Node → Text
  | namedGroup name _ | namedBackreference name => name
  | _ => []

/-! Counting a control in the pieces of a rendering. -/

section Count

variable {c : Char} (control : c ∈ controls)

include control

theorem count_enclose {opener : Text} (clean : opener.Clean) (body : Text) :
    (enclose opener body).count c = body.count c := by
  have closing : Text.Clean [')'] := by decide
  simp only [enclose, List.count_append, clean.count control, closing.count control,
    Nat.zero_add, Nat.add_zero]

theorem count_bracket (body : Text) : (bracket body).count c = body.count c := by
  have closing : Text.Clean [']'] := by decide
  rw [bracket, List.cons_append, Text.count_cons_of_notMem control (by decide), List.count_append,
    closing.count control, Nat.add_zero]

theorem count_range (low high : Char) :
    List.count c [low, '-', high] = List.count c [low, high] := by
  rw [List.count_cons, Text.count_cons_of_notMem control (by decide), ← List.count_cons]

theorem count_intercalate (texts : List Text) :
    (List.intercalate ['|'] texts).count c = texts.flatten.count c := by
  cases texts with
  | nil => rfl
  | cons first others =>
      rw [Text.intercalate_eq_flatMap, List.flatten_cons, List.count_append, List.count_append]
      congr 1
      induction others with
      | nil => rfl
      | cons second others ih =>
          rw [List.flatMap_cons, List.cons_append, Text.count_cons_of_notMem control (by decide),
            List.count_append, ih, List.flatten_cons, List.count_append]

theorem count_alternation (members : Text) (alternatives : List Text) :
    (alternation members alternatives).count c =
      members.count c + alternatives.flatten.count c := by
  cases alternatives with
  | nil => simpa [alternation] using count_bracket control members
  | cons first others =>
      rw [alternation, count_enclose control (by decide), count_intercalate control]
      split
      · next none => simp [none]
      · rw [List.flatten_append, List.count_append, List.flatten_singleton,
          count_bracket control, Nat.add_comm]

theorem count_members (members : List SetMember) :
    (members.flatMap SetMember.text).count c = (members.flatMap SetMember.bounds).count c := by
  induction members with
  | nil => rfl
  | cons member members ih =>
      rw [List.flatMap_cons, List.flatMap_cons, List.count_append, List.count_append, ih]
      cases member with
      | char d =>
          rw [SetMember.text, (clean_escapeChar d).count control]
          rfl
      | range low high => rw [SetMember.text, SetMember.bounds, count_range control]

theorem count_set (set : BracketSet) :
    set.text.count c = (set.members.flatMap SetMember.bounds).count c := by
  have mark : Text.Clean (if set.negated then ['^'] else []) := by
    cases set.negated <;> decide
  have closing : Text.Clean [']'] := by decide
  rw [BracketSet.text, List.cons_append, List.cons_append,
    Text.count_cons_of_notMem control (by decide), List.count_append, List.count_append,
    mark.count control, closing.count control, count_members control, Nat.zero_add, Nat.add_zero]

/-- What a node puts into the bracket of an alternation holds its bounds as they are. -/
theorem count_member {node : Node} {text : Text} (member : node.member? = some text) :
    text.count c = (boundsAll [node]).count c := by
  cases node with
  | char _ | anyOfChars _ =>
      cases member
      exact (clean_escape _).count control
  | range low high =>
      cases member
      exact count_range control low high
  | _ => contradiction

theorem count_native {node : Node} (native : node.isNative = true) (named : node.name.Clean) :
    (render node).count c = (boundsAll [node]).count c := by
  rw [boundsAll_singleton, children_of_isNative native, boundsAll_nil, List.append_nil]
  cases node with
  | noop | bracketSet _ | group _ _ | namedGroup _ _ | lookaround _ _ | anyOf _
  | subexpression _ | quantified _ _ => contradiction
  | anchor a => cases a <;> exact Text.Clean.count (by decide) control
  | charClass kind => exact kind.clean_symbol.count control
  | char literal | string literal => exact (clean_escape literal.raw).count control
  | range low high =>
      rw [render, count_bracket control]
      exact count_range control low high
  | anythingButRange low high =>
      rw [render, count_bracket control, Text.count_cons_of_notMem control (by decide)]
      exact count_range control low high
  | anyOfChars literal =>
      rw [render, count_bracket control]
      exact (clean_escape literal.raw).count control
  | anythingButChars literal =>
      rw [render, count_bracket control, Text.count_cons_of_notMem control (by decide)]
      exact (clean_escape literal.raw).count control
  | anythingButString literals =>
      have each (literal : Literal) : Text.Clean (bracket ('^' :: literal.escaped)) := by
        simp [bracket, controls, Literal.escaped, clean_escape]
      rw [render, count_enclose control (by decide)]
      exact (Text.clean_flatMap fun literal _ => each literal).count control
  | backreference index =>
      rw [render, Text.count_cons_of_notMem control (by decide)]
      exact (clean_decimal index).count control
  | namedBackreference name =>
      have written : Text.Clean (['\\', 'k', '<'] ++ name ++ ['>']) := by
        have valid : name.Clean := named
        simp [controls, valid]
      exact written.count control

theorem count_quantified (inner : Node) (quantifier : Quantifier) :
    (render (quantified inner quantifier)).count c = (render inner).count c := by
  have repeated : (if inner.needsGroup then enclose ['(', '?', ':'] (render inner)
      else render inner).count c = (render inner).count c := by
    split
    · exact count_enclose control (by decide) _
    · rfl
  rw [render, List.count_append, repeated, quantifier.clean_suffix.count control, Nat.add_zero]

end Count

mutual

theorem count_render {c : Char} (control : c ∈ controls) (node : Node)
    (clean : Everywhere (fun inner => inner.name.Clean) [node]) :
    (render node).count c = (boundsAll [node]).count c := by
  obtain ⟨named, inside⟩ := everywhere_singleton.mp clean
  rw [boundsAll_singleton]
  cases node with
  | noop => rfl
  | char literal => exact (clean_escape literal.raw).count control
  | bracketSet set => simpa [render, bounds, children] using count_set control set
  | group capturing children =>
      cases capturing <;> exact (count_enclose control (by decide) _).trans
        (count_renderAll control children inside)
  | namedGroup name children =>
      have opener : Text.Clean (['(', '?', '<'] ++ name ++ ['>']) := by
        have valid : name.Clean := named
        simp [controls, valid]
      exact (count_enclose control opener _).trans (count_renderAll control children inside)
  | lookaround kind children =>
      exact (count_enclose control kind.clean_opener _).trans
        (count_renderAll control children inside)
  | anyOf children =>
      exact (count_alternation control _ _).trans
        (count_renderAlternatives control children inside)
  | subexpression children => exact count_renderAll control children inside
  | quantified inner quantifier =>
      rw [count_quantified control]
      exact count_render control inner inside
  | _ =>
      rw [← boundsAll_singleton]
      exact count_native control rfl named

theorem count_renderAll {c : Char} (control : c ∈ controls) (nodes : List Node)
    (clean : Everywhere (fun inner => inner.name.Clean) nodes) :
    (renderAll nodes).count c = (boundsAll nodes).count c := by
  cases nodes with
  | nil => rfl
  | cons node rest =>
      obtain ⟨here, later⟩ := everywhere_cons.mp clean
      rw [renderAll_cons, List.count_append, boundsAll_cons, List.count_append,
        count_render control node here, count_renderAll control rest later]

theorem count_renderAlternatives {c : Char} (control : c ∈ controls) (nodes : List Node)
    (clean : Everywhere (fun inner => inner.name.Clean) nodes) :
    (memberText nodes).count c + (renderAlternatives nodes).flatten.count c =
      (boundsAll nodes).count c := by
  cases nodes with
  | nil => rfl
  | cons node rest =>
      obtain ⟨here, later⟩ := everywhere_cons.mp clean
      rw [boundsAll_cons, List.count_append, ← count_renderAlternatives control rest later]
      cases member : member? node with
      | none =>
          rw [← count_render control node here]
          simp [memberText, renderAlternatives, member]
          omega
      | some text =>
          rw [← count_member control member]
          simp [memberText, renderAlternatives, member, Nat.add_assoc]

end

theorem Legible.clean_name {node : Node} (legible : node.Legible) : node.name.Clean := by
  cases node with
  | namedGroup _ _ | namedBackreference _ => exact legible.elim
  | _ => exact Text.clean_nil

end Node

open Node

theorem count_slashed {c : Char} (control : c ∈ controls) (pattern : Text) (flags : Flags) :
    (slashed pattern flags).count c = pattern.count c := by
  rw [slashed, List.cons_append, Text.count_cons_of_notMem control (by decide), List.count_append,
    Text.count_cons_of_notMem control (by decide), flags.clean_text.count control, Nat.add_zero]

theorem Regex.legible_of_read {text : Text} {regex : Regex}
    (read : Regex.ofText text = .ok regex ∨ Regex.ofPattern text = .ok regex) :
    Everywhere Legible regex.nodes := by
  rcases read with enclosed | bare
  · obtain ⟨parts, -, accepted⟩ := bind_eq_ok_iff.mp enclosed
    obtain ⟨-, reads, -⟩ := Grammar.regex_eq_ok_iff.mp (mapError_eq_ok_iff.mp accepted)
    exact reads_legible reads
  · obtain ⟨-, reads, -⟩ := Grammar.regex_eq_ok_iff.mp (mapError_eq_ok_iff.mp bare)
    exact reads_legible reads

theorem Builder.clean_names {builder : Builder} (reachable : builder.Reachable)
    (closed : builder.isClosed = true) :
    Everywhere (fun node => node.name.Clean) builder.current.elements := by
  have links := links_of_reachable reachable
  have valid := Mark.groupNames_valid links.fresh
  have met {node : Node} {mark : Mark} (member : node ∈ preorderAll builder.current.elements)
      (marked : node.mark? = some mark) : mark ∈ builder.marks := by
    rw [marks_of_closed reachable closed]
    exact List.mem_filterMap.mpr ⟨node, member, marked⟩
  intro node member
  cases node with
  | namedGroup name children =>
      have declared : name ∈ Mark.groupNames builder.marks :=
        List.mem_filterMap.mpr ⟨_, met member rfl, rfl⟩
      exact clean_groupName (valid name declared)
  | namedBackreference name =>
      obtain ⟨before, after, split, known⟩ := links.resolves.of_mem (met member rfl)
      have declared : name ∈ Mark.groupNames builder.marks := by
        rw [split, Mark.groupNames_append]
        exact List.mem_append_left _ known
      exact clean_groupName (valid name declared)
  | _ => exact Text.clean_nil

/-- A pattern that asks for a range between two line controls by name, and a builder that asks for
the same range. Both are rendered with the tab and the carriage return raw. -/
theorem raw_range_bounds :
    (∃ regex, Regex.ofText "/[\\t-\\r]/".toList = .ok regex ∧
      regex.render = ['/', '[', '\t', '-', '\r', ']', '/'] ∧ ¬ regex.render.Clean) ∧
    ∃ builder : Builder, builder.Reachable ∧ ∃ rendered, builder.render = .ok rendered ∧
      rendered = ['/', '[', '\t', '-', '\r', ']', '/'] ∧ ¬ rendered.Clean := by
  constructor
  · have read : Regex.ofText "/[\\t-\\r]/".toList =
        .ok ⟨[.bracketSet ⟨[.range '\t' '\r'], false⟩], .empty, 0⟩ := by decide +kernel
    exact ⟨_, read, by decide, by decide⟩
  · exact ⟨_, .call (.range ['\t'] ['\r']) .new rfl, _, rfl, by decide, by decide⟩

/-- A rendered text holds a null byte or a line control exactly as often as it is the bound of a
range: of one in the tree that was read, or of one that was asked for on the way to the builder,
counted again for each merge. Wherever else such a character was asked for, it is escaped. -/
theorem count_control_render (text : Text) (builder : Builder) (c : Char)
    (control : c ∈ controls) :
    (∀ regex, Regex.ofText text = .ok regex ∨ Regex.ofPattern text = .ok regex →
      regex.render.count c = (boundsAll regex.nodes).count c) ∧
    (builder.Reachable → builder.isClosed = true →
      ∃ rendered, builder.render = .ok rendered ∧ (∃ bounds, builder.RangesAsked bounds) ∧
        ∀ bounds, builder.RangesAsked bounds → rendered.count c = bounds.count c) := by
  constructor
  · intro regex read
    have clean := (Regex.legible_of_read read).imp fun _ => Legible.clean_name
    rw [Regex.render, count_slashed control, count_renderAll control _ clean]
  · intro reachable closed
    refine ⟨_, Builder.render_of_isClosed closed, ⟨_, reachable.rangesAsked⟩, ?_⟩
    intro bounds asked
    rw [count_slashed control, count_renderAll control _ (Builder.clean_names reachable closed),
      asked.eq_bounds, Builder.bounds_of_isClosed closed]

/-- Of the line feeds that are asked for, those outside a range are escaped; the one that bounds a
range is raw, twice if the range is merged twice. -/
theorem count_control_render_merged :
    (∃ regex, Regex.ofText "/\\n[\\n\\n-z]/".toList = .ok regex ∧
      regex.render.count '\n' = 1) ∧
    ∃ builder : Builder, builder.Reachable ∧ ∃ rendered, builder.render = .ok rendered ∧
      rendered = "/[\\n\n-z][\\n\n-z]/".toList ∧ rendered.count '\n' = 2 := by
  have read : Regex.ofText "/\\n[\\n\\n-z]/".toList = .ok ⟨[.charClass .newline,
      .bracketSet ⟨[.char '\n', .range '\n' 'z'], false⟩], .empty, 0⟩ := by decide +kernel
  have inside := Builder.Reachable.call (.char ['\n']) (.call .anyOf .new rfl) rfl
  have closed := Builder.Reachable.call .close (.call (.range ['\n'] ['z']) inside rfl) rfl
  have merged := Builder.Reachable.merge {} (.merge {} .new closed rfl) closed rfl
  obtain ⟨ofReading, ofBuilding⟩ :=
    count_control_render "/\\n[\\n\\n-z]/".toList _ '\n' (by decide)
  obtain ⟨rendered, written, -, counted⟩ := ofBuilding merged rfl
  refine ⟨⟨_, read, ofReading _ (.inl read)⟩, _, merged, rendered, written, ?_,
    counted _ merged.rangesAsked⟩
  cases written
  decide

end RegexForge
