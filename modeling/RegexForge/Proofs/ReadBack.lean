import RegexForge.Proofs.Inlining
import RegexForge.Proofs.ReadTree

/-!
From a text to its tree, from the tree to a script, and from the script back to an expression. The
script of a tree that was read always exists. Replaying it can only stumble over the anchors, since
a builder takes a start of input and an end of input at most once each and in this order; otherwise
the builder ends up with an expression of the same spelling, flags and number of capture groups.
The spelling survives although sets come back as character lists, ranges or alternatives: each of
these is spelled as the set was.
-/

namespace RegexForge

open Outcome

namespace Node

theorem Legible.keepsSpelling (node : Node) (legible : node.Legible) : node.KeepsSpelling := by
  cases node with
  | char literal => exact legible
  | bracketSet set => exact legible
  | quantified inner quantifier => exact (legible.buildable).2
  | anyOf _ => exact legible.elim
  | _ => trivial

end Node

/-! Which marks a builder refuses, when none of them is a name or a reference. -/

/-- Whether these anchors may follow, given the ones declared before. -/
def anchorsFit : Bool → Bool → List Anchor → Bool
  | _, _, [] => true
  | hasStart, hasStop, .start :: rest => !hasStart && !hasStop && anchorsFit true hasStop rest
  | hasStart, hasStop, .stop :: rest => !hasStop && anchorsFit hasStart true rest

theorem anchorsFit_new_iff (anchors : List Anchor) :
    anchorsFit false false anchors = true ↔
      anchors ∈ [[], [.start], [.stop], [.start, .stop]] := by
  match anchors with
  | [] => simp [anchorsFit]
  | [.start] | [.stop] | [.start, .start] | [.start, .stop] => simp [anchorsFit]
  | .stop :: .start :: rest | .stop :: .stop :: rest => simp [anchorsFit]
  | .start :: .start :: _ :: rest => simp [anchorsFit]
  | .start :: .stop :: .start :: rest | .start :: .stop :: .stop :: rest => simp [anchorsFit]

namespace Declarations

theorem meet_anchor (declared : Declarations) (a : Anchor) :
    (∃ next, declared.meet (.anchor a) = .ok next ∧ next.flags = declared.flags ∧
      next.captures = declared.captures ∧
      ∀ rest, anchorsFit declared.hasStart declared.hasStop (a :: rest) =
        anchorsFit next.hasStart next.hasStop rest) ∨
    (∃ conflict, declared.meet (.anchor a) = .error (.duplicateAnchor conflict) ∧
      ∀ rest, anchorsFit declared.hasStart declared.hasStop (a :: rest) = false) := by
  cases a with
  | start =>
      cases started : declared.hasStart with
      | true => exact .inr ⟨.start, by simp [meet, declareStart, started], by simp [anchorsFit]⟩
      | false =>
          cases stopped : declared.hasStop with
          | true =>
              exact .inr ⟨.startAfterStop, by simp [meet, declareStart, started, stopped],
                by simp [anchorsFit]⟩
          | false =>
              exact .inl ⟨{ declared with hasStart := true },
                by simp [meet, declareStart, started, stopped], rfl, rfl,
                by simp [anchorsFit, stopped]⟩
  | stop =>
      cases stopped : declared.hasStop with
      | true => exact .inr ⟨.stop, by simp [meet, declareStop, stopped], by simp [anchorsFit]⟩
      | false =>
          exact .inl ⟨{ declared with hasStop := true }, by simp [meet, declareStop, stopped],
            rfl, rfl, by simp [anchorsFit]⟩

theorem meetAll_plain (marks : List Mark) (declared : Declarations)
    (plain : ∀ mark ∈ marks, (∃ a, mark = .anchor a) ∨ mark = .capture none) :
    (anchorsFit declared.hasStart declared.hasStop (Mark.anchors marks) = true ∧
      ∃ after, declared.meetAll marks = .ok after ∧ after.flags = declared.flags ∧
        after.captures = declared.captures + Mark.captureCount marks) ∨
    (anchorsFit declared.hasStart declared.hasStop (Mark.anchors marks) = false ∧
      ∃ conflict, declared.meetAll marks = .error (.duplicateAnchor conflict)) := by
  -- For any declarations, as an anchor changes what the marks behind it are met with.
  induction marks generalizing declared with
  | nil => exact .inl ⟨rfl, declared, rfl, rfl, rfl⟩
  | cons mark rest ih =>
      obtain ⟨here, later⟩ := List.forall_mem_cons.mp plain
      rw [meetAll_cons]
      rcases here with ⟨a, rfl⟩ | rfl
      · have anchored : Mark.anchors (.anchor a :: rest) = a :: Mark.anchors rest := rfl
        have counted : Mark.captureCount (.anchor a :: rest) = Mark.captureCount rest := by
          simp [Mark.captureCount, Mark.isCapture]
        rw [anchored, counted]
        rcases declared.meet_anchor a with ⟨next, met, flags, captures, fits⟩ |
          ⟨conflict, refused, unfit⟩
        · rw [fits, met, ← flags, ← captures]
          exact ih next later
        · exact .inr ⟨unfit _, conflict, by rw [refused]; rfl⟩
      · have anchored : Mark.anchors (.capture none :: rest) = Mark.anchors rest := rfl
        have counted : Mark.captureCount (.capture none :: rest) = Mark.captureCount rest + 1 :=
          List.countP_cons_of_pos rfl
        have met : declared.meet (.capture none) = .ok declared.addCapture := rfl
        rw [anchored, counted, met]
        simpa [addCapture, Nat.add_assoc, Nat.add_comm 1] using ih declared.addCapture later

end Declarations

/-! The flags come first in a script. -/

theorem contains_foldl_insert (list : List Flag) (flags : Flags) (flag : Flag) :
    (list.foldl Flags.insert flags).contains flag = (flags.contains flag || decide (flag ∈ list)) := by
  induction list generalizing flags with
  | nil => simp
  | cons added rest ih =>
      rw [List.foldl_cons, ih, Flags.contains_insert]
      by_cases same : flag = added <;> simp [same]

theorem ofList_toList (flags : Flags) : flags.toList.foldl Flags.insert .empty = flags := by
  apply Flags.ext_contains
  intro flag
  simp [contains_foldl_insert]

namespace Script

def flagLines (list : List Flag) : Script :=
  list.map fun flag => ⟨0, none, .flag flag⟩

theorem continueOn_flagLines (list : List Flag) (builder : Builder) :
    continueOn builder (flagLines list) =
      .ok { builder with declared :=
        { builder.declared with flags := list.foldl Flags.insert builder.declared.flags } } := by
  induction list generalizing builder with
  | nil => rfl
  | cons flag rest ih =>
      rw [flagLines, List.map_cons, continueOn_cons]
      exact ih (builder.flag flag)

theorem replay_eq {body : Script} {marks : List Mark} {elements : List Node}
    (appends : Appends body marks elements) (flags : Flags) :
    (flagLines flags.toList ++ body).replay = do
      let declared ← Declarations.meetAll { flags := flags } marks
      return Builder.new.extend declared elements := by
  change continueOn Builder.new (flagLines flags.toList ++ body) = _
  rw [continueOn_append, continueOn_flagLines, ok_bind, appends _ rfl]
  change (Declarations.meetAll { flags := flags.toList.foldl Flags.insert .empty } marks >>= _) = _
  rw [ofList_toList]
  rfl

end Script

theorem Builder.render_of_isClosed {builder : Builder} (closed : builder.isClosed = true) :
    builder.render =
      .ok (slashed (Node.renderAll builder.current.elements) builder.declared.flags) := by
  rw [render, regex, if_pos closed]
  rfl

/-- The script of a tree that calls can build exists. It sets the flags, and then fails on the first
mark that is refused or builds the tree in the forms that calls hand over. -/
theorem Regex.script_replays {nodes : List Node} (buildable : Node.Everywhere Node.Buildable nodes)
    (flags : Flags) (captures : Nat) :
    ∃ script, Regex.script ⟨nodes, flags, captures⟩ = .ok script ∧ script.replay = do
      let declared ← Declarations.meetAll { flags := flags } (Node.marks nodes)
      return Builder.new.extend declared (Node.rebuiltAll nodes) := by
  obtain ⟨body, made, appends⟩ := Node.scriptAll_appends nodes buildable 0
  refine ⟨Script.flagLines flags.toList ++ body, ?_, Script.replay_eq appends flags⟩
  rw [Regex.script, made]
  rfl

theorem Regex.replay_of_reads {tokens : List Token} {nodes : List Node}
    (reads : Grammar.Reads tokens nodes) (flags : Flags) (captures : Nat) :
    ∃ script, Regex.script ⟨nodes, flags, captures⟩ = .ok script ∧
      ((anchorsFit false false (Mark.anchors (Node.marks nodes)) = true ∧
          ∃ builder, script.replay = .ok builder ∧ builder.isClosed = true ∧
            builder.render = .ok (slashed (Node.renderAll nodes) flags) ∧
            builder.declared.flags = flags ∧
            builder.declared.captures = Mark.captureCount (Node.marks nodes)) ∨
        (anchorsFit false false (Mark.anchors (Node.marks nodes)) = false ∧
          ∃ conflict, script.replay = .error (.duplicateAnchor conflict))) := by
  have legible := Node.reads_legible reads
  obtain ⟨script, made, replayed⟩ := Regex.script_replays
    (legible.imp Node.Legible.buildable) flags captures
  refine ⟨script, made, ?_⟩
  -- The flags are declared and the body appends the tree, if its marks are met.
  rcases Declarations.meetAll_plain (Node.marks nodes) { flags := flags }
    (Node.marks_of_legible legible) with
    ⟨fits, declared, met, kept, groups⟩ | ⟨unfit, conflict, refused⟩
  · rw [met] at replayed
    have spelled := Node.renderAll_rebuiltAll (legible.imp Node.Legible.keepsSpelling)
    refine .inl ⟨fits, _, replayed, rfl, ?_, kept, groups.trans (Nat.zero_add _)⟩
    rw [Builder.render_of_isClosed rfl, ← spelled]
    exact congrArg (fun flags => Except.ok (slashed (Node.renderAll (Node.rebuiltAll nodes)) flags))
      kept
  · rw [refused] at replayed
    exact .inr ⟨unfit, conflict, replayed⟩

/-- Reading, lowering and replaying agree: the script of an expression that was read replays exactly
when its anchors are at most a start of input and then an end of input, it is refused for nothing
else, and what it builds is finished and has the spelling, the flags and the capture groups that
were read. -/
theorem replay_of_read (text : Text) (regex : Regex) (read : Regex.ofText text = .ok regex) :
    ∃ script, regex.script = .ok script ∧
      ((∃ builder, script.replay = .ok builder) ↔
        Mark.anchors (Node.marks regex.nodes) ∈ [[], [.start], [.stop], [.start, .stop]]) ∧
      (∀ refusal, script.replay = .error refusal →
        ∃ conflict, refusal = .duplicateAnchor conflict) ∧
      (∀ builder, script.replay = .ok builder →
        builder.isClosed = true ∧ builder.render = .ok regex.render ∧
          builder.declared.flags = regex.flags ∧ builder.declared.captures = regex.captures) := by
  obtain ⟨parts, -, read⟩ := bind_eq_ok_iff.mp read
  obtain ⟨-, reads, -, captures⟩ := Grammar.regex_eq_ok_iff.mp (mapError_eq_ok_iff.mp read)
  have counted := captures.trans (Node.opened_of_reads reads)
  obtain ⟨script, made, outcome⟩ := Regex.replay_of_reads reads regex.flags regex.captures
  refine ⟨script, made, ?_⟩
  rw [← anchorsFit_new_iff]
  rcases outcome with ⟨fits, built, replayed, closed, spelled, flags, groups⟩ |
    ⟨unfit, conflict, replayed⟩
  · rw [replayed]
    refine ⟨⟨fun _ => fits, fun _ => ⟨_, rfl⟩⟩, by simp, ?_⟩
    rintro builder ⟨⟩
    exact ⟨closed, spelled, flags, groups.trans counted.symm⟩
  · rw [replayed]
    refine ⟨⟨?_, ?_⟩, ?_, by simp⟩
    · rintro ⟨builder, ⟨⟩⟩
    · intro fits
      exact absurd (unfit.symm.trans fits) (by simp)
    · rintro refusal ⟨⟩
      exact ⟨conflict, rfl⟩

theorem replay_of_read_mixed_set :
    ∃ regex script builder, Regex.ofText "/([b-d0]+)$/g".toList = .ok regex ∧
      regex.script = .ok script ∧ script.replay = .ok builder ∧
      builder.render = .ok "/([b-d0]+)$/g".toList := by
  have parted : Enclosed.ofText "/([b-d0]+)$/g".toList =
      .ok ⟨'/', "([b-d0]+)$".toList, Flags.ofList [.global]⟩ := by rfl
  have scanned : (Cursor.atStart "([b-d0]+)$".toList 1).scanAll =
      ⟨[⟨1, .openGroup .capture⟩, ⟨2, .openSet false⟩, ⟨3, .literal 'b'⟩, ⟨4, .minus⟩,
        ⟨5, .literal 'd'⟩, ⟨6, .literal '0'⟩, ⟨7, .closeSet⟩, ⟨8, .repetition ⟨1, none, false⟩⟩,
        ⟨9, .closeGroup⟩, ⟨10, .dollar⟩], none⟩ := by decide +kernel
  have read : Regex.ofText "/([b-d0]+)$/g".toList = .ok ⟨[.group true
      [.quantified (.bracketSet ⟨[.range 'b' 'd', .char '0'], false⟩) .oneOrMore],
      .anchor .stop], Flags.ofList [.global], 1⟩ := by
    simp only [Regex.ofText, parted, mapError_ok, ok_bind]
    change Except.mapError _ (Parse.regex (Cursor.atStart "([b-d0]+)$".toList 1).scanAll _) = _
    rw [scanned]
    rfl
  obtain ⟨script, made, replays, -, agrees⟩ := replay_of_read _ _ read
  obtain ⟨builder, replayed⟩ := replays.mpr (by decide)
  obtain ⟨-, rendered, -, -⟩ := agrees builder replayed
  exact ⟨_, script, builder, read, made, replayed, rendered.trans (by decide +kernel)⟩

end RegexForge
