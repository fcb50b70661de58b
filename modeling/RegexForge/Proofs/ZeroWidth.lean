import RegexForge.Proofs.BuiltNodes
import RegexForge.Proofs.Derivation
import RegexForge.Proofs.TreeShape

/-!
Quantifiers and elements that match no input. Anchors, lookarounds and the two word boundaries say
where a match may stand and take nothing from the input. That anchors and lookarounds are never
repeated is checked twice: a pattern refuses a quantifier behind them, and a frame keeps or drops
the quantifier that waits. The word boundaries are classes, and neither check looks into a class, so
they are repeated like the classes that match a character. Nothing else goes wrong: what is repeated
has something to repeat exactly when no quantifier stands behind a boundary in the pattern, or when
no boundary was pushed in a builder while a quantifier waited.
-/

namespace RegexForge

open Grammar Parse Outcome Node

def CharClass.isBoundary : CharClass → Bool
  | wordBoundary | nonWordBoundary => true
  | _ => false

namespace Node

/-- Whether the element says only where a match may stand. -/
def matchesNothing : Node → Bool
  | anchor _ | lookaround _ _ => true
  | charClass kind => kind.isBoundary
  | _ => false

def RepeatsInput : Node → Prop
  | quantified inner _ => inner.matchesNothing = false
  | _ => True

def RepeatsBoundary (node : Node) : Prop :=
  ∃ kind quantifier, kind.isBoundary = true ∧ node = .quantified (.charClass kind) quantifier

theorem Buildable.repeats {node : Node} (buildable : node.Buildable) :
    node.RepeatsInput ∨ node.RepeatsBoundary := by
  cases node with
  | quantified inner quantifier =>
      obtain ⟨-, takes⟩ := buildable
      cases inner with
      | charClass kind =>
          cases boundary : kind.isBoundary with
          | false => exact .inl boundary
          | true => exact .inr ⟨kind, quantifier, boundary, rfl⟩
      | noop | anchor _ | lookaround _ _ | quantified _ _ => contradiction
      | _ => exact .inl rfl
  | _ => exact .inl trivial

end Node

/-! Patterns. -/

/-- The quantifiers spare the word boundaries: none stands directly behind one. -/
def Grammar.Spares (tokens : List Token) : Prop :=
  tokens.IsChain fun first second =>
    ∀ kind bounds, first = .charClass kind → second = .repetition bounds → kind.isBoundary = false

namespace Grammar

theorem spares_append {first second : List Token}
    (begins : ∀ bounds, second.head? ≠ some (.repetition bounds)) :
    Spares (first ++ second) ↔ Spares first ∧ Spares second := by
  refine List.isChain_append.trans ⟨fun ⟨before, behind, _⟩ => ⟨before, behind⟩, ?_⟩
  rintro ⟨before, behind⟩
  refine ⟨before, behind, ?_⟩
  rintro last - next starts kind bounds - rfl
  exact absurd starts (begins bounds)

theorem spares_repetition {front : List Token} {last : Token} {bounds : Bounds} :
    Spares (front ++ [last] ++ [.repetition bounds]) ↔
      Spares (front ++ [last]) ∧ ∀ kind, last = .charClass kind → kind.isBoundary = false := by
  rw [Spares, List.isChain_append]
  simp [Spares]

theorem spares_of_notMem {tokens : List Token} (none : ∀ bounds, .repetition bounds ∉ tokens) :
    Spares tokens := by
  induction tokens with
  | nil => exact List.isChain_nil
  | cons token rest ih =>
      refine List.isChain_cons.mpr ⟨?_, ih fun bounds later => none bounds (.tail _ later)⟩
      rintro next follows kind bounds - rfl
      exact absurd (.tail _ (List.mem_of_mem_head? follows)) (none bounds)

theorem repetition_notMem_of_leaf {tokens : List Token} {item : Node} (leaf : Leaf tokens item)
    (bounds : Bounds) : .repetition bounds ∉ tokens := by
  cases leaf with
  | bracketSet members _ =>
      intro listed
      have inside := (List.mem_append.mp (List.mem_of_ne_of_mem (by simp) listed)).resolve_right
        (by simp)
      obtain ⟨c, stands⟩ := setChar?_of_members members _ inside
      contradiction
  | _ => simp

/-- What the tokens of an item tell about it: what is inside, and at their end whether it is a
boundary. -/
structure Shows (tokens : List Token) (item : Node) : Prop where
  inside : Spares tokens ↔ Everywhere RepeatsInput [item]
  ends : ∃ front last, tokens = front ++ [last] ∧ (item.isZeroWidth = false →
    ((∀ kind, last = .charClass kind → kind.isBoundary = false) ↔ item.matchesNothing = false))

theorem shows_of_leaf {tokens : List Token} {item : Node} (leaf : Leaf tokens item) :
    Shows tokens item := by
  constructor
  · refine iff_of_true (spares_of_notMem (repetition_notMem_of_leaf leaf)) ?_
    cases leaf <;> exact everywhere_singleton.mpr ⟨trivial, everywhere_nil _⟩
  · cases leaf with
    | bracketSet members _ => exact ⟨_, .closeSet, rfl, by simp [matchesNothing]⟩
    | charClass kind => exact ⟨[], _, rfl, by simp [matchesNothing]⟩
    | _ => exact ⟨[], _, rfl, by simp [matchesNothing, isZeroWidth, CharClass.isBoundary]⟩

theorem shows_of_group {body : List Token} {children : List Node} (kind : GroupKind)
    (begins : ∀ bounds, body.head? ≠ some (.repetition bounds))
    (inside : Spares body ↔ Everywhere RepeatsInput children) :
    Shows (.openGroup kind :: body ++ [.closeGroup]) (groupNode kind children) := by
  constructor
  · have opened : Spares [.openGroup kind] := List.isChain_singleton _
    have closed : Spares [.closeGroup] := List.isChain_singleton _
    have whole : Spares ([.openGroup kind] ++ body ++ [.closeGroup]) ↔ Spares body := by
      rw [spares_append (by simp), spares_append begins]
      simp only [opened, closed, true_and, and_true]
    have below : Everywhere RepeatsInput [groupNode kind children] ↔
        Everywhere RepeatsInput children := by
      rw [everywhere_singleton]
      cases kind <;> exact and_iff_right trivial
    exact whole.trans (inside.trans below.symm)
  · exact ⟨_, .closeGroup, rfl, by cases kind <;> simp [groupNode, matchesNothing, isZeroWidth]⟩

theorem Shows.repeated {head suffix : List Token} {item node : Node} (shows : Shows head item)
    (repeated : Repeated suffix item node) :
    Spares (head ++ suffix) ↔ Everywhere RepeatsInput [node] := by
  cases repeated with
  | once => simpa using shows.inside
  | times _ wide read =>
      obtain ⟨front, last, rfl, same⟩ := shows.ends
      rw [spares_repetition, shows.inside, same wide, @everywhere_singleton _ (.quantified _ _)]
      exact and_comm

theorem everywhere_repeatsInput_join {node : Node} {nodes : List Node} :
    Everywhere RepeatsInput (join node nodes) ↔
      Everywhere RepeatsInput [node] ∧ Everywhere RepeatsInput nodes := by
  have plain {text : Node} {rest : List Node} (isText : text.isText = true) :
      Everywhere RepeatsInput (text :: rest) ↔ Everywhere RepeatsInput rest := by
    refine everywhere_cons.trans (and_iff_right (everywhere_singleton.mpr ?_))
    cases text <;> first | contradiction | exact ⟨trivial, everywhere_nil _⟩
  unfold join
  split
  · simp only [@plain (char _) _ rfl, @plain (string _) _ rfl, everywhere_nil, true_and]
  · simp only [@plain (char _) _ rfl, @plain (string _) _ rfl, everywhere_nil, true_and]
  · exact everywhere_cons

theorem begins_of_reads {tokens : List Token} {nodes : List Node} (reads : Reads tokens nodes)
    (bounds : Bounds) : tokens.head? ≠ some (.repetition bounds) := by
  simpa using reads_head reads (.inl rfl) bounds

theorem spares_iff_of_reads {tokens : List Token} {nodes : List Node} (reads : Reads tokens nodes) :
    Spares tokens ↔ Everywhere RepeatsInput nodes := by
  -- No sequence starts with a quantifier, so each item can be looked at by itself.
  induction reads with
  | nil => exact iff_of_true List.isChain_nil (everywhere_nil _)
  | leaf stands repeated later ih =>
      rw [spares_append (begins_of_reads later), (shows_of_leaf stands).repeated repeated, ih,
        everywhere_repeatsInput_join]
  | @group body suffix rest children nodes node kind inside repeated later insideIh laterIh =>
      have shows := shows_of_group kind (begins_of_reads inside) insideIh
      rw [everywhere_repeatsInput_join, ← laterIh, ← shows.repeated repeated,
        ← spares_append (begins_of_reads later)]
      simp

end Grammar

/-- The pattern that an expression is read from: the text itself, or what its delimiters enclose. -/
inductive Regex.ReadFrom (text : Text) : Text → Regex → Prop where
  | bare {regex : Regex} (read : Regex.ofPattern text = .ok regex) : ReadFrom text text regex
  | enclosed {parts : Enclosed} {regex : Regex} (split : Enclosed.ofText text = .ok parts)
      (read : Regex.ofText text = .ok regex) : ReadFrom text parts.pattern regex

theorem Parse.exists_tokens {pattern : Text} {pos : Nat} {flags : Flags} {regex : Regex}
    (read : Parse.regex (Cursor.atStart pattern pos).scanAll flags = .ok regex) :
    ∃ tokens, tokens? pattern = .ok tokens ∧ Reads (kinds tokens) regex.nodes := by
  obtain ⟨ending, reads, -, -⟩ := regex_eq_ok_iff.mp read
  have lexes := Cursor.lexes_of_scanAll _ ending
  obtain ⟨endingAtStart, same⟩ :=
    Cursor.scanAll_of_lexes lexes (Cursor.atStart pattern 0) rfl rfl
  exact ⟨_, tokens?_eq_ok_iff.mpr ⟨endingAtStart, rfl⟩, same ▸ reads⟩

theorem Regex.ReadFrom.exists_tokens {text pattern : Text} {regex : Regex}
    (read : Regex.ReadFrom text pattern regex) :
    ∃ tokens, tokens? pattern = .ok tokens ∧ Reads (kinds tokens) regex.nodes := by
  cases read with
  | bare read => exact Parse.exists_tokens (mapError_eq_ok_iff.mp read)
  | enclosed split read =>
      rw [Regex.ofText, split] at read
      exact Parse.exists_tokens (mapError_eq_ok_iff.mp read)

/-! Builders. -/

namespace Node

theorem everywhere_repeatsInput_wrap (pending : Option Quantifier) (node : Node) :
    Everywhere RepeatsInput [Frame.wrap pending node] ↔ Everywhere RepeatsInput [node] ∧
      ∀ kind, node = .charClass kind → kind.isBoundary = true → pending = none := by
  cases pending with
  | none => simp [Frame.wrap]
  | some quantifier =>
      cases node with
      | anchor _ | lookaround _ _ => simp [Frame.wrap]
      | _ => simp [Frame.wrap, everywhere_singleton, RepeatsInput, matchesNothing, Node.children]

theorem everywhere_repeatsInput_container (container : Container) (children : List Node) :
    Everywhere RepeatsInput [container.node children] ↔ Everywhere RepeatsInput children := by
  rw [everywhere_singleton]
  cases container <;> exact and_iff_right trivial

theorem repeatsInput_rebase (options : MergeOptions) (shift : Nat) {node : Node}
    (buildable : node.Buildable) : (rebase options shift node).RepeatsInput ↔ node.RepeatsInput := by
  cases node with
  | quantified inner quantifier =>
      obtain ⟨-, takes⟩ := buildable
      cases inner <;> first | contradiction | rfl
  | anchor a => by_cases kept : options.keepAnchors = true <;> simp [rebase, kept, RepeatsInput]
  | _ => rfl

theorem repeatsInput_rebaseAll (options : MergeOptions) (shift : Nat) {nodes : List Node}
    (buildable : Everywhere Buildable nodes) :
    Everywhere RepeatsInput (rebaseAll options shift nodes) ↔ Everywhere RepeatsInput nodes := by
  simp only [Everywhere, preorderAll_rebaseAll, List.forall_mem_map]
  exact forall₂_congr fun node member => repeatsInput_rebase options shift (buildable node member)

end Node

def Call.PushesBoundary (call : Call) : Prop :=
  ∃ kind, call = .charClass kind ∧ kind.isBoundary = true

theorem Call.leaf?_eq_charClass_iff {call : Call} {kind : CharClass} :
    call.leaf? = some (.charClass kind) ↔ call = .charClass kind := by
  cases call <;> simp [leaf?, Option.bind_eq_some_iff]

namespace Builder

def RepeatsInput (builder : Builder) : Prop :=
  ∀ frame ∈ builder.frames, Everywhere Node.RepeatsInput frame.elements

/-- The builder comes from calls, quantifiers and merges of which none pushed a word boundary while
a quantifier waited. -/
inductive Careful : Builder → Prop where
  | new : Careful .new
  | call {before after : Builder} (call : Call) (built : Careful before)
      (accepted : before.apply call = .ok after)
      (apart : call.PushesBoundary → before.current.pending = none) : Careful after
  | quantify {before after : Builder} (quantifier : Quantifier) (built : Careful before)
      (accepted : before.quantify quantifier = .ok after) : Careful after
  | merge {before expression after : Builder} (options : MergeOptions)
      (built : Careful before) (merged : Careful expression)
      (accepted : before.subexpression expression options = .ok after) : Careful after

theorem repeatsInput_iff {builder : Builder} :
    builder.RepeatsInput ↔
      (∀ frame ∈ builder.outer, Everywhere Node.RepeatsInput frame.elements) ∧
        Everywhere Node.RepeatsInput builder.current.elements := by
  simp [RepeatsInput, frames, or_imp, forall_and]

theorem repeatsInput_push (builder : Builder) (node : Node) :
    (builder.push node).RepeatsInput ↔ builder.RepeatsInput ∧
      Everywhere Node.RepeatsInput [node] ∧
      ∀ kind, node = .charClass kind → kind.isBoundary = true → builder.current.pending = none := by
  rw [← everywhere_repeatsInput_wrap, repeatsInput_iff, repeatsInput_iff, and_assoc]
  exact and_congr_right fun _ => everywhere_append

variable {before after : Builder}

theorem repeatsInput_close (closed : before.close = .ok after) :
    after.RepeatsInput ↔ before.RepeatsInput := by
  obtain ⟨parent, outer, split, rfl⟩ := close_eq_ok_iff.mp closed
  have apart (kind : CharClass) :
      before.current.container.node before.current.elements ≠ .charClass kind := by
    cases before.current.container <;> simp [Container.node]
  -- The elements of the closed frame become the children of an element of the frame below.
  refine (repeatsInput_push ⟨parent, outer, before.declared⟩ _).trans ?_
  rw [everywhere_repeatsInput_container, repeatsInput_iff, repeatsInput_iff, split]
  simp [apart, and_comm]

theorem repeatsInput_apply {call : Call} (accepted : before.apply call = .ok after) :
    after.RepeatsInput ↔
      before.RepeatsInput ∧ (call.PushesBoundary → before.current.pending = none) := by
  cases call.effect with
  | flag flag sets =>
      subst sets
      cases accepted
      exact (and_iff_left (by simp [Call.PushesBoundary])).symm
  | append node leaf native buildable appends =>
      obtain ⟨declared, met, pushed⟩ := bind_eq_ok_iff.mp ((appends before).symm.trans accepted)
      cases pushed
      have alone : Everywhere Node.RepeatsInput [node] := by
        rw [everywhere_singleton, children_of_isNative native]
        exact ⟨by cases node <;> trivial, everywhere_nil _⟩
      have same (kind : CharClass) : node = .charClass kind ↔ call = .charClass kind := by
        rw [← Call.leaf?_eq_charClass_iff, leaf, Option.some_inj]
      refine (repeatsInput_push { before with declared := declared } node).trans
        (and_congr_right fun _ => ?_)
      simp [alone, same, Call.PushesBoundary]
  | enter container inner opens =>
      subst opens
      rw [container.apply_opening inner] at accepted
      obtain ⟨declared, met, entered⟩ := bind_eq_ok_iff.mp accepted
      cases entered
      have silent : ¬ container.opening.PushesBoundary := by
        rintro ⟨kind, opens, -⟩
        cases container <;> contradiction
      rw [repeatsInput_iff, repeatsInput_iff]
      simp [enter, Frame.empty, silent, and_comm]
  | close ends =>
      subst ends
      exact (repeatsInput_close accepted).trans (and_iff_left (by simp [Call.PushesBoundary])).symm
  | refused fault refuses =>
      rw [refuses] at accepted
      contradiction

theorem repeatsInput_quantify {quantifier : Quantifier}
    (accepted : before.quantify quantifier = .ok after) :
    after.RepeatsInput ↔ before.RepeatsInput := by
  obtain ⟨-, -, rfl⟩ := quantify_eq_ok_iff.mp accepted
  rw [repeatsInput_iff, repeatsInput_iff]

theorem repeatsInput_merge {expression : Builder} {options : MergeOptions}
    (reachable : expression.Reachable)
    (accepted : before.subexpression expression options = .ok after) :
    after.RepeatsInput ↔ before.RepeatsInput ∧ expression.RepeatsInput := by
  obtain ⟨closed, declared, -, rfl⟩ := subexpression_eq_ok_iff.mp accepted
  have alone : expression.outer = [] := by simpa [isClosed] using closed
  have constructed := (reachable.holds constructed_arises constructed_merges).current.elements
  have copies := repeatsInput_rebaseAll options before.declared.captures
    (constructed.imp fun _ here => here.buildable)
  refine (repeatsInput_push { before with declared := _ } _).trans
    (and_congr_right fun _ => ?_)
  rw [repeatsInput_iff, alone, everywhere_singleton]
  simpa [Node.RepeatsInput, Node.children, Builder.copies] using copies

theorem Careful.reachable {builder : Builder} (careful : builder.Careful) : builder.Reachable := by
  induction careful with
  | new => exact .new
  | call call built accepted apart ih => exact .call call ih accepted
  | quantify quantifier built accepted ih => exact .quantify quantifier ih accepted
  | merge options built merged accepted ih expressionIh =>
      exact .merge options ih expressionIh accepted

theorem careful_iff {builder : Builder} :
    builder.Careful ↔ builder.Reachable ∧ builder.RepeatsInput := by
  constructor
  · intro careful
    refine ⟨careful.reachable, ?_⟩
    induction careful with
    | new => simp [RepeatsInput, frames, new, Frame.empty]
    | call call built accepted apart ih => exact (repeatsInput_apply accepted).mpr ⟨ih, apart⟩
    | quantify quantifier built accepted ih => exact (repeatsInput_quantify accepted).mpr ih
    | merge options built merged accepted ih expressionIh =>
        exact (repeatsInput_merge merged.reachable accepted).mpr ⟨ih, expressionIh⟩
  · rintro ⟨reachable, repeats⟩
    -- No request takes a repeated boundary away, so what holds now held at every step before.
    induction reachable with
    | new => exact .new
    | call call built accepted ih =>
        obtain ⟨earlier, apart⟩ := (repeatsInput_apply accepted).mp repeats
        exact .call call (ih earlier) accepted apart
    | quantify quantifier built accepted ih =>
        exact .quantify quantifier (ih ((repeatsInput_quantify accepted).mp repeats)) accepted
    | merge options built merged accepted ih expressionIh =>
        obtain ⟨earlier, copied⟩ := (repeatsInput_merge merged accepted).mp repeats
        exact .merge options (ih earlier) (expressionIh copied) accepted

end Builder

/-- A pattern with a word boundary that is repeated, and a builder that holds one. -/
theorem repeated_word_boundary :
    (∃ regex, Regex.ofText "/\\b+/".toList = .ok regex ∧
      ¬ Everywhere Node.RepeatsInput regex.nodes) ∧
    ∃ builder : Builder, builder.Reachable ∧ ¬ builder.RepeatsInput := by
  constructor
  · have read : Regex.ofText "/\\b+/".toList =
        .ok ⟨[.quantified (.charClass .wordBoundary) .oneOrMore], .empty, 0⟩ := by decide +kernel
    refine ⟨_, read, fun repeats => ?_⟩
    have wide : Node.RepeatsInput (.quantified (.charClass .wordBoundary) .oneOrMore) :=
      repeats _ List.mem_cons_self
    contradiction
  · have asked := Builder.Reachable.quantify .oneOrMore .new rfl
    have pushed := Builder.Reachable.call (.charClass .nonWordBoundary) asked rfl
    refine ⟨_, pushed, fun repeats => ?_⟩
    have wide : Node.RepeatsInput (.quantified (.charClass .nonWordBoundary) .oneOrMore) :=
      repeats _ (Builder.current_mem_frames _) _ List.mem_cons_self
    contradiction

/-- What is repeated has something to repeat exactly when no quantifier stands behind a word
boundary in the pattern that is read, or when no word boundary was pushed while a quantifier waited.
And whatever was read or built, at every depth nothing else that matches no input is repeated. -/
theorem repeats_input_iff (text : Text) (builder : Builder) :
    (∀ pattern regex, Regex.ReadFrom text pattern regex →
      (∃ tokens, tokens? pattern = .ok tokens ∧
        (Everywhere Node.RepeatsInput regex.nodes ↔ Spares (kinds tokens))) ∧
      Everywhere (fun node => node.RepeatsInput ∨ node.RepeatsBoundary) regex.nodes) ∧
    (builder.Reachable →
      (builder.RepeatsInput ↔ builder.Careful) ∧
      ∀ frame ∈ builder.frames,
        Everywhere (fun node => node.RepeatsInput ∨ node.RepeatsBoundary) frame.elements) := by
  constructor
  · intro pattern regex read
    obtain ⟨tokens, scanned, reads⟩ := read.exists_tokens
    refine ⟨⟨tokens, scanned, (spares_iff_of_reads reads).symm⟩, ?_⟩
    intro node member
    exact ((reads_legible reads node member).buildable).repeats
  · intro reachable
    refine ⟨(Builder.careful_iff.trans (and_iff_right reachable)).symm, ?_⟩
    intro frame listed node member
    have holds := Builder.frame_holds
      (reachable.holds constructed_arises constructed_merges) listed
    exact (holds.elements node member).buildable.repeats

theorem repeats_input_iff_lookaround :
    (∃ regex, Regex.ofText "/\\b\\w+/".toList = .ok regex ∧
      Everywhere Node.RepeatsInput regex.nodes) ∧
    ∃ builder : Builder, builder.Reachable ∧ builder.RepeatsInput ∧
      builder.current.elements = [.lookaround .ahead [.charClass .digit],
        .charClass .wordBoundary] := by
  have read : Regex.ofText "/\\b\\w+/".toList = .ok ⟨[.charClass .wordBoundary,
      .quantified (.charClass .word) .oneOrMore], .empty, 0⟩ := by decide +kernel
  have split : Enclosed.ofText "/\\b\\w+/".toList = .ok ⟨'/', "\\b\\w+".toList, .empty⟩ := by rfl
  have scanned : tokens? "\\b\\w+".toList = .ok [⟨0, .charClass .wordBoundary⟩,
      ⟨2, .charClass .word⟩, ⟨4, .repetition ⟨1, none, false⟩⟩] := by decide +kernel
  have asked := Builder.Careful.quantify .oneOrMore .new rfl
  have ahead := Builder.Careful.call (.lookaround .ahead) asked rfl (by rintro ⟨kind, ⟨⟩, -⟩)
  have inside := Builder.Careful.call (.charClass .digit) ahead rfl fun _ => rfl
  have closed := Builder.Careful.call .close inside rfl fun _ => rfl
  have careful := Builder.Careful.call (.charClass .wordBoundary) closed rfl fun _ => rfl
  obtain ⟨ofReading, ofBuilding⟩ := repeats_input_iff "/\\b\\w+/".toList _
  obtain ⟨⟨tokens, found, spared⟩, -⟩ := ofReading _ _ (.enclosed split read)
  cases scanned.symm.trans found
  refine ⟨⟨_, read, spared.mpr ?_⟩, _, careful.reachable,
    (ofBuilding careful.reachable).1.mpr careful, rfl⟩
  simp [Spares, kinds, CharClass.isBoundary]

end RegexForge
