import RegexForge.Proofs.Anchors
import RegexForge.Proofs.References

/-!
What a merge does, for any parent and any reachable expression. It is refused by the first node of
the expression, in document order, that clashes with the parent; since the names and the anchors of
a reachable expression do not clash with each other, it is enough to compare each node with the
parent, except that a merged start of input also stands in the way of a later end of input. Without
such a node the parent gets the renamed tree as one more element and all that it declares.
-/

namespace RegexForge

open Outcome Mark

namespace Declarations

def adopted (declared : Declarations) (copies : List Mark) : Declarations where
  flags := declared.flags
  hasStart := declared.hasStart || (anchors copies).contains .start
  hasStop := declared.hasStop || !(anchors copies).isEmpty
  captures := declared.captures + captureCount copies
  names := declared.names ++ groupNames copies

/-- Why a mark of a copy is not adopted. -/
def refusal? (declared : Declarations) : Mark → Option Error
  | .anchor .start =>
      if declared.hasStart then some (.duplicateAnchor .start)
      else if declared.hasStop then some (.duplicateAnchor .startAfterStop)
      else none
  | .anchor .stop => if declared.hasStop then some (.duplicateAnchor .stop) else none
  | .capture (some name) =>
      if name ∈ declared.names then some (.duplicateName name)
      else if isGroupName name then none
      else some (.invalidName name)
  | _ => none

theorem adopted_nil (declared : Declarations) : declared.adopted [] = declared := by
  simp [adopted, anchors, captureCount, groupNames]

theorem adopted_append (declared : Declarations) (first second : List Mark) :
    declared.adopted (first ++ second) = (declared.adopted first).adopted second := by
  have filled : (anchors first ++ anchors second).isEmpty =
      ((anchors first).isEmpty && (anchors second).isEmpty) := by
    cases anchors first <;> rfl
  simp [adopted, anchors_append, captureCount_append, groupNames_append, filled, Bool.or_assoc,
    Nat.add_assoc]

theorem adopted_singleton (declared : Declarations) (mark : Mark) :
    declared.adopted [mark] =
      { declared with
        hasStart := declared.hasStart || mark.anchor? == some .start
        hasStop := declared.hasStop || mark.anchor?.isSome
        captures := declared.captures + if mark.isCapture then 1 else 0
        names := declared.names ++ mark.name?.toList } := by
  simp only [adopted, anchors_singleton, captureCount_singleton, groupNames_singleton]
  cases mark.anchor? with
  | none => rfl
  | some a => cases a <;> rfl

theorem adopt_eq (declared : Declarations) (mark : Mark) :
    declared.adopt mark =
      match declared.refusal? mark with
      | some error => .error error
      | none => .ok (declared.adopted [mark]) := by
  cases mark with
  | anchor a =>
      cases a with
      | start =>
          simp only [adopt, Merge.declareAnchor, declareStart, refusal?]
          by_cases started : declared.hasStart = true
          · simp [started]
          · by_cases stopped : declared.hasStop = true
            · simp [started, stopped]
            · simp [started, stopped, adopted_singleton, anchor?, isCapture, name?]
      | stop =>
          simp only [adopt, Merge.declareAnchor, declareStop, refusal?]
          by_cases stopped : declared.hasStop = true
          · simp [stopped]
          · simp [stopped, adopted_singleton, anchor?, isCapture, name?]
  | capture name =>
      cases name with
      | none => simp [adopt, refusal?, adopted_singleton, addCapture, anchor?, isCapture, name?]
      | some name =>
          simp only [adopt, declareName, hasName, List.contains_iff_mem, refusal?, addCapture]
          by_cases known : name ∈ declared.names
          · simp [known]
          · by_cases valid : isGroupName name = true
            · simp [known, valid, adopted_singleton, anchor?, isCapture, name?]
            · simp [known, valid]
  | reference index => simp [adopt, refusal?, adopted_singleton, anchor?, isCapture, name?]
  | namedReference name => simp [adopt, refusal?, adopted_singleton, anchor?, isCapture, name?]

theorem adopt_walks (declared : Declarations) :
    Walks adopt (fun before => (declared.adopted before).refusal?) declared.adopted := by
  constructor
  · intro before mark error found
    rw [adopt_eq, found]
  · intro before mark none
    rw [adopt_eq, none, adopted_append]

theorem adoptAll_eq_ok_iff {declared next : Declarations} {copies : List Mark} :
    declared.adoptAll copies = .ok next ↔
      InOrder (fun before mark => (declared.adopted before).refusal? mark = none) copies ∧
        next = declared.adopted copies := by
  rw [← declared.adopt_walks.foldlM_eq_ok_iff copies, adopted_nil]
  rfl

theorem adoptAll_eq_error_iff {declared : Declarations} {copies : List Mark} {error : Error} :
    declared.adoptAll copies = .error error ↔
      FirstFault (fun before => (declared.adopted before).refusal?) copies error := by
  rw [← declared.adopt_walks.foldlM_eq_error_iff copies, adopted_nil]
  rfl

end Declarations

theorem Mark.anchors_rebase (options : MergeOptions) (shift : Nat) (marks : List Mark) :
    anchors (marks.filterMap (rebase? options shift)) =
      if options.keepAnchors then anchors marks else [] := by
  by_cases keep : options.keepAnchors = true
  · simp only [anchors, List.filterMap_filterMap, keep, if_true]
    congr 1
    funext mark
    cases mark with
    | anchor a => simp [rebase?, keep]
    | _ => rfl
  · simp only [anchors, List.filterMap_filterMap, keep]
    apply List.filterMap_eq_nil_iff.mpr
    intro mark _
    cases mark with
    | anchor a => simp [rebase?, keep]
    | _ => rfl

namespace Builder

variable (parent : Builder) (options : MergeOptions)

/-- Why the parent refuses a node of an expression that stands behind other nodes of it. -/
def mergeFault? (before : List Node) : Node → Option Error
  | .namedGroup name _ =>
      if options.scope ++ name ∈ parent.declared.names then
        some (.duplicateName (options.scope ++ name))
      else if isGroupName (options.scope ++ name) then none
      else some (.invalidName (options.scope ++ name))
  | .anchor .start =>
      if options.keepAnchors = false then none
      else if parent.declared.hasStart then some (.duplicateAnchor .start)
      else if parent.declared.hasStop then some (.duplicateAnchor .startAfterStop)
      else none
  | .anchor .stop =>
      if options.keepAnchors = false then none
      else if parent.declared.hasStop ∨ .anchor .start ∈ before then
        some (.duplicateAnchor .stop)
      else none
  | _ => none

def copyMark? (node : Node) : Option Mark :=
  node.mark?.bind (rebase? options parent.declared.captures)

theorem filterMap_copyMark? (nodes : List Node) :
    nodes.filterMap (parent.copyMark? options) =
      (nodes.filterMap Node.mark?).filterMap (rebase? options parent.declared.captures) := by
  rw [List.filterMap_filterMap]
  rfl

variable {expression : Builder}

theorem name_mem_iff {name : Text} {nodes : List Node} :
    name ∈ groupNames (nodes.filterMap Node.mark?) ↔ ∃ children, .namedGroup name children ∈ nodes := by
  simp only [groupNames, List.filterMap_filterMap, List.mem_filterMap]
  constructor
  · rintro ⟨node, member, found⟩
    cases node with
    | namedGroup other children =>
        cases found
        exact ⟨children, member⟩
    | group capturing children => cases capturing <;> simp [Node.mark?, name?] at found
    | _ => simp [Node.mark?, name?] at found
  · rintro ⟨children, member⟩
    exact ⟨.namedGroup name children, member, rfl⟩

/-! The nodes of a reachable expression clash only with the parent, or an end of input with a start
before it. -/

-- Names that differ still differ behind the scope.
theorem scope_append_mem_iff {scope name : Text} {known names : List Text} (new : name ∉ names) :
    scope ++ name ∈ known ++ names.map (scope ++ ·) ↔ scope ++ name ∈ known := by
  rw [List.mem_append, List.mem_map]
  constructor
  · rintro (listed | ⟨other, listed, same⟩)
    · exact listed
    · rw [List.append_cancel_left same] at listed
      exact absurd listed new
  · exact .inl

theorem mergeFault?_anchor {before : List Node} {a : Anchor} {behind : List Anchor}
    (stands : anchors (before.filterMap Node.mark?) ++ a :: behind ∈ wellAnchored) :
    (parent.copyMark? options (.anchor a)).bind
        (parent.declared.adopted (before.filterMap (parent.copyMark? options))).refusal? =
      parent.mergeFault? options before (.anchor a) := by
  rw [filterMap_copyMark?]
  by_cases keep : options.keepAnchors = true
  · cases a with
    | start =>
        have none := before_start stands
        simp [copyMark?, Node.mark?, rebase?, keep, Declarations.refusal?,
          Declarations.adopted, anchors_rebase, none, mergeFault?]
    | stop =>
        have started : .anchor .start ∈ before ↔
            .start ∈ anchors (before.filterMap Node.mark?) := anchor_mem_iff.symm
        rcases before_stop stands with none | one
        · simp [copyMark?, Node.mark?, rebase?, keep, Declarations.refusal?,
            Declarations.adopted, anchors_rebase, none, mergeFault?, started]
        · simp [copyMark?, Node.mark?, rebase?, keep, Declarations.refusal?,
            Declarations.adopted, anchors_rebase, one, mergeFault?, started]
  · cases a with
    | start => simp [copyMark?, Node.mark?, rebase?, keep, mergeFault?]
    | stop => simp [copyMark?, Node.mark?, rebase?, keep, mergeFault?]

theorem mergeFault?_eq {before after : List Node} {node : Node} {marks : List Mark}
    (fresh : InOrder Fresh marks) (shape : anchors marks ∈ wellAnchored)
    (split : marks = (before ++ node :: after).filterMap Node.mark?) :
    (parent.copyMark? options node).bind
        (parent.declared.adopted (before.filterMap (parent.copyMark? options))).refusal? =
      parent.mergeFault? options before node := by
  rw [List.filterMap_append] at split
  cases node with
  | namedGroup name children =>
      have new := fresh (before.filterMap Node.mark?) (.capture (some name)) _ split
      rw [filterMap_copyMark?]
      simp [copyMark?, Node.mark?, rebase?, Declarations.refusal?, Declarations.adopted,
        groupNames_rebase, scope_append_mem_iff new.1, mergeFault?]
  | anchor a =>
      rw [split, anchors_append] at shape
      exact mergeFault?_anchor parent options shape
  | group capturing children => cases capturing <;> rfl
  | _ => rfl

structure Admits (expression : Builder) : Prop where
  names : ∀ name ∈ expression.declared.names,
    isGroupName (options.scope ++ name) = true ∧
      options.scope ++ name ∉ parent.declared.names
  anchors : options.keepAnchors = false ∨ Mark.anchors expression.marks = [] ∨
    (Mark.anchors expression.marks = [.stop] ∧ parent.declared.hasStop = false) ∨
    (Mark.anchors expression.marks = [.start] ∧ parent.declared.hasStart = false ∧
      parent.declared.hasStop = false)

variable {parent options}

theorem names_admitted {nodes : List Node}
    (sound : InOrder (fun before node => parent.mergeFault? options before node = none) nodes)
    {name : Text} (member : name ∈ groupNames (nodes.filterMap Node.mark?)) :
    isGroupName (options.scope ++ name) = true ∧ options.scope ++ name ∉ parent.declared.names := by
  obtain ⟨children, member⟩ := name_mem_iff.mp member
  obtain ⟨before, after, -, none⟩ := sound.of_mem member
  simp only [mergeFault?] at none
  by_cases known : options.scope ++ name ∈ parent.declared.names
  · simp [known] at none
  · by_cases valid : isGroupName (options.scope ++ name) = true
    · exact ⟨valid, known⟩
    · simp [known, valid] at none

theorem start_admitted {nodes : List Node} (keep : options.keepAnchors = true)
    (sound : InOrder (fun before node => parent.mergeFault? options before node = none) nodes)
    (member : .anchor .start ∈ nodes) :
    parent.declared.hasStart = false ∧ parent.declared.hasStop = false := by
  obtain ⟨before, after, -, none⟩ := sound.of_mem member
  simp only [mergeFault?, keep] at none
  cases started : parent.declared.hasStart with
  | true => simp [started] at none
  | false =>
      cases stopped : parent.declared.hasStop with
      | true => simp [started, stopped] at none
      | false => exact ⟨rfl, rfl⟩

theorem stop_admitted {nodes : List Node} (keep : options.keepAnchors = true)
    (shape : Mark.anchors (nodes.filterMap Node.mark?) ∈ wellAnchored)
    (sound : InOrder (fun before node => parent.mergeFault? options before node = none) nodes)
    (member : .anchor .stop ∈ nodes) :
    Mark.anchors (nodes.filterMap Node.mark?) = [.stop] ∧ parent.declared.hasStop = false := by
  obtain ⟨before, after, rfl, none⟩ := sound.of_mem member
  simp only [mergeFault?, keep] at none
  have alone : .anchor .start ∉ before := by
    intro earlier
    simp [earlier] at none
  have read : Mark.anchors ((before ++ .anchor .stop :: after).filterMap Node.mark?) =
      Mark.anchors (before.filterMap Node.mark?) ++
        .stop :: Mark.anchors (after.filterMap Node.mark?) := by
    rw [List.filterMap_append, anchors_append]
    rfl
  rw [read] at shape ⊢
  have first : Mark.anchors (before.filterMap Node.mark?) = [] := by
    rcases before_stop shape with empty | one
    · exact empty
    · exact absurd (anchor_mem_iff.mp (by simp [one])) alone
  constructor
  · simp [first, after_stop shape]
  · simpa [alone] using none

theorem admits_of_inOrder {nodes : List Node}
    (links : expression.declared.Links expression.marks)
    (shape : Mark.anchors expression.marks ∈ wellAnchored)
    (read : expression.marks = nodes.filterMap Node.mark?)
    (sound : InOrder (fun before node => parent.mergeFault? options before node = none) nodes) :
    parent.Admits options expression := by
  rw [read] at shape
  constructor
  · intro name member
    rw [links.counts.2, read] at member
    exact names_admitted sound member
  · rw [read]
    by_cases keep : options.keepAnchors = true
    · right
      by_cases stop : .anchor .stop ∈ nodes
      · exact .inr (.inl (stop_admitted keep shape sound stop))
      · have noStop := mt anchor_mem_iff.mp stop
        by_cases start : .anchor .start ∈ nodes
        · have onlyStart := eq_start_of_wellAnchored shape (anchor_mem_iff.mpr start) noStop
          exact .inr (.inr ⟨onlyStart, start_admitted keep sound start⟩)
        · exact .inl (eq_nil_of_wellAnchored shape (mt anchor_mem_iff.mp start) noStop)
    · exact .inl (by simpa using keep)

theorem inOrder_of_admits {nodes : List Node}
    (links : expression.declared.Links expression.marks)
    (read : expression.marks = nodes.filterMap Node.mark?)
    (admits : parent.Admits options expression) :
    InOrder (fun before node => parent.mergeFault? options before node = none) nodes := by
  intro before node after split
  have member : node ∈ nodes := by simp [split]
  cases node with
  | namedGroup name children =>
      have listed : name ∈ expression.declared.names := by
        rw [links.counts.2, read]
        exact name_mem_iff.mpr ⟨children, member⟩
      rcases admits.names name listed with ⟨valid, fresh⟩
      simp [mergeFault?, valid, fresh]
  | anchor a =>
      by_cases keep : options.keepAnchors = true
      · have stands : a ∈ Mark.anchors expression.marks := by
          rw [read]
          exact anchor_mem_iff.mpr member
        rcases admits.anchors with dropped | none | ⟨stop, free⟩ | ⟨start, free, unended⟩
        · simp [keep] at dropped
        · simp [none] at stands
        · have alone : .anchor .start ∉ before := by
            intro earlier
            have standsToo : .start ∈ Mark.anchors expression.marks := by
              rw [read]
              exact anchor_mem_iff.mpr (by simp [split, earlier])
            simp [stop] at standsToo
          obtain rfl : a = .stop := by simpa [stop] using stands
          simp [mergeFault?, free, alone]
        · obtain rfl : a = .start := by simpa [start] using stands
          simp [mergeFault?, free, unended]
      · cases a with
        | start => simp [mergeFault?, keep]
        | stop => simp [mergeFault?, keep]
  | _ => rfl

/-- The parent with the expression as one more element, in the quantifier that waits there, and with
everything declared that the expression declares. -/
def merged (parent expression : Builder) (options : MergeOptions) : Builder :=
  let copy := Node.subexpression
    (expression.current.elements.map (Node.rebase options parent.declared.captures))
  let anchors := if options.keepAnchors then Mark.anchors expression.marks else []
  { current := {
      container := parent.current.container
      pending := none
      elements := parent.current.elements ++
        [match parent.current.pending with
          | none => copy
          | some quantifier => .quantified copy quantifier] }
    outer := parent.outer
    declared := {
      flags :=
        if options.keepFlags then parent.declared.flags.union expression.declared.flags
        else parent.declared.flags
      hasStart := parent.declared.hasStart || anchors.contains .start
      hasStop := parent.declared.hasStop || !anchors.isEmpty
      captures := parent.declared.captures + expression.declared.captures
      names := parent.declared.names ++ expression.declared.names.map (options.scope ++ ·) } }

theorem push_subexpression_eq_merged (links : expression.declared.Links expression.marks)
    (copied : Node.marks (parent.copies expression options) =
      expression.marks.filterMap (rebase? options parent.declared.captures)) :
    { parent with
      declared :=
        if options.keepFlags then
          (parent.declared.adopted (Node.marks (parent.copies expression options))).addFlags
            expression.declared.flags
        else parent.declared.adopted (Node.marks (parent.copies expression options))
    }.push (.subexpression (parent.copies expression options)) =
      parent.merged expression options := by
  rw [copied]
  simp only [push, Frame.push, Frame.stillPending, merged, copies, Node.rebaseAll_eq_map,
    Declarations.adopted, anchors_rebase, captureCount_rebase, groupNames_rebase,
    links.counts.1, links.counts.2]
  refine Builder.mk.injEq .. ▸ ⟨?_, rfl, ?_⟩
  · cases parent.current.pending <;> rfl
  · by_cases keep : options.keepFlags = true
    · simp [keep, Declarations.addFlags]
    · simp [keep]

/-! The walk over the copies refuses a mark for what was adopted before it; seen from the nodes of
the expression this is the fault that the parent finds. -/

theorem marks_copies_eq_filterMap (reachable : expression.Reachable)
    (closed : expression.isClosed = true) :
    Node.marks (parent.copies expression options) =
      (Node.preorderAll expression.current.elements).filterMap (parent.copyMark? options) := by
  rw [parent.marks_copies options reachable closed, marks_of_closed reachable closed,
    filterMap_copyMark?]
  rfl

theorem inOrder_mergeFault? (reachable : expression.Reachable)
    (closed : expression.isClosed = true) :
    InOrder (fun before node =>
      (parent.copyMark? options node).bind
          (parent.declared.adopted (before.filterMap (parent.copyMark? options))).refusal? =
        parent.mergeFault? options before node)
      (Node.preorderAll expression.current.elements) := by
  intro before node after split
  have read : expression.marks = (before ++ node :: after).filterMap Node.mark? := by
    rw [marks_of_closed reachable closed, Node.marks, split]
  exact mergeFault?_eq parent options (links_of_reachable reachable).fresh
    (anchored_of_reachable reachable).shape read

theorem faultless_iff_admits (reachable : expression.Reachable)
    (closed : expression.isClosed = true) :
    InOrder (fun before mark => (parent.declared.adopted before).refusal? mark = none)
        (Node.marks (parent.copies expression options)) ↔
      parent.Admits options expression := by
  have links := links_of_reachable reachable
  have shape := (anchored_of_reachable reachable).shape
  have read := marks_of_closed reachable closed
  rw [marks_copies_eq_filterMap reachable closed, inOrder_filterMap]
  refine Iff.trans (inOrder_congr ?_)
    ⟨admits_of_inOrder links shape read, inOrder_of_admits links read⟩
  intro before node after split
  rw [← inOrder_mergeFault? reachable closed before node after split, Option.bind_eq_none_iff]

theorem adoptAll_copies_eq_error_iff (reachable : expression.Reachable)
    (closed : expression.isClosed = true) {error : Error} :
    parent.declared.adoptAll (Node.marks (parent.copies expression options)) = .error error ↔
      FirstFault (parent.mergeFault? options)
        (Node.preorderAll expression.current.elements) error := by
  rw [Declarations.adoptAll_eq_error_iff, marks_copies_eq_filterMap reachable closed,
    firstFault_filterMap]
  exact firstFault_congr (inOrder_mergeFault? reachable closed)

end Builder

open Builder in
/-- A merge of an expression with an open container is refused for that container. Otherwise it
succeeds exactly when the parent admits the names and anchors of the expression, and then it adds
the renamed tree as one element and nothing else; or it is refused for the first node, in document
order, that the parent does not admit. -/
theorem subexpression_law (parent expression : Builder) (options : MergeOptions)
    (reachable : expression.Reachable) :
    (expression.isClosed = false → parent.subexpression expression options =
      .error (.notClosed expression.current.container)) ∧
    (expression.isClosed = true →
      (∀ after, parent.subexpression expression options = .ok after ↔
        parent.Admits options expression ∧ after = parent.merged expression options) ∧
      (∀ error, parent.subexpression expression options = .error error ↔
        FirstFault (parent.mergeFault? options)
          (Node.preorderAll expression.current.elements) error)) := by
  constructor
  · intro isOpen
    simp [subexpression, isOpen]
  · intro closed
    constructor
    · intro after
      have links := links_of_reachable reachable
      have copied := parent.marks_copies options reachable closed
      simp only [subexpression_eq_ok_iff, closed, true_and, Declarations.adoptAll_eq_ok_iff,
        faultless_iff_admits reachable closed]
      constructor
      · rintro ⟨declared, ⟨admits, rfl⟩, rfl⟩
        exact ⟨admits, push_subexpression_eq_merged links copied⟩
      · rintro ⟨admits, rfl⟩
        exact ⟨_, ⟨admits, rfl⟩, (push_subexpression_eq_merged links copied).symm⟩
    · intro error
      rw [← adoptAll_copies_eq_error_iff reachable closed, subexpression_eq parent options closed]
      cases parent.declared.adoptAll (Node.marks (parent.copies expression options)) with
      | error refusal => simp
      | ok declared => simp

theorem subexpression_law_scoped :
    ∃ builder : Builder, builder.Reachable ∧ builder.declared.names = ["a".toList] ∧
      builder.subexpression builder {} = .error (.duplicateName "a".toList) ∧
      ∃ after, builder.subexpression builder { scope := "b_".toList } = .ok after ∧
        after.declared.names = ["a".toList, "b_a".toList] := by
  have named := Builder.Reachable.call (.namedCapture "a".toList) .new rfl
  have reachable := Builder.Reachable.call .close named rfl
  rcases (subexpression_law _ _ {} reachable).2 rfl with ⟨-, refused⟩
  rcases (subexpression_law _ _ { scope := "b_".toList } reachable).2 rfl with ⟨accepted, -⟩
  refine ⟨_, reachable, rfl, ?_, _, (accepted _).mpr ⟨?_, rfl⟩, rfl⟩
  · apply (refused _).mpr
    exact ⟨[], .namedGroup "a".toList [], [], rfl, inOrder_nil _, rfl⟩
  · exact ⟨by decide, .inl rfl⟩

end RegexForge
