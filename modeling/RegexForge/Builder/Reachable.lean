import RegexForge.Builder.Merge
import RegexForge.Call

/-!
The builders that successful operations lead to, starting from a new one. What every reachable
builder satisfies is what a caller can rely on; a merged expression counts only if it was itself
built that way.
-/

namespace RegexForge

inductive Builder.Reachable : Builder → Prop where
  | new : Reachable .new
  | call {before after : Builder} (call : Call) (built : Reachable before)
      (accepted : before.apply call = .ok after) : Reachable after
  | quantify {before after : Builder} (quantifier : Quantifier) (built : Reachable before)
      (accepted : before.quantify quantifier = .ok after) : Reachable after
  | merge {before expression after : Builder} (options : MergeOptions)
      (built : Reachable before) (merged : Reachable expression)
      (accepted : before.subexpression expression options = .ok after) : Reachable after

/-- The builders that calls and quantifiers lead to, without a merge. -/
inductive Builder.Assembled : Builder → Prop where
  | new : Assembled .new
  | call {before after : Builder} (call : Call) (built : Assembled before)
      (accepted : before.apply call = .ok after) : Assembled after
  | quantify {before after : Builder} (quantifier : Quantifier) (built : Assembled before)
      (accepted : before.quantify quantifier = .ok after) : Assembled after

end RegexForge
