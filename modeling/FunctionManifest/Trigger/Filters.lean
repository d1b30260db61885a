import FunctionManifest.Heap.Basic

/-!
# Event filters

A filter whose value is a pattern that an exact comparison cannot match is emitted apart from the
exact ones. Only texts and patterns are looked at.
-/

namespace FunctionManifest

/-- The pattern that a filter's value is or spells. -/
def filterPattern? (heap : Heap) (v : Value) : Option Pattern :=
  match v, heap.cell? v with
  | .text t, _ => some ⟨t⟩
  | _, some (.pattern p _) => some p
  | _, _ => none

/-- The text of a filter that has to be matched as a pattern. -/
def patternFilter? (heap : Heap) (v : Value) : Option Text :=
  (filterPattern? heap v).bind fun pattern =>
    if pattern.hasWildcards then some pattern.template else none

def exactFilter (heap : Heap) (v : Value) : Value :=
  ((filterPattern? heap v).map fun pattern => .text pattern.template).getD v

/-- The exact filters and the pattern filters. -/
def splitFilters (heap : Heap) (filters : Entries) : Entries × Entries :=
  ((filters.filter fun filter => (patternFilter? heap filter.2).isNone).map
      fun filter => (filter.1, exactFilter heap filter.2),
    filters.filterMap fun filter =>
      (patternFilter? heap filter.2).map fun template => (filter.1, .text template))

end FunctionManifest
