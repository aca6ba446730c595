import Std.Data.HashSet

namespace UrlHarvest.Tidy

-- Ordered by a key, and by the text where two keys are equal, so that the order of the items
-- before does not matter.
def byKey {α κ : Type} [Ord κ] (key : α → κ) (text : α → String) (a b : α) : Bool :=
  match compare (key a) (key b) with
  | .lt => true
  | .gt => false
  | .eq => text a ≤ text b

-- The keys met so far and the items kept so far.
structure Kept (α κ : Type) [BEq κ] [Hashable κ] where
  seen : Std.HashSet κ := {}
  items : Array α := #[]

-- Of the items with equal keys the first one is kept, and all that are kept stay in order.
def keepFirst {α κ : Type} [BEq κ] [Hashable κ] (key : α → κ) (items : List α) : List α :=
  (items.foldl (fun (kept : Kept α κ) item =>
    if kept.seen.contains (key item) then kept
    else ⟨kept.seen.insert (key item), kept.items.push item⟩) {}).items.toList

end UrlHarvest.Tidy
