namespace UrlHarvest.Text

-- Bisection between the positions `low` and `high` of a table of disjoint closed ranges in
-- increasing order.
def inRangesBetween (table : Array (Nat × Nat)) (n low high : Nat) : Bool :=
  if low < high then
    let middle := (low + high) / 2
    match table[middle]? with
    | none => false
    | some (first, last) =>
      if n < first then inRangesBetween table n low middle
      else if last < n then inRangesBetween table n (middle + 1) high
      else true
  else false
termination_by high - low

def inRanges (table : Array (Nat × Nat)) (n : Nat) : Bool :=
  inRangesBetween table n 0 table.size

end UrlHarvest.Text
