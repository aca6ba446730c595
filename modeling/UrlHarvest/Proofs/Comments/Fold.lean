import UrlHarvest.Comments.Regions

namespace UrlHarvest.CommentStyle

variable (style : CommentStyle)

-- The state that is left behind the lines when they are gone through from `state`.
def stateAfter (state : RegionState) (lines : List Text) : RegionState :=
  lines.foldl (fun state line => (style.advance state line).state) state

@[simp] theorem stateAfter_nil (state : RegionState) : style.stateAfter state [] = state := rfl

@[simp] theorem stateAfter_cons (state : RegionState) (line : Text) (rest : List Text) :
    style.stateAfter state (line :: rest) =
      style.stateAfter (style.advance state line).state rest := rfl

theorem regionsFrom_eq_reverse_append (state : RegionState) (found : List LineRegions)
    (lines : List Text) :
    style.regionsFrom state found lines = found.reverse ++ style.regionsFrom state [] lines := by
  induction lines generalizing state found with
  | nil => simp [regionsFrom]
  | cons line rest ih =>
      simp only [regionsFrom]
      rw [ih _ (style.advance state line :: found), ih _ [style.advance state line]]
      simp

@[simp] theorem regionsFrom_nil (state : RegionState) : style.regionsFrom state [] [] = [] := rfl

@[simp] theorem regionsFrom_cons (state : RegionState) (line : Text) (rest : List Text) :
    style.regionsFrom state [] (line :: rest) =
      style.advance state line :: style.regionsFrom (style.advance state line).state [] rest := by
  rw [regionsFrom, regionsFrom_eq_reverse_append, List.reverse_singleton, List.singleton_append]

@[simp] theorem length_regionsFrom (state : RegionState) (lines : List Text) :
    (style.regionsFrom state [] lines).length = lines.length := by
  induction lines generalizing state with
  | nil => rfl
  | cons line rest ih => rw [regionsFrom_cons, List.length_cons, List.length_cons, ih]

theorem regionsFrom_append (state : RegionState) (front back : List Text) :
    style.regionsFrom state [] (front ++ back) =
      style.regionsFrom state [] front ++
        style.regionsFrom (style.stateAfter state front) [] back := by
  induction front generalizing state with
  | nil => rfl
  | cons line rest ih => simp only [List.cons_append, regionsFrom_cons, stateAfter_cons, ih]

-- Whatever is hidden of a line is what it hides when it is met in some state.
theorem exists_advance_of_getElem?_regionsFrom (state : RegionState) (lines : List Text) (k : Nat)
    (line : Text) (regions : LineRegions) (hline : lines[k]? = some line)
    (hregions : (style.regionsFrom state [] lines)[k]? = some regions) :
    ∃ before, regions = style.advance before line := by
  induction lines generalizing state k with
  | nil => simp at hline
  | cons first rest ih =>
      rw [regionsFrom_cons] at hregions
      cases k with
      | zero =>
          rw [List.getElem?_cons_zero, Option.some.injEq] at hline hregions
          exact ⟨state, hline ▸ hregions.symm⟩
      | succ k => exact ih _ k hline hregions

theorem getLast?_regionsFrom (state : RegionState) (lines : List Text) (hne : lines ≠ []) :
    (style.regionsFrom state [] lines).getLast?.map LineRegions.state =
      some (style.stateAfter state lines) := by
  induction lines generalizing state with
  | nil => exact absurd rfl hne
  | cons line rest ih =>
      cases rest with
      | nil => simp
      | cons next rest =>
          rw [regionsFrom_cons, stateAfter_cons, ← ih _ (List.cons_ne_nil next rest),
            regionsFrom_cons, List.getLast?_cons_cons]

end UrlHarvest.CommentStyle
