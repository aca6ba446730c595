namespace UrlHarvest.Entries

variable {κ α : Type} [BEq κ] [LawfulBEq κ]

-- Pairs stand in the order in which their keys were first written. A key that is written again
-- keeps its place and takes the new value.
def put {κ α : Type} [BEq κ] (entries : List (κ × α)) (key : κ) (value : α) : List (κ × α) :=
  if entries.any (·.1 == key) then
    entries.map fun entry => if entry.1 == key then (key, value) else entry
  else entries ++ [(key, value)]

def erase {κ α : Type} [BEq κ] (entries : List (κ × α)) (key : κ) : List (κ × α) :=
  entries.filter fun entry => !(entry.1 == key)

-- An item changes what its key has. A key that is new begins with `start`.
def enter {ι κ α : Type} [BEq κ] (key : ι → κ) (start : α) (step : α → ι → α)
    (entries : List (κ × α)) (item : ι) : List (κ × α) :=
  put entries (key item) (step ((entries.lookup (key item)).getD start) item)

def gather {ι κ α : Type} [BEq κ] (key : ι → κ) (start : α) (step : α → ι → α)
    (items : List ι) : List (κ × α) :=
  items.foldl (enter key start step) []

private theorem lookup_cons_of_ne {name other : κ} (h : other ≠ name) (value : α)
    (rest : List (κ × α)) : ((name, value) :: rest).lookup other = rest.lookup other := by
  rw [List.lookup_cons, beq_false_of_ne h]

private theorem lookup_append_single (entries : List (κ × α)) (key other : κ) (value : α)
    (h : entries.any (·.1 == key) = false) :
    (entries ++ [(key, value)]).lookup other =
      if other == key then some value else entries.lookup other := by
  induction entries with
  | nil => by_cases ho : other = key <;> simp [List.lookup_cons, ho, beq_false_of_ne]
  | cons entry rest ih =>
    obtain ⟨name, old⟩ := entry
    rw [List.any_cons, Bool.or_eq_false_iff] at h
    by_cases ho : other = name
    · subst ho
      simp [h.1]
    · rw [List.cons_append, lookup_cons_of_ne ho, lookup_cons_of_ne ho, ih h.2]

private theorem lookup_replace (entries : List (κ × α)) (key other : κ) (value : α) :
    (entries.map fun entry => if entry.1 == key then (key, value) else entry).lookup other =
      if other == key && entries.any (·.1 == key) then some value else entries.lookup other := by
  induction entries with
  | nil => simp
  | cons entry rest ih =>
    obtain ⟨name, old⟩ := entry
    by_cases hn : name = key
    · subst hn
      by_cases ho : other = name
      · simp [ho]
      · simp only [List.map_cons, beq_self_eq_true, ite_true]
        rw [lookup_cons_of_ne ho, lookup_cons_of_ne ho, ih]
        simp [beq_false_of_ne ho]
    · have hb : (name == key) = false := beq_false_of_ne hn
      by_cases ho : other = name
      · subst ho
        simp [hb]
      · simp only [List.map_cons, hb, Bool.false_eq_true, ite_false, List.any_cons, Bool.false_or]
        rw [lookup_cons_of_ne ho, lookup_cons_of_ne ho, ih]

theorem lookup_put (entries : List (κ × α)) (key other : κ) (value : α) :
    (put entries key value).lookup other =
      if other == key then some value else entries.lookup other := by
  unfold put
  split
  · next h => rw [lookup_replace, h, Bool.and_true]
  · next h => exact lookup_append_single entries key other value (Bool.eq_false_iff.2 h)

theorem lookup_erase (entries : List (κ × α)) (key other : κ) :
    (erase entries key).lookup other =
      if other == key then none else entries.lookup other := by
  unfold erase
  induction entries with
  | nil => simp
  | cons entry rest ih =>
    obtain ⟨name, old⟩ := entry
    by_cases hn : name = key
    · subst hn
      by_cases ho : other = name
      · subst ho
        simpa using ih
      · simp only [List.filter_cons, beq_self_eq_true, Bool.not_true, Bool.false_eq_true, ite_false]
        rw [lookup_cons_of_ne ho, ih]
    · have hb : (name == key) = false := beq_false_of_ne hn
      by_cases ho : other = name
      · subst ho
        simp [hb]
      · simp only [List.filter_cons, hb, Bool.not_false, ite_true]
        rw [lookup_cons_of_ne ho, lookup_cons_of_ne ho, ih]

end UrlHarvest.Entries
