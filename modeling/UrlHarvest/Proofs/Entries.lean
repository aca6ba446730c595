import Mathlib.Data.List.Basic
import UrlHarvest.Entries
import UrlHarvest.Proofs.Tidy.Firsts

namespace UrlHarvest.Entries

variable {κ α : Type} [BEq κ]

def keys {κ α : Type} (entries : List (κ × α)) : List κ :=
  entries.map Prod.fst

-- What is left of some entries once others with the same keys have been put over them.
def without (entries : List (κ × α)) (taken : List κ) : List (κ × α) :=
  entries.filter fun entry => !taken.contains entry.1

theorem without_nil (entries : List (κ × α)) : without entries [] = entries :=
  List.filter_eq_self.mpr fun _ _ => rfl

theorem nodup_keys_without (entries : List (κ × α)) (taken : List κ) (h : (keys entries).Nodup) :
    (keys (without entries taken)).Nodup :=
  (List.filter_sublist.map Prod.fst).nodup h

def putAll (known additions : List (κ × α)) : List (κ × α) :=
  additions.foldl (fun known entry => put known entry.1 entry.2) known

theorem putAll_append (known front back : List (κ × α)) :
    putAll known (front ++ back) = putAll (putAll known front) back :=
  List.foldl_append

variable [LawfulBEq κ]

theorem put_cons_of_eq (key : κ) (old value : α) (rest : List (κ × α)) (h : key ∉ keys rest) :
    put ((key, old) :: rest) key value = (key, value) :: rest := by
  have hrest : (rest.map fun entry => if entry.1 == key then (key, value) else entry) = rest := by
    conv => rhs; rw [← List.map_id rest]
    apply List.map_congr_left
    intro entry hentry
    have hne : entry.1 ≠ key := by
      rintro rfl
      exact h (List.mem_map_of_mem hentry)
    rw [beq_false_of_ne hne, if_neg Bool.false_ne_true, id]
  simp [put, hrest]

theorem put_cons_of_ne (entry : κ × α) (rest : List (κ × α)) (key : κ) (value : α)
    (h : entry.1 ≠ key) : put (entry :: rest) key value = entry :: put rest key value := by
  have hentry : (entry.1 == key) = false := beq_false_of_ne h
  simp only [put, List.any_cons, hentry, Bool.false_or, List.map_cons, Bool.false_eq_true,
    ite_false]
  split <;> rfl

-- A key that is written again keeps its place, so the entries are those of the two statements in
-- some order only.
theorem put_perm (entries : List (κ × α)) (key : κ) (value : α) (h : (keys entries).Nodup) :
    (put entries key value).Perm ((key, value) :: without entries [key]) := by
  induction entries with
  | nil => exact .refl _
  | cons entry rest ih =>
      obtain ⟨hentry, hrest⟩ := List.nodup_cons.mp h
      by_cases he : entry.1 = key
      · have hkept : without rest [key] = rest := by
          refine List.filter_eq_self.mpr fun other hother => ?_
          have hne : other.1 ≠ key := by
            rintro rfl
            exact hentry (he ▸ List.mem_map_of_mem hother)
          simp [hne]
        obtain ⟨name, old⟩ := entry
        obtain rfl : name = key := he
        rw [put_cons_of_eq name old value rest hentry]
        have hdrop : without ((name, old) :: rest) [name] = without rest [name] := by
          simp [without]
        rw [hdrop, hkept]
      · have hkeep : without (entry :: rest) [key] = entry :: without rest [key] := by
          simp [without, he]
        rw [put_cons_of_ne entry rest key value he, hkeep]
        exact ((ih hrest).cons entry).trans (.swap _ _ _)

theorem nodup_keys_put (entries : List (κ × α)) (key : κ) (value : α) (h : (keys entries).Nodup) :
    (keys (put entries key value)).Nodup := by
  rw [keys, ((put_perm entries key value h).map Prod.fst).nodup_iff, List.map_cons, List.nodup_cons]
  refine ⟨fun hmem => ?_, nodup_keys_without entries [key] h⟩
  obtain ⟨entry, hentry, he⟩ := List.mem_map.mp hmem
  have hne := (List.mem_filter.mp hentry).2
  simp [he] at hne

theorem nodup_keys_putAll (known additions : List (κ × α)) (h : (keys known).Nodup) :
    (keys (putAll known additions)).Nodup := by
  induction additions generalizing known with
  | nil => exact h
  | cons entry rest ih => exact ih _ (nodup_keys_put known entry.1 entry.2 h)

-- Entries with keys of their own all stay, and of the known ones those that they do not replace.
theorem putAll_perm (known additions : List (κ × α)) (hknown : (keys known).Nodup)
    (hadditions : (keys additions).Nodup) :
    (putAll known additions).Perm (additions ++ without known (keys additions)) := by
  induction additions generalizing known with
  | nil => exact .of_eq (without_nil known).symm
  | cons entry rest ih =>
      obtain ⟨hentry, hrest⟩ := List.nodup_cons.mp hadditions
      have hkept : without (entry :: without known [entry.1]) (keys rest) =
          entry :: without known (keys (entry :: rest)) := by
        have hcontains : (keys rest).contains entry.1 = false := by
          rw [List.contains_eq_mem]
          exact decide_eq_false hentry
        rw [without, List.filter_cons_of_pos (by simp only [hcontains, Bool.not_false])]
        simp only [without, List.filter_filter, keys, List.map_cons, List.contains_cons,
          List.contains_nil, Bool.or_false, Bool.not_or, Bool.and_comm]
      calc putAll known (entry :: rest)
          _ = putAll (put known entry.1 entry.2) rest := rfl
          _ |>.Perm (rest ++ without (put known entry.1 entry.2) (keys rest)) :=
            ih _ (nodup_keys_put known entry.1 entry.2 hknown) hrest
          _ |>.Perm (rest ++ without (entry :: without known [entry.1]) (keys rest)) :=
            ((put_perm known entry.1 entry.2 hknown).filter _).append_left rest
          _ |>.Perm (entry :: rest ++ without known (keys (entry :: rest))) := by
            rw [hkept]
            exact List.perm_middle

section Keys

variable (entries : List (κ × α)) (key : κ) (value : α)

theorem keys_put_of_mem (h : key ∈ keys entries) :
    keys (put entries key value) = keys entries := by
  obtain ⟨entry, hentry, he⟩ := List.mem_map.mp h
  have hany : entries.any (·.1 == key) = true :=
    List.any_eq_true.mpr ⟨entry, hentry, beq_iff_eq.mpr he⟩
  rw [put, if_pos hany, keys, List.map_map]
  apply List.map_congr_left
  intro other _
  by_cases ho : other.1 = key <;> simp [ho]

theorem keys_put_of_notMem (h : key ∉ keys entries) :
    keys (put entries key value) = keys entries ++ [key] := by
  have hany : entries.any (·.1 == key) = false := by
    rw [List.any_eq_false]
    intro entry hentry he
    exact h (beq_iff_eq.mp he ▸ List.mem_map_of_mem hentry)
  rw [put, hany, if_neg Bool.false_ne_true, keys, List.map_append]
  rfl

theorem keys_foldl_put (names : List κ) (entries : List (κ × α))
    (h : ∀ key ∈ names, key ∈ keys entries) :
    keys (names.foldl (fun entries key => put entries key value) entries) = keys entries := by
  induction names generalizing entries with
  | nil => rfl
  | cons key rest ih =>
      obtain ⟨hkey, hrest⟩ := List.forall_mem_cons.mp h
      have hput := keys_put_of_mem entries key value hkey
      rw [List.foldl_cons, ih _ (hput ▸ hrest), hput]

omit [LawfulBEq κ] in
theorem keys_erase : keys (erase entries key) = (keys entries).filter (!· == key) := by
  rw [keys, keys, List.filter_map]
  rfl

theorem mem_keys_iff : key ∈ keys entries ↔ ∃ value, entries.lookup key = some value := by
  induction entries with
  | nil => simp [keys]
  | cons entry rest ih =>
      obtain ⟨name, old⟩ := entry
      by_cases hn : key = name
      · subst hn
        simp [keys]
      · rw [List.lookup_cons, beq_false_of_ne hn, keys, List.map_cons, List.mem_cons, ← keys, ih]
        simp [hn]

-- Under distinct keys every entry is found.
theorem lookup_eq_some_iff_mem (h : (keys entries).Nodup) :
    entries.lookup key = some value ↔ (key, value) ∈ entries := by
  induction entries with
  | nil => simp
  | cons entry rest ih =>
      obtain ⟨name, old⟩ := entry
      obtain ⟨hname, hrest⟩ := List.nodup_cons.mp h
      by_cases hn : key = name
      · subst hn
        have hbehind : (key, value) ∉ rest := fun hmem =>
          hname (List.mem_map.mpr ⟨(key, value), hmem, rfl⟩)
        simp [hbehind, eq_comm]
      · rw [List.lookup_cons, beq_false_of_ne hn, ih hrest]
        simp [hn]

end Keys

/-! Entries that give each name the value that a function has there -/

def graph (names : List κ) (value : κ → α) : List (κ × α) :=
  names.map fun name => (name, value name)

theorem any_graph (names : List κ) (value : κ → α) (name : κ) :
    (graph names value).any (·.1 == name) = names.contains name := by
  rw [graph, List.any_map, List.contains_eq_any_beq]
  congr 1
  funext other
  exact Bool.beq_comm

theorem put_graph_of_mem (names : List κ) (value : κ → α) (name : κ) (new : α)
    (h : name ∈ names) :
    put (graph names value) name new =
      graph names fun other => if other == name then new else value other := by
  have hany : (graph names value).any (·.1 == name) = true := by
    rw [any_graph]
    exact List.contains_iff_mem.mpr h
  rw [put, if_pos hany, graph, graph, List.map_map]
  apply List.map_congr_left
  intro other _
  by_cases he : other = name <;> simp [he]

theorem put_graph_of_notMem (names : List κ) (value : κ → α) (name : κ) (new : α)
    (h : name ∉ names) :
    put (graph names value) name new =
      graph (names ++ [name]) fun other => if other == name then new else value other := by
  have hany : (graph names value).any (·.1 == name) = false := by
    rw [any_graph, ← Bool.not_eq_true]
    exact mt List.contains_iff_mem.mp h
  have hkept : graph names value =
      graph names fun other => if other == name then new else value other := by
    apply List.map_congr_left
    intro other hother
    have hne : other ≠ name := fun he => h (he ▸ hother)
    simp [hne]
  rw [put, hany, if_neg Bool.false_ne_true, hkept, graph, graph, List.map_append]
  simp

/-! What a run over items leaves under each name -/

section Gather

open Tidy (firsts firsts_concat_of_mem firsts_concat_of_notMem listsOnce_firsts)

variable {ι : Type} (key : ι → κ) (start : α) (step : α → ι → α)

-- What the items of one name come to.
def total (items : List ι) (name : κ) : α :=
  (items.filter (key · == name)).foldl step start

omit [LawfulBEq κ] in
theorem total_concat (front : List ι) (item : ι) (name : κ) :
    total key start step (front ++ [item]) name =
      if key item == name then step (total key start step front name) item
      else total key start step front name := by
  rw [total, List.filter_append, List.foldl_append]
  cases hname : key item == name <;> simp [hname, total]

theorem total_of_notMem (items : List ι) (name : κ) (h : name ∉ items.map key) :
    total key start step items name = start := by
  have hnone : items.filter (key · == name) = [] := by
    rw [List.filter_eq_nil_iff]
    intro item hitem hname
    exact h (beq_iff_eq.mp hname ▸ List.mem_map_of_mem hitem)
  rw [total, hnone, List.foldl_nil]

-- The names in order of first occurrence, each with what its items come to.
def totals (items : List ι) : List (κ × α) :=
  graph (firsts id (items.map key)) (total key start step items)

theorem getD_lookup_totals (items : List ι) (name : κ) :
    ((totals key start step items).lookup name).getD start =
      total key start step items name := by
  by_cases hname : name ∈ firsts id (items.map key)
  · have hlookup := List.lookup_graph (total key start step items) hname
    rw [totals, graph, hlookup, Option.getD_some]
  · have hlookup : (totals key start step items).lookup name = none := by
      rw [List.lookup_eq_none_iff]
      intro entry hentry
      obtain ⟨other, hother, rfl⟩ := List.mem_map.mp hentry
      exact bne_iff_ne.mpr fun he => hname (he ▸ hother)
    have hitems : name ∉ items.map key := mt ((listsOnce_firsts _).mem_iff name).mpr hname
    rw [hlookup, Option.getD_none, total_of_notMem key start step items name hitems]

theorem enter_totals (front : List ι) (item : ι) :
    enter key start step (totals key start step front) item =
      totals key start step (front ++ [item]) := by
  have hvalue : total key start step (front ++ [item]) = fun other =>
      if other == key item then step (total key start step front (key item)) item
      else total key start step front other := by
    funext other
    rw [total_concat]
    by_cases he : other = key item
    · simp [he]
    · simp [he, Ne.symm he]
  have hnames : key item ∈ firsts id (front.map key) ↔ key item ∈ front.map key :=
    (listsOnce_firsts _).mem_iff (key item)
  rw [enter, getD_lookup_totals, totals, totals, hvalue, List.map_append, List.map_singleton]
  -- a name that was met keeps its place, and a new one comes behind all others
  by_cases hmet : key item ∈ front.map key
  · rw [put_graph_of_mem _ _ _ _ (hnames.mpr hmet),
      firsts_concat_of_mem id _ _ (by simpa using hmet)]
  · rw [put_graph_of_notMem _ _ _ _ (mt hnames.mp hmet),
      firsts_concat_of_notMem id _ _ (by simpa using hmet)]

-- What one item does to the totals, done for all of them.
theorem gather_eq_totals (items : List ι) :
    gather key start step items = totals key start step items := by
  induction items using List.reverseRecOn with
  | nil => rfl
  | append_singleton front item ih =>
      rw [gather, List.foldl_append, ← gather, ih]
      exact enter_totals key start step front item

end Gather

end UrlHarvest.Entries
