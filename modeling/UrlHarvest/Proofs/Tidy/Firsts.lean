import Mathlib.Data.List.Basic
import Mathlib.Data.List.Induction
import UrlHarvest.Tidy.Order

namespace UrlHarvest.Tidy

variable {α κ : Type} [BEq κ] (key : α → κ)

-- The items whose key no earlier item has. Whatever keeps one item for each key in this library
-- is described by it, whichever index it is made with.
def firsts (items : List α) : List α :=
  items.eraseDupsBy fun a b => key a == key b

@[simp] theorem firsts_nil : firsts key [] = [] := rfl

theorem firsts_cons (item : α) (rest : List α) :
    firsts key (item :: rest) =
      item :: firsts key (rest.filter fun other => !(key other == key item)) := by
  simp only [firsts, List.eraseDupsBy_cons]
  congr 2
  apply List.filter_congr
  intro other _
  cases key other == key item <;> rfl

-- An item, and what is left behind it once the items with its key are gone.
theorem induction_on_firsts {motive : List α → Prop} (nil : motive [])
    (cons : ∀ item rest, motive (rest.filter fun other => !(key other == key item)) →
      motive (item :: rest)) (items : List α) : motive items := by
  match items with
  | [] => exact nil
  | item :: rest => exact cons item rest (induction_on_firsts nil cons _)
termination_by items.length
decreasing_by
  exact Nat.lt_succ_of_le (List.length_filter_le _ _)

theorem firsts_sublist (items : List α) : (firsts key items).Sublist items := by
  induction items using induction_on_firsts key with
  | nil => exact .slnil
  | cons first rest ih =>
      rw [firsts_cons]
      exact (ih.trans List.filter_sublist).cons_cons first

theorem mem_of_mem_firsts (item : α) (items : List α) (h : item ∈ firsts key items) :
    item ∈ items :=
  (firsts_sublist key items).subset h

-- Changing the items but not their keys changes nothing about which of them are kept.
theorem firsts_map_of_key {β : Type} (other : β → κ) (f : α → β)
    (hf : ∀ item, other (f item) = key item) (items : List α) :
    firsts other (items.map f) = (firsts key items).map f := by
  induction items using induction_on_firsts key with
  | nil => rfl
  | cons item rest ih =>
      rw [List.map_cons, firsts_cons, firsts_cons, List.map_cons, ← ih, List.filter_map]
      simp only [Function.comp_def, hf]

theorem firsts_map (f : α → α) (hf : ∀ item, key (f item) = key item) (items : List α) :
    firsts key (items.map f) = (firsts key items).map f :=
  firsts_map_of_key key key f hf items

variable [LawfulBEq κ]

theorem mem_map_filter_of_ne (item : α) (rest : List α) (value : κ) (hne : value ≠ key item) :
    value ∈ (rest.filter fun other => !(key other == key item)).map key ↔
      value ∈ rest.map key := by
  simp only [List.mem_map, List.mem_filter]
  constructor
  · rintro ⟨other, ⟨hm, -⟩, hk⟩
    exact ⟨other, hm, hk⟩
  · rintro ⟨other, hm, rfl⟩
    exact ⟨other, ⟨hm, by simp [hne]⟩, rfl⟩

-- A condition on keys picks the same items before and after the repetitions are gone.
theorem filter_firsts (p : κ → Bool) (items : List α) :
    (firsts key items).filter (fun item => p (key item)) =
      firsts key (items.filter fun item => p (key item)) := by
  induction items using induction_on_firsts key with
  | nil => rfl
  | cons item rest ih =>
      rw [firsts_cons, List.filter_cons, List.filter_cons, ih, List.filter_filter]
      cases hp : p (key item) with
      | true =>
          rw [if_pos rfl, if_pos rfl, firsts_cons, List.filter_filter]
          simp only [Bool.and_comm]
      | false =>
          rw [if_neg Bool.false_ne_true, if_neg Bool.false_ne_true]
          congr 1
          apply List.filter_congr
          intro other _
          by_cases he : key other = key item
          · simp [he, hp]
          · simp [he]

theorem firsts_map_of_injective {β : Type} [BEq β] [LawfulBEq β] (f : κ → β)
    (hf : Function.Injective f) (items : List κ) :
    firsts id (items.map f) = (firsts id items).map f := by
  have hsame : firsts f items = firsts id items := by
    rw [firsts, firsts]
    congr 1
    funext a b
    by_cases he : a = b
    · simp [he]
    · simp [he, hf.ne he]
  rw [firsts_map_of_key f id f (fun _ => rfl), hsame]

theorem firsts_append (front back : List α) :
    firsts key (front ++ back) =
      firsts key front ++
        firsts key (back.filter fun item => !(front.map key).contains (key item)) := by
  induction front using induction_on_firsts key generalizing back with
  | nil =>
      rw [List.nil_append, firsts_nil, List.nil_append, List.filter_eq_self.mpr]
      simp
  | cons item rest ih =>
      rw [List.cons_append, firsts_cons, firsts_cons, List.filter_append, ih, List.cons_append,
        List.filter_filter]
      congr 3
      apply List.filter_congr
      intro other _
      by_cases he : key other = key item
      · simp [he]
      · have hm := mem_map_filter_of_ne key item rest (key other) he
        simp only [List.contains_eq_mem, hm, List.map_cons, List.mem_cons, he, false_or]
        simp [he]

theorem mem_map_firsts (value : κ) (items : List α) :
    value ∈ (firsts key items).map key ↔ value ∈ items.map key := by
  induction items using induction_on_firsts key with
  | nil => rfl
  | cons item rest ih =>
      rw [firsts_cons, List.map_cons, List.map_cons, List.mem_cons, List.mem_cons, ih]
      by_cases he : value = key item
      · simp only [he, true_or]
      · rw [mem_map_filter_of_ne key item rest value he]

theorem contains_map_firsts (items : List α) (value : κ) :
    ((firsts key items).map key).contains value = (items.map key).contains value := by
  rw [List.contains_eq_mem, List.contains_eq_mem, decide_eq_decide, mem_map_firsts]

theorem nodup_map_firsts (items : List α) : ((firsts key items).map key).Nodup := by
  induction items using induction_on_firsts key with
  | nil => exact .nil
  | cons item rest ih =>
      rw [firsts_cons, List.map_cons, List.nodup_cons, ← List.contains_iff_mem,
        contains_map_firsts, List.contains_iff_mem]
      refine ⟨?_, ih⟩
      simp

-- Where no two items have the same key nothing is left out.
theorem firsts_of_nodup (items : List α) (h : (items.map key).Nodup) :
    firsts key items = items := by
  induction items with
  | nil => rfl
  | cons item rest ih =>
      obtain ⟨hitem, hrest⟩ := List.nodup_cons.mp h
      have hkept : (rest.filter fun other => !(key other == key item)) = rest := by
        rw [List.filter_eq_self]
        intro other hother
        have hne : key other ≠ key item :=
          fun he => hitem (he ▸ List.mem_map_of_mem hother)
        simp [hne]
      rw [firsts_cons, hkept, ih hrest]

theorem firsts_firsts (items : List α) : firsts key (firsts key items) = firsts key items :=
  firsts_of_nodup key _ (nodup_map_firsts key items)

theorem firsts_concat_of_mem (front : List α) (item : α) (h : key item ∈ front.map key) :
    firsts key (front ++ [item]) = firsts key front := by
  have hmet : (front.map key).contains (key item) = true := List.contains_iff_mem.mpr h
  rw [firsts_append, List.filter_cons, hmet]
  exact List.append_nil _

theorem firsts_concat_of_notMem (front : List α) (item : α) (h : key item ∉ front.map key) :
    firsts key (front ++ [item]) = firsts key front ++ [item] := by
  have hnew : (front.map key).contains (key item) = false := by
    rw [← Bool.not_eq_true, List.contains_iff_mem]
    exact h
  rw [firsts_append, List.filter_cons, hnew]
  rfl

-- Taking repetitions out of the parts first changes nothing about the whole.
theorem firsts_append_firsts (front back : List α) :
    firsts key (firsts key front ++ firsts key back) = firsts key (front ++ back) := by
  have hback := filter_firsts key (fun value => !(front.map key).contains value) back
  rw [firsts_append, firsts_append, firsts_firsts]
  simp only [contains_map_firsts]
  rw [hback, firsts_firsts]

/-! Which items are the first ones, said of their places -/

-- The items in front of which no item has their key.
def newcomers (items : List α) : List α :=
  (items.zipIdx.filter fun entry =>
    (items.take entry.2).all fun earlier => key earlier != key entry.1).map Prod.fst

omit [LawfulBEq κ] in
theorem newcomers_concat (front : List α) (item : α) :
    newcomers key (front ++ [item]) =
      newcomers key front ++ if front.all (key · != key item) then [item] else [] := by
  have hplaces : (front ++ [item]).zipIdx = front.zipIdx ++ [(item, front.length)] := by
    simp [List.zipIdx_append]
  have hfront : (front.zipIdx.filter fun entry =>
      ((front ++ [item]).take entry.2).all fun earlier => key earlier != key entry.1) =
        front.zipIdx.filter fun entry =>
          (front.take entry.2).all fun earlier => key earlier != key entry.1 := by
    apply List.filter_congr
    intro entry hentry
    have hplace : entry.2 < front.length := by
      simpa using (List.mem_zipIdx hentry).2.1
    rw [List.take_append_of_le_length (Nat.le_of_lt hplace)]
  rw [newcomers, hplaces, List.filter_append, hfront, List.map_append, newcomers]
  congr 1
  cases hnew : front.all (key · != key item) <;> simp [hnew]

theorem firsts_eq_newcomers (items : List α) : firsts key items = newcomers key items := by
  induction items using List.reverseRecOn with
  | nil => rfl
  | append_singleton front item ih =>
      rw [newcomers_concat, ← ih]
      by_cases hmet : key item ∈ front.map key
      · obtain ⟨other, hother, he⟩ := List.mem_map.mp hmet
        have hall : front.all (key · != key item) = false := by
          rw [List.all_eq_false]
          exact ⟨other, hother, by simp [he]⟩
        rw [firsts_concat_of_mem key front item hmet, hall, if_neg Bool.false_ne_true,
          List.append_nil]
      · have hall : front.all (key · != key item) = true := by
          rw [List.all_eq_true]
          intro other hother
          exact bne_iff_ne.mpr fun he => hmet (he ▸ List.mem_map_of_mem hother)
        rw [firsts_concat_of_notMem key front item hmet, hall, if_pos rfl]

-- Each item of `items` stands once in `found`, and they stand in order of first occurrence.
structure ListsOnce (items found : List κ) : Prop where
  nodup : found.Nodup
  mem_iff : ∀ item, item ∈ found ↔ item ∈ items
  ordered : found.Pairwise (items.idxOf · < items.idxOf ·)

-- The place of an item does not change with what comes behind it, and an item that is new stands
-- behind all others.
theorem pairwise_idxOf_firsts (items : List κ) :
    (firsts id items).Pairwise (items.idxOf · < items.idxOf ·) := by
  induction items using List.reverseRecOn with
  | nil => exact .nil
  | append_singleton front item ih =>
      have hstays (other : κ) (hother : other ∈ firsts id front) :
          (front ++ [item]).idxOf other = front.idxOf other :=
        List.idxOf_append_of_mem (mem_of_mem_firsts id other front hother)
      have hfront : (firsts id front).Pairwise
          ((front ++ [item]).idxOf · < (front ++ [item]).idxOf ·) := by
        refine ih.imp_of_mem fun ha hb hlt => ?_
        rwa [hstays _ ha, hstays _ hb]
      by_cases hmet : item ∈ front
      · rw [firsts_concat_of_mem id front item (by simpa using hmet)]
        exact hfront
      · rw [firsts_concat_of_notMem id front item (by simpa using hmet), List.pairwise_append]
        refine ⟨hfront, List.pairwise_singleton _ _, fun other hother last hlast => ?_⟩
        obtain rfl := List.mem_singleton.mp hlast
        have hplace : front.idxOf other < front.length :=
          List.idxOf_lt_length_of_mem (mem_of_mem_firsts id other front hother)
        rw [hstays other hother, List.idxOf_append_of_notMem hmet]
        omega

theorem listsOnce_firsts (items : List κ) : ListsOnce items (firsts id items) where
  nodup := by simpa using nodup_map_firsts id items
  mem_iff item := by simpa using mem_map_firsts id item items
  ordered := pairwise_idxOf_firsts items

variable [Hashable κ] [LawfulHashable κ]

-- What has been met and what has been kept once the items in `front` are behind.
structure Kept.After (kept : Kept α κ) (front : List α) : Prop where
  seen : ∀ value, value ∈ kept.seen ↔ value ∈ front.map key
  items : kept.items.toList = firsts key front

theorem Kept.After.concat (kept : Kept α κ) (front : List α) (item : α)
    (h : kept.After key front) :
    Kept.After key (if kept.seen.contains (key item) then kept
      else ⟨kept.seen.insert (key item), kept.items.push item⟩) (front ++ [item]) := by
  have hlast (value : κ) :
      value ∈ (front ++ [item]).map key ↔ key item = value ∨ value ∈ front.map key := by
    rw [List.map_append, List.mem_append, List.map_singleton, List.mem_singleton, or_comm,
      eq_comm]
  by_cases hmet : key item ∈ kept.seen
  · have hfront := (h.seen (key item)).mp hmet
    rw [if_pos (Std.HashSet.contains_iff_mem.mpr hmet)]
    constructor
    · intro value
      rw [h.seen, hlast]
      exact ⟨.inr, fun hvalue => hvalue.elim (fun he => he ▸ hfront) id⟩
    · rw [h.items, firsts_concat_of_mem key front item hfront]
  · have hfront := mt (h.seen (key item)).mpr hmet
    rw [if_neg (mt Std.HashSet.contains_iff_mem.mp hmet)]
    constructor
    · intro value
      rw [Std.HashSet.mem_insert, h.seen, hlast, beq_iff_eq]
    · rw [Array.toList_push, h.items, firsts_concat_of_notMem key front item hfront]

-- The index of the keys met so far decides as the list of these keys would.
theorem keepFirst_eq_firsts (items : List α) : keepFirst key items = firsts key items := by
  suffices hafter : Kept.After key (items.foldl (fun kept item =>
      if kept.seen.contains (key item) then kept
      else ⟨kept.seen.insert (key item), kept.items.push item⟩) {}) items from hafter.items
  induction items using List.reverseRecOn with
  | nil => exact ⟨by simp, rfl⟩
  | append_singleton front item ih =>
      rw [List.foldl_append]
      exact ih.concat key _ front item

end UrlHarvest.Tidy
