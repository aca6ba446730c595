import Mathlib.Data.Prod.Lex
import Mathlib.Data.String.Basic
import UrlHarvest.Proofs.Tidy.Firsts
import UrlHarvest.Tidy.Lines
import UrlHarvest.Tidy.Urls

namespace UrlHarvest.Tidy

/-! Sorting by a rank that every item has -/

-- Of two items the one of the lower rank stands in front, and items of one rank stand in either
-- order.
def Ranks {α ρ : Type} [LE ρ] (le : α → α → Bool) (rank : α → ρ) : Prop :=
  ∀ a b, le a b = true ↔ rank a ≤ rank b

namespace Ranks

variable {α ρ : Type} [LinearOrder ρ] {le : α → α → Bool} {rank : α → ρ} (h : Ranks le rank)

include h

theorem total (a b : α) : (le a b || le b a) = true := by
  rw [Bool.or_eq_true, h, h]
  exact le_total (rank a) (rank b)

theorem trans (a b c : α) (hab : le a b = true) (hbc : le b c = true) : le a c = true := by
  rw [h] at hab hbc ⊢
  exact hab.trans hbc

theorem pairwise_mergeSort (items : List α) :
    (items.mergeSort le).Pairwise (le · · = true) :=
  List.pairwise_mergeSort h.trans h.total items

theorem pairwise_rank_mergeSort (items : List α) :
    (items.mergeSort le).Pairwise (rank · ≤ rank ·) :=
  (h.pairwise_mergeSort items).imp fun hab => (h _ _).mp hab

theorem mergeSort_mergeSort (items : List α) :
    (items.mergeSort le).mergeSort le = items.mergeSort le :=
  List.mergeSort_of_pairwise (h.pairwise_mergeSort items)

-- The order in which items of different ranks came in leaves no trace.
theorem map_rank_mergeSort_of_perm (items others : List α) (hperm : others.Perm items) :
    (others.mergeSort le).map rank = (items.mergeSort le).map rank := by
  have hsame : (others.mergeSort le).Perm (items.mergeSort le) :=
    (List.mergeSort_perm others le).trans (hperm.trans (List.mergeSort_perm items le).symm)
  apply List.Perm.eq_of_pairwise fun _ _ _ _ => le_antisymm
  · exact List.pairwise_map.mpr (h.pairwise_rank_mergeSort others)
  · exact List.pairwise_map.mpr (h.pairwise_rank_mergeSort items)
  · exact hsame.map rank

-- The items of one rank are sorted among themselves as they are, so they all stand in the result
-- in the order in which they came in.
theorem filter_rank_mergeSort (items : List α) (value : ρ) :
    (items.mergeSort le).filter (rank · = value) = items.filter (rank · = value) := by
  have hsorted : (items.filter (rank · = value)).Pairwise (le · · = true) := by
    apply List.pairwise_of_forall_mem_list
    intro a ha b hb
    have hranka : rank a = value := by simpa using (List.mem_filter.mp ha).2
    have hrankb : rank b = value := by simpa using (List.mem_filter.mp hb).2
    rw [h, hranka, hrankb]
  have hsub := List.sublist_mergeSort h.trans h.total hsorted List.filter_sublist
  have hkept := hsub.filter (rank · = value)
  rw [List.filter_filter] at hkept
  simp only [Bool.and_self] at hkept
  have hlength := ((List.mergeSort_perm items le).filter (rank · = value)).length_eq
  exact (hkept.eq_of_length hlength.symm).symm

end Ranks

section ByKey

variable {α κ : Type} [LinearOrder κ] (key : α → κ) (text : α → String)

theorem ranks_byKey : Ranks (byKey key text) fun item => toLex (key item, text item) := by
  intro a b
  rw [Prod.Lex.toLex_le_toLex, ← compare_lt_iff_lt, byKey]
  cases hcompare : compare (key a) (key b) with
  | lt => simp
  | gt =>
      have hne : key a ≠ key b := ne_of_gt (compare_gt_iff_gt.mp hcompare)
      simp [hne]
  | eq =>
      have heq : key a = key b := compare_eq_iff_eq.mp hcompare
      simp [heq]

-- A key that tells the texts apart needs no text behind it.
theorem ranks_key (htext : ∀ a b, key a = key b → text a = text b) :
    Ranks (fun a b => decide (key a ≤ key b)) fun item => toLex (key item, text item) := by
  intro a b
  rw [Prod.Lex.toLex_le_toLex, decide_eq_true_eq, le_iff_lt_or_eq]
  refine or_congr_right ⟨fun heq => ⟨heq, (htext a b heq).le⟩, And.left⟩

end ByKey

end UrlHarvest.Tidy

namespace UrlHarvest.LineOrder

open OrderDual (toDual)

/-! What each order of lines looks at before the line itself -/

def Key : LineOrder → Type
  | ascending | domain => String
  | descending => Stringᵒᵈ
  | shortestFirst => Nat
  | longestFirst => Int

instance (order : LineOrder) : LinearOrder order.Key :=
  match order with
  | ascending | domain => inferInstanceAs (LinearOrder String)
  | descending => inferInstanceAs (LinearOrder Stringᵒᵈ)
  | shortestFirst => inferInstanceAs (LinearOrder Nat)
  | longestFirst => inferInstanceAs (LinearOrder Int)

def key : (order : LineOrder) → String → order.Key
  | ascending, line => line
  | descending, line => toDual line
  | domain, line => domainOf line
  | shortestFirst, line => line.length
  | longestFirst, line => -(line.length : Int)

def rank (order : LineOrder) (line : String) : order.Key ×ₗ String :=
  toLex (order.key line, line)

theorem ranks (order : LineOrder) : Tidy.Ranks order.le order.rank := by
  cases order with
  | ascending => exact Tidy.ranks_key (fun line : String => line) id fun _ _ => id
  | descending => exact Tidy.ranks_key (toDual : String → Stringᵒᵈ) id fun _ _ => id
  | domain => exact Tidy.ranks_byKey domainOf id
  | shortestFirst => exact Tidy.ranks_byKey String.length id
  | longestFirst => exact Tidy.ranks_byKey (fun line : String => -(line.length : Int)) id

theorem rank_injective (order : LineOrder) : Function.Injective order.rank :=
  fun _ _ h => congrArg (fun rank => (ofLex rank).2) h

-- There is one order of the lines of a list, whatever order they came in.
theorem mergeSort_congr (order : LineOrder) (lines others : List String)
    (hperm : others.Perm lines) : others.mergeSort order.le = lines.mergeSort order.le :=
  order.rank_injective.list_map (order.ranks.map_rank_mergeSort_of_perm lines others hperm)

theorem mergeSort_eq_of_perm (order : LineOrder) (lines sorted : List String)
    (hperm : sorted.Perm lines) (hsorted : sorted.Pairwise (order.le · ·)) :
    lines.mergeSort order.le = sorted :=
  (order.mergeSort_congr lines sorted hperm).symm.trans (List.mergeSort_of_pairwise hsorted)

end UrlHarvest.LineOrder

namespace UrlHarvest.UrlOrder

/-! What each order of records looks at before the value -/

def Key : UrlOrder → Type
  | length => Nat
  | value | scheme | host | type => String

instance (order : UrlOrder) : LinearOrder order.Key :=
  match order with
  | length => inferInstanceAs (LinearOrder Nat)
  | value | scheme | host | type => inferInstanceAs (LinearOrder String)

def key : (order : UrlOrder) → Url → order.Key
  | value, url => url.value
  | scheme, url => url.scheme.tag
  | host, url => url.valueHost?.getD url.value
  | length, url => url.value.length
  | type, url => url.typeName

def rank (order : UrlOrder) (url : Url) : order.Key ×ₗ String :=
  toLex (order.key url, url.value)

theorem ranks (order : UrlOrder) : Tidy.Ranks order.le order.rank := by
  cases order with
  | value => exact Tidy.ranks_key Url.value Url.value fun _ _ => id
  | scheme => exact Tidy.ranks_byKey (·.scheme.tag) Url.value
  | host => exact Tidy.ranks_byKey (fun url => url.valueHost?.getD url.value) Url.value
  | length => exact Tidy.ranks_byKey (·.value.length) Url.value
  | type => exact Tidy.ranks_byKey Url.typeName Url.value

end UrlHarvest.UrlOrder
