import UrlHarvest.Proofs.Text.Lines
import UrlHarvest.Proofs.Text.Space
import UrlHarvest.Proofs.Text.Utf8
import UrlHarvest.Proofs.Tidy.Order
import UrlHarvest.Tidy.Document

namespace UrlHarvest.Tidy

-- A line that a clean-up leaves as it is.
structure Tidied (line : String) : Prop where
  trimmed : trimmed line = line
  notBlank : line ≠ ""
  single : '\n' ∉ line.toList

theorem newline_notMem_of_mem_linesOf (bytes : List UInt8) (line : String)
    (hline : line ∈ linesOf bytes) : '\n' ∉ line.toList := by
  obtain ⟨row, hrow, rfl⟩ := List.mem_map.mp hline
  rw [String.toList_ofList]
  exact Text.newline_notMem_of_mem_lines _ row hrow

theorem tidied_of_mem_trimmedLines (bytes : List UInt8) (line : String)
    (hline : line ∈ trimmedLines (linesOf bytes)) : Tidied line := by
  obtain ⟨hmem, hne⟩ := List.mem_filter.mp hline
  obtain ⟨row, hrow, rfl⟩ := List.mem_map.mp hmem
  refine ⟨trimmed_trimmed row, bne_iff_ne.mp hne, fun hnewline => ?_⟩
  rw [toList_trimmed] at hnewline
  exact newline_notMem_of_mem_linesOf bytes row hrow ((Text.trim_sublist _).subset hnewline)

theorem trimmedLines_eq_self (lines : List String)
    (htrimmed : ∀ line ∈ lines, trimmed line = line) (hblank : ∀ line ∈ lines, line ≠ "") :
    trimmedLines lines = lines := by
  have hmap : lines.map trimmed = lines :=
    (List.map_congr_left htrimmed).trans (List.map_id _)
  rw [trimmedLines, hmap, List.filter_eq_self]
  intro line hline
  exact bne_iff_ne.mpr (hblank line hline)

theorem trimmedLines_of_tidied (lines : List String) (hlines : ∀ line ∈ lines, Tidied line) :
    trimmedLines lines = lines :=
  trimmedLines_eq_self lines (fun line hline => (hlines line hline).trimmed)
    fun line hline => (hlines line hline).notBlank

-- Lines that have been through a clean-up are left as they are by the next one.
theorem trimmedLines_of_subset (lines kept : List String) (h : kept ⊆ trimmedLines lines) :
    trimmedLines kept = kept := by
  apply trimmedLines_eq_self
  · intro line hline
    obtain ⟨row, -, rfl⟩ := List.mem_map.mp (List.mem_filter.mp (h hline)).1
    exact trimmed_trimmed row
  · intro line hline
    exact bne_iff_ne.mp (List.mem_filter.mp (h hline)).2

-- The content of a file with the given lines.
def contentOf (lines : List String) : List UInt8 :=
  Text.Utf8.encode (joined lines).toList

theorem linesOf_contentOf (lines : List String) (hne : lines ≠ [])
    (hlines : ∀ line ∈ lines, '\n' ∉ line.toList) : linesOf (contentOf lines) = lines := by
  have hjoined : (joined lines).toList = Text.unlines (lines.map String.toList) :=
    String.toList_intercalate
  rw [linesOf, contentOf, Text.Utf8.decode_encode, hjoined, Text.lines_unlines]
  · simp
  · simpa using hne
  · simpa using hlines

-- No lines at all are written as an empty file, which reads as a single blank line.
theorem trimmedLines_contentOf (lines : List String) (hlines : ∀ line ∈ lines, Tidied line) :
    trimmedLines (linesOf (contentOf lines)) = lines := by
  cases lines with
  | nil => decide
  | cons line more =>
      have hsingle : ∀ other ∈ line :: more, '\n' ∉ other.toList :=
        fun other hother => (hlines other hother).single
      rw [linesOf_contentOf _ (List.cons_ne_nil _ _) hsingle]
      exact trimmedLines_of_tidied _ hlines

theorem dedupeLines_eq_firsts (lines : List String) :
    dedupeLines lines = firsts id (trimmedLines lines) :=
  keepFirst_eq_firsts id _

theorem nodup_dedupeLines (lines : List String) : (dedupeLines lines).Nodup := by
  rw [dedupeLines_eq_firsts]
  exact (listsOnce_firsts _).nodup

-- Sorting and taking repetitions away can change places. Both leave the same lines, each of them
-- once, and what is left of sorted lines is still sorted.
theorem firsts_mergeSort (order : LineOrder) (lines : List String) :
    firsts id (lines.mergeSort order.le) = (firsts id lines).mergeSort order.le := by
  have hsorted := listsOnce_firsts (lines.mergeSort order.le)
  have hlines := listsOnce_firsts lines
  refine (order.mergeSort_eq_of_perm _ _ ?_ ?_).symm
  · rw [List.perm_ext_iff_of_nodup hsorted.nodup hlines.nodup]
    intro line
    rw [hsorted.mem_iff, hlines.mem_iff, (List.mergeSort_perm lines order.le).mem_iff]
  · exact (order.ranks.pairwise_mergeSort lines).sublist (firsts_sublist id _)

/-! What a clean-up leaves of a file -/

def deduped (bytes : List UInt8) : List UInt8 :=
  contentOf (dedupeLines (linesOf bytes))

def sorted (order : LineOrder) (bytes : List UInt8) : List UInt8 :=
  contentOf (sortLines order (linesOf bytes))

theorem trimmedLines_deduped (bytes : List UInt8) :
    trimmedLines (linesOf (deduped bytes)) = dedupeLines (linesOf bytes) := by
  apply trimmedLines_contentOf
  intro line hline
  rw [dedupeLines_eq_firsts] at hline
  exact tidied_of_mem_trimmedLines bytes line (mem_of_mem_firsts id line _ hline)

theorem trimmedLines_sorted (order : LineOrder) (bytes : List UInt8) :
    trimmedLines (linesOf (sorted order bytes)) = sortLines order (linesOf bytes) := by
  apply trimmedLines_contentOf
  intro line hline
  exact tidied_of_mem_trimmedLines bytes line ((List.mergeSort_perm _ _).mem_iff.mp hline)

theorem deduped_deduped (bytes : List UInt8) : deduped (deduped bytes) = deduped bytes := by
  have hstill : dedupeLines (linesOf (deduped bytes)) = dedupeLines (linesOf bytes) := by
    rw [dedupeLines_eq_firsts, trimmedLines_deduped, dedupeLines_eq_firsts, firsts_firsts]
  exact congrArg contentOf hstill

theorem sorted_sorted (order : LineOrder) (bytes : List UInt8) :
    sorted order (sorted order bytes) = sorted order bytes := by
  have hstill :
      sortLines order (linesOf (sorted order bytes)) = sortLines order (linesOf bytes) := by
    rw [sortLines, trimmedLines_sorted]
    exact order.ranks.mergeSort_mergeSort _
  exact congrArg contentOf hstill

theorem sorted_deduped (order : LineOrder) (bytes : List UInt8) :
    sorted order (deduped bytes) = deduped (sorted order bytes) := by
  have hsame :
      sortLines order (linesOf (deduped bytes)) = dedupeLines (linesOf (sorted order bytes)) := by
    rw [sortLines, trimmedLines_deduped, dedupeLines_eq_firsts, dedupeLines_eq_firsts,
      trimmedLines_sorted, sortLines, firsts_mergeSort]
  exact congrArg contentOf hsame

theorem repeatedCount_of_nodup (lines : List String) (h : (trimmedLines lines).Nodup) :
    repeatedCount lines = 0 := by
  have hall : dedupeLines lines = trimmedLines lines := by
    rw [dedupeLines_eq_firsts]
    exact firsts_of_nodup id _ (by rwa [List.map_id])
  rw [repeatedCount, hall, Nat.sub_self]

theorem repeatedCount_deduped (bytes : List UInt8) :
    repeatedCount (linesOf (deduped bytes)) = 0 := by
  apply repeatedCount_of_nodup
  rw [trimmedLines_deduped]
  exact nodup_dedupeLines _

theorem repeatedCount_sorted_deduped (order : LineOrder) (bytes : List UInt8) :
    repeatedCount (linesOf (sorted order (deduped bytes))) = 0 := by
  rw [sorted_deduped]
  exact repeatedCount_deduped _

end UrlHarvest.Tidy
