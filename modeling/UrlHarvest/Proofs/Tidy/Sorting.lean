import UrlHarvest.Proofs.Tidy.Lines

namespace UrlHarvest.Tidy

/-! Lines -/

variable (order : LineOrder) (lines : List String)

theorem sortLines_perm : (sortLines order lines).Perm (trimmedLines lines) :=
  List.mergeSort_perm _ _

theorem trimmedLines_sortLines :
    trimmedLines (sortLines order lines) = sortLines order lines :=
  trimmedLines_of_subset lines _ (sortLines_perm order lines).subset

theorem trimmedLines_dedupeLines : trimmedLines (dedupeLines lines) = dedupeLines lines := by
  apply trimmedLines_of_subset lines
  rw [dedupeLines_eq_firsts]
  exact (firsts_sublist id _).subset

theorem trimmedLines_perm (others : List String) (hperm : others.Perm lines) :
    (trimmedLines others).Perm (trimmedLines lines) :=
  (hperm.map trimmed).filter _

theorem sortLines_sortLines : sortLines order (sortLines order lines) = sortLines order lines := by
  rw [sortLines, trimmedLines_sortLines]
  exact order.ranks.mergeSort_mergeSort _

theorem sortLines_dedupeLines :
    sortLines order (dedupeLines lines) = dedupeLines (sortLines order lines) := by
  calc sortLines order (dedupeLines lines)
      = (firsts id (trimmedLines lines)).mergeSort order.le := by
        rw [sortLines, trimmedLines_dedupeLines, dedupeLines_eq_firsts]
    _ = firsts id (sortLines order lines) := (firsts_mergeSort order _).symm
    _ = dedupeLines (sortLines order lines) := by
        rw [dedupeLines_eq_firsts, trimmedLines_sortLines]

theorem listsOnce_dedupeLines : ListsOnce (trimmedLines lines) (dedupeLines lines) := by
  rw [dedupeLines_eq_firsts]
  exact listsOnce_firsts _

-- Sorting puts the lines that are not blank in the one order that the ranks allow, so neither the
-- order that they came in nor a second sorting makes a difference, and repetitions can be taken
-- away before or after.
theorem lines_have_one_sorted_order :
    (sortLines order lines).Perm (trimmedLines lines) ∧
      (sortLines order lines).Pairwise (order.rank · ≤ order.rank ·) ∧
      (∀ others, others.Perm lines → sortLines order others = sortLines order lines) ∧
      sortLines order (sortLines order lines) = sortLines order lines ∧
      sortLines order (dedupeLines lines) = dedupeLines (sortLines order lines) ∧
      ListsOnce (trimmedLines lines) (dedupeLines lines) := by
  refine ⟨sortLines_perm order lines, order.ranks.pairwise_rank_mergeSort _, ?_,
    sortLines_sortLines order lines, sortLines_dedupeLines order lines,
    listsOnce_dedupeLines lines⟩
  intro others hperm
  exact order.mergeSort_congr _ _ (trimmedLines_perm lines others hperm)

-- Two lines have one host, and a third has none and stands behind it.
theorem lines_have_one_sorted_order_by_host :
    ["c", "", "ftp://b ", "ftp://B/"].Perm ["ftp://B/", "ftp://b ", "c", ""] ∧
      sortLines .domain ["c", "", "ftp://b ", "ftp://B/"] = ["ftp://B/", "ftp://b", "c"] := by
  have hperm : ["c", "", "ftp://b ", "ftp://B/"].Perm ["ftp://B/", "ftp://b ", "c", ""] := by
    decide
  have hsorted : sortLines .domain ["ftp://B/", "ftp://b ", "c", ""] =
      ["ftp://B/", "ftp://b", "c"] :=
    LineOrder.mergeSort_eq_of_perm .domain _ _ (by decide) (by decide +kernel)
  obtain ⟨-, -, hsettled, -⟩ :=
    lines_have_one_sorted_order .domain ["ftp://B/", "ftp://b ", "c", ""]
  exact ⟨hperm, (hsettled _ hperm).trans hsorted⟩

/-! Records -/

theorem values_sortUrls_of_perm (order : UrlOrder) (urls others : List Url)
    (hperm : others.Perm urls) :
    (sortUrls order others).map Url.value = (sortUrls order urls).map Url.value := by
  have hvalues (items : List Url) :
      items.map Url.value = (items.map order.rank).map fun rank => (ofLex rank).2 := by
    rw [List.map_map]
    rfl
  have hranks := order.ranks.map_rank_mergeSort_of_perm urls others hperm
  rw [hvalues, hvalues, sortUrls, sortUrls, hranks]

-- Records of one key and one value can differ in everything else. They stay in the order that they
-- came in, so of a list in another order the same values come out, but not always the same
-- records.
theorem urls_are_sorted_stably (order : UrlOrder) (urls : List Url) :
    (sortUrls order urls).Perm urls ∧
      (sortUrls order urls).Pairwise (order.rank · ≤ order.rank ·) ∧
      (∀ rank, (sortUrls order urls).filter (order.rank · = rank) =
        urls.filter (order.rank · = rank)) ∧
      sortUrls order (sortUrls order urls) = sortUrls order urls ∧
      ∀ others, others.Perm urls →
        (sortUrls order others).map Url.value = (sortUrls order urls).map Url.value :=
  ⟨List.mergeSort_perm _ _, order.ranks.pairwise_rank_mergeSort urls,
    order.ranks.filter_rank_mergeSort urls, order.ranks.mergeSort_mergeSort urls,
    values_sortUrls_of_perm order urls⟩

def foundInLine (line : Int) : Url :=
  ⟨"ftp://b", .ftp, none, some "b", some "/", some ⟨line, 1⟩, none⟩

-- A value that was found twice, and one under a scheme that it does not have.
def foundTwice : List Url :=
  [foundInLine 2, ⟨"ftp://c", .tel, none, none, none, none, none⟩, foundInLine 1]

theorem urls_are_sorted_stably_found_twice :
    foundTwice.reverse.Perm foundTwice ∧
      (sortUrls .host foundTwice.reverse).map Url.value =
        (sortUrls .host foundTwice).map Url.value ∧
      ((sortUrls .host foundTwice).filter fun url =>
        UrlOrder.host.rank url = UrlOrder.host.rank (foundInLine 1)) =
          [foundInLine 2, foundInLine 1] := by
  have hperm : foundTwice.reverse.Perm foundTwice := List.reverse_perm _
  have hfound : (foundTwice.filter fun url =>
      UrlOrder.host.rank url = UrlOrder.host.rank (foundInLine 1)) =
        [foundInLine 2, foundInLine 1] := by
    decide +kernel
  obtain ⟨-, -, hkept, -, hvalues⟩ := urls_are_sorted_stably .host foundTwice
  exact ⟨hperm, hvalues _ hperm, (hkept _).trans hfound⟩

end UrlHarvest.Tidy
