import UrlHarvest.Proofs.Scan.Hits

namespace UrlHarvest

open Tidy

-- Both records have a place, and the line of the later one does not come first.
def Url.InOrder (earlier later : Url) : Prop :=
  ∃ place place' : Position, earlier.position = some place ∧ later.position = some place' ∧
    place.line ≤ place'.line

namespace LineScanner

variable (scanner : LineScanner)

theorem line_of_mem_findingsInLine (index : Nat) (line : Text) (regions : LineRegions) (url : Url)
    (hurl : url ∈ (scanner.findingsInLine index line regions).filterMap Finding.url?) :
    ∃ place : Position, url.position = some place ∧ place.line = index + 1 := by
  obtain ⟨finding, hfinding, hmade⟩ := List.mem_filterMap.mp hurl
  rw [findingsInLine_eq] at hfinding
  split at hfinding
  · cases hfinding
  · split at hfinding
    · rw [List.mem_singleton.mp hfinding] at hmade
      cases hmade
    · obtain ⟨hit, -, rfl⟩ := List.mem_map.mp hfinding
      obtain ⟨-, hmade⟩ := Option.ite_none_left_eq_some.mp hmade
      obtain rfl := Option.some.inj hmade
      exact ⟨_, rfl, rfl⟩

theorem line_of_mem_findingsFrom (state : RegionState) (index : Nat) (lines : List Text) (url : Url)
    (hurl : url ∈ (scanner.findingsFrom state index lines).filterMap Finding.url?) :
    ∃ place : Position, url.position = some place ∧ (index : Int) + 1 ≤ place.line := by
  obtain ⟨finding, hfinding, hmade⟩ := List.mem_filterMap.mp hurl
  obtain ⟨k, line, regions, -, -, hline⟩ :=
    scanner.exists_line_of_mem_findingsFrom state index lines finding hfinding
  obtain ⟨place, hplace, he⟩ := scanner.line_of_mem_findingsInLine (index + k) line regions url
    (List.mem_filterMap.mpr ⟨finding, hline, hmade⟩)
  exact ⟨place, hplace, by omega⟩

-- The records of one line are in that line, and those of the lines behind it come later.
theorem pairwise_inOrder_findingsFrom (state : RegionState) (index : Nat) (lines : List Text) :
    ((scanner.findingsFrom state index lines).filterMap Finding.url?).Pairwise Url.InOrder := by
  induction lines generalizing state index with
  | nil => exact .nil
  | cons line rest ih =>
      rw [findingsFrom_cons, List.filterMap_append, List.pairwise_append]
      refine ⟨?_, ih _ (index + 1), ?_⟩
      · apply List.pairwise_of_forall_mem_list
        intro earlier hearlier later hlater
        obtain ⟨place, hplace, he⟩ := scanner.line_of_mem_findingsInLine _ _ _ earlier hearlier
        obtain ⟨place', hplace', he'⟩ := scanner.line_of_mem_findingsInLine _ _ _ later hlater
        exact ⟨place, place', hplace, hplace', by omega⟩
      · intro earlier hearlier later hlater
        obtain ⟨place, hplace, he⟩ := scanner.line_of_mem_findingsInLine _ _ _ earlier hearlier
        obtain ⟨place', hplace', hle⟩ := scanner.line_of_mem_findingsFrom _ _ _ later hlater
        exact ⟨place, place', hplace, hplace', by omega⟩

theorem pairwise_inOrder_scan (text : Text) :
    (scanner.scan text {}).urls.toList.Pairwise Url.InOrder := by
  rw [scan, ScanContext.toList_urls_takeAll_fresh, findings_eq_findingsFrom]
  exact (scanner.pairwise_inOrder_findingsFrom _ _ _).sublist (firsts_sublist Url.value _)

-- A record names a line of the text and a place in that line where something is shown; its value
-- is to be found from there on, and its context is the line. The records stand in the order of
-- their lines.
theorem records_stand_in_their_lines (hscanner : scanner ∈ builtin) (text : Text) :
    let rows := Text.lines text
    let urls := (scanner.scan text {}).urls.toList
    (∀ url ∈ urls, ∃ (index first place : Nat) (row : Text) (regions : LineRegions),
      url.position = some ⟨index + 1, first + 1⟩ ∧
      index < rows.length ∧ rows[index]? = some row ∧
      (scanner.comments.regions rows)[index]? = some regions ∧
      first < row.length ∧ first ≤ place ∧ url.value.toList <+: row.drop place ∧
      url.context = some (String.ofList (Text.trim row)) ∧
      regions.wholeLine = false ∧ scanner.hides regions row first = false) ∧
    urls.Pairwise Url.InOrder := by
  intro rows urls
  refine ⟨fun url hurl => ?_, scanner.pairwise_inOrder_scan text⟩
  obtain ⟨index, row, regions, hrow, hregions, hwhole, hit, hhit, hvalue, rfl⟩ :=
    scanner.exists_hit_of_mem_scan text url hurl
  obtain ⟨hshown, place, hle, hstands⟩ :=
    scanner.exists_place_of_mem_hits (scanner.staysInside_of_mem_builtin hscanner) regions row hit
      hhit
  have hwithin : place < row.length := by
    have hlength := hstands.length_le
    have hpos := List.length_pos_iff.mpr hvalue
    rw [List.length_drop] at hlength
    omega
  have hindex : index < rows.length := (List.getElem?_eq_some_iff.mp hrow).1
  exact ⟨index, hit.offset, place, row, regions, rfl, hindex, hrow, hregions, by omega, hle,
    by rwa [Url.ofValue, String.toList_ofList], rfl, hwhole, hshown⟩

theorem records_stand_in_their_lines_behind_comment :
    let text := "<!-- tel:1\n--> <a href='tel:1 2'>\ntel:3".toList
    let rows := Text.lines text
    let url := Url.ofValue "tel:1 2" (some ⟨2, 8⟩) (some "--> <a href='tel:1 2'>") none
    let urls := (html.scan text {}).urls.toList
    html ∈ builtin ∧ url ∈ urls ∧
    (∃ (index first place : Nat) (row : Text) (regions : LineRegions),
      url.position = some ⟨index + 1, first + 1⟩ ∧
      index < rows.length ∧ rows[index]? = some row ∧
      (html.comments.regions rows)[index]? = some regions ∧
      first < row.length ∧ first ≤ place ∧ url.value.toList <+: row.drop place ∧
      url.context = some (String.ofList (Text.trim row)) ∧
      regions.wholeLine = false ∧ html.hides regions row first = false) ∧
    urls.Pairwise Url.InOrder := by
  intro text rows url urls
  have hscanner : html ∈ builtin := by simp [builtin]
  have hurl : url ∈ urls := by
    change url ∈ (html.scan text {}).urls.toList
    rw [scan, ScanContext.toList_urls_takeAll_fresh]
    decide
  obtain ⟨hplaces, horder⟩ := records_stand_in_their_lines html hscanner text
  exact ⟨hscanner, hurl, hplaces url hurl, horder⟩

end LineScanner

end UrlHarvest
