import UrlHarvest.Proofs.Pattern.Boundary
import UrlHarvest.Proofs.Scan.Context
import UrlHarvest.Proofs.Scan.Findings
import UrlHarvest.Scan.Formats

namespace UrlHarvest.LineScanner

variable (scanner : LineScanner)

theorem mem_hits_of_begins (rule : BoundaryRule) (hrule : rule ∈ scanner.rules)
    (row : Text) (regions : LineRegions) (i : Nat)
    (hbegins : rule.begins (row.drop i) = true)
    (hbefore : i = 0 ∨ ∃ c, row[i - 1]? = some c ∧ isBodyChar c = false)
    (hshown : scanner.hides regions row i = false) :
    ⟨i, (row.drop i).takeWhile isBodyChar⟩ ∈ scanner.hits regions row := by
  have hmatch := rule.mem_matchesIn_of_begins row i hbegins hbefore
  have hall : ⟨i, (row.drop i).takeWhile isBodyChar, []⟩ ∈
      BoundaryRule.matchesIn scanner.rules row :=
    List.mem_flatMap.mpr ⟨rule, hrule, hmatch⟩
  apply List.mem_append_right
  exact List.mem_filterMap.mpr ⟨_, hall, by simp [hshown]⟩

-- A hit in a line that is not passed over ends up among the records, under its own value or
-- because an earlier record has that value.
theorem value_mem_of_hit (text : Text) (k : Nat) (row : Text) (regions : LineRegions)
    (hrow : (Text.lines text)[k]? = some row)
    (hregions : (scanner.comments.regions (Text.lines text))[k]? = some regions)
    (hwhole : regions.wholeLine = false) (hrefuses : scanner.refuses row = none)
    (hit : Hit) (hhit : hit ∈ scanner.hits regions row) (hvalue : hit.value ≠ []) :
    String.ofList hit.value ∈ (scanner.scan text {}).urls.toList.map Url.value := by
  have hinline : Finding.inLine hit.value (String.ofList (Text.trim row)) (0 + k : Nat)
      hit.offset ∈ scanner.findingsInLine (0 + k) row regions := by
    rw [findingsInLine_eq, hwhole, hrefuses]
    exact List.mem_map_of_mem hhit
  have hfinding := scanner.mem_findingsFrom .normal 0 _ k row regions hrow hregions _ hinline
  rw [scan, ScanContext.mem_values_takeAll_fresh, findings_eq_findingsFrom]
  have hurl := Finding.url?_inLine hit.value (String.ofList (Text.trim row)) (0 + k : Nat)
    hit.offset hvalue
  exact List.mem_map_of_mem (List.mem_filterMap.mpr ⟨_, hfinding, hurl⟩)

-- No delimited address is missed. In a line that is not hidden whole, every place that is not
-- hidden and where a mark of one of the rules stands, in any letter case, behind a delimiter and
-- with something behind it, yields the run of code points up to the next delimiter.
theorem value_mem_of_delimited (hscanner : scanner ∈ builtin) (text : Text) (k : Nat)
    (row : Text) (regions : LineRegions)
    (hrow : (Text.lines text)[k]? = some row)
    (hregions : (scanner.comments.regions (Text.lines text))[k]? = some regions)
    (hwhole : regions.wholeLine = false)
    (i : Nat) (rule : BoundaryRule) (hrule : rule ∈ scanner.rules)
    (mark : Text) (hmark : mark ∈ rule.marks)
    (hlower : ((row.drop i).take mark.length).map Char.toLower = mark)
    (hnext : ∃ c, row[i + mark.length]? = some c ∧ isBodyChar c = true)
    (hbefore : i = 0 ∨ ∃ c, row[i - 1]? = some c ∧ isBodyChar c = false)
    (hshown : scanner.hides regions row i = false) :
    String.ofList ((row.drop i).takeWhile isBodyChar) ∈
      (scanner.scan text {}).urls.toList.map Url.value := by
  obtain ⟨c, hc, hbody⟩ := hnext
  rw [← List.getElem?_drop] at hc
  have hbegins := rule.begins_of_mark mark _ hmark hlower c hc hbody
  have hhit := scanner.mem_hits_of_begins rule hrule row regions i hbegins hbefore hshown
  exact scanner.value_mem_of_hit text k row regions hrow hregions hwhole
    (scanner.refuses_of_mem_builtin hscanner row) _ hhit (rule.run_ne_nil_of_begins _ hbegins)

theorem value_mem_of_delimited_behind_comment :
    let text := "`tel:1`\n<!-- x --> HttpS://a.b/c;tel:2".toList
    let row := "<!-- x --> HttpS://a.b/c;tel:2".toList
    let mark := "https://".toList
    (Text.lines text)[1]? = some row ∧
    (CommentStyle.markdown.regions (Text.lines text))[1]? =
      some ⟨[(0, 10)], .normal, false⟩ ∧
    ((row.drop 11).take mark.length).map Char.toLower = mark ∧
    row[11 + mark.length]? = some 'a' ∧ row[11 - 1]? = some ' ' ∧
    markdown.hides ⟨[(0, 10)], .normal, false⟩ row 11 = false ∧
    "HttpS://a.b/c" ∈ (markdown.scan text {}).urls.toList.map Url.value := by
  intro text row mark
  refine ⟨by decide, by decide, by decide, by decide, by decide, by decide, ?_⟩
  exact value_mem_of_delimited markdown (by simp [builtin]) text 1 row
    ⟨[(0, 10)], .normal, false⟩ (by decide) (by decide) rfl 11 .web (by decide) mark (by decide)
    (by decide) ⟨'a', by decide, by decide⟩ (.inr ⟨' ', by decide, by decide⟩) (by decide)

end UrlHarvest.LineScanner
