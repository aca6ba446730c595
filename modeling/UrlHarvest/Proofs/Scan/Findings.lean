import UrlHarvest.Proofs.Comments.Fold
import UrlHarvest.Proofs.Scan.Context
import UrlHarvest.Scan.Formats

namespace UrlHarvest

open Tidy

-- What a record says of an address and of where it stands.
def Url.sighting (url : Url) : String × Option Position :=
  (url.value, url.position)

-- What the record of a hit in a line says of it. A hit without a value makes no record.
def Hit.sighting? (index : Nat) (hit : Hit) : Option (String × Option Position) :=
  if hit.value = [] then none
  else some (String.ofList hit.value, some ⟨index + 1, hit.offset + 1⟩)

namespace LineScanner

variable (scanner : LineScanner)

-- What a scanner looks for.
def patterns : List Pattern :=
  scanner.captures.map CapturePass.pattern ++ scanner.rules.map BoundaryRule.pattern

-- What is found in lines of which the first has the number `index` and is met in `state`.
def findingsFrom (state : RegionState) (index : Nat) (lines : List Text) : List Finding :=
  ((lines.zip (scanner.comments.regionsFrom state [] lines)).zipIdx index).flatMap
    fun ((line, regions), index) => scanner.findingsInLine index line regions

theorem findings_eq_findingsFrom (text : Text) :
    scanner.findings text = scanner.findingsFrom .normal 0 (Text.lines text) := rfl

@[simp] theorem findingsFrom_nil (state : RegionState) (index : Nat) :
    scanner.findingsFrom state index [] = [] := rfl

theorem findingsFrom_cons (state : RegionState) (index : Nat) (line : Text) (rest : List Text) :
    scanner.findingsFrom state index (line :: rest) =
      scanner.findingsInLine index line (scanner.comments.advance state line) ++
        scanner.findingsFrom (scanner.comments.advance state line).state (index + 1) rest := by
  simp [findingsFrom]

theorem findingsFrom_append (state : RegionState) (index : Nat) (front back : List Text) :
    scanner.findingsFrom state index (front ++ back) =
      scanner.findingsFrom state index front ++
        scanner.findingsFrom (scanner.comments.stateAfter state front) (index + front.length)
          back := by
  have hlen := scanner.comments.length_regionsFrom state front
  simp only [findingsFrom, CommentStyle.regionsFrom_append]
  rw [List.zip_append hlen.symm, List.zipIdx_append, List.flatMap_append, List.length_zip, hlen,
    Nat.min_self]

theorem captureHits_eq_filterMap (regions : LineRegions) (line : Text) (pass : CapturePass) :
    scanner.captureHits regions line pass =
      ((pass.pattern.matchesIn line).filter fun found =>
        !scanner.hides regions line found.start).filterMap fun found =>
          if !(pass.target found).isEmpty && isValidUrl (pass.target found) then
            some ⟨found.start, pass.target found⟩
          else none := by
  rw [captureHits, List.filterMap_filter]
  congr 1
  funext found
  cases scanner.hides regions line found.start <;> rfl

theorem plainHits_eq_map (regions : LineRegions) (line : Text) :
    scanner.plainHits regions line =
      scanner.rules.flatMap fun rule =>
        ((rule.pattern.matchesIn line).filter fun found =>
          !scanner.hides regions line found.start).map fun found => ⟨found.start, found.text⟩ := by
  rw [plainHits, BoundaryRule.matchesIn, List.filterMap_flatMap]
  congr 1
  funext rule
  rw [← List.filterMap_eq_map, List.filterMap_filter]
  congr 1
  funext found
  cases scanner.hides regions line found.start <;> rfl

theorem findingsInLine_eq (index : Nat) (line : Text) (regions : LineRegions) :
    scanner.findingsInLine index line regions =
      if regions.wholeLine then []
      else
        match scanner.refuses line with
        | some reason => [.problem (.lineSkipped scanner.name (index + 1) reason)]
        | none => (scanner.hits regions line).map fun hit =>
            Finding.inLine hit.value (String.ofList (Text.trim line)) index hit.offset := by
  unfold findingsInLine
  cases scanner.hits regions line <;> rfl

-- The snippet of a line shows what is hidden too, but a sighting does not hold it: what the records
-- of a line say of addresses and places depends on the hits alone.
theorem sightings_findingsInLine (index : Nat) (line : Text) (regions : LineRegions)
    (hrefuses : scanner.refuses line = none) :
    ((scanner.findingsInLine index line regions).filterMap Finding.url?).map Url.sighting =
      if regions.wholeLine then []
      else (scanner.hits regions line).filterMap (Hit.sighting? index) := by
  rw [findingsInLine_eq, hrefuses]
  split
  · rfl
  · rw [List.filterMap_map, List.map_filterMap]
    congr 1
    funext hit
    simp only [Function.comp_apply, Finding.inLine, Finding.url?, Hit.sighting?,
      String.ofList_eq_empty_iff]
    split <;> rfl

theorem mem_findingsFrom (state : RegionState) (index : Nat) (lines : List Text)
    (k : Nat) (line : Text) (regions : LineRegions) (hline : lines[k]? = some line)
    (hregions : (scanner.comments.regionsFrom state [] lines)[k]? = some regions)
    (finding : Finding) (hf : finding ∈ scanner.findingsInLine (index + k) line regions) :
    finding ∈ scanner.findingsFrom state index lines := by
  induction lines generalizing state index k with
  | nil => simp at hline
  | cons first rest ih =>
      rw [CommentStyle.regionsFrom_cons] at hregions
      rw [findingsFrom_cons, List.mem_append]
      cases k with
      | zero =>
          rw [List.getElem?_cons_zero, Option.some.injEq] at hline hregions
          subst first
          exact .inl (hregions ▸ hf)
      | succ k =>
          rw [List.getElem?_cons_succ] at hline hregions
          exact .inr (ih _ (index + 1) k hline hregions (by rwa [Nat.add_right_comm]))

theorem exists_line_of_mem_findingsFrom (state : RegionState) (index : Nat) (lines : List Text)
    (finding : Finding) (hf : finding ∈ scanner.findingsFrom state index lines) :
    ∃ (k : Nat) (line : Text) (regions : LineRegions), lines[k]? = some line ∧
      (scanner.comments.regionsFrom state [] lines)[k]? = some regions ∧
      finding ∈ scanner.findingsInLine (index + k) line regions := by
  induction lines generalizing state index with
  | nil => simp at hf
  | cons first rest ih =>
      rw [findingsFrom_cons, List.mem_append] at hf
      rw [CommentStyle.regionsFrom_cons]
      rcases hf with hf | hf
      · exact ⟨0, first, _, rfl, rfl, hf⟩
      · obtain ⟨k, line, regions, hline, hregions, hf⟩ := ih _ (index + 1) hf
        exact ⟨k + 1, line, regions, hline, hregions, by rwa [Nat.add_right_comm] at hf⟩

-- Only a line that is refused makes a problem.
theorem problems_findings (hrefuses : ∀ row, scanner.refuses row = none) (text : Text) :
    (scanner.findings text).filterMap Finding.problem? = [] := by
  rw [List.filterMap_eq_nil_iff]
  intro finding hfinding
  rw [findings_eq_findingsFrom] at hfinding
  obtain ⟨k, line, regions, -, -, hf⟩ :=
    scanner.exists_line_of_mem_findingsFrom .normal 0 _ finding hfinding
  rw [findingsInLine_eq, hrefuses] at hf
  split at hf
  · cases hf
  · obtain ⟨hit, -, rfl⟩ := List.mem_map.mp hf
    rfl

-- Every record of a scan is that of a hit in a line that is not passed over.
theorem exists_hit_of_mem_scan (text : Text) (url : Url)
    (hurl : url ∈ (scanner.scan text {}).urls.toList) :
    ∃ (k : Nat) (line : Text) (regions : LineRegions), (Text.lines text)[k]? = some line ∧
      (scanner.comments.regions (Text.lines text))[k]? = some regions ∧
      regions.wholeLine = false ∧ ∃ hit ∈ scanner.hits regions line, hit.value ≠ [] ∧
        url = Url.ofValue (String.ofList hit.value) (some ⟨k + 1, hit.offset + 1⟩)
          (some (String.ofList (Text.trim line))) none := by
  obtain ⟨finding, hfinding, hmade⟩ := ScanContext.exists_finding_of_mem_urls _ url hurl
  rw [findings_eq_findingsFrom] at hfinding
  obtain ⟨k, line, regions, hline, hregions, hf⟩ :=
    scanner.exists_line_of_mem_findingsFrom .normal 0 _ finding hfinding
  rw [findingsInLine_eq, Nat.zero_add] at hf
  refine ⟨k, line, regions, hline, hregions, ?_⟩
  cases hwhole : regions.wholeLine with
  | true => simp [hwhole] at hf
  | false =>
      rw [hwhole, if_neg Bool.false_ne_true] at hf
      split at hf
      · rw [List.mem_singleton.mp hf] at hmade
        cases hmade
      · obtain ⟨hit, hhit, rfl⟩ := List.mem_map.mp hf
        have hvalue : hit.value ≠ [] := by
          rintro he
          simp [Finding.inLine, Finding.url?, he] at hmade
        rw [Finding.url?_inLine _ _ _ _ hvalue, Option.some.injEq] at hmade
        exact ⟨rfl, hit, hhit, hvalue, hmade.symm⟩

theorem sightings_scan (text : Text) :
    (scanner.scan text {}).urls.toList.map Url.sighting =
      firsts Prod.fst (((scanner.findings text).filterMap Finding.url?).map Url.sighting) := by
  rw [scan, ScanContext.toList_urls_takeAll_fresh,
    firsts_map_of_key Url.value Prod.fst Url.sighting fun _ => rfl]

theorem refuses_of_mem_builtin (hscanner : scanner ∈ builtin) (row : Text) :
    scanner.refuses row = none := by
  simp only [builtin, List.mem_cons, List.not_mem_nil, or_false] at hscanner
  rcases hscanner with rfl | rfl | rfl | rfl | rfl | rfl | rfl | rfl <;> rfl

end LineScanner

end UrlHarvest
