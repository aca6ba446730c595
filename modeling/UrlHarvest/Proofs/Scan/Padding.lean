import UrlHarvest.Proofs.Comments.Padding
import UrlHarvest.Proofs.Pattern.Padding
import UrlHarvest.Proofs.Scan.Hits

namespace UrlHarvest

open Text Tidy

theorem count_eq_zero_of_subset_pads (front : Text) (hfront : front ⊆ pads) :
    front.count '\x60' = 0 :=
  List.count_eq_zero.mpr fun h => absurd (hfront h) (by decide)

theorem inInlineCode_around (padding : Padding) (line : Text) (offset : Nat)
    (ho : offset ≤ line.length) :
    inInlineCode (padding.around line) (padding.front.length + offset) =
      inInlineCode line offset := by
  rw [inInlineCode, inInlineCode, Padding.around, List.take_length_add_append,
    List.take_append_of_le_length ho, List.count_append,
    count_eq_zero_of_subset_pads _ padding.front_subset, Nat.zero_add]

def Hit.movedBy (count : Nat) (hit : Hit) : Hit :=
  { hit with offset := hit.offset + count }

-- The record of the same find in a text with something put around each line.
def Url.indented (padding : Nat → Padding) (url : Url) : Url :=
  { url with position := url.position.map fun place =>
      { place with column := place.column + (padding (place.line - 1).toNat).front.length } }

@[simp] theorem Url.value_indented (padding : Nat → Padding) (url : Url) :
    (url.indented padding).value = url.value := rfl

namespace LineScanner

variable (scanner : LineScanner)

-- Nothing that the scanner asks of a line is about the pads around it.
structure Firm : Prop where
  marks : ∀ mark ∈ scanner.comments.marks, padless mark = true
  patterns : ∀ pattern ∈ scanner.patterns, pattern.firm = true
  targets : ∀ pass ∈ scanner.captures, ∀ count found,
    pass.target (found.movedBy count) = pass.target found
  refuses : ∀ row, scanner.refuses row = none

theorem firm_of_mem_builtin (hscanner : scanner ∈ builtin) : scanner.Firm := by
  have hmarks : ∀ scanner ∈ builtin, ∀ mark ∈ scanner.comments.marks, padless mark = true := by
    decide
  have hpatterns : ∀ scanner ∈ builtin, ∀ pattern ∈ scanner.patterns, pattern.firm = true := by
    decide
  refine ⟨hmarks scanner hscanner, hpatterns scanner hscanner, ?_,
    scanner.refuses_of_mem_builtin hscanner⟩
  intro pass hpass count found
  rcases scanner.eq_markdownLink_or_firstGroup hscanner pass hpass with rfl | ⟨pattern, rfl⟩ <;>
    rfl

theorem hides_around {padding : Padding} {line : Text} {regions moved : LineRegions}
    (hmoved : regions.MovedBy padding.front.length line.length moved) (offset : Nat)
    (ho : offset < line.length) :
    scanner.hides moved (padding.around line) (padding.front.length + offset) =
      scanner.hides regions line offset := by
  rw [hides, hides, hmoved.hides offset ho, inInlineCode_around padding line offset (by omega)]

section Firm

variable {scanner} (hfirm : scanner.Firm)

section Line

variable {padding : Padding} {line : Text} {regions moved : LineRegions}
  (hmoved : regions.MovedBy padding.front.length line.length moved)

include hfirm hmoved

-- The matches that are shown stay so, each of them further on.
theorem shown_matchesIn_around (pattern : Pattern) (hpattern : pattern ∈ scanner.patterns) :
    ((pattern.matchesIn (padding.around line)).filter fun found =>
        !scanner.hides moved (padding.around line) found.start) =
      ((pattern.matchesIn line).filter fun found =>
        !scanner.hides regions line found.start).map (Match.movedBy padding.front.length) := by
  rw [pattern.matchesIn_around (hfirm.patterns pattern hpattern), List.filter_map]
  congr 1
  apply List.filter_congr
  intro found hfound
  have hstart := (pattern.matchAt?_of_mem_matchesIn line found hfound).1
  have hhides := hides_around scanner hmoved _ hstart
  rw [Nat.add_comm] at hhides
  exact congrArg (!·) hhides

theorem captureHits_around (pass : CapturePass) (hpass : pass ∈ scanner.captures) :
    scanner.captureHits moved (padding.around line) pass =
      (scanner.captureHits regions line pass).map (Hit.movedBy padding.front.length) := by
  have hpattern : pass.pattern ∈ scanner.patterns :=
    List.mem_append_left _ (List.mem_map_of_mem hpass)
  rw [captureHits_eq_filterMap, captureHits_eq_filterMap,
    shown_matchesIn_around hfirm hmoved _ hpattern, List.filterMap_map, List.map_filterMap]
  congr 1
  funext found
  simp only [Function.comp_apply, hfirm.targets pass hpass]
  split <;> rfl

theorem plainHits_around :
    scanner.plainHits moved (padding.around line) =
      (scanner.plainHits regions line).map (Hit.movedBy padding.front.length) := by
  rw [plainHits_eq_map, plainHits_eq_map, List.map_flatMap]
  apply List.flatMap_congr
  intro rule hrule
  have hpattern : rule.pattern ∈ scanner.patterns :=
    List.mem_append_right _ (List.mem_map_of_mem hrule)
  rw [shown_matchesIn_around hfirm hmoved _ hpattern, List.map_map, List.map_map]
  rfl

theorem hits_around :
    scanner.hits moved (padding.around line) =
      (scanner.hits regions line).map (Hit.movedBy padding.front.length) := by
  rw [hits, hits, List.map_append, List.map_flatMap, plainHits_around hfirm hmoved,
    List.flatMap_congr fun pass hpass => captureHits_around hfirm hmoved pass hpass]

end Line

include hfirm

theorem urls_findingsInLine_around (padding : Nat → Padding) (index : Nat) (line : Text)
    (regions moved : LineRegions)
    (hmoved : regions.MovedBy (padding index).front.length line.length moved) :
    (scanner.findingsInLine index ((padding index).around line) moved).filterMap Finding.url? =
      ((scanner.findingsInLine index line regions).filterMap Finding.url?).map
        (Url.indented padding) := by
  rw [findingsInLine_eq, findingsInLine_eq, hmoved.wholeLine, hfirm.refuses, hfirm.refuses,
    hits_around hfirm hmoved, trim_around]
  split
  · rfl
  · rw [List.filterMap_map, List.filterMap_map, List.filterMap_map, List.map_filterMap]
    congr 1
    funext hit
    simp only [Function.comp_apply, Finding.inLine, Finding.url?, Hit.movedBy]
    split
    · rfl
    · simp [Url.indented, Url.ofValue, Int.add_right_comm]

theorem urls_findingsFrom_around (state : RegionState) (padding : Nat → Padding) (index : Nat)
    (lines : List Text) :
    (scanner.findingsFrom state index
        (lines.mapIdx fun offset line => (padding (index + offset)).around line)).filterMap
          Finding.url? =
      ((scanner.findingsFrom state index lines).filterMap Finding.url?).map
        (Url.indented padding) := by
  induction lines generalizing state index with
  | nil => rfl
  | cons line rest ih =>
      have hmoved := scanner.comments.advance_around hfirm.marks state (padding index) line
      have hrest : (rest.mapIdx fun offset => (padding (index + (offset + 1))).around) =
          rest.mapIdx fun offset => (padding (index + 1 + offset)).around := by
        congr 1
        funext offset
        rw [Nat.add_comm offset, Nat.add_assoc]
      rw [List.mapIdx_cons, hrest, Nat.add_zero, findingsFrom_cons, findingsFrom_cons,
        List.filterMap_append, List.filterMap_append, List.map_append,
        urls_findingsInLine_around hfirm padding index line _ _ hmoved, hmoved.state, ih]

end Firm

-- Whatever is put around the lines, the same is found in them, and each find stands further on by
-- what is in front of its line. Carriage returns in front of the newlines are not noticed at all.
theorem urls_scan_padded (hscanner : scanner ∈ builtin) (text : Text) (padding : Nat → Padding) :
    (scanner.scan (padded padding text) {}).urls.toList =
        (scanner.scan text {}).urls.toList.map (Url.indented padding) ∧
      (scanner.scan (withCarriageReturns text) {}).urls = (scanner.scan text {}).urls := by
  have hpadded : ∀ padding : Nat → Padding, (scanner.scan (padded padding text) {}).urls.toList =
      (scanner.scan text {}).urls.toList.map (Url.indented padding) := by
    intro padding
    have hfindings := urls_findingsFrom_around (scanner.firm_of_mem_builtin hscanner) .normal
      padding 0 (lines text)
    simp only [Nat.zero_add] at hfindings
    rw [scan, scan, ScanContext.toList_urls_takeAll_fresh, ScanContext.toList_urls_takeAll_fresh,
      findings_eq_findingsFrom, findings_eq_findingsFrom, lines_padded, hfindings,
      firsts_map Url.value _ (Url.value_indented padding)]
  refine ⟨hpadded padding, Array.toList_inj.mp ?_⟩
  have hsame : Url.indented (carriageReturns (lines text).length) = id := by
    funext url
    simp [Url.indented]
  rw [withCarriageReturns_eq_padded, hpadded, hsame, List.map_id]

-- A comment over two lines, and a line that is indented behind it.
theorem urls_scan_padded_markdown :
    let text := "a <!-- tel:1\n--> <tel:23>\ntel:3".toList
    let padding : Nat → Padding := fun index =>
      if index = 1 then { front := "\t ".toList } else { back := " \r".toList }
    markdown ∈ builtin ∧
      padded padding text = "a <!-- tel:1 \r\n\t --> <tel:23>\ntel:3 \r".toList ∧
      (markdown.scan (padded padding text) {}).urls.toList =
        (markdown.scan text {}).urls.toList.map (Url.indented padding) ∧
      (markdown.scan (padded padding text) {}).urls.toList.map Url.sighting =
        [("tel:23", some ⟨2, 7⟩), ("tel:3", some ⟨3, 1⟩)] := by
  intro text padding
  have hscanner : markdown ∈ builtin := by simp [builtin]
  refine ⟨hscanner, by decide, (markdown.urls_scan_padded hscanner text padding).1, ?_⟩
  rw [sightings_scan]
  decide

end LineScanner

end UrlHarvest
