import UrlHarvest.Proofs.Scan.Context
import UrlHarvest.Proofs.Scan.Findings
import UrlHarvest.Proofs.Text.Lines
import UrlHarvest.Scan.Formats

namespace UrlHarvest

open Tidy

namespace Url

-- The record of the same value `count` lines further down.
def movedDown (count : Nat) (url : Url) : Url :=
  { url with position := url.position.map fun place => { place with line := place.line + count } }

@[simp] theorem value_movedDown (count : Nat) (url : Url) :
    (url.movedDown count).value = url.value := rfl

end Url

namespace LineScanner

variable (scanner : LineScanner)

private theorem url?_inLine_add (value : Text) (snippet : String) (index count column : Nat) :
    (Finding.inLine value snippet (index + count : Nat) column).url? =
      (Finding.inLine value snippet index column).url?.map (Url.movedDown count) := by
  simp only [Finding.inLine, Finding.url?]
  split
  · rfl
  · simp [Url.movedDown, Url.ofValue, Int.add_right_comm]

theorem urls_findingsInLine_add (index count : Nat) (line : Text) (regions : LineRegions) :
    (scanner.findingsInLine (index + count) line regions).filterMap Finding.url? =
      ((scanner.findingsInLine index line regions).filterMap Finding.url?).map
        (Url.movedDown count) := by
  rw [findingsInLine_eq, findingsInLine_eq]
  split
  · rfl
  · split
    · rfl
    · rw [List.filterMap_map, List.filterMap_map, List.map_filterMap]
      congr 1
      funext hit
      exact url?_inLine_add hit.value _ index count hit.offset

theorem urls_findingsFrom_add (state : RegionState) (index count : Nat) (lines : List Text) :
    (scanner.findingsFrom state (index + count) lines).filterMap Finding.url? =
      ((scanner.findingsFrom state index lines).filterMap Finding.url?).map
        (Url.movedDown count) := by
  induction lines generalizing state index with
  | nil => rfl
  | cons line rest ih =>
      rw [findingsFrom_cons, findingsFrom_cons, List.filterMap_append, List.filterMap_append,
        List.map_append, urls_findingsInLine_add, Nat.add_right_comm, ih]

theorem findings_append_newline (front back : Text) :
    scanner.findings (front ++ '\n' :: back) =
      scanner.findings front ++
        scanner.findingsFrom (scanner.comments.stateAfter .normal (Text.lines front))
          (0 + (Text.lines front).length) (Text.lines back) := by
  rw [findings_eq_findingsFrom, Text.lines_append_newline, findingsFrom_append]
  rfl

-- What was seen before takes records away and does nothing else: it moves no record to another
-- place, and it lets no other occurrence of a value win.
theorem scan_in_context (text : Text) (context : ScanContext) :
    (scanner.scan text context).urls.toList =
        context.urls.toList ++
          (scanner.scan text {}).urls.toList.filter
            (fun url => !context.seen.contains url.value) ∧
      (scanner.scan text context).problems.toList =
        context.problems.toList ++ (scanner.scan text {}).problems.toList ∧
      (scanner.scan text (scanner.scan text context)).urls =
        (scanner.scan text context).urls := by
  refine ⟨?_, ?_, ?_⟩
  · simp only [scan]
    rw [ScanContext.toList_urls_takeAll, ScanContext.toList_urls_takeAll_fresh,
      filter_firsts Url.value (fun value => !context.seen.contains value)]
  · simp only [scan]
    rw [ScanContext.toList_problems_takeAll, ScanContext.toList_problems_takeAll]
    rfl
  · apply Array.toList_inj.mp
    simp only [scan]
    rw [ScanContext.toList_urls_takeAll, List.filter_eq_nil_iff.mpr, firsts_nil, List.append_nil]
    intro url hurl
    rw [ScanContext.contains_seen_takeAll, List.contains_iff_mem.mpr (List.mem_map_of_mem hurl)]
    simp

-- What is behind a newline is scanned as a text of its own once no comment and no fenced code is
-- open there. Values from before the newline are not reported again.
theorem scan_append_newline (front back : Text) :
    (scanner.scan front {}).urls.toList <+:
        (scanner.scan (front ++ '\n' :: back) {}).urls.toList ∧
      (scanner.comments.stateAfter .normal (Text.lines front) = .normal →
        (scanner.scan (front ++ '\n' :: back) {}).urls.toList =
          (scanner.scan front {}).urls.toList ++
            ((scanner.scan back {}).urls.toList.filter fun url =>
              !((scanner.scan front {}).urls.toList.map Url.value).contains url.value).map
                (Url.movedDown (Text.lines front).length)) := by
  simp only [scan, findings_append_newline, ScanContext.toList_urls_takeAll_fresh,
    List.filterMap_append, firsts_append, contains_map_firsts]
  refine ⟨List.prefix_append _ _, fun hstate => ?_⟩
  rw [hstate, urls_findingsFrom_add, ← findings_eq_findingsFrom, List.filter_map,
    firsts_map Url.value _ (Url.value_movedDown _)]
  rw [filter_firsts Url.value fun value =>
    !(((scanner.findings front).filterMap Finding.url?).map Url.value).contains value]
  rfl

theorem scan_append_newline_after_comment :
    let front := "@import 'http://a.b/';\n/* ftp://c.d/ */".toList
    let back := "p { background: url(ftp://c.d/) } @import 'http://a.b/';".toList
    CommentStyle.css.stateAfter .normal (Text.lines front) = .normal ∧
    (css.scan (front ++ '\n' :: back) {}).urls.toList =
      (css.scan front {}).urls.toList ++
        ((css.scan back {}).urls.toList.filter fun url =>
          !((css.scan front {}).urls.toList.map Url.value).contains url.value).map
            (Url.movedDown 2) :=
  ⟨by decide, (scan_append_newline css _ _).2 (by decide)⟩

end LineScanner

end UrlHarvest
