import Mathlib.Data.List.Infix
import UrlHarvest.Proofs.Scan.Structured
import UrlHarvest.Proofs.Text.Find

namespace UrlHarvest

open Tidy

-- A line of a text with its number, counted from zero, and with what is hidden of it.
structure Row where
  index : Nat
  line : Text
  regions : LineRegions

-- What is hidden of a line is read off the whole text, so a line that cannot be scanned hands its
-- comment on as any other line does.
def CommentStyle.rows (style : CommentStyle) (text : Text) : List Row :=
  let lines := Text.lines text
  ((lines.zip (style.regions lines)).zipIdx).map fun ((line, regions), index) =>
    ⟨index, line, regions⟩

namespace Row

-- The lines that a scan comes to and that have the marker.
def isMarked (marker : Text) (row : Row) : Bool :=
  !row.regions.wholeLine && decide (marker <:+: row.line)

-- The lines that a scan comes to and that do not have the marker.
def isClear (marker : Text) (row : Row) : Bool :=
  !row.regions.wholeLine && !decide (marker <:+: row.line)

end Row

section Lists

variable {α β : Type}

private theorem flatMap_ite_nil (p : α → Bool) (f : α → List β) (items : List α) :
    items.flatMap (fun item => if p item then f item else []) = (items.filter p).flatMap f := by
  induction items with
  | nil => rfl
  | cons item rest ih => cases hp : p item <;> simp [hp, ih]

end Lists

namespace LineScanner

variable (scanner : LineScanner) (marker : Text) (reason : Text → String)

-- The record of each match of a boundary rule in a line, where the line shows it.
def plainRecords (row : Row) : List Url :=
  ((BoundaryRule.matchesIn scanner.rules row.line).filter fun found =>
    !scanner.hides row.regions row.line found.start).map fun found =>
      Url.ofValue (String.ofList found.text) (some ⟨row.index + 1, found.start + 1⟩)
        (some (String.ofList (Text.trim row.line))) none

theorem findings_eq_flatMap_rows (text : Text) :
    scanner.findings text = (scanner.comments.rows text).flatMap fun row =>
      scanner.findingsInLine row.index row.line row.regions := by
  rw [findings, CommentStyle.rows, List.flatMap_map]

theorem text_ne_nil_of_mem_rules (line : Text) (found : Match)
    (hfound : found ∈ BoundaryRule.matchesIn scanner.rules line) : found.text ≠ [] := by
  obtain ⟨rule, -, hfound⟩ := List.mem_flatMap.mp hfound
  exact rule.text_ne_nil_of_mem_matchesIn line found hfound

-- A scanner without structural passes.
theorem urls_hits (hcaptures : scanner.captures = []) (row : Row) :
    (scanner.hits row.regions row.line).filterMap (fun hit =>
        (Finding.inLine hit.value (String.ofList (Text.trim row.line)) row.index
          hit.offset).url?) =
      scanner.plainRecords row := by
  rw [hits, hcaptures, List.flatMap_nil, List.nil_append, plainHits, plainRecords,
    ← List.filterMap_eq_map, List.filterMap_filter, List.filterMap_filterMap]
  apply List.filterMap_congr
  intro found hfound
  have hvalue := scanner.text_ne_nil_of_mem_rules row.line found hfound
  cases scanner.hides row.regions row.line found.start with
  | true => rfl
  | false => exact Finding.url?_inLine found.text _ _ _ hvalue

variable (hrefuses : ∀ line, scanner.refuses line =
  if marker <:+: line then some (reason line) else none)
include hrefuses

-- What becomes of a line: it is passed over, refused or searched.
theorem findingsInLine_cases (row : Row) :
    let found := scanner.findingsInLine row.index row.line row.regions
    (row.isMarked marker = false ∧ row.isClear marker = false ∧ found = []) ∨
    (row.isMarked marker = true ∧ row.isClear marker = false ∧
      found = [.problem (.lineSkipped scanner.name (row.index + 1) (reason row.line))]) ∨
    (row.isMarked marker = false ∧ row.isClear marker = true ∧
      found = (scanner.hits row.regions row.line).map fun hit =>
        Finding.inLine hit.value (String.ofList (Text.trim row.line)) row.index hit.offset) := by
  intro found
  have hfound : found = scanner.findingsInLine row.index row.line row.regions := rfl
  rw [findingsInLine_eq, hrefuses] at hfound
  rw [Row.isMarked, Row.isClear]
  cases hwhole : row.regions.wholeLine with
  | true => exact .inl ⟨rfl, rfl, by simpa [hwhole] using hfound⟩
  | false =>
      by_cases hmarked : marker <:+: row.line
      · exact .inr (.inl ⟨by simpa, by simpa, by simpa [hwhole, hmarked] using hfound⟩)
      · exact .inr (.inr ⟨by simpa, by simpa, by simpa [hwhole, hmarked] using hfound⟩)

theorem urls_findingsInLine (hcaptures : scanner.captures = []) (row : Row) :
    (scanner.findingsInLine row.index row.line row.regions).filterMap Finding.url? =
      if row.isClear marker then scanner.plainRecords row else [] := by
  rcases scanner.findingsInLine_cases marker reason hrefuses row with
    ⟨-, hclear, hfound⟩ | ⟨-, hclear, hfound⟩ | ⟨-, hclear, hfound⟩
  · rw [hfound, hclear]
    rfl
  · rw [hfound, hclear]
    rfl
  · rw [hfound, hclear, List.filterMap_map]
    exact scanner.urls_hits hcaptures row

theorem problems_findingsInLine (row : Row) :
    (scanner.findingsInLine row.index row.line row.regions).filterMap Finding.problem? =
      if row.isMarked marker then
        [.lineSkipped scanner.name (row.index + 1) (reason row.line)]
      else [] := by
  rcases scanner.findingsInLine_cases marker reason hrefuses row with
    ⟨hmarked, -, hfound⟩ | ⟨hmarked, -, hfound⟩ | ⟨hmarked, -, hfound⟩
  · rw [hfound, hmarked]
    rfl
  · rw [hfound, hmarked]
    rfl
  · rw [hfound, hmarked, List.filterMap_map]
    exact List.filterMap_eq_nil_iff.mpr fun _ _ => rfl

theorem urls_scan_refused (hcaptures : scanner.captures = []) (text : Text) :
    (scanner.scan text {}).urls.toList =
      firsts Url.value (((scanner.comments.rows text).filter (Row.isClear marker)).flatMap
        scanner.plainRecords) := by
  rw [scan, ScanContext.toList_urls_takeAll_fresh, findings_eq_flatMap_rows,
    List.filterMap_flatMap]
  simp only [scanner.urls_findingsInLine marker reason hrefuses hcaptures, flatMap_ite_nil]

theorem problems_scan_refused (text : Text) :
    (scanner.scan text {}).problems.toList =
      ((scanner.comments.rows text).filter (Row.isMarked marker)).map fun row =>
        .lineSkipped scanner.name (row.index + 1) (reason row.line) := by
  rw [scan, ScanContext.toList_problems_takeAll, findings_eq_flatMap_rows,
    List.filterMap_flatMap]
  simp only [scanner.problems_findingsInLine marker reason hrefuses, flatMap_ite_nil]
  rw [← List.map_eq_flatMap]
  rfl

end LineScanner

namespace ScanContext

theorem urls_takeAll_problems (context : ScanContext) (problems : List Problem) :
    (context.takeAll (problems.map .problem)).urls = context.urls := by
  induction problems generalizing context with
  | nil => rfl
  | cons problem rest ih => exact ih (context.note problem)

theorem problems_takeAll_problems (context : ScanContext) (problems : List Problem) :
    (context.takeAll (problems.map .problem)).problems.toList =
      context.problems.toList ++ problems := by
  rw [toList_problems_takeAll, List.filterMap_map]
  exact congrArg _ List.filterMap_some

-- Problems have no part in what is recorded.
theorem add_note (context : ScanContext) (problem : Problem) (value : String)
    (position : Option Position) (snippet type : Option String) :
    (context.note problem).add value position snippet type =
      (context.add value position snippet type).note problem := by
  have hsame : (context.note problem).isNew value = context.isNew value := rfl
  rw [add, add, hsame]
  cases context.isNew value <;> rfl

end ScanContext

namespace Tree

def markedLeaves (marker : Text) (leaves : List (String × String)) : List (String × String) :=
  leaves.filter fun leaf => marker <:+: leaf.2.toList

def clearLeaves (marker : Text) (leaves : List (String × String)) : List (String × String) :=
  leaves.filter fun leaf => ¬ marker <:+: leaf.2.toList

-- The addresses in some leaves, in order, with the path of the leaf that each one is in.
def addressesOf (leaves : List (String × String)) : List (String × String) :=
  leaves.flatMap fun (path, leaf) =>
    (addressesIn leaf.toList).map fun value => (String.ofList value, path)

theorem addressesOf_cons (leaf : String × String) (rest : List (String × String)) :
    addressesOf (leaf :: rest) = addressesOf [leaf] ++ addressesOf rest := by
  rw [addressesOf, List.flatMap_cons, addressesOf, List.flatMap_singleton]
  rfl

theorem ne_empty_of_mem_addressesOf (leaves : List (String × String))
    (item : String × String) (h : item ∈ addressesOf leaves) : item.1 ≠ "" := by
  obtain ⟨⟨path, leaf⟩, -, hitem⟩ := List.mem_flatMap.mp h
  obtain ⟨value, hvalue, rfl⟩ := List.mem_map.mp hitem
  exact mt String.ofList_eq_empty_iff.mp (ne_nil_of_mem_addressesIn leaf.toList value hvalue)

end Tree

namespace StructuredScanner

open UrlHarvest.Tree (addressesOf addressesOf_cons clearLeaves markedLeaves
  ne_empty_of_mem_addressesOf rootPath)

variable (scanner : StructuredScanner) (marker : Text) (reason : Text → String)
  (locator : Locator) (context : ScanContext)

theorem takeAddress_eq (item : String × String) :
    takeAddress (locator, context) item =
      if context.isNew item.1 then
        ((locator.locate item.1.toList).2,
          context.add item.1 (locator.locate item.1.toList).1 (some item.2) none)
      else (locator, context) := by
  simp only [takeAddress, takeCandidate, String.ofList_toList, ScanContext.take]

theorem takeAddress_note (problem : Problem) (item : String × String) :
    takeAddress (locator, context.note problem) item =
      ((takeAddress (locator, context) item).1,
        (takeAddress (locator, context) item).2.note problem) := by
  have hsame : (context.note problem).isNew item.1 = context.isNew item.1 := rfl
  rw [takeAddress_eq, takeAddress_eq, hsame, ScanContext.add_note]
  cases context.isNew item.1 <;> rfl

theorem foldl_takeAddress_note (problem : Problem) (items : List (String × String)) :
    items.foldl takeAddress (locator, context.note problem) =
      ((items.foldl takeAddress (locator, context)).1,
        (items.foldl takeAddress (locator, context)).2.note problem) := by
  induction items generalizing locator context with
  | nil => rfl
  | cons item rest ih => rw [List.foldl_cons, List.foldl_cons, takeAddress_note, ih]

-- What is told of a leaf that cannot be looked at.
def skipped (leaf : String × String) : Problem :=
  .valueSkipped scanner.name leaf.1 (reason leaf.2.toList)

variable (hrefuses : ∀ leaf, scanner.refuses leaf =
  if marker <:+: leaf then some (reason leaf) else none)
include hrefuses

theorem takeLeaf_of_marked (state : Locator × ScanContext) (leaf : String × String)
    (hmarked : marker <:+: leaf.2.toList) :
    scanner.takeLeaf state leaf = (state.1, state.2.note (scanner.skipped reason leaf)) := by
  rw [takeLeaf, hrefuses, if_pos hmarked]
  rfl

theorem takeLeaf_of_clear (state : Locator × ScanContext) (leaf : String × String)
    (hclear : ¬ marker <:+: leaf.2.toList) :
    scanner.takeLeaf state leaf = (addressesOf [leaf]).foldl takeAddress state := by
  rw [takeLeaf, hrefuses, if_neg hclear, candidates_eq_addressesIn]
  simp only [addressesOf, List.flatMap_singleton, List.foldl_map, takeAddress,
    String.toList_ofList]

-- The walk goes over the other leaves as if the marked ones were not there. What is told of these
-- may as well be told at the end.
theorem foldl_takeLeaf_refused (leaves : List (String × String)) :
    leaves.foldl scanner.takeLeaf (locator, context) =
      (((addressesOf (clearLeaves marker leaves)).foldl takeAddress (locator, context)).1,
        ((addressesOf (clearLeaves marker leaves)).foldl takeAddress (locator, context)).2.takeAll
          (((markedLeaves marker leaves).map (scanner.skipped reason)).map .problem)) := by
  induction leaves generalizing locator context with
  | nil => rfl
  | cons leaf rest ih =>
      by_cases hmarked : marker <:+: leaf.2.toList
      · have hm : markedLeaves marker (leaf :: rest) = leaf :: markedLeaves marker rest :=
          List.filter_cons_of_pos (by simpa using hmarked)
        have hc : clearLeaves marker (leaf :: rest) = clearLeaves marker rest :=
          List.filter_cons_of_neg (by simpa using hmarked)
        rw [List.foldl_cons, scanner.takeLeaf_of_marked marker reason hrefuses _ leaf hmarked, ih,
          foldl_takeAddress_note, hm, hc]
        rfl
      · have hm : markedLeaves marker (leaf :: rest) = markedLeaves marker rest :=
          List.filter_cons_of_neg (by simpa using hmarked)
        have hc : clearLeaves marker (leaf :: rest) = leaf :: clearLeaves marker rest :=
          List.filter_cons_of_pos (by simpa using hmarked)
        rw [List.foldl_cons, scanner.takeLeaf_of_clear marker reason hrefuses _ leaf hmarked, ih,
          hm, hc, addressesOf_cons leaf (clearLeaves marker rest), List.foldl_append]

theorem scan_refused (text : Text) (tree : Tree) (hread : scanner.read text = .ok tree) :
    ∃ after, scanner.scan text {} = .ok after ∧
      after.problems.toList =
        (markedLeaves marker (tree.leaves rootPath)).map (scanner.skipped reason) ∧
      after.urls.toList.map (fun url => (url.value, url.context)) =
        (firsts Prod.fst (addressesOf (clearLeaves marker (tree.leaves rootPath)))).map
          fun item => (item.1, some item.2) := by
  let leaves := tree.leaves rootPath
  let items := addressesOf (clearLeaves marker leaves)
  let locator := Locator.ofText text scanner.comments
  have hitems : ∀ item ∈ items, item.1 ≠ "" := ne_empty_of_mem_addressesOf _
  have hwalk := scanner.foldl_takeLeaf_refused marker reason locator {} hrefuses leaves
  refine ⟨_, by rw [scan, hread], ?_, ?_⟩
  · rw [hwalk, ScanContext.problems_takeAll_problems, problems_foldl_takeAddress _ _ items hitems]
    rfl
  · rw [hwalk, ScanContext.urls_takeAll_problems, urls_foldl_takeAddress _ _ items hitems,
      List.filter_eq_self.mpr (by simp)]
    exact map_records locator _

end StructuredScanner

namespace Scanner

open UrlHarvest.Tree (addressesOf clearLeaves markedLeaves rootPath)

-- A line that cannot be scanned, or a value that cannot be looked at, makes one problem and is
-- passed over. What it would have yielded is still found elsewhere, and the comment that it opens
-- or closes is opened or closed all the same.
theorem refused_costs_only_itself (lines : LineScanner) (values : StructuredScanner)
    (marker : Text) (reason : Text → String) (hcaptures : lines.captures = [])
    (hlines : ∀ line, lines.refuses line =
      if marker <:+: line then some (reason line) else none)
    (hvalues : ∀ leaf, values.refuses leaf =
      if marker <:+: leaf then some (reason leaf) else none)
    (text : Text) :
    (∃ after, (line lines).scan text {} = .ok after ∧
      after.problems.toList =
        ((lines.comments.rows text).filter (Row.isMarked marker)).map (fun row =>
          .lineSkipped lines.name (row.index + 1) (reason row.line)) ∧
      after.problems.toList.map (fun problem =>
          (problem.isRecoverable, problem.recovery, problem.position)) =
        ((lines.comments.rows text).filter (Row.isMarked marker)).map (fun row =>
          (true, .skip, some ⟨row.index + 1, 1⟩)) ∧
      after.urls.toList =
        firsts Url.value (((lines.comments.rows text).filter (Row.isClear marker)).flatMap
          lines.plainRecords)) ∧
    ∀ tree, values.read text = .ok tree →
      ∃ after, (structured values).scan text {} = .ok after ∧
        after.problems.toList =
          (markedLeaves marker (tree.leaves rootPath)).map (values.skipped reason) ∧
        (∀ problem ∈ after.problems.toList,
          problem.isRecoverable = true ∧ problem.recovery = .skip) ∧
        after.urls.toList.map (fun url => (url.value, url.context)) =
          (firsts Prod.fst (addressesOf (clearLeaves marker (tree.leaves rootPath)))).map
            fun item => (item.1, some item.2) := by
  have hproblems := lines.problems_scan_refused marker reason hlines text
  refine ⟨⟨lines.scan text {}, rfl, hproblems, ?_, ?_⟩, fun tree hread => ?_⟩
  · rw [hproblems, List.map_map]
    rfl
  · exact lines.urls_scan_refused marker reason hlines hcaptures text
  · obtain ⟨after, hscan, hskipped, hpairs⟩ :=
      values.scan_refused marker reason hvalues text tree hread
    refine ⟨after, hscan, hskipped, ?_, hpairs⟩
    intro problem hproblem
    rw [hskipped] at hproblem
    obtain ⟨leaf, -, rfl⟩ := List.mem_map.mp hproblem
    exact ⟨rfl, rfl⟩

-- The first line has the marker, opens a comment and has an address that stands on the second line
-- too, behind the comment.
theorem refused_costs_only_itself_before_comment :
    let refuses := fun text : Text =>
      if Text.includes text "boom".toList then some "no" else none
    let lines : LineScanner := { name := "flaky", formats := [], comments := .markup, refuses }
    let values : StructuredScanner := { StructuredScanner.toml with refuses }
    let text := "a = 'tel:1 boom <!--'\nb = 'tel:2 --> tel:1'".toList
    (∃ after, (line lines).scan text {} = .ok after ∧
      after.problems.toList = [.lineSkipped "flaky" 1 "no"] ∧
      after.urls.toList.map Url.sighting = [("tel:1", some ⟨2, 16⟩)]) ∧
    ∃ after, (structured values).scan text {} = .ok after ∧
      after.problems.toList = [.valueSkipped "toml" "root.a" "no"] ∧
      after.urls.toList.map (fun url => (url.value, url.context)) =
        [("tel:2", some "root.b"), ("tel:1", some "root.b")] := by
  intro refuses lines values text
  have hrefuses : ∀ text, refuses text = if "boom".toList <:+: text then some "no" else none := by
    intro text
    simp only [refuses, Text.includes_iff]
  have hread : values.read "a = 'tel:1 boom <!--'\nb = 'tel:2 --> tel:1'".toList =
      .ok (.map [("a", .text "tel:1 boom <!--"), ("b", .text "tel:2 --> tel:1")]) := rfl
  have h := refused_costs_only_itself lines values "boom".toList (fun _ => "no") rfl hrefuses
    hrefuses text
  obtain ⟨⟨found, hfound, hproblems, -, hurls⟩, hvalues⟩ := h
  obtain ⟨after, hafter, hskipped, -, hpairs⟩ := hvalues _ hread
  refine ⟨⟨found, hfound, hproblems.trans ?_, ?_⟩, after, hafter, hskipped.trans ?_,
    hpairs.trans ?_⟩
  · decide
  · rw [hurls]
    decide
  · decide
  · decide

end Scanner

end UrlHarvest
