import UrlHarvest.Proofs.Pattern.Boundary
import UrlHarvest.Proofs.Scan.Context
import UrlHarvest.Proofs.Scan.Findings
import UrlHarvest.Scan.Scanner

namespace UrlHarvest

open Tidy

namespace BoundaryRule

theorem text_ne_nil_of_mem_matchesIn (rule : BoundaryRule) (text : Text) (found : Match)
    (hfound : found ∈ rule.pattern.matchesIn text) : found.text ≠ [] := by
  obtain ⟨-, hat⟩ := rule.pattern.matchAt?_of_mem_matchesIn text found hfound
  rw [matchAt?_pattern] at hat
  split at hat
  · rw [← congrArg Match.text (Option.some.inj hat)]
    exact rule.run_ne_nil_of_begins _ ‹_›
  · cases hat

end BoundaryRule

-- What a locator answers when it is asked for one value after the other.
def Locator.answers (locator : Locator) : List Text → List (Option Position)
  | [] => []
  | value :: rest => (locator.locate value).1 :: (locator.locate value).2.answers rest

-- The addresses in a leaf: the trimmed leaf itself where it is one, and otherwise whatever the
-- boundary rules meet in it, rule by rule.
def Tree.addressesIn (leaf : Text) : List Text :=
  let whole := Text.trim leaf
  if whole ≠ [] ∧ whole.any Text.isBlank = false ∧ isValidUrl whole = true then [whole]
  else BoundaryRule.all.flatMap fun rule => (rule.pattern.matchesIn leaf).map Match.text

-- All of them, in document order, with the path of the leaf that each one is in.
def Tree.addresses (tree : Tree) : List (String × String) :=
  (tree.leaves rootPath).flatMap fun (path, leaf) =>
    (addressesIn leaf.toList).map fun value => (String.ofList value, path)

theorem Tree.ne_nil_of_mem_addressesIn (leaf value : Text) (h : value ∈ addressesIn leaf) :
    value ≠ [] := by
  rw [addressesIn] at h
  split at h
  · rename_i hwhole
    rw [List.mem_singleton.mp h]
    exact hwhole.1
  · obtain ⟨rule, -, hmatch⟩ := List.mem_flatMap.mp h
    obtain ⟨found, hfound, rfl⟩ := List.mem_map.mp hmatch
    exact rule.text_ne_nil_of_mem_matchesIn leaf found hfound

theorem Tree.ne_empty_of_mem_addresses (tree : Tree) (item : String × String)
    (h : item ∈ tree.addresses) : item.1 ≠ "" := by
  obtain ⟨⟨path, leaf⟩, -, hitem⟩ := List.mem_flatMap.mp h
  obtain ⟨value, hvalue, rfl⟩ := List.mem_map.mp hitem
  exact mt String.ofList_eq_empty_iff.mp (ne_nil_of_mem_addressesIn leaf.toList value hvalue)

namespace StructuredScanner

variable (scanner : StructuredScanner)

theorem candidates_eq_addressesIn (leaf : Text) : candidates leaf = Tree.addressesIn leaf := by
  have hwhole : ∀ whole : Text,
      (!whole.isEmpty && !whole.any Text.isBlank && isValidUrl whole) = true ↔
        whole ≠ [] ∧ whole.any Text.isBlank = false ∧ isValidUrl whole = true := by
    intro whole
    simp [and_assoc]
  rw [candidates, Tree.addressesIn, BoundaryRule.matchesIn, List.map_flatMap]
  by_cases h : (!(Text.trim leaf).isEmpty && !(Text.trim leaf).any Text.isBlank &&
      isValidUrl (Text.trim leaf)) = true
  · rw [if_pos h, if_pos ((hwhole _).mp h)]
  · rw [if_neg h, if_neg (mt (hwhole _).mpr h)]

def takeAddress (state : Locator × ScanContext) (item : String × String) :
    Locator × ScanContext :=
  takeCandidate item.2 state item.1.toList

-- The record of an address, at the place where it was found.
def located (item : String × String) (position : Option Position) : Url :=
  Url.ofValue item.1 position (some item.2) none

-- The records of some addresses, each where the locator finds it when it is asked for one after
-- the other.
def records (locator : Locator) : List (String × String) → List Url
  | [] => []
  | item :: rest =>
    let (position, moved) := locator.locate item.1.toList
    located item position :: records moved rest

variable (locator : Locator) (context : ScanContext) (item : String × String)

@[simp] theorem records_nil : records locator [] = [] := rfl

theorem records_cons (rest : List (String × String)) :
    records locator (item :: rest) =
      located item (locator.locate item.1.toList).1 ::
        records (locator.locate item.1.toList).2 rest := rfl

theorem map_records (items : List (String × String)) :
    (records locator items).map (fun url => (url.value, url.context)) =
      items.map fun item => (item.1, some item.2) := by
  induction items generalizing locator with
  | nil => rfl
  | cons item rest ih => rw [records_cons, List.map_cons, List.map_cons, ih]; rfl

theorem position_records (items : List (String × String)) :
    (records locator items).map Url.position =
      locator.answers (items.map fun item => item.1.toList) := by
  induction items generalizing locator with
  | nil => rfl
  | cons item rest ih =>
      rw [records_cons, List.map_cons, ih, List.map_cons, Locator.answers]
      rfl

theorem takeAddress_of_seen (hseen : context.seen.contains item.1 = true) :
    takeAddress (locator, context) item = (locator, context) := by
  simp [takeAddress, takeCandidate, ScanContext.isNew, hseen]

theorem takeAddress_of_new (hitem : item.1 ≠ "") (hnew : context.seen.contains item.1 = false) :
    takeAddress (locator, context) item =
      ((locator.locate item.1.toList).2, { context with
        seen := context.seen.insert item.1
        urls := context.urls.push (located item (locator.locate item.1.toList).1) }) := by
  simp [takeAddress, takeCandidate, ScanContext.take, ScanContext.add, ScanContext.isNew, hnew,
    hitem, located]

-- The tree is walked leaf by leaf, but what is recorded depends on the list of addresses alone.
theorem foldl_takeLeaf (hrefuses : ∀ leaf, scanner.refuses leaf = none) (tree : Tree)
    (state : Locator × ScanContext) :
    (tree.leaves Tree.rootPath).foldl scanner.takeLeaf state =
      tree.addresses.foldl takeAddress state := by
  rw [Tree.addresses, List.foldl_flatMap]
  congr 1
  funext state leaf
  rw [takeLeaf, hrefuses, candidates_eq_addressesIn, List.foldl_map]
  simp only [takeAddress, String.toList_ofList]

theorem problems_foldl_takeAddress (items : List (String × String))
    (hitems : ∀ item ∈ items, item.1 ≠ "") :
    (items.foldl takeAddress (locator, context)).2.problems = context.problems := by
  induction items generalizing locator context with
  | nil => rfl
  | cons item rest ih =>
      have hrest := fun other ho => hitems other (List.mem_cons_of_mem item ho)
      rw [List.foldl_cons]
      cases hseen : context.seen.contains item.1 with
      | true => rw [takeAddress_of_seen locator context item hseen, ih locator context hrest]
      | false =>
          rw [takeAddress_of_new locator context item (hitems item List.mem_cons_self) hseen,
            ih _ _ hrest]

-- The locator is asked for the values that are recorded, in the order of the records, and for no
-- others: that is what keeps its cursor in step with the walk.
theorem urls_foldl_takeAddress (items : List (String × String))
    (hitems : ∀ item ∈ items, item.1 ≠ "") :
    (items.foldl takeAddress (locator, context)).2.urls.toList =
      context.urls.toList ++ records locator
        (firsts Prod.fst (items.filter fun item => !context.seen.contains item.1)) := by
  induction items generalizing locator context with
  | nil => simp
  | cons item rest ih =>
      have hrest := fun other ho => hitems other (List.mem_cons_of_mem item ho)
      rw [List.foldl_cons]
      cases hseen : context.seen.contains item.1 with
      | true =>
          rw [takeAddress_of_seen locator context item hseen, ih locator context hrest,
            firsts_unseen_of_seen Prod.fst _ item _ hseen]
      | false =>
          rw [takeAddress_of_new locator context item (hitems item List.mem_cons_self) hseen,
            ih _ _ hrest, firsts_unseen_of_new Prod.fst _ item _ hseen, records_cons,
            Array.toList_push, List.append_assoc, List.singleton_append]

-- Where a document reads as a tree.
theorem scan_of_read (hrefuses : ∀ leaf, scanner.refuses leaf = none) (text : Text) (tree : Tree)
    (hread : scanner.read text = .ok tree) :
    ∃ after, scanner.scan text {} = .ok after ∧ after.problems = #[] ∧
      after.urls.toList.map (fun url => (url.value, url.context)) =
        (firsts Prod.fst tree.addresses).map (fun item => (item.1, some item.2)) ∧
      after.urls.toList.map Url.position =
        (Locator.ofText text scanner.comments).answers
          (after.urls.toList.map fun url => url.value.toList) := by
  let locator := Locator.ofText text scanner.comments
  let after := (tree.addresses.foldl takeAddress (locator, {})).2
  have hurls : after.urls.toList = records locator (firsts Prod.fst tree.addresses) := by
    have hrun := urls_foldl_takeAddress locator {} tree.addresses tree.ne_empty_of_mem_addresses
    rwa [List.filter_eq_self.mpr (by simp)] at hrun
  have hpairs := map_records locator (firsts Prod.fst tree.addresses)
  have hpositions := position_records locator (firsts Prod.fst tree.addresses)
  rw [← hurls] at hpairs hpositions
  have hvalues := congrArg (List.map fun pair => pair.1.toList) hpairs
  rw [List.map_map, List.map_map] at hvalues
  refine ⟨after, ?_, problems_foldl_takeAddress locator {} _ tree.ne_empty_of_mem_addresses,
    hpairs, hpositions.trans (congrArg locator.answers hvalues.symm)⟩
  simp only [scan, hread, after, scanner.foldl_takeLeaf hrefuses, locator]

-- What is left where a document does not read as a tree: addresses in running text.
def plainLines : LineScanner where
  name := "plain"
  formats := []
  comments := scanner.comments
  rules := BoundaryRule.all

theorem findings_lineByLine (text : Text) :
    scanner.lineByLine.findings text = scanner.plainLines.findings text := rfl

theorem scan_of_malformed (text : Text) (reason : String)
    (hread : scanner.read text = .error (.malformed reason)) :
    ∃ after problem, scanner.scan text {} = .ok after ∧ after.problems = #[problem] ∧
      problem.recovery = .fallback ∧ after.urls = (scanner.plainLines.scan text {}).urls := by
  let problem := Problem.unparsed scanner.name scanner.label reason
  refine ⟨scanner.lineByLine.scan text (ScanContext.note {} problem), problem, ?_, ?_, rfl, ?_⟩
  · rw [scan, hread]
  · apply Array.toList_inj.mp
    rw [LineScanner.scan, ScanContext.toList_problems_takeAll,
      scanner.lineByLine.problems_findings fun _ => rfl]
    rfl
  · apply Array.toList_inj.mp
    rw [LineScanner.scan, LineScanner.scan, ScanContext.toList_urls_takeAll,
      ScanContext.toList_urls_takeAll, findings_lineByLine]
    rfl

variable {scanner}

end StructuredScanner

end UrlHarvest
