import UrlHarvest.Proofs.Extraction.Endings
import UrlHarvest.Proofs.Ini.Dangling
import UrlHarvest.Proofs.Scan.Structured
import UrlHarvest.Proofs.Toml.Document

namespace UrlHarvest

namespace StructuredScanner

variable {scanner : StructuredScanner} {text : Text}

-- A document that is not read as a tree breaks a rule that its reader can name.
theorem read_or_malformed
    (h : (scanner = toml ∧ Toml.Fits text) ∨
      (scanner = ini ∧ Ini.hasDanglingLine none (Ini.linesOf text) = false)) :
    (∃ tree, scanner.read text = .ok tree) ∨
      ∃ reason, scanner.read text = .error (.malformed reason) := by
  cases hread : scanner.read text with
  | ok tree => exact .inl ⟨tree, rfl⟩
  | error fault =>
      cases fault with
      | malformed reason => exact .inr ⟨reason, rfl⟩
      | fatal fault =>
          exfalso
          rcases h with ⟨rfl, hfits⟩ | ⟨rfl, hnone⟩
          · exact hfits.not_fatal fault hread
          · rw [Ini.hasDanglingLine_of_fatal text fault hread] at hnone
            cases hnone

-- Either way there is a scan. Nothing is lost but the tree: what the lines hold is reported where
-- there is none.
theorem exists_scan (hscanner : scanner = toml ∨ scanner = ini)
    (h : (∃ tree, scanner.read text = .ok tree) ∨
      ∃ reason, scanner.read text = .error (.malformed reason)) :
    ∃ context, scanner.scan text {} = .ok context ∧
      (∀ problem ∈ context.problems.toList, problem.recovery = .fallback) ∧
      ∀ reason, scanner.read text = .error (.malformed reason) →
        context.urls = (scanner.plainLines.scan text {}).urls := by
  have hrefuses : ∀ leaf, scanner.refuses leaf = none := by
    rcases hscanner with rfl | rfl <;> exact fun _ => rfl
  rcases h with ⟨tree, hread⟩ | ⟨reason, hread⟩
  · obtain ⟨after, hscan, hproblems, -⟩ := scanner.scan_of_read hrefuses text tree hread
    refine ⟨after, hscan, fun problem hproblem => ?_, fun reason hmalformed => ?_⟩
    · rw [hproblems] at hproblem
      cases hproblem
    · rw [hread] at hmalformed
      cases hmalformed
  · obtain ⟨after, problem, hscan, hproblems, hrecovery, hurls⟩ :=
      scanner.scan_of_malformed text reason hread
    refine ⟨after, hscan, fun other hother => ?_, fun _ _ => hurls⟩
    rw [hproblems] at hother
    rw [List.mem_singleton.mp hother, hrecovery]

theorem scanned?_builtin (hscanner : scanner = toml ∨ scanner = ini) (content : String)
    (format : FileFormat) (hformat : format ∈ scanner.formats) :
    Extraction.scanned? .builtin content format = (scanner.scan content.toList {}).toOption := by
  rcases hscanner with rfl | rfl
  · obtain rfl := List.mem_singleton.mp hformat
    rfl
  · obtain rfl := List.mem_singleton.mp hformat
    rfl

end StructuredScanner

namespace Extraction

open StructuredScanner

-- Where the reader gives up, nothing that was in the document is reported.
theorem failsWith_of_fatal {scanner : StructuredScanner} (hscanner : scanner = toml ∨ scanner = ini)
    (content tag : String) (htag : FileFormat.resolve tag ∈ scanner.formats) (limits : Limits)
    (hsize : content.length ≤ limits.contentSize) (fault : ScanFault)
    (hread : scanner.read content.toList = .error (.fatal fault)) :
    (run .builtin limits .never content tag).result.FailsWith (.resolve tag) .skip := by
  have hscanned : scanned? .builtin content (.resolve tag) = none := by
    rw [scanned?_builtin hscanner content _ htag, StructuredScanner.scan, hread]
    rfl
  exact (EndsIn.unscanned rfl hsize rfl hscanned).shows.1

theorem map_value_cutTo (limit : Int) (hlimit : 0 ≤ limit) (urls : List Url) :
    (cutTo limit urls).map Url.value = (urls.map Url.value).take limit.toNat := by
  rw [cutTo, if_pos hlimit, List.map_take]

-- Every such document is read as a tree or line by line, and an extraction that is not called off
-- ends with what is found then. What is left out is what a reader gives up on without a word on
-- what is wrong: for TOML numbers and nesting beyond what a host has room for, for INI a line that
-- goes on with a key that has no value.
theorem falls_back_on_lines (scanner : StructuredScanner) (content : String)
    (h : (scanner = toml ∧ Toml.Fits content.toList) ∨
      (scanner = ini ∧ Ini.hasDanglingLine none (Ini.linesOf content.toList) = false)) :
    ((∃ tree, scanner.read content.toList = .ok tree) ∨
      ∃ reason, scanner.read content.toList = .error (.malformed reason)) ∧
    ∃ context, scanner.scan content.toList {} = .ok context ∧
      (∀ reason, scanner.read content.toList = .error (.malformed reason) →
        context.urls = (scanner.plainLines.scan content.toList {}).urls) ∧
      ∀ (limits : Limits) (cancelled : Cancellation) (tag : String),
        FileFormat.resolve tag ∈ scanner.formats → content.length ≤ limits.contentSize →
        cancelled 0 = false → cancelled 1 = false →
        let result := (run .builtin limits cancelled content tag).result
        result.urls = cutTo limits.urlCount context.urls.toList ∧
        (∀ problem ∈ result.problems,
          problem.recovery = .fallback ∨ problem.recovery = .truncate) ∧
        ∀ format, ¬ result.FailsWith format .skip := by
  have hscanner : scanner = toml ∨ scanner = ini := h.imp And.left And.left
  have hread := read_or_malformed h
  obtain ⟨context, hscan, hfallback, hlines⟩ := exists_scan hscanner hread
  refine ⟨hread, context, hscan, hlines, fun limits cancelled tag htag hsize hfirst hsecond => ?_⟩
  intro result
  have hscanned : scanned? .builtin content (.resolve tag) = some context := by
    rw [scanned?_builtin hscanner content _ htag, hscan]
    rfl
  obtain ⟨-, hurls, ⟨cut, hproblems, -, hcut⟩, -, -⟩ :=
    (EndsIn.scanned hfirst hsize hsecond context hscanned).shows
  have hrecovery : ∀ problem ∈ result.problems,
      problem.recovery = .fallback ∨ problem.recovery = .truncate := by
    intro problem hproblem
    rw [hproblems] at hproblem
    rcases List.mem_append.mp hproblem with hmet | hmet
    · exact .inl (hfallback problem hmet)
    · exact .inr (hcut problem hmet)
  refine ⟨hurls, hrecovery, fun format hfails => ?_⟩
  obtain ⟨-, -, -, problem, hone, hskip⟩ := hfails
  have hmem : problem ∈ result.problems := hone ▸ List.mem_singleton_self problem
  rcases hrecovery problem hmem with hother | hother
  · cases hskip.symm.trans hother
  · cases hskip.symm.trans hother

theorem falls_back_on_lines_malformed :
    let repeated := "[a]\nu = tel:1\n  tel:2\n[a]"
    let unclosed := "a = [\x7bb = ['tel:3'"
    let ofIni := (run .builtin {} .never repeated " INI ").result
    let ofToml := (run .builtin {} .never unclosed "toml").result
    (Ini.hasDanglingLine none (Ini.linesOf repeated.toList) = false ∧
      ofIni.urls.map Url.value = ["tel:1", "tel:2"] ∧ ∀ format, ¬ ofIni.FailsWith format .skip) ∧
    (Toml.Fits unclosed.toList ∧
      ofToml.urls.map Url.value = ["tel:3"] ∧ ∀ format, ¬ ofToml.FailsWith format .skip) := by
  intro repeated unclosed ofIni ofToml
  constructor
  · have hstays : Ini.hasDanglingLine none
        (Ini.linesOf "[a]\nu = tel:1\n  tel:2\n[a]".toList) = false := by decide
    have hread : ini.read "[a]\nu = tel:1\n  tel:2\n[a]".toList = .error (.malformed
        "While reading from '<string>' [line  5]: section 'a' already exists") := by rfl
    have hlines : (ini.plainLines.scan "[a]\nu = tel:1\n  tel:2\n[a]".toList {}).urls.toList.map
        Url.value = ["tel:1", "tel:2"] := by
      rw [LineScanner.scan, ScanContext.toList_urls_takeAll_fresh]
      decide
    obtain ⟨-, context, -, hcontext, hends⟩ :=
      falls_back_on_lines ini repeated (.inr ⟨rfl, hstays⟩)
    obtain ⟨hurls, -, hfails⟩ := hends {} .never " INI " (by decide) (by decide) rfl rfl
    refine ⟨hstays, ?_, hfails⟩
    rw [hurls, hcontext _ hread, map_value_cutTo _ (by decide)]
    exact congrArg (List.take _) hlines
  · have hparse : Toml.parse "a = [\x7bb = ['tel:3'".toList = .error (.malformed
        "Unclosed array (at end of document)") := by rfl
    have hread : toml.read "a = [\x7bb = ['tel:3'".toList = .error (.malformed
        "Unclosed array (at end of document)") := by rfl
    have hfits : Toml.Fits "a = [\x7bb = ['tel:3'".toList :=
      .of_short (by decide) fun tree htree => by cases hparse.symm.trans htree
    have hlines : (toml.plainLines.scan "a = [\x7bb = ['tel:3'".toList {}).urls.toList.map
        Url.value = ["tel:3"] := by
      rw [LineScanner.scan, ScanContext.toList_urls_takeAll_fresh]
      decide
    obtain ⟨-, context, -, hcontext, hends⟩ :=
      falls_back_on_lines toml unclosed (.inl ⟨rfl, hfits⟩)
    obtain ⟨hurls, -, hfails⟩ := hends {} .never "toml" (by decide) (by decide) rfl rfl
    refine ⟨hfits, ?_, hfails⟩
    rw [hurls, hcontext _ hread, map_value_cutTo _ (by decide)]
    exact congrArg (List.take _) hlines

-- The reader of INI documents does not name what is wrong with this one, so there is no scan of
-- its lines, and the address in it is lost.
theorem gives_up_below_key_without_value :
    let content := "key\n  tel:1"
    ini.read content.toList = .error (.fatal .danglingLine) ∧
    (extractUrls content "ini").FailsWith .ini .skip ∧
    (ini.plainLines.scan content.toList {}).urls.toList.map Url.value = ["tel:1"] := by
  intro content
  have hread : ini.read "key\n  tel:1".toList = .error (.fatal .danglingLine) := by rfl
  have hfails : (run .builtin {} .never "key\n  tel:1" "ini").result.FailsWith
      (.resolve "ini") .skip :=
    failsWith_of_fatal (.inr rfl) _ "ini" (by decide) {} (by decide) _ hread
  have htag : FileFormat.resolve "ini" = .ini := by decide
  rw [htag] at hfails
  refine ⟨hread, hfails, ?_⟩
  change ((ini.plainLines.scan "key\n  tel:1".toList {}).urls.toList.map Url.value) = ["tel:1"]
  rw [LineScanner.scan, ScanContext.toList_urls_takeAll_fresh]
  decide

-- Nor does the reader of TOML documents once five hundred lists are open in one another, whatever
-- follows on them.
theorem gives_up_on_deep_lists (count : Nat) (rest : Text) (limits : Limits) (h : 500 ≤ count) :
    let content := String.ofList ("a = ".toList ++ (List.replicate count '[' ++ rest))
    content.length ≤ limits.contentSize →
    (run .builtin limits .never content "toml").result.FailsWith .toml .skip := by
  intro content hsize
  have hread : toml.read content.toList = .error (.fatal .nestedTooDeep) := by
    have hroom : Toml.callRoom < 2 * count := by
      unfold Toml.callRoom
      omega
    change Toml.read content.toList = _
    rw [String.toList_ofList, Toml.read_openLists count rest hroom]
  have htag : FileFormat.resolve "toml" = .toml := by decide
  have hfails := failsWith_of_fatal (.inl rfl) content "toml" (by decide) limits hsize _ hread
  rw [htag] at hfails
  exact hfails

end Extraction

end UrlHarvest
