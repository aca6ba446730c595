import UrlHarvest.Proofs.Extraction.Ceiling
import UrlHarvest.Proofs.Pattern.Schemes
import UrlHarvest.Proofs.Scan.Registry
import UrlHarvest.Proofs.Scan.Structured
import UrlHarvest.Proofs.Scan.Targets

namespace UrlHarvest

open Scheme (Disguised)

-- What a scan may report: a target that was checked, or what a boundary rule has met somewhere.
def IsReportable (value : Text) : Prop :=
  isValidUrl value = true ∨
    ∃ (rule : BoundaryRule) (line : Text), ∃ found ∈ rule.pattern.matchesIn line, found.text = value

theorem ofAddress_ne_unknown_of_isValidUrl (value : Text) (h : isValidUrl value = true) :
    Scheme.ofAddress value ≠ .unknown := by
  intro hunknown
  rw [isValidUrl, hunknown] at h
  cases h

theorem ofAddress_eq_unknown_iff (value : Text) (h : IsReportable value) :
    Scheme.ofAddress value = .unknown ↔ Disguised value := by
  refine ⟨fun hunknown => ?_, Scheme.ofAddress_of_disguised value⟩
  rcases h with hvalid | ⟨rule, line, found, hfound, rfl⟩
  · exact absurd hunknown (ofAddress_ne_unknown_of_isValidUrl value hvalid)
  · have hnone : Scheme.unknown ∉ rule.schemes := by cases rule <;> decide
    refine Classical.not_not.mp fun hplain => hnone ?_
    rw [← hunknown]
    exact (rule.ofAddress_of_mem_matchesIn line found hfound).2 hplain

theorem LineScanner.isReportable_of_mem_scan (scanner : LineScanner) (text : Text) (url : Url)
    (hurl : url ∈ (scanner.scan text {}).urls.toList) : IsReportable url.value.toList := by
  obtain ⟨k, offset, -, htargets | ⟨rule, -, line, -, found, hfound, -, hvalue⟩⟩ :=
    scanner.targets_or_matched_of_mem_scan text url hurl
  · obtain ⟨_, _, -, -, -, -, hvalid, -⟩ := htargets
    exact .inl hvalid
  · exact .inr ⟨rule, line, found, hfound, hvalue⟩

theorem Tree.isReportable_of_mem_addresses (tree : Tree) (item : String × String)
    (hitem : item ∈ tree.addresses) : IsReportable item.1.toList := by
  obtain ⟨⟨path, leaf⟩, -, hitem⟩ := List.mem_flatMap.mp hitem
  obtain ⟨value, hvalue, rfl⟩ := List.mem_map.mp hitem
  rw [String.toList_ofList]
  rw [addressesIn] at hvalue
  split at hvalue
  · rename_i hwhole
    rw [List.mem_singleton.mp hvalue]
    exact .inl hwhole.2.2
  · obtain ⟨rule, -, hmatch⟩ := List.mem_flatMap.mp hvalue
    obtain ⟨found, hfound, rfl⟩ := List.mem_map.mp hmatch
    exact .inr ⟨rule, leaf.toList, found, hfound, rfl⟩

theorem StructuredScanner.isReportable_of_mem_scan (scanner : StructuredScanner)
    (hscanner : scanner = toml ∨ scanner = ini) (text : Text) (context : ScanContext)
    (hscan : scanner.scan text {} = .ok context) (url : Url) (hurl : url ∈ context.urls.toList) :
    IsReportable url.value.toList := by
  have hrefuses : ∀ leaf, scanner.refuses leaf = none := by
    rcases hscanner with rfl | rfl <;> exact fun _ => rfl
  cases hread : scanner.read text with
  | ok tree =>
      obtain ⟨after, hafter, -, hpairs, -⟩ := scanner.scan_of_read hrefuses text tree hread
      obtain rfl := Except.ok.inj (hscan.symm.trans hafter)
      have hpair := List.mem_map_of_mem (f := fun url : Url => (url.value, url.context)) hurl
      rw [hpairs] at hpair
      obtain ⟨item, hitem, he⟩ := List.mem_map.mp hpair
      rw [← (Prod.mk.inj he).1]
      exact tree.isReportable_of_mem_addresses item (Tidy.mem_of_mem_firsts Prod.fst item _ hitem)
  | error fault =>
      cases fault with
      | malformed reason =>
          obtain ⟨after, _, hafter, -, -, hurls⟩ := scanner.scan_of_malformed text reason hread
          obtain rfl := Except.ok.inj (hscan.symm.trans hafter)
          rw [hurls] at hurl
          exact scanner.plainLines.isReportable_of_mem_scan text url hurl
      | fatal fault =>
          rw [scan, hread] at hscan
          cases hscan

theorem Scanner.isReportable_of_mem_scan (scanner : Scanner) (hscanner : scanner ∈ builtin)
    (text : Text) (context : ScanContext) (hscan : scanner.scan text {} = .ok context) (url : Url)
    (hurl : url ∈ context.urls.toList) : IsReportable url.value.toList := by
  have hkinds : (∃ lines, scanner = .line lines) ∨ scanner = .structured .toml ∨
      scanner = .structured .ini := by
    simp only [builtin, List.mem_cons, List.not_mem_nil, or_false] at hscanner
    grind
  rcases hkinds with ⟨lines, rfl⟩ | rfl | rfl
  · obtain rfl := Except.ok.inj hscan
    exact lines.isReportable_of_mem_scan text url hurl
  · exact StructuredScanner.toml.isReportable_of_mem_scan (.inl rfl) text context hscan url hurl
  · exact StructuredScanner.ini.isReportable_of_mem_scan (.inr rfl) text context hscan url hurl

namespace Extraction

-- Every address of an extraction was reported by a builtin scanner, with the scheme that its value
-- is read to have.
theorem exists_scan_of_mem_urls (content tag : String) (limits : Limits) (cancelled : Cancellation)
    (url : Url) (hurl : url ∈ (run .builtin limits cancelled content tag).result.urls) :
    ∃ scanner ∈ Scanner.builtin, ∃ context, scanner.scan content.toList {} = .ok context ∧
      url ∈ context.urls.toList := by
  rcases urls_run .builtin limits.contentSize content tag limits.urlCount cancelled with
    hurls | hurls
  · rw [hurls] at hurl
    cases hurl
  · rw [hurls] at hurl
    have hfound := (cutTo_isPrefix _ _).subset hurl
    unfold found at hfound
    split at hfound
    · cases hfound
    · cases hscan : scanned? .builtin content (.resolve tag) with
      | none =>
          rw [hscan] at hfound
          cases hfound
      | some context =>
          rw [hscan] at hfound
          obtain ⟨scanner, hscanner, hok⟩ := Option.bind_eq_some_iff.mp hscan
          refine ⟨scanner, ?_, context, ?_, hfound⟩
          · rcases Option.or_eq_some_iff.mp hscanner with hown | ⟨-, hmarkdown⟩
            · exact Registry.mem_builtin_of_scannerOf? scanner _ hown
            · exact Registry.mem_builtin_of_scannerOf? scanner _ hmarkdown
          · cases hresult : scanner.scan content.toList {} with
            | ok after =>
                rw [hresult] at hok
                rw [Option.some.inj hok]
            | error fault =>
                rw [hresult] at hok
                cases hok

-- Within the default limits an extraction keeps what the scan has found.
theorem urls_extractUrls_json (content : String) (hsize : content.length ≤ 10000000)
    (hcount : (LineScanner.json.scan content.toList {}).urls.size ≤ 50000) :
    (extractUrls content "json").urls = (LineScanner.json.scan content.toList {}).urls.toList := by
  have htag : FileFormat.resolve "json" = .json := by decide
  have hscanned : scanned? .builtin content (.resolve "json") =
      some (LineScanner.json.scan content.toList {}) := by
    rw [htag]
    rfl
  have hends : EndsIn .builtin {} .never content "json" _ :=
    .scanned rfl (Int.ofNat_le.mpr hsize) rfl _ hscanned
  rw [← Array.length_toList] at hcount
  exact hends.shows.2.1.trans (cutTo_of_length_le _ _ (Int.ofNat_le.mpr hcount))

-- What the rules find and what an extraction reports is of a known scheme, and what a rule finds
-- is of one of its own schemes, unless a letter from outside ASCII stands in its mark.
theorem scheme_unknown_iff_disguised (rule : BoundaryRule) (line : Text) (content tag : String)
    (cancelled : Cancellation) :
    (∀ found ∈ rule.pattern.matchesIn line,
      (¬ Disguised found.text → Scheme.ofAddress found.text ∈ rule.schemes) ∧
        (Disguised found.text → Scheme.ofAddress found.text = .unknown)) ∧
    ∀ url ∈ (run .builtin {} cancelled content tag).result.urls,
      url.scheme = .unknown ↔ Disguised url.value.toList := by
  constructor
  · exact fun found hfound => (rule.ofAddress_of_mem_matchesIn line found hfound).symm
  · intro url hurl
    obtain ⟨scanner, hscanner, context, hscan, hurl⟩ :=
      exists_scan_of_mem_urls content tag {} cancelled url hurl
    have hextends := scanner.extends_scan content.toList {} context hscan
    have hsound := hextends.sound ScanContext.sound_empty
    rw [(hsound.faithful url hurl).scheme]
    exact ofAddress_eq_unknown_iff _
      (scanner.isReportable_of_mem_scan hscanner content.toList context hscan url hurl)

theorem scheme_unknown_iff_disguised_capitals :
    let content := "[\"TEL:1\"]"
    let found : Match := ⟨2, "TEL:1".toList, []⟩
    let url := Url.ofValue "TEL:1" (some ⟨1, 3⟩) (some content) none
    found ∈ BoundaryRule.tel.pattern.matchesIn content.toList ∧ ¬ Disguised found.text ∧
    Scheme.ofAddress found.text ∈ BoundaryRule.tel.schemes ∧
    url ∈ (run .builtin {} .never content "json").result.urls ∧
    (url.scheme = .unknown ↔ Disguised url.value.toList) := by
  intro content found url
  have hfound : (⟨2, "TEL:1".toList, []⟩ : Match) ∈
      BoundaryRule.tel.pattern.matchesIn "[\"TEL:1\"]".toList := by decide
  have hplain : ¬ Disguised "TEL:1".toList := by
    intro hdisguised
    exact absurd (Scheme.ofAddress_of_disguised _ hdisguised) (by decide)
  have hurls : (LineScanner.json.scan "[\"TEL:1\"]".toList {}).urls.toList =
      [Url.ofValue "TEL:1" (some ⟨1, 3⟩) (some "[\"TEL:1\"]") none] := by
    rw [LineScanner.scan, ScanContext.toList_urls_takeAll_fresh]
    decide
  have hurl : url ∈ (run .builtin {} .never content "json").result.urls := by
    have hall := urls_extractUrls_json content (by decide) (by
      rw [← Array.length_toList, hurls]
      decide)
    exact hall.symm ▸ hurls.symm ▸ List.mem_singleton_self url
  have h := scheme_unknown_iff_disguised .tel content.toList content "json" .never
  exact ⟨hfound, hplain, (h.1 found hfound).1 hplain, hurl, h.2 url hurl⟩

-- The dotted capital is an i for the rule that finds the address, and none for its scheme.
theorem scheme_unknown_with_dotted_capital :
    let content := "fİle:///etc"
    let found : Match := ⟨0, content.toList, []⟩
    found ∈ BoundaryRule.file.pattern.matchesIn content.toList ∧
    Scheme.ofAddress found.text = .unknown ∧
    (extractUrls content "json").urls.map (fun url => (url.value, url.scheme)) =
      [(content, .unknown)] := by
  intro content found
  have hurls : (LineScanner.json.scan "fİle:///etc".toList {}).urls.toList.map
      (fun url => (url.value, url.scheme)) = [("fİle:///etc", .unknown)] := by
    rw [LineScanner.scan, ScanContext.toList_urls_takeAll_fresh]
    decide
  refine ⟨by decide, by decide, ?_⟩
  rw [urls_extractUrls_json content (by decide), hurls]
  rw [← Array.length_toList, ← List.length_map, hurls]
  decide

end Extraction

end UrlHarvest
