import UrlHarvest.Proofs.Extraction.Endings
import UrlHarvest.Proofs.Scan.Sound

namespace UrlHarvest.Extraction

theorem cutTo_isPrefix (limit : Int) (urls : List Url) : cutTo limit urls <+: urls := by
  unfold cutTo
  split <;> exact List.take_prefix _ _

theorem cutTo_of_nonneg (limit : Int) (urls : List Url) (h : 0 ≤ limit) :
    cutTo limit urls = urls.take limit.toNat :=
  if_pos h

-- A ceiling that is not reached changes nothing.
theorem cutAt_of_length_le (limit : Int) (full : ExtractionResult)
    (h : full.urls.length ≤ limit) : cutAt limit full = full := by
  rw [cutAt, cutTo_of_length_le limit _ h, if_neg (Int.not_lt.mpr h), List.append_nil]

theorem cutAt_failed (limit : Int) (hlimit : 0 ≤ limit) (format : FileFormat)
    (problem : Problem) : cutAt limit (failed format problem) = failed format problem :=
  cutAt_of_length_le limit (failed format problem) hlimit

theorem nodup_of_scanned? (registry : Registry) (content : String) (format : FileFormat)
    (context : ScanContext) (h : scanned? registry content format = some context) :
    (context.urls.toList.map Url.value).Nodup := by
  obtain ⟨scanner, -, hscan⟩ := Option.bind_eq_some_iff.mp h
  cases hs : scanner.scan content.toList {} with
  | error fault =>
      rw [hs] at hscan
      cases hscan
  | ok after =>
      rw [hs] at hscan
      obtain rfl := Option.some.inj hscan
      have hextends := scanner.extends_scan content.toList {} after hs
      exact (hextends.sound ScanContext.sound_empty).nodup

-- What there is to be found in a document that is not too large, before anything is cut off.
def found (registry : Registry) (size : Int) (content tag : String) : List Url :=
  if size < content.length then []
  else ((scanned? registry content (.resolve tag)).map fun context => context.urls.toList).getD []

section Found

variable (registry : Registry) (size : Int) (content tag : String)

theorem nodup_found : ((found registry size content tag).map Url.value).Nodup := by
  unfold found
  split
  · exact List.nodup_nil
  · cases hscan : scanned? registry content (.resolve tag) with
    | none => exact List.nodup_nil
    | some context => exact nodup_of_scanned? registry content _ context hscan

-- Whatever an extraction comes to, its addresses are a part of those to be found, from the
-- first one on.
theorem urls_run (limit : Int) (cancelled : Cancellation) :
    let urls := (run registry ⟨size, limit⟩ cancelled content tag).result.urls
    urls = [] ∨ urls = cutTo limit (found registry size content tag) := by
  intro urls
  obtain ⟨ending, hends⟩ := exists_endsIn registry ⟨size, limit⟩ cancelled content tag
  have hshows := hends.shows
  cases hends with
  | neverBegun => exact .inl (congrArg ExtractionResult.urls hshows.1)
  | tooLarge => exact .inl hshows.1.2.2.1
  | calledOff => exact .inl (congrArg ExtractionResult.urls hshows.1)
  | unscanned => exact .inl hshows.1.2.2.1
  | scanned hfirst hsize hsecond context hscan =>
      right
      rw [found, if_neg (Int.not_lt.mpr hsize), hscan]
      exact hshows.2.1

theorem length_urls_run_le (limit : Int) (hlimit : 0 ≤ limit) (cancelled : Cancellation) :
    (run registry ⟨size, limit⟩ cancelled content tag).result.urls.length ≤ limit := by
  rcases urls_run registry size content tag limit cancelled with hurls | hurls
  · rw [hurls]
    exact hlimit
  · rw [hurls, cutTo_of_nonneg limit _ hlimit, List.length_take]
    omega

theorem nodup_urls_run (limit : Int) (cancelled : Cancellation) :
    ((run registry ⟨size, limit⟩ cancelled content tag).result.urls.map Url.value).Nodup := by
  rcases urls_run registry size content tag limit cancelled with hurls | hurls
  · rw [hurls]
    exact List.nodup_nil
  · rw [hurls]
    have hpart := ((cutTo_isPrefix limit (found registry size content tag)).map Url.value).sublist
    exact hpart.nodup (nodup_found registry size content tag)

-- The ceiling comes in at the end of an extraction and nowhere else.
theorem exists_result_run_eq_cutAt (cancelled : Cancellation)
    (hgoes : ∀ question < 2, cancelled question = false) :
    ∃ full : ExtractionResult, full.urls = found registry size content tag ∧
      ∀ limit, 0 ≤ limit →
        (run registry ⟨size, limit⟩ cancelled content tag).result = cutAt limit full := by
  have hrun : ∀ limit, run registry ⟨size, limit⟩ cancelled content tag =
      if size < content.length then
        { result := failed .unknown (.tooLarge content.length size), questions := 1 }
      else
        { result := (scanWith registry ⟨size, limit⟩ content (.resolve tag)).1
          questions := 2
          scanner := (scanWith registry ⟨size, limit⟩ content (.resolve tag)).2 } := by
    intro limit
    rw [run_eq, hgoes 0 Nat.two_pos, hgoes 1 Nat.one_lt_two]
    rfl
  by_cases hsize : size < content.length
  · refine ⟨failed .unknown (.tooLarge content.length size), (if_pos hsize).symm, ?_⟩
    intro limit hlimit
    rw [hrun, if_pos hsize, cutAt_failed limit hlimit]
  · rw [found, if_neg hsize]
    cases hscan : scanned? registry content (.resolve tag) with
    | none =>
        obtain ⟨reason, hfailed⟩ := scanWith_of_none registry content _ hscan
        refine ⟨failed (.resolve tag) (.scanFailed (.resolve tag) reason), rfl, ?_⟩
        intro limit hlimit
        rw [hrun, if_neg hsize, hfailed, cutAt_failed limit hlimit]
    | some context =>
        refine ⟨uncut (.resolve tag) context, rfl, fun limit _ => ?_⟩
        rw [hrun, if_neg hsize, scanWith_of_some registry content _ _ context hscan, resultOf_eq]

-- Two extractions of one document under two ceilings, and a third one under a ceiling that all
-- addresses fit under: the lower ceiling takes addresses off the end and adds one problem, and
-- nothing else differs. Whoever calls an extraction off, no ceiling is passed and no value comes
-- twice.
theorem ceiling_only_cuts (cancelled : Cancellation)
    (hgoes : ∀ question < 2, cancelled question = false) (lower higher ample : Int)
    (hlower : 0 ≤ lower) (hle : lower ≤ higher)
    (hample : (found registry size content tag).length ≤ ample) :
    let count := (found registry size content tag).length
    let result (limit : Int) := (run registry ⟨size, limit⟩ cancelled content tag).result
    (result lower).success = (result higher).success ∧
    (result lower).format = (result higher).format ∧
    (result lower).urls = (result higher).urls.take lower.toNat ∧
    (result ample).urls = found registry size content tag ∧
    (count ≤ lower → (result lower).problems = (result ample).problems) ∧
    (lower < count → ∃ cut, (result lower).problems = (result ample).problems ++ [cut] ∧
      cut.recovery = .truncate ∧ cut.isRecoverable = true) ∧
    ∀ (other : Cancellation) (limit : Int),
      let urls := (run registry ⟨size, limit⟩ other content tag).result.urls
      (0 ≤ limit → urls.length ≤ limit) ∧ (urls.map Url.value).Nodup := by
  intro count result
  obtain ⟨full, hurls, hfull⟩ :=
    exists_result_run_eq_cutAt registry size content tag cancelled hgoes
  have hresult : ∀ limit, 0 ≤ limit → result limit = cutAt limit full := hfull
  have hlength : full.urls.length = count := congrArg List.length hurls
  rw [hresult lower hlower, hresult higher (by omega), hresult ample (by omega),
    cutAt_of_length_le ample full (hlength ▸ hample)]
  refine ⟨rfl, rfl, ?_, hurls, fun hcount => ?_, fun hcount => ?_, ?_⟩
  · change cutTo lower full.urls = (cutTo higher full.urls).take lower.toNat
    rw [cutTo_of_nonneg lower _ hlower, cutTo_of_nonneg higher _ (by omega), List.take_take,
      Nat.min_eq_left (by omega)]
  · rw [cutAt_of_length_le lower full (hlength ▸ hcount)]
  · exact ⟨.tooManyUrls full.urls.length lower,
      congrArg (full.problems ++ ·) (if_pos (hlength ▸ hcount)), rfl, rfl⟩
  · exact fun other limit =>
      ⟨fun hlimit => length_urls_run_le registry size content tag limit hlimit other,
        nodup_urls_run registry size content tag limit other⟩

theorem ceiling_only_cuts_behind_refused_line :
    let scanner : LineScanner :=
      { LineScanner.json with refuses := fun row => if row = "no".toList then some "" else none }
    let registry : Registry := ⟨[(.json, .line scanner)]⟩
    let content := "tel:1\nno\ntel:2 tel:3"
    let count := (found registry 20 content " JSON ").length
    let result (limit : Int) := (run registry ⟨20, limit⟩ (.after 2) content " JSON ").result
    count = 3 ∧ (∀ question < 2, Cancellation.after 2 question = false) ∧
    (result 1).success = (result 2).success ∧
    (result 1).format = (result 2).format ∧
    (result 1).urls = (result 2).urls.take 1 ∧
    ∃ cut, (result 1).problems = (result 3).problems ++ [cut] ∧ cut.recovery = .truncate := by
  intro scanner registry content count result
  have hfound : found registry 20 "tel:1\nno\ntel:2 tel:3" " JSON " =
      (scanner.scan "tel:1\nno\ntel:2 tel:3".toList {}).urls.toList := rfl
  have hcount : (found registry 20 content " JSON ").length = 3 := by
    change (found registry 20 "tel:1\nno\ntel:2 tel:3" " JSON ").length = 3
    rw [hfound, LineScanner.scan, ScanContext.toList_urls_takeAll_fresh]
    decide
  have hgoes : ∀ question < 2, Cancellation.after 2 question = false := by decide
  obtain ⟨hsuccess, hformat, hurls, -, -, hcut, -⟩ :=
    ceiling_only_cuts registry 20 content " JSON " (.after 2) hgoes 1 2 3 (by decide) (by decide)
      (by omega)
  obtain ⟨cut, hproblems, hrecovery, -⟩ := hcut (by omega)
  exact ⟨hcount, hgoes, hsuccess, hformat, hurls, cut, hproblems, hrecovery⟩

end Found

end UrlHarvest.Extraction
