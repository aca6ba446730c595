import UrlHarvest.Proofs.Pattern.Schemes
import UrlHarvest.Proofs.Scan.Delimited
import UrlHarvest.Proofs.Scan.Hits
import UrlHarvest.Proofs.Scan.Sound

namespace UrlHarvest

-- What leads to a person and not to a resource.
def Scheme.IsContact (scheme : Scheme) : Prop :=
  scheme = mailto ∨ scheme = tel

instance (scheme : Scheme) : Decidable scheme.IsContact :=
  inferInstanceAs (Decidable (_ ∨ _))

namespace LineScanner

variable (scanner : LineScanner) (text : Text)

-- A structural pass matches at `offset` of line `k`, where neither the line nor the place is
-- hidden, and points to a valid address.
def Targets (k offset : Nat) (value : Text) : Prop :=
  ∃ line regions, (Text.lines text)[k]? = some line ∧
    (scanner.comments.regions (Text.lines text))[k]? = some regions ∧ regions.wholeLine = false ∧
    scanner.hides regions line offset = false ∧ isValidUrl value = true ∧
    ∃ pass ∈ scanner.captures, ∃ found ∈ pass.pattern.matchesIn line,
      found.start = offset ∧ pass.target found = value

-- A record comes in as a target or through one of the rules.
theorem targets_or_matched_of_mem_scan (url : Url)
    (hurl : url ∈ (scanner.scan text {}).urls.toList) :
    ∃ k offset : Nat, url.position = some ⟨k + 1, offset + 1⟩ ∧
      (scanner.Targets text k offset url.value.toList ∨
        ∃ rule ∈ scanner.rules, ∃ line, (Text.lines text)[k]? = some line ∧
          ∃ found ∈ rule.pattern.matchesIn line,
            found.start = offset ∧ found.text = url.value.toList) := by
  obtain ⟨k, line, regions, hline, hregions, hwhole, hit, hhit, -, rfl⟩ :=
    scanner.exists_hit_of_mem_scan text url hurl
  refine ⟨k, hit.offset, rfl, ?_⟩
  rw [Url.ofValue, String.toList_ofList]
  rcases List.mem_append.mp hhit with hcapture | hplain
  · obtain ⟨pass, hpass, hhit⟩ := List.mem_flatMap.mp hcapture
    obtain ⟨hshown, hvalid, hmatch⟩ :=
      (scanner.mem_captureHits_iff regions line pass hit).mp hhit
    exact .inl ⟨line, regions, hline, hregions, hwhole, hshown, hvalid, pass, hpass, hmatch⟩
  · rw [plainHits_eq_map] at hplain
    obtain ⟨rule, hrule, hmade⟩ := List.mem_flatMap.mp hplain
    obtain ⟨found, hfound, rfl⟩ := List.mem_map.mp hmade
    exact .inr ⟨rule, hrule, line, hline, found, (List.mem_filter.mp hfound).1, rfl, rfl⟩

theorem scheme_of_mem_scan (url : Url) (hurl : url ∈ (scanner.scan text {}).urls.toList) :
    url.scheme = Scheme.ofAddress url.value.toList := by
  have hextends : (scanner.scan text {}).Extends {} := ⟨scanner.findings text, rfl⟩
  exact ((hextends.sound ScanContext.sound_empty).faithful url hurl).scheme

-- No target is missed, though the record may be that of an earlier place.
theorem exists_url_of_targets (hrefuses : ∀ line, scanner.refuses line = none) (k offset : Nat)
    (value : Text) (h : scanner.Targets text k offset value) :
    ∃ url ∈ (scanner.scan text {}).urls.toList, url.value = String.ofList value ∧
      url.scheme = Scheme.ofAddress value := by
  obtain ⟨line, regions, hline, hregions, hwhole, hshown, hvalid, pass, hpass, hmatch⟩ := h
  have hhit : (⟨offset, value⟩ : Hit) ∈ scanner.captureHits regions line pass :=
    (scanner.mem_captureHits_iff regions line pass _).mpr ⟨hshown, hvalid, hmatch⟩
  have hmem : (⟨offset, value⟩ : Hit) ∈ scanner.hits regions line :=
    List.mem_append_left _ (List.mem_flatMap.mpr ⟨pass, hpass, hhit⟩)
  have hvalue := scanner.value_mem_of_hit text k line regions hline hregions hwhole (hrefuses line)
    _ hmem (ne_nil_of_isValidUrl value hvalid)
  obtain ⟨url, hurl, he⟩ := List.mem_map.mp hvalue
  refine ⟨url, hurl, he, ?_⟩
  rw [scanner.scheme_of_mem_scan text url hurl, he, String.toList_ofList]

-- A known scheme that none of the rules looks for comes in through a structural pass alone.
theorem targets_of_mem_scan (scheme : Scheme) (hknown : scheme ≠ .unknown)
    (hrules : ∀ rule ∈ scanner.rules, scheme ∉ rule.schemes) (url : Url)
    (hurl : url ∈ (scanner.scan text {}).urls.toList) (hscheme : url.scheme = scheme) :
    ∃ k offset : Nat, url.position = some ⟨k + 1, offset + 1⟩ ∧
      scanner.Targets text k offset url.value.toList := by
  rw [scanner.scheme_of_mem_scan text url hurl] at hscheme
  obtain ⟨k, offset, hposition, htargets | ⟨rule, hrule, line, -, found, hfound, -, hvalue⟩⟩ :=
    scanner.targets_or_matched_of_mem_scan text url hurl
  · exact ⟨k, offset, hposition, htargets⟩
  · have hread := rule.ofAddress_of_mem_matchesIn line found hfound
    rw [hvalue, hscheme] at hread
    by_cases hdisguised : Scheme.Disguised url.value.toList
    · exact absurd (hread.1 hdisguised) hknown
    · exact absurd (hread.2 hdisguised) (hrules rule hrule)

theorem css_targets_of_isContact (url : Url) (hurl : url ∈ (css.scan text {}).urls.toList)
    (hcontact : url.scheme.IsContact) :
    ∃ k offset : Nat, url.position = some ⟨k + 1, offset + 1⟩ ∧
      css.Targets text k offset url.value.toList := by
  have hrules : url.scheme ≠ .unknown ∧ ∀ rule ∈ css.rules, url.scheme ∉ rule.schemes := by
    rcases hcontact with he | he <;> rw [he] <;> decide
  exact css.targets_of_mem_scan text url.scheme hrules.1 hrules.2 url hurl rfl

-- Of a stylesheet, mailboxes and telephone numbers are reported exactly as targets of the
-- structural passes: what stands there in the open is passed over, and the passes let through
-- every valid address.
theorem contacts_css :
    (∀ url ∈ (css.scan text {}).urls.toList, url.scheme.IsContact →
      ∃ k offset : Nat, url.position = some ⟨k + 1, offset + 1⟩ ∧
        css.Targets text k offset url.value.toList) ∧
    (∀ k offset value, css.Targets text k offset value →
      ∃ url ∈ (css.scan text {}).urls.toList, url.value = String.ofList value ∧
        url.scheme = Scheme.ofAddress value) ∧
    ((∀ url ∈ (css.scan text {}).urls.toList, ¬ url.scheme.IsContact) ↔
      ∀ k offset value, css.Targets text k offset value →
        ¬ (Scheme.ofAddress value).IsContact) := by
  refine ⟨css_targets_of_isContact text, css.exists_url_of_targets text fun _ => rfl,
    fun hnone k offset value htargets => ?_, fun hnone url hurl hcontact => ?_⟩
  · obtain ⟨url, hurl, -, hscheme⟩ :=
      css.exists_url_of_targets text (fun _ => rfl) k offset value htargets
    exact hscheme ▸ hnone url hurl
  · obtain ⟨k, offset, -, htargets⟩ := css_targets_of_isContact text url hurl hcontact
    refine hnone k offset _ htargets ?_
    rwa [← css.scheme_of_mem_scan text url hurl]

-- A mailbox in the open is passed over and so is a comment, but the import is none of the two.
theorem contacts_css_import :
    let text := "content: 'mailto:a@b' /* \n */ @import \"tel:12\"".toList
    let url := Url.ofValue "tel:12" (some ⟨2, 5⟩) (some "*/ @import \"tel:12\"") none
    url ∈ (css.scan text {}).urls.toList ∧ url.scheme.IsContact ∧
    (∃ k offset : Nat, url.position = some ⟨k + 1, offset + 1⟩ ∧
      css.Targets text k offset url.value.toList) ∧
    css.Targets text 1 4 "tel:12".toList ∧
    ∃ url ∈ (css.scan text {}).urls.toList, url.value = "tel:12" ∧ url.scheme = .tel := by
  intro text url
  have hurls : (css.scan text {}).urls.toList = [url] := by
    rw [scan, ScanContext.toList_urls_takeAll_fresh]
    decide
  have hurl : url ∈ (css.scan text {}).urls.toList := hurls ▸ List.mem_singleton_self url
  have hcontact : url.scheme.IsContact := by decide
  have htargets : css.Targets text 1 4 "tel:12".toList := by
    refine ⟨" */ @import \"tel:12\"".toList, ⟨[(0, 3)], .normal, false⟩, by decide, by decide, rfl,
      by decide, by decide, .firstGroup .cssImport, by simp [css], ?_⟩
    exact ⟨⟨4, "@import \"tel:12\"".toList, [some "tel:12".toList, none]⟩, by decide, rfl, rfl⟩
  have h := contacts_css text
  exact ⟨hurl, hcontact, h.1 url hurl hcontact, htargets, h.2.1 1 4 _ htargets⟩

-- The structural passes know of no schemes.
theorem mailbox_in_css_url :
    let text := "src: url(mailto:a@b)".toList
    (css.scan text {}).urls.toList.map (fun url => (url.value, url.scheme, url.position)) =
      [("mailto:a@b", .mailto, some ⟨1, 6⟩)] := by
  intro text
  rw [scan, ScanContext.toList_urls_takeAll_fresh]
  decide

end LineScanner

end UrlHarvest
