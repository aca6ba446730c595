import UrlHarvest.Proofs.Pattern.Groups
import UrlHarvest.Proofs.Scan.Findings

namespace UrlHarvest

theorem ne_nil_of_isValidUrl (value : Text) (h : isValidUrl value = true) : value ≠ [] := by
  rintro rfl
  exact absurd h (by decide)

namespace LineScanner

variable (scanner : LineScanner)

theorem mem_captureHits_iff (regions : LineRegions) (line : Text) (pass : CapturePass) (hit : Hit) :
    hit ∈ scanner.captureHits regions line pass ↔
      scanner.hides regions line hit.offset = false ∧ isValidUrl hit.value = true ∧
        ∃ found ∈ pass.pattern.matchesIn line,
          found.start = hit.offset ∧ pass.target found = hit.value := by
  rw [captureHits_eq_filterMap]
  constructor
  · intro hhit
    obtain ⟨found, hfound, hmade⟩ := List.mem_filterMap.mp hhit
    obtain ⟨hfound, hshown⟩ := List.mem_filter.mp hfound
    obtain ⟨hvalid, hmade⟩ := Option.ite_none_right_eq_some.mp hmade
    obtain rfl := Option.some.inj hmade
    exact ⟨by simpa using hshown, (Bool.and_eq_true_iff.mp hvalid).2, found, hfound, rfl, rfl⟩
  · obtain ⟨offset, value⟩ := hit
    rintro ⟨hshown, hvalid, found, hfound, rfl, rfl⟩
    have hne := ne_nil_of_isValidUrl _ hvalid
    exact List.mem_filterMap.mpr ⟨found, List.mem_filter.mpr ⟨hfound, by simp [hshown]⟩,
      by simp [hne, hvalid]⟩

theorem exists_match_of_mem_captureHits (regions : LineRegions) (line : Text) (pass : CapturePass)
    (hit : Hit) (hhit : hit ∈ scanner.captureHits regions line pass) :
    scanner.hides regions line hit.offset = false ∧ isValidUrl hit.value = true ∧
      ∃ found, pass.pattern.matchAt? hit.offset (line.drop hit.offset) = some found ∧
        hit.value = pass.target found := by
  obtain ⟨hshown, hvalid, found, hfound, hoffset, hvalue⟩ :=
    (scanner.mem_captureHits_iff regions line pass hit).mp hhit
  obtain ⟨-, hat⟩ := pass.pattern.matchAt?_of_mem_matchesIn line found hfound
  rw [hoffset] at hat
  exact ⟨hshown, hvalid, found, hat, hvalue.symm⟩

theorem prefix_of_mem_plainHits (regions : LineRegions) (line : Text) (hit : Hit)
    (hhit : hit ∈ scanner.plainHits regions line) :
    scanner.hides regions line hit.offset = false ∧ hit.value <+: line.drop hit.offset := by
  rw [plainHits_eq_map] at hhit
  obtain ⟨rule, -, hmade⟩ := List.mem_flatMap.mp hhit
  obtain ⟨found, hfound, rfl⟩ := List.mem_map.mp hmade
  obtain ⟨hfound, hshown⟩ := List.mem_filter.mp hfound
  exact ⟨by simpa using hshown, rule.pattern.prefix_of_mem_matchesIn line found hfound⟩

theorem eq_markdownLink_or_firstGroup (hscanner : scanner ∈ builtin) (pass : CapturePass)
    (hpass : pass ∈ scanner.captures) :
    pass = .markdownLink ∨ ∃ pattern, pass = .firstGroup pattern := by
  simp only [builtin, List.mem_cons, List.not_mem_nil, or_false] at hscanner
  rcases hscanner with rfl | rfl | rfl | rfl | rfl | rfl | rfl | rfl <;>
    simp only [markdown, html, css, script, json, yaml, properties, xml, List.mem_cons,
      List.not_mem_nil, or_false] at hpass <;> grind

theorem staysInside_of_mem_builtin (hscanner : scanner ∈ builtin) (pass : CapturePass)
    (hpass : pass ∈ scanner.captures) : pass.StaysInside := by
  rcases scanner.eq_markdownLink_or_firstGroup hscanner pass hpass with rfl | ⟨pattern, rfl⟩
  · exact CapturePass.staysInside_markdownLink
  · exact CapturePass.staysInside_firstGroup pattern

-- A hit begins where something is shown, and its value stands there or further on.
theorem exists_place_of_mem_hits (hpasses : ∀ pass ∈ scanner.captures, pass.StaysInside)
    (regions : LineRegions) (line : Text) (hit : Hit) (hhit : hit ∈ scanner.hits regions line) :
    scanner.hides regions line hit.offset = false ∧
      ∃ place, hit.offset ≤ place ∧ hit.value <+: line.drop place := by
  rcases List.mem_append.mp hhit with hcapture | hplain
  · obtain ⟨pass, hpass, hhit⟩ := List.mem_flatMap.mp hcapture
    obtain ⟨hshown, -, found, hat, hvalue⟩ :=
      scanner.exists_match_of_mem_captureHits regions line pass hit hhit
    obtain ⟨groups, -, htext⟩ := pass.pattern.exists_of_matchAt? _ _ found hat
    have hinside : hit.value <:+: line.drop hit.offset := by
      rw [hvalue]
      refine (hpasses pass hpass _ _ found hat).trans ?_
      rw [congrArg Match.text htext]
      exact (List.take_prefix _ _).isInfix
    obtain ⟨place, hstands⟩ := exists_prefix_drop_of_infix hinside
    rw [List.drop_drop] at hstands
    exact ⟨hshown, hit.offset + place, Nat.le_add_right _ _, hstands⟩
  · obtain ⟨hshown, hstands⟩ := scanner.prefix_of_mem_plainHits regions line hit hplain
    exact ⟨hshown, hit.offset, Nat.le_refl _, hstands⟩

end LineScanner

end UrlHarvest
