import UrlHarvest.Proofs.Comments.Edges
import UrlHarvest.Proofs.Scan.Context
import UrlHarvest.Proofs.Scan.Findings
import UrlHarvest.Proofs.Text.Lines

namespace UrlHarvest

namespace LineScanner

variable (scanner : LineScanner)

-- The patterns of which a match may reach across the edge of a comment.
def crossingPatterns : List Pattern :=
  scanner.captures.map CapturePass.pattern ++
    if scanner.comments.endsAddresses then [] else scanner.rules.map BoundaryRule.pattern

-- In none of the lines does a match do so.
def KeepsApart (state : RegionState) (lines : List Text) : Prop :=
  ∀ row ∈ lines.zip (scanner.comments.regionsFrom state [] lines),
    ∀ pattern ∈ scanner.crossingPatterns, pattern.KeepsApart row.2.hides row.1

instance (state : RegionState) (lines : List Text) : Decidable (scanner.KeepsApart state lines) :=
  inferInstanceAs (Decidable (∀ row ∈ lines.zip (scanner.comments.regionsFrom state [] lines),
    ∀ pattern ∈ scanner.crossingPatterns, pattern.KeepsApart row.2.hides row.1))

variable {scanner} {state : RegionState} {line other : Text} {lines others : List Text}

theorem keepsApart_cons :
    scanner.KeepsApart state (line :: lines) ↔
      (∀ pattern ∈ scanner.crossingPatterns,
        pattern.KeepsApart (scanner.comments.advance state line).hides line) ∧
      scanner.KeepsApart (scanner.comments.advance state line).state lines := by
  rw [KeepsApart, CommentStyle.regionsFrom_cons, List.zip_cons_cons, List.forall_mem_cons]
  rfl

theorem keepsApart_patterns
    (h : ∀ pattern ∈ scanner.crossingPatterns,
      pattern.KeepsApart (scanner.comments.advance state line).hides line) :
    ∀ pattern ∈ scanner.patterns,
      pattern.KeepsApart (scanner.comments.advance state line).hides line := by
  intro pattern hpattern
  rcases List.mem_append.mp hpattern with hcapture | hrule
  · exact h pattern (List.mem_append_left _ hcapture)
  · cases hends : scanner.comments.endsAddresses with
    | true =>
        obtain ⟨rule, -, rfl⟩ := List.mem_map.mp hrule
        exact rule.keepsApart_of_endsAddresses hends line
    | false =>
        apply h
        rw [crossingPatterns, hends]
        exact List.mem_append_right _ hrule

theorem hits_eq_of_agree (hcode : scanner.inlineCode = false) (regions : LineRegions)
    (hagree : AgreeWhereShown regions.hides line other)
    (hapart : ∀ pattern ∈ scanner.patterns, pattern.KeepsApart regions.hides line)
    (hapart' : ∀ pattern ∈ scanner.patterns, pattern.KeepsApart regions.hides other) :
    scanner.hits regions line = scanner.hits regions other := by
  have hhides : ∀ row : Text, scanner.hides regions row = regions.hides := by
    intro row
    funext offset
    rw [hides, hcode, Bool.false_and, Bool.or_false]
  have hmatches : ∀ pattern ∈ scanner.patterns,
      (pattern.matchesIn line).filter (fun found => !regions.hides found.start) =
        (pattern.matchesIn other).filter fun found => !regions.hides found.start :=
    fun pattern hp =>
      pattern.filter_matchesIn_eq_of_agree hagree (hapart pattern hp) (hapart' pattern hp)
  have hcaptures : ∀ pass ∈ scanner.captures,
      scanner.captureHits regions line pass = scanner.captureHits regions other pass := by
    intro pass hpass
    rw [captureHits_eq_filterMap, captureHits_eq_filterMap, hhides, hhides,
      hmatches pass.pattern (List.mem_append_left _ (List.mem_map_of_mem hpass))]
  have hplain : scanner.plainHits regions line = scanner.plainHits regions other := by
    rw [plainHits_eq_map, plainHits_eq_map]
    apply List.flatMap_congr
    intro rule hrule
    rw [hhides, hhides,
      hmatches rule.pattern (List.mem_append_right _ (List.mem_map_of_mem hrule))]
  rw [hits, hits, hplain, List.flatMap_congr hcaptures]

theorem sightings_findingsFrom (hcode : scanner.inlineCode = false)
    (hrefuses : ∀ row, scanner.refuses row = none) (index : Nat)
    (hagree : scanner.comments.AgreeOutside state lines others)
    (hapart : scanner.KeepsApart state lines) (hapart' : scanner.KeepsApart state others) :
    ((scanner.findingsFrom state index lines).filterMap Finding.url?).map Url.sighting =
      ((scanner.findingsFrom state index others).filterMap Finding.url?).map Url.sighting := by
  induction lines generalizing state index others with
  | nil =>
      obtain rfl : others = [] := List.map_eq_nil_iff.mp hagree.lengths.symm
      rfl
  | cons line lines ih =>
      obtain ⟨other, others, rfl⟩ : ∃ other rest, others = other :: rest := by
        cases others with
        | nil => cases hagree.lengths
        | cons other rest => exact ⟨other, rest, rfl⟩
      have hadvance := hagree.advance_eq
      obtain ⟨hhead, htail⟩ := keepsApart_cons.mp hapart
      obtain ⟨hhead', htail'⟩ := keepsApart_cons.mp hapart'
      have hpatterns' := keepsApart_patterns hhead'
      rw [hadvance] at hpatterns' htail'
      have hhits := hits_eq_of_agree hcode _ hagree.head (keepsApart_patterns hhead) hpatterns'
      rw [findingsFrom_cons, findingsFrom_cons, hadvance, List.filterMap_append,
        List.filterMap_append, List.map_append, List.map_append,
        scanner.sightings_findingsInLine index line _ (hrefuses line),
        scanner.sightings_findingsInLine index other _ (hrefuses other), hhits,
        ih (index + 1) hagree.tail htail htail']

-- What is inside of a comment has no say in what is reported outside of it, as long as no match
-- reaches across the edge of a comment.
theorem sightings_eq_of_agreeOutside (hscanner : scanner ∈ [html, xml, css]) (text other : Text)
    (hagree : scanner.comments.AgreeOutside .normal (Text.lines text) (Text.lines other))
    (hapart : scanner.KeepsApart .normal (Text.lines text))
    (hapart' : scanner.KeepsApart .normal (Text.lines other)) :
    (scanner.scan text {}).urls.toList.map Url.sighting =
      (scanner.scan other {}).urls.toList.map Url.sighting := by
  have hbuiltin : scanner ∈ builtin ∧ scanner.inlineCode = false := by
    simp only [List.mem_cons, List.not_mem_nil, or_false] at hscanner
    rcases hscanner with rfl | rfl | rfl <;> exact ⟨by simp [builtin], rfl⟩
  have hfindings := sightings_findingsFrom hbuiltin.2 (scanner.refuses_of_mem_builtin hbuiltin.1)
    0 hagree hapart hapart'
  rw [sightings_scan, sightings_scan, findings_eq_findingsFrom, findings_eq_findingsFrom,
    hfindings]

theorem sightings_eq_of_agreeOutside_stylesheet :
    let text := "/* http://a.b/ */ url(tel:1)\n/* tel:2 */ftp://c.d".toList
    let other := "/* url('ftp:// */ url(tel:1)\n/* ' url */ftp://c.d".toList
    css ∈ [html, xml, css] ∧
    css.comments.AgreeOutside .normal (Text.lines text) (Text.lines other) ∧
    css.KeepsApart .normal (Text.lines text) ∧ css.KeepsApart .normal (Text.lines other) ∧
    (css.scan text {}).urls.toList.map Url.sighting =
      (css.scan other {}).urls.toList.map Url.sighting := by
  intro text other
  have hagree : css.comments.AgreeOutside .normal (Text.lines text) (Text.lines other) := by decide
  have hapart : css.KeepsApart .normal (Text.lines text) := by decide
  have hapart' : css.KeepsApart .normal (Text.lines other) := by decide
  have hscanner : css ∈ [html, xml, css] := by simp
  exact ⟨hscanner, hagree, hapart, hapart',
    sightings_eq_of_agreeOutside hscanner text other hagree hapart hapart'⟩

-- A quote that is open in the comment takes the attribute behind the comment with it.
theorem sightings_differ_behind_open_quote :
    let text := "<!-- href=\" --><a href=\"tel:1 2\">".toList
    let other := "<!-- abcd=\" --><a href=\"tel:1 2\">".toList
    html.comments.AgreeOutside .normal (Text.lines text) (Text.lines other) ∧
    (html.scan text {}).urls.toList.map Url.sighting = [("tel:1", some ⟨1, 25⟩)] ∧
    (html.scan other {}).urls.toList.map Url.sighting =
      [("tel:1 2", some ⟨1, 19⟩), ("tel:1", some ⟨1, 25⟩)] := by
  intro text other
  refine ⟨by decide, ?_, ?_⟩
  · rw [sightings_scan]
    decide
  · rw [sightings_scan]
    decide

end LineScanner

end UrlHarvest
