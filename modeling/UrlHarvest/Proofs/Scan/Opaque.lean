import UrlHarvest.Proofs.Scan.Findings
import UrlHarvest.Proofs.Text.Lines

namespace UrlHarvest

@[simp] theorem BlockMarks.wholeLine_lineRegions (marks : BlockMarks) (state : RegionState)
    (line : Text) : (marks.lineRegions state line).wholeLine = false := by
  simp only [lineRegions]
  split <;> rfl

namespace CommentStyle

-- What the fold over the lines asks of a line before it looks for block comments: whether it is
-- a fence, where fences count, and whether it is a comment line.
structure SameKind (style : CommentStyle) (line other : Text) : Prop where
  fence : style.fences = true → isFence other = isFence line
  comment : style.commentsOut other = style.commentsOut line

variable {style : CommentStyle} {state : RegionState} {line other : Text}

-- A line is hidden whole inside of fenced code, where it opens fenced code, and where it is a
-- comment. In none of these cases does it leave a block comment open.
theorem advance_of_wholeLine (hwhole : (style.advance state line).wholeLine = true) :
    (style.fences = true ∧ state = .inFencedCode ∧
      style.advance state line = ⟨[], if isFence line then .normal else .inFencedCode, true⟩) ∨
    (style.fences = true ∧ state = .normal ∧ isFence line = true ∧
      style.advance state line = ⟨[], .inFencedCode, true⟩) ∨
    ((style.fences = true → isFence line = false) ∧ state = .normal ∧
      style.commentsOut line = true ∧ style.advance state line = ⟨[], .normal, true⟩) := by
  by_cases hinside : style.fences = true ∧ state = .inFencedCode
  · obtain ⟨hfences, rfl⟩ := hinside
    exact .inl ⟨hfences, rfl, by simp [advance, hfences]⟩
  · by_cases hopens : style.fences = true ∧ state = .normal ∧ isFence line = true
    · obtain ⟨hfences, rfl, hfence⟩ := hopens
      exact .inr (.inl ⟨hfences, rfl, hfence, by simp [advance, hfences, hfence]⟩)
    · by_cases hcomments : state = .normal ∧ style.commentsOut line = true
      · obtain ⟨rfl, hcomment⟩ := hcomments
        have hfence : style.fences = true → isFence line = false := by simpa using hopens
        refine .inr (.inr ⟨hfence, rfl, hcomment, ?_⟩)
        simp only [advance, hcomment]
        cases hfences : style.fences <;> simp_all
      · -- What is left looks for block comments, and they hide no line as a whole.
        rw [advance, if_neg (by simpa using hinside), if_neg (by simpa [and_assoc] using hopens),
          if_neg (by simpa using hcomments)] at hwhole
        split at hwhole <;> simp at hwhole

theorem advance_eq_of_sameKind (hwhole : (style.advance state line).wholeLine = true)
    (hkind : style.SameKind line other) :
    style.advance state other = style.advance state line := by
  rcases advance_of_wholeLine hwhole with
    ⟨hfences, rfl, -⟩ | ⟨hfences, rfl, hfence, -⟩ | ⟨hfence, rfl, hcomment, -⟩
  · simp [advance, hfences, hkind.fence hfences]
  · simp [advance, hfences, hkind.fence hfences, hfence]
  · cases hfences : style.fences with
    | true => simp [advance, hfences, hkind.fence hfences, hfence hfences, hkind.comment, hcomment]
    | false => simp [advance, hfences, hkind.comment, hcomment]

theorem regionsFrom_set (lines : List Text) (index : Nat) (regions : LineRegions)
    (hline : lines[index]? = some line)
    (hregions : (style.regionsFrom state [] lines)[index]? = some regions)
    (hwhole : regions.wholeLine = true) (hkind : style.SameKind line other) :
    style.regionsFrom state [] (lines.set index other) = style.regionsFrom state [] lines := by
  induction lines generalizing state index with
  | nil => rfl
  | cons first rest ih =>
      rw [regionsFrom_cons] at hregions
      cases index with
      | zero =>
          rw [List.getElem?_cons_zero, Option.some.injEq] at hline hregions
          subst hline hregions
          rw [List.set_cons_zero, regionsFrom_cons, regionsFrom_cons,
            advance_eq_of_sameKind hwhole hkind]
      | succ index =>
          rw [List.getElem?_cons_succ] at hline hregions
          rw [List.set_cons_succ, regionsFrom_cons, regionsFrom_cons, ih index hline hregions]

end CommentStyle

namespace LineScanner

open Text

variable (scanner : LineScanner)

theorem findingsFrom_set (state : RegionState) (start : Nat) (lines : List Text) (index : Nat)
    (line other : Text) (regions : LineRegions) (hline : lines[index]? = some line)
    (hregions : (scanner.comments.regionsFrom state [] lines)[index]? = some regions)
    (hwhole : regions.wholeLine = true) (hkind : scanner.comments.SameKind line other) :
    scanner.findingsFrom state start (lines.set index other) =
      scanner.findingsFrom state start lines := by
  induction lines generalizing state start index with
  | nil => rfl
  | cons first rest ih =>
      rw [CommentStyle.regionsFrom_cons] at hregions
      cases index with
      | zero =>
          rw [List.getElem?_cons_zero, Option.some.injEq] at hline hregions
          subst hline hregions
          rw [List.set_cons_zero, findingsFrom_cons, findingsFrom_cons,
            CommentStyle.advance_eq_of_sameKind hwhole hkind, findingsInLine_eq,
            findingsInLine_eq, if_pos hwhole, if_pos hwhole]
      | succ index =>
          rw [List.getElem?_cons_succ] at hline hregions
          rw [List.set_cons_succ, findingsFrom_cons, findingsFrom_cons,
            ih _ (start + 1) index hline hregions]

-- A line that is hidden whole may be any line of its kind. Neither what is found elsewhere nor
-- what is hidden elsewhere depends on it, and no comment is ever opened by it.
theorem scan_set_of_wholeLine (text : Text) (index : Nat) (line other : Text)
    (regions : LineRegions) (hline : (lines text)[index]? = some line)
    (hregions : (scanner.comments.regions (lines text))[index]? = some regions)
    (hwhole : regions.wholeLine = true) (hother : '\n' ∉ other)
    (hkind : scanner.comments.SameKind line other) :
    let changed := unlines ((lines text).set index other)
    lines changed = (lines text).set index other ∧
      scanner.scan changed {} = scanner.scan text {} ∧
      scanner.comments.regions (lines changed) = scanner.comments.regions (lines text) ∧
      regions.spans = [] ∧ regions.state ≠ .inBlockComment := by
  intro changed
  have hlines : lines changed = (lines text).set index other := by
    apply lines_unlines
    · simpa using lines_ne_nil text
    · intro row hrow
      rcases List.mem_or_eq_of_mem_set hrow with hrow | rfl
      · exact newline_notMem_of_mem_lines text row hrow
      · exact hother
  obtain ⟨before, rfl⟩ := scanner.comments.exists_advance_of_getElem?_regionsFrom .normal
    (lines text) index line regions hline hregions
  refine ⟨hlines, ?_, ?_, ?_⟩
  · rw [scan, scan, findings_eq_findingsFrom, findings_eq_findingsFrom, hlines,
      scanner.findingsFrom_set .normal 0 _ index line other _ hline hregions hwhole hkind]
  · rw [hlines]
    exact CommentStyle.regionsFrom_set _ index _ hline hregions hwhole hkind
  · rcases CommentStyle.advance_of_wholeLine hwhole with
      ⟨-, -, he⟩ | ⟨-, -, -, he⟩ | ⟨-, -, -, he⟩
    · rw [he]
      cases isFence line <;> simp
    · simp [he]
    · simp [he]

-- The opener of a comment inside of fenced code.
theorem scan_set_of_wholeLine_fenced :
    let text := "\x60\x60\x60\nx\n\x60\x60\x60\ntel:2".toList
    let other := "<!--".toList
    let changed := unlines ((lines text).set 1 other)
    (lines text)[1]? = some "x".toList ∧
      (markdown.comments.regions (lines text))[1]? = some ⟨[], .inFencedCode, true⟩ ∧
      '\n' ∉ other ∧ markdown.comments.SameKind "x".toList other ∧
      (markdown.scan changed {}).urls.toList = (markdown.scan text {}).urls.toList ∧
      (markdown.scan text {}).urls.toList.map Url.sighting = [("tel:2", some ⟨4, 1⟩)] := by
  intro text other changed
  have hkind : markdown.comments.SameKind "x".toList other := ⟨fun _ => by decide, by decide⟩
  have h := markdown.scan_set_of_wholeLine text 1 "x".toList other ⟨[], .inFencedCode, true⟩
    (by decide) (by decide) rfl (by decide) hkind
  refine ⟨by decide, by decide, by decide, hkind, by rw [h.2.1], ?_⟩
  rw [sightings_scan]
  decide

end LineScanner

end UrlHarvest
