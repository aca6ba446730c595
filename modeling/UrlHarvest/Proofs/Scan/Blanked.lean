import UrlHarvest.Proofs.Comments.Edges
import UrlHarvest.Proofs.Pattern.Tokens
import UrlHarvest.Proofs.Scan.Findings

namespace UrlHarvest

open Text

-- A space in the place of everything that is hidden of a line.
def LineRegions.blanked (regions : LineRegions) (line : Text) : Text :=
  line.mapIdx fun j c => if regions.hides j then ' ' else c

-- The same for a whole text, line by line.
def CommentStyle.blankedLines (style : CommentStyle) (state : RegionState) (rows : List Text) :
    List Text :=
  (rows.zip (style.regionsFrom state [] rows)).map fun (line, regions) => regions.blanked line

def CommentStyle.blanked (style : CommentStyle) (text : Text) : Text :=
  unlines (style.blankedLines .normal (lines text))

namespace LineRegions

variable (regions : LineRegions) (row : Text)

theorem getElem?_blanked (j : Nat) :
    (regions.blanked row)[j]? = row[j]?.map fun c => if regions.hides j then ' ' else c := by
  rw [blanked, List.getElem?_mapIdx]

theorem shown_of_isBodyChar (j : Nat) (c : Char) (hc : (regions.blanked row)[j]? = some c)
    (hbody : isBodyChar c = true) : regions.hides j = false := by
  cases hj : regions.hides j with
  | false => rfl
  | true =>
      simp only [getElem?_blanked, hj, ite_true, Option.map_eq_some_iff] at hc
      obtain ⟨_, -, rfl⟩ := hc
      cases hbody

theorem prefix_drop_blanked_iff (run : Text) (place : Nat)
    (hshown : ∀ j < run.length, regions.hides (place + j) = false) :
    run <+: (regions.blanked row).drop place ↔ run <+: row.drop place := by
  simp only [List.prefix_iff_getElem?, List.getElem?_drop, getElem?_blanked]
  refine forall₂_congr fun j hj => ?_
  simp [hshown j hj]

theorem newline_notMem_blanked (hline : '\n' ∉ row) : '\n' ∉ regions.blanked row := by
  rw [blanked, List.mem_mapIdx]
  rintro ⟨j, hj, he⟩
  split at he
  · cases he
  · exact hline (he ▸ List.getElem_mem hj)

end LineRegions

namespace BoundaryRule

variable (rule : BoundaryRule) (regions : LineRegions) (row : Text)

-- No address can reach into a space, and none that is shown reaches out of what is shown. So
-- blanking takes the hidden addresses away, and leaves the others as they are.
theorem tokenises_blanked (hapart : rule.pattern.KeepsApart regions.hides row) :
    rule.Tokenises (regions.blanked row)
      ((rule.pattern.matchesIn row).filter fun found => !regions.hides found.start) := by
  have htokens := rule.tokenises_matchesIn row
  refine ⟨htokens.apart.filter _, ?_, ?_⟩
  · intro token htoken
    obtain ⟨hmem, hstart⟩ := List.mem_filter.mp htoken
    have hgenuine := htokens.tokens token hmem
    have hshown : ∀ j < token.text.length, regions.hides (token.start + j) = false := by
      intro j hj
      rw [hapart token hmem (token.start + j) (Nat.le_add_right _ _) (Nat.add_lt_add_left hj _)]
      simpa using hstart
    refine ⟨hgenuine.spelled, ?_, ?_, hgenuine.groups⟩
    · exact (regions.prefix_drop_blanked_iff row _ _ hshown).mpr hgenuine.stands
    · intro c hc
      rw [LineRegions.getElem?_blanked] at hc
      obtain ⟨d, hd, rfl⟩ := Option.map_eq_some_iff.mp hc
      split
      · rfl
      · exact hgenuine.ends d hd
  · rintro place ⟨front, body, hspells, hstands⟩ hfree
    have hshown : ∀ j < (front ++ body).length, regions.hides (place + j) = false := by
      intro j hj
      have hget := List.prefix_iff_getElem?.mp hstands j hj
      rw [List.getElem?_drop] at hget
      exact regions.shown_of_isBodyChar row _ _ hget (hspells.isBodyChar _ (List.getElem_mem hj))
    have hplace : regions.hides place = false := by
      have hpos := List.length_pos_iff.mpr hspells.body_ne_nil
      exact hshown 0 (by rw [List.length_append]; omega)
    have hline := (regions.prefix_drop_blanked_iff row _ _ hshown).mp hstands
    obtain ⟨token, hmem, hstart⟩ := htokens.complete place ⟨front, body, hspells, hline⟩ fun
      token hmem hin => by
        have hsame := hapart token hmem place (Nat.le_of_lt hin.1) hin.2
        exact hfree token (List.mem_filter.mpr ⟨hmem, by simp [← hsame, hplace]⟩) hin
    exact ⟨token, List.mem_filter.mpr ⟨hmem, by simp [hstart, hplace]⟩, hstart⟩

theorem matchesIn_blanked (hapart : rule.pattern.KeepsApart regions.hides row) :
    rule.pattern.matchesIn (regions.blanked row) =
      (rule.pattern.matchesIn row).filter fun found => !regions.hides found.start :=
  (rule.tokenises_matchesIn _).unique (rule.tokenises_blanked regions row hapart)

end BoundaryRule

namespace CommentStyle

variable (style : CommentStyle)

theorem blankedLines_cons (state : RegionState) (row : Text) (rest : List Text) :
    style.blankedLines state (row :: rest) =
      (style.advance state row).blanked row ::
        style.blankedLines (style.advance state row).state rest := by
  rw [blankedLines, regionsFrom_cons, List.zip_cons_cons, List.map_cons]
  rfl

theorem lines_blanked (text : Text) :
    lines (style.blanked text) = style.blankedLines .normal (lines text) := by
  apply lines_unlines
  · obtain ⟨row, rest, hrows⟩ := List.exists_cons_of_ne_nil (lines_ne_nil text)
    rw [hrows, blankedLines_cons]
    exact List.cons_ne_nil _ _
  · intro row hrow
    obtain ⟨⟨line, regions⟩, hmem, rfl⟩ := List.mem_map.mp hrow
    exact regions.newline_notMem_blanked line
      (newline_notMem_of_mem_lines text line (List.of_mem_zip hmem).1)

end CommentStyle

namespace LineScanner

-- A scanner without structural passes.
def plain (comments : CommentStyle) (rules : List BoundaryRule) : LineScanner where
  name := "plain"
  formats := []
  comments := comments
  rules := rules

variable {style : CommentStyle} (rules : List BoundaryRule)

theorem hits_plain (regions : LineRegions) (row : Text) :
    (plain style rules).hits regions row =
      rules.flatMap fun rule =>
        ((rule.pattern.matchesIn row).filter fun found => !regions.hides found.start).map
          fun found => ⟨found.start, found.text⟩ := by
  have hhides : (plain style rules).hides regions row = regions.hides := by
    funext offset
    simp [hides, plain]
  rw [hits, plainHits_eq_map, hhides]
  rfl

theorem hits_plain_blanked (hends : style.endsAddresses = true) (state state' : RegionState)
    (row : Text) :
    (plain .plain rules).hits ⟨[], state', false⟩ ((style.advance state row).blanked row) =
      (plain style rules).hits (style.advance state row) row := by
  rw [hits_plain, hits_plain]
  apply List.flatMap_congr
  intro rule _
  rw [rule.matchesIn_blanked _ row (rule.keepsApart_of_endsAddresses hends row),
    List.filter_eq_self.mpr (by simp [LineRegions.hides])]

-- A line that is hidden as a whole has no hits to begin with.
theorem sightings_findingsInLine_plain (index : Nat) (regions : LineRegions) (row : Text) :
    (((plain style rules).findingsInLine index row regions).filterMap Finding.url?).map
        Url.sighting =
      ((plain style rules).hits regions row).filterMap (Hit.sighting? index) := by
  rw [sightings_findingsInLine _ _ _ _ rfl]
  split
  · rename_i hwhole
    have hhides : regions.hides = fun _ => true := by
      funext offset
      rw [LineRegions.hides, hwhole, Bool.true_or]
    simp [hits_plain, hhides]
  · rfl

theorem sightings_findingsFrom_blanked (hends : style.endsAddresses = true)
    (state state' : RegionState) (index : Nat) (rows : List Text) :
    (((plain .plain rules).findingsFrom state' index (style.blankedLines state rows)).filterMap
        Finding.url?).map Url.sighting =
      (((plain style rules).findingsFrom state index rows).filterMap Finding.url?).map
        Url.sighting := by
  induction rows generalizing state index with
  | nil => rfl
  | cons row rest ih =>
      have hplain : (plain .plain rules).comments.advance state'
          ((style.advance state row).blanked row) = ⟨[], state', false⟩ := by
        simp [plain, CommentStyle.advance, CommentStyle.plain, CommentStyle.commentsOut]
      rw [CommentStyle.blankedLines_cons, findingsFrom_cons, findingsFrom_cons, hplain,
        List.filterMap_append, List.filterMap_append, List.map_append, List.map_append, ih,
        sightings_findingsInLine_plain, sightings_findingsInLine_plain,
        hits_plain_blanked rules hends]
      rfl

-- Where the marks of comments end addresses, a scan for addresses in running text reports what
-- it would report if the comments were blank.
theorem sightings_scan_blanked_of_endsAddresses (hends : style.endsAddresses = true)
    (text : Text) :
    ((plain .plain rules).scan (style.blanked text) {}).urls.toList.map Url.sighting =
      ((plain style rules).scan text {}).urls.toList.map Url.sighting := by
  rw [sightings_scan, sightings_scan, findings_eq_findingsFrom, findings_eq_findingsFrom,
    style.lines_blanked, sightings_findingsFrom_blanked rules hends]

theorem sightings_scan_blanked_markup (text : Text) :
    ((plain .markup rules).scan text {}).urls.toList.map Url.sighting =
      ((plain .plain rules).scan (CommentStyle.markup.blanked text) {}).urls.toList.map
        Url.sighting :=
  (sightings_scan_blanked_of_endsAddresses rules (by decide) text).symm

-- Both marks of a comment are blanked with it.
example : CommentStyle.markup.blanked "tel:1<!-- tel:2\ntel:3 --> -->".toList =
    "tel:1          \n          -->".toList := by decide

end LineScanner

end UrlHarvest
