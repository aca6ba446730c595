import UrlHarvest.Proofs.Comments.Edges
import UrlHarvest.Proofs.Pattern.Links
import UrlHarvest.Proofs.Scan.Hits

namespace UrlHarvest

-- A comment or a code span opens somewhere behind the first place, up to the second one.
def LineRegions.OpensBetween (regions : LineRegions) (line : Text) (first second : Nat) : Prop :=
  (∃ span ∈ regions.spans, first < span.1 ∧ span.1 ≤ second) ∨
    '\x60' ∈ (line.take second).drop first

theorem isValidUrl_angle (rest : Text) : isValidUrl ('<' :: rest) = false := by
  have hscheme : Scheme.ofAddress ('<' :: rest) = .unknown := by
    simp [Scheme.ofAddress, Scheme.marks, Text.lower, Text.lowerFrom, Text.lowerChar,
      List.isPrefixOf]
  simp [isValidUrl, hscheme]

namespace LineScanner

variable (scanner : LineScanner)

-- What is hidden behind a place that is shown is hidden by something that opens in between.
theorem opensBetween_of_hides (regions : LineRegions) (line : Text) (first second : Nat)
    (hle : first ≤ second) (hshown : scanner.hides regions line first = false)
    (hhidden : scanner.hides regions line second = true) :
    regions.OpensBetween line first second := by
  simp only [hides, Bool.or_eq_false_iff, LineRegions.hides, List.any_eq_false] at hshown
  obtain ⟨⟨hwhole, hspans⟩, hcode⟩ := hshown
  simp only [hides, LineRegions.hides, hwhole, Bool.false_or, Bool.or_eq_true,
    List.any_eq_true, Bool.and_eq_true, decide_eq_true_eq] at hhidden
  rcases hhidden with ⟨span, hspan, hstart, hstop⟩ | ⟨hinline, hodd⟩
  · have hbefore := hspans span hspan
    simp only [Bool.and_eq_true, decide_eq_true_eq] at hbefore
    exact .inl ⟨span, hspan, by omega, hstart⟩
  · right
    rw [hinline, Bool.true_and, inInlineCode, beq_eq_false_iff_ne] at hcode
    rw [inInlineCode, beq_iff_eq] at hodd
    have hcount := congrArg (List.count '\x60') (List.take_append_drop first (line.take second))
    rw [List.count_append, List.take_take, Nat.min_eq_left hle] at hcount
    apply List.count_pos_iff.mp
    omega

-- The address of an autolink stands right behind its bracket. A comment would have to open with
-- the address itself, which no supported scheme does.
theorem prefix_of_mem_autolinkHits (state : RegionState) (row : Text) (hit : Hit)
    (hhit : hit ∈ markdown.captureHits (markdown.comments.advance state row) row
      (.firstGroup .markdownAutolink)) :
    hit.value <+: row.drop (hit.offset + 1) ∧
      markdown.hides (markdown.comments.advance state row) row (hit.offset + 1) = false := by
  obtain ⟨hshown, hvalid, found, hat, hvalue⟩ :=
    markdown.exists_match_of_mem_captureHits _ row _ hit hhit
  obtain ⟨inner, rest, hrow, hgroups⟩ := Pattern.exists_of_matchAt?_markdownAutolink _ _ _ hat
  have hinner : hit.value = inner := by
    rw [hvalue]
    simp [CapturePass.firstGroup, Match.firstGroup, hgroups]
  have hbehind : row.drop (hit.offset + 1) = inner ++ '>' :: rest := by
    rw [← List.drop_drop, hrow, List.drop_one, List.tail_cons]
  refine ⟨hinner ▸ hbehind ▸ List.prefix_append _ _, ?_⟩
  have hbracket : row[hit.offset]? = some '<' := by
    rw [← List.head?_drop, hrow, List.head?_cons]
  rw [hides, Bool.or_eq_false_iff] at hshown ⊢
  constructor
  · rw [Bool.eq_false_iff]
    intro hhidden
    obtain ⟨marks, hmarks, hopens⟩ :=
      CommentStyle.getElem?_of_hides_succ row hit.offset hshown.1 hhidden
    cases hmarks
    rw [← List.head?_drop, hbehind] at hopens
    cases inner with
    | nil => simp at hopens
    | cons c inner =>
        obtain rfl : c = '<' := Option.some.inj hopens
        rw [hinner, isValidUrl_angle] at hvalid
        cases hvalid
  · rw [inInlineCode, List.take_add_one, hbracket, List.count_append]
    exact hshown.2

-- The target of a link stands behind the label.
theorem prefix_of_mem_linkHits (regions : LineRegions) (row : Text) (hit : Hit)
    (hhit : hit ∈ markdown.captureHits regions row .markdownLink) :
    row[hit.offset]? = some '[' ∧
      ∃ place, hit.offset ≤ place ∧ hit.value <+: row.drop place := by
  obtain ⟨-, -, found, hat, hvalue⟩ := markdown.exists_match_of_mem_captureHits _ row _ hit hhit
  obtain ⟨label, inner, rest, hrow, hgroups⟩ := Pattern.exists_of_matchAt?_markdownLink _ _ _ hat
  have htarget : hit.value = CapturePass.linkTarget inner := by
    rw [hvalue]
    simp [CapturePass.markdownLink, hgroups]
  obtain ⟨inside, hinside⟩ := CapturePass.exists_linkTarget_prefix_drop inner
  have hfront : row.drop hit.offset = '[' :: label ++ [']', '('] ++ (inner ++ ')' :: rest) := by
    rw [hrow]
    simp
  refine ⟨by rw [← List.head?_drop, hrow, List.head?_cons],
    hit.offset + (('[' :: label ++ [']', '(']).length + inside), Nat.le_add_right _ _, ?_⟩
  rw [htarget, ← List.drop_drop, hfront, List.drop_length_add_append, List.drop_append]
  exact hinside.trans (List.prefix_append _ _)

theorem shown_or_opens_of_mem_hits (state : RegionState) (row : Text) (hit : Hit)
    (hhit : hit ∈ markdown.hits (markdown.comments.advance state row) row) :
    let regions := markdown.comments.advance state row
    markdown.hides regions row hit.offset = false ∧
      ∃ place, hit.offset ≤ place ∧ hit.value <+: row.drop place ∧
        (markdown.hides regions row place = false ∨
          row[hit.offset]? = some '[' ∧ regions.OpensBetween row hit.offset place) := by
  intro regions
  simp only [hits, markdown, List.flatMap_cons, List.flatMap_nil, List.append_nil,
    List.mem_append] at hhit
  rcases hhit with (hlink | hauto) | hplain
  · have hshown := (markdown.exists_match_of_mem_captureHits regions row _ hit hlink).1
    obtain ⟨hopen, place, hle, hstands⟩ := prefix_of_mem_linkHits regions row hit hlink
    refine ⟨hshown, place, hle, hstands, ?_⟩
    cases hhides : markdown.hides regions row place with
    | false => exact .inl rfl
    | true =>
        exact .inr ⟨hopen, markdown.opensBetween_of_hides regions row _ place hle hshown hhides⟩
  · have hshown := (markdown.exists_match_of_mem_captureHits regions row _ hit hauto).1
    obtain ⟨hstands, hplace⟩ := prefix_of_mem_autolinkHits state row hit hauto
    exact ⟨hshown, hit.offset + 1, Nat.le_succ _, hstands, .inl hplace⟩
  · obtain ⟨hshown, hstands⟩ := markdown.prefix_of_mem_plainHits regions row hit hplain
    exact ⟨hshown, hit.offset, Nat.le_refl _, hstands, .inl hshown⟩

-- A token is shown where it stands, or it is the target of a link and a comment or a code span
-- opens inside of the link in front of it. Only the opening bracket is asked about there.
theorem shown_or_opens_in_link (text : Text) (url : Url)
    (hurl : url ∈ (markdown.scan text {}).urls.toList) :
    ∃ (k : Nat) (row : Text) (regions : LineRegions) (first place : Nat),
      (Text.lines text)[k]? = some row ∧
      (CommentStyle.markdown.regions (Text.lines text))[k]? = some regions ∧
      regions.wholeLine = false ∧ url.position = some ⟨k + 1, first + 1⟩ ∧
      markdown.hides regions row first = false ∧
      first ≤ place ∧ url.value.toList <+: row.drop place ∧
      (markdown.hides regions row place = false ∨
        row[first]? = some '[' ∧ regions.OpensBetween row first place) := by
  obtain ⟨k, row, regions, hrow, hregions, hwhole, hit, hhit, -, rfl⟩ :=
    markdown.exists_hit_of_mem_scan text url hurl
  obtain ⟨state, hstate⟩ := CommentStyle.exists_advance_of_getElem?_regionsFrom _ _ _ k row regions
    hrow hregions
  obtain ⟨hshown, place, hle, hstands, hplace⟩ :=
    shown_or_opens_of_mem_hits state row hit (hstate ▸ hhit)
  subst hstate
  exact ⟨k, row, _, hit.offset, place, hrow, hregions, hwhole, rfl, hshown, hle,
    by rwa [Url.ofValue, String.toList_ofList], hplace⟩

theorem shown_or_opens_in_link_behind_comment :
    let text := "<!-- x --> [a `b](tel:12) `".toList
    let url := Url.ofValue "tel:12" (some ⟨1, 12⟩) (some (String.ofList text)) none
    url ∈ (markdown.scan text {}).urls.toList ∧
    ∃ (k : Nat) (row : Text) (regions : LineRegions) (first place : Nat),
      (Text.lines text)[k]? = some row ∧
      (CommentStyle.markdown.regions (Text.lines text))[k]? = some regions ∧
      regions.wholeLine = false ∧ url.position = some ⟨k + 1, first + 1⟩ ∧
      markdown.hides regions row first = false ∧
      first ≤ place ∧ url.value.toList <+: row.drop place ∧
      (markdown.hides regions row place = false ∨
        row[first]? = some '[' ∧ regions.OpensBetween row first place) := by
  intro text url
  have hurl : url ∈ (markdown.scan text {}).urls.toList := by
    rw [scan, ScanContext.toList_urls_takeAll_fresh]
    decide
  exact ⟨hurl, shown_or_opens_in_link text url hurl⟩

-- The code span opens in the label, so that the target is hidden wherever it could stand.
theorem target_reported_from_code_span :
    let text := "[a `b](tel:12) `".toList
    let regions : LineRegions := ⟨[], .normal, false⟩
    CommentStyle.markdown.regions (Text.lines text) = [regions] ∧
    (markdown.scan text {}).urls.toList.map Url.sighting = [("tel:12", some ⟨1, 1⟩)] ∧
    ∀ place, "tel:12".toList <+: text.drop place →
      markdown.hides regions text place = true := by
  intro text regions
  refine ⟨by decide, ?_, ?_⟩
  · rw [sightings_scan]
    decide
  · intro place hstands
    have hlen := hstands.length_le
    rw [List.length_drop] at hlen
    have hwithin : ∀ place ≤ 10, "tel:12".toList <+: text.drop place →
        markdown.hides regions text place = true := by decide
    exact hwithin place (by simp [text] at hlen; omega) hstands

end LineScanner

end UrlHarvest
