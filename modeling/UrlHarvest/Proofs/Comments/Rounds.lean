import UrlHarvest.Proofs.Comments.Blocks

namespace UrlHarvest

namespace BlockMarks

open Text

-- Where a search for the comments of a line stands: the place that it goes on from, whether a
-- comment is open there, and the spans behind it, the last one first.
structure Search where
  cursor : Nat
  inside : Bool
  spans : List (Nat × Nat) := []
deriving Repr, DecidableEq

-- Where the next comment begins, and where its body does. An open comment has no opener.
def nextComment? (marks : BlockMarks) (line : Text) (cursor : Nat) (inside : Bool) :
    Option (Nat × Nat) :=
  if inside then some (cursor, cursor)
  else (find marks.opener line cursor).map fun start => (start, start + marks.opener.length)

-- One round takes a search behind the next comment. The search is over where no comment comes any
-- more, and where one is left open; then the spans are in order, and it is told whether one is.
def round (marks : BlockMarks) (line : Text) (search : Search) :
    Search ⊕ List (Nat × Nat) × Bool :=
  if line.length < search.cursor then .inr (search.spans.reverse, search.inside)
  else
    match marks.nextComment? line search.cursor search.inside with
    | none => .inr (search.spans.reverse, false)
    | some (start, body) =>
      match find marks.closer line body with
      | none => .inr (((start, line.length) :: search.spans).reverse, true)
      | some close =>
        .inl ⟨close + marks.closer.length, false,
          (start, close + marks.closer.length) :: search.spans⟩

-- The answer of a search that is over after so many rounds.
def answerWithin? (marks : BlockMarks) (line : Text) :
    Nat → Search → Option (List (Nat × Nat) × Bool)
  | 0, _ => none
  | rounds + 1, search =>
    match marks.round line search with
    | .inl next => answerWithin? marks line rounds next
    | .inr answer => some answer

-- Where the body of the comment begins that is the `k`-th of its line. The first one has no opener
-- if it is carried into the line.
def bodyStart (marks : BlockMarks) (carried : Bool) (k : Nat) (span : Nat × Nat) : Nat :=
  if carried ∧ k = 0 then span.1 else span.1 + marks.opener.length

-- The comment ends right behind the first closer in its body.
def IsClosed (marks : BlockMarks) (line : Text) (carried : Bool) (k : Nat) (span : Nat × Nat) :
    Prop :=
  ∃ close, FirstAt marks.closer line (marks.bodyStart carried k span) close ∧
    span.2 = close + marks.closer.length

-- The regions of a line are its comments, and whether one of them goes on in the next line.
structure Outlines (marks : BlockMarks) (line : Text) (carried : Bool) (regions : LineRegions) :
    Prop where
  ordered : regions.spans.Pairwise fun earlier later =>
    earlier.1 < later.1 ∧ earlier.2 ≤ later.1
  within : ∀ span ∈ regions.spans, span.1 ≤ span.2 ∧ span.2 ≤ line.length
  opened : ∀ k span, regions.spans[k]? = some span →
    if carried ∧ k = 0 then span.1 = 0 else marks.opener <+: line.drop span.1
  closed : ∀ k span, regions.spans[k]? = some span → k + 1 < regions.spans.length →
    marks.IsClosed line carried k span
  complete : ∀ place, marks.opener <+: line.drop place →
    ∃ span ∈ regions.spans, span.1 ≤ place ∧ place < span.2
  left_open_iff : regions.state = .inBlockComment ↔
    ∃ k span, regions.spans[k]? = some span ∧ k + 1 = regions.spans.length ∧
      ¬ marks.IsClosed line carried k span
  left_open_reaches : regions.state = .inBlockComment → ∀ k span,
    regions.spans[k]? = some span → k + 1 = regions.spans.length → span.2 = line.length
  else_normal : regions.state ≠ .inBlockComment → regions.state = .normal

-- What a search finds from its cursor on, and whether the last comment is left open.
inductive Traces (marks : BlockMarks) (line : Text) :
    (cursor : Nat) → (inside : Bool) → List (Nat × Nat) → (left : Bool) → Prop
  | ended {cursor : Nat} {inside : Bool} :
      marks.nextComment? line cursor inside = none → Traces marks line cursor inside [] false
  | leftOpen {cursor : Nat} {inside : Bool} {start body : Nat} :
      marks.nextComment? line cursor inside = some (start, body) →
        find marks.closer line body = none →
        Traces marks line cursor inside [(start, line.length)] true
  | closed {cursor : Nat} {inside : Bool} {start body close : Nat} {spans : List (Nat × Nat)}
      {left : Bool} :
      marks.nextComment? line cursor inside = some (start, body) →
        find marks.closer line body = some close →
        Traces marks line (close + marks.closer.length) false spans left →
        Traces marks line cursor inside ((start, close + marks.closer.length) :: spans) left

variable {marks : BlockMarks} {line : Text} {cursor : Nat} {inside : Bool}

theorem nextComment?_bounds {start body : Nat} (hcursor : cursor ≤ line.length)
    (h : marks.nextComment? line cursor inside = some (start, body)) :
    cursor ≤ start ∧ start ≤ body ∧ body ≤ line.length := by
  cases inside with
  | true =>
      cases h
      exact ⟨Nat.le_refl _, Nat.le_refl _, hcursor⟩
  | false =>
      obtain ⟨_, hfind, he⟩ := Option.map_eq_some_iff.mp h
      cases he
      have hbounds := find_bounds _ _ _ _ marks.opener_ne_nil hfind
      omega

-- A comment that is closed takes the cursor on, and not out of the line.
theorem closer_bounds {start body close : Nat} (hcursor : cursor ≤ line.length)
    (hnext : marks.nextComment? line cursor inside = some (start, body))
    (hclose : find marks.closer line body = some close) :
    cursor ≤ start ∧ start < close + marks.closer.length ∧
      close + marks.closer.length ≤ line.length := by
  have hbody := nextComment?_bounds hcursor hnext
  have hbounds := find_bounds _ _ _ _ marks.closer_ne_nil hclose
  have hpos := marks.length_pos_closer
  omega

-- Every search comes to an end, as each round takes its cursor on.
theorem exists_traces (cursor : Nat) (inside : Bool) (hcursor : cursor ≤ line.length) :
    ∃ spans left, marks.Traces line cursor inside spans left := by
  induction hleft : line.length - cursor using Nat.strongRecOn
      generalizing cursor inside with
  | _ rest ih =>
      cases hnext : marks.nextComment? line cursor inside with
      | none => exact ⟨_, _, .ended hnext⟩
      | some next =>
          obtain ⟨start, body⟩ := next
          cases hclose : find marks.closer line body with
          | none => exact ⟨_, _, .leftOpen hnext hclose⟩
          | some close =>
              have hbounds := closer_bounds hcursor hnext hclose
              obtain ⟨spans, left, htraces⟩ := ih _ (by omega) _ false hbounds.2.2 rfl
              exact ⟨_, _, .closed hnext hclose htraces⟩

section Traces

variable {spans : List (Nat × Nat)} {left : Bool}

-- No more rounds are needed than there are places from the cursor on.
theorem Traces.answerWithin?_eq (h : marks.Traces line cursor inside spans left)
    (hcursor : cursor ≤ line.length) (before : List (Nat × Nat)) (rounds : Nat)
    (hrounds : line.length < cursor + rounds) :
    marks.answerWithin? line rounds ⟨cursor, inside, before⟩ =
      some (before.reverse ++ spans, left) := by
  induction h generalizing before rounds with
  | ended hnext =>
      obtain ⟨rounds, rfl⟩ : ∃ more, rounds = more + 1 := ⟨rounds - 1, by omega⟩
      simp [answerWithin?, round, hnext, Nat.not_lt.mpr hcursor]
  | leftOpen hnext hclose =>
      obtain ⟨rounds, rfl⟩ : ∃ more, rounds = more + 1 := ⟨rounds - 1, by omega⟩
      simp [answerWithin?, round, hnext, hclose, Nat.not_lt.mpr hcursor]
  | closed hnext hclose _ ih =>
      obtain ⟨rounds, rfl⟩ : ∃ more, rounds = more + 1 := ⟨rounds - 1, by omega⟩
      have hbounds := closer_bounds hcursor hnext hclose
      simp only [answerWithin?, round, hnext, hclose, Nat.not_lt.mpr hcursor, ite_false]
      rw [ih hbounds.2.2 _ rounds (by omega), List.reverse_cons, List.append_assoc,
        List.singleton_append]

theorem spansFrom_of_no_comment (hcursor : marks.nextComment? line cursor inside = none)
    (before : List (Nat × Nat)) :
    inside = false ∧ marks.spansFrom cursor 0 none before (line.drop cursor) =
      (before.reverse, none) := by
  cases inside with
  | true => cases hcursor
  | false =>
      have hfind : findFrom marks.opener cursor (line.drop cursor) = none :=
        Option.map_eq_none_iff.mp hcursor
      exact ⟨rfl, by rw [spansFrom_outside, hfind]⟩

-- Up to the body of the next comment, the scan code point by code point finds nothing.
theorem spansFrom_of_comment {start body : Nat}
    (hnext : marks.nextComment? line cursor inside = some (start, body))
    (before : List (Nat × Nat)) :
    marks.spansFrom cursor 0 (if inside then some cursor else none) before (line.drop cursor) =
      marks.spansFrom body 0 (some start) before (line.drop body) := by
  cases inside with
  | true =>
      cases hnext
      rfl
  | false =>
      obtain ⟨_, hfind, he⟩ := Option.map_eq_some_iff.mp hnext
      cases he
      have hle := (find_bounds _ _ _ _ marks.opener_ne_nil hfind).1
      have hfind : findFrom marks.opener cursor (line.drop cursor) = some start := hfind
      rw [if_neg Bool.false_ne_true, spansFrom_outside, hfind]
      simp only [List.drop_drop]
      rw [Nat.add_sub_cancel' (by omega)]

-- From mark to mark, it finds what a search does.
theorem Traces.spansFrom_eq (h : marks.Traces line cursor inside spans left)
    (hcursor : cursor ≤ line.length) (before : List (Nat × Nat)) :
    ∃ last?, left = last?.isSome ∧
      marks.spansFrom cursor 0 (if inside then some cursor else none) before (line.drop cursor) =
        (before.reverse ++ spans, last?) := by
  induction h generalizing before with
  | ended hnext =>
      obtain ⟨rfl, hscan⟩ := spansFrom_of_no_comment hnext before
      exact ⟨none, rfl, by simpa using hscan⟩
  | @leftOpen cursor inside start body hnext hclose =>
      have hbody := (nextComment?_bounds hcursor hnext).2.2
      have hclose : findFrom marks.closer body (line.drop body) = none := hclose
      refine ⟨some start, rfl, ?_⟩
      rw [spansFrom_of_comment hnext, spansFrom_inside, hclose, List.length_drop,
        Nat.add_sub_cancel' hbody, List.reverse_cons]
  | @closed cursor inside start body close spans left hnext hclose _ ih =>
      have hbounds := closer_bounds hcursor hnext hclose
      have hbody := (find_bounds _ _ _ _ marks.closer_ne_nil hclose).1
      have hclose : findFrom marks.closer body (line.drop body) = some close := hclose
      obtain ⟨last?, hleft, hscan⟩ :=
        ih hbounds.2.2 ((start, close + marks.closer.length) :: before)
      refine ⟨last?, hleft, ?_⟩
      rw [if_neg Bool.false_ne_true] at hscan
      rw [spansFrom_of_comment hnext, spansFrom_inside, hclose]
      simp only [List.drop_drop]
      rw [Nat.add_sub_cancel' (by omega), hscan, List.reverse_cons, List.append_assoc,
        List.singleton_append]

theorem Traces.within (h : marks.Traces line cursor inside spans left)
    (hcursor : cursor ≤ line.length) (span : Nat × Nat) (hspan : span ∈ spans) :
    cursor ≤ span.1 ∧ span.1 ≤ span.2 ∧ span.2 ≤ line.length := by
  induction h with
  | ended hnext => cases hspan
  | leftOpen hnext hclose =>
      have hbounds := nextComment?_bounds hcursor hnext
      obtain rfl := List.mem_singleton.mp hspan
      exact ⟨hbounds.1, Nat.le_trans hbounds.2.1 hbounds.2.2, Nat.le_refl _⟩
  | closed hnext hclose _ ih =>
      have hbounds := closer_bounds hcursor hnext hclose
      rcases List.mem_cons.mp hspan with rfl | hspan
      · exact ⟨hbounds.1, Nat.le_of_lt hbounds.2.1, hbounds.2.2⟩
      · have hlater := ih hbounds.2.2 hspan
        omega

theorem Traces.ordered (h : marks.Traces line cursor inside spans left)
    (hcursor : cursor ≤ line.length) :
    spans.Pairwise fun earlier later => earlier.1 < later.1 ∧ earlier.2 ≤ later.1 := by
  induction h with
  | ended hnext => exact .nil
  | leftOpen hnext hclose => exact List.pairwise_singleton _ _
  | closed hnext hclose htraces ih =>
      have hbounds := closer_bounds hcursor hnext hclose
      refine .cons (fun later hlater => ?_) (ih hbounds.2.2)
      have hwithin := htraces.within hbounds.2.2 later hlater
      omega

-- A comment begins at the cursor or at the first opener from there on.
theorem nextComment?_spec {start body : Nat}
    (hnext : marks.nextComment? line cursor inside = some (start, body)) :
    (if inside then start = cursor else marks.opener <+: line.drop start) ∧
      (∀ stop, body = marks.bodyStart inside 0 (start, stop)) ∧
      ∀ place, cursor ≤ place → marks.opener <+: line.drop place → start ≤ place := by
  cases inside with
  | true =>
      cases hnext
      exact ⟨rfl, fun _ => rfl, fun place hplace _ => hplace⟩
  | false =>
      obtain ⟨_, hfind, he⟩ := Option.map_eq_some_iff.mp hnext
      cases he
      have hfirst := firstAt_of_find hfind
      exact ⟨hfirst.stands, fun _ => rfl, hfirst.least⟩

theorem Traces.opened (h : marks.Traces line cursor inside spans left) (k : Nat)
    (span : Nat × Nat) (hspan : spans[k]? = some span) :
    if inside ∧ k = 0 then span.1 = cursor else marks.opener <+: line.drop span.1 := by
  induction h generalizing k with
  | ended hnext => cases hspan
  | leftOpen hnext hclose =>
      cases k with
      | zero =>
          cases hspan
          simpa using (nextComment?_spec hnext).1
      | succ k => cases hspan
  | closed hnext hclose _ ih =>
      cases k with
      | zero =>
          cases hspan
          simpa using (nextComment?_spec hnext).1
      | succ k => simpa using ih k hspan

theorem Traces.ne_nil (h : marks.Traces line cursor inside spans true) : spans ≠ [] := by
  cases h <;> simp

theorem isClosed_succ (carried : Bool) (k : Nat) (span : Nat × Nat) :
    marks.IsClosed line carried (k + 1) span ↔ marks.IsClosed line false k span := by
  simp [IsClosed, bodyStart]

-- All comments but the last one are closed, and that one is unless it is left open.
theorem Traces.ends (h : marks.Traces line cursor inside spans left) (k : Nat)
    (span : Nat × Nat) (hspan : spans[k]? = some span) :
    if left ∧ k + 1 = spans.length then
      span.2 = line.length ∧ ¬ marks.IsClosed line inside k span
    else marks.IsClosed line inside k span := by
  induction h generalizing k with
  | ended hnext => cases hspan
  | leftOpen hnext hclose =>
      cases k with
      | zero =>
          cases hspan
          rw [if_pos ⟨rfl, rfl⟩]
          refine ⟨rfl, fun ⟨close, hfirst, _⟩ => ?_⟩
          rw [← (nextComment?_spec hnext).2.1] at hfirst
          exact not_stands_of_find_eq_none hclose close hfirst.le hfirst.stands
      | succ k => cases hspan
  | @closed cursor inside start body close spans left hnext hclose htraces ih =>
      cases k with
      | zero =>
          cases hspan
          have hmore : ¬ (left = true ∧ 0 + 1 = spans.length + 1) := by
            rintro ⟨rfl, hlast⟩
            exact htraces.ne_nil (List.length_eq_zero_iff.mp (Nat.succ.inj hlast).symm)
          rw [List.length_cons, if_neg hmore]
          refine ⟨close, ?_, rfl⟩
          rw [← (nextComment?_spec hnext).2.1]
          exact firstAt_of_find hclose
      | succ k => simpa [isClosed_succ] using ih k hspan

theorem Traces.complete (h : marks.Traces line cursor inside spans left) (place : Nat)
    (hplace : cursor ≤ place) (hopener : marks.opener <+: line.drop place) :
    ∃ span ∈ spans, span.1 ≤ place ∧ place < span.2 := by
  induction h with
  | @ended cursor inside hnext =>
      cases inside with
      | true => cases hnext
      | false =>
          have hfind := Option.map_eq_none_iff.mp hnext
          exact absurd hopener (not_stands_of_find_eq_none hfind place hplace)
  | leftOpen hnext hclose =>
      have hlength := hopener.length_le
      have hpos := marks.length_pos_opener
      rw [List.length_drop] at hlength
      have hstart := (nextComment?_spec hnext).2.2 place hplace hopener
      exact ⟨_, List.mem_singleton_self _, hstart, by omega⟩
  | @closed cursor inside start body close spans left hnext hclose _ ih =>
      have hstart := (nextComment?_spec hnext).2.2 place hplace hopener
      by_cases hstop : place < close + marks.closer.length
      · exact ⟨_, List.mem_cons_self, hstart, hstop⟩
      · obtain ⟨span, hspan, hcovers⟩ := ih (Nat.le_of_not_lt hstop)
        exact ⟨span, List.mem_cons_of_mem _ hspan, hcovers⟩

end Traces

theorem outlines_of_traces {carried left : Bool} {regions : LineRegions}
    (h : marks.Traces line 0 carried regions.spans left)
    (hstate : regions.state = if left then .inBlockComment else .normal) :
    marks.Outlines line carried regions where
  ordered := h.ordered (Nat.zero_le _)
  within span hspan := (h.within (Nat.zero_le _) span hspan).2
  opened := h.opened
  closed k span hspan hmore := by
    have hends := h.ends k span hspan
    rwa [if_neg (by omega)] at hends
  complete place := h.complete place (Nat.zero_le _)
  left_open_iff := by
    rw [hstate]
    cases left with
    | true =>
        obtain ⟨last, hlast⟩ := Option.ne_none_iff_exists'.mp
          (mt List.getLast?_eq_none_iff.mp h.ne_nil)
        have hpos := List.length_pos_iff.mpr h.ne_nil
        rw [List.getLast?_eq_getElem?] at hlast
        have hends := h.ends _ last hlast
        rw [if_pos ⟨rfl, by omega⟩] at hends
        exact iff_of_true rfl ⟨_, last, hlast, by omega, hends.2⟩
    | false =>
        refine iff_of_false (by decide) ?_
        rintro ⟨k, span, hspan, -, hopen⟩
        exact hopen (by simpa using h.ends k span hspan)
  left_open_reaches hopen k span hspan hlast := by
    cases left with
    | true =>
        have hends := h.ends k span hspan
        rw [if_pos ⟨rfl, hlast⟩] at hends
        exact hends.1
    | false => cases hstate.symm.trans hopen
  else_normal hnot := by
    cases left with
    | true => exact absurd hstate hnot
    | false => exact hstate

theorem lineRegions_of_traces (state : RegionState) (hstate : state ≠ .inFencedCode)
    {spans : List (Nat × Nat)} {left : Bool}
    (h : marks.Traces line 0 (state = .inBlockComment) spans left) :
    marks.lineRegions state line =
      ⟨spans, if left then .inBlockComment else .normal, false⟩ := by
  obtain ⟨last?, hlast, hscan⟩ := h.spansFrom_eq (Nat.zero_le _) []
  simp only [decide_eq_true_eq, List.drop_zero, List.reverse_nil, List.nil_append] at hscan
  subst hlast
  simp only [lineRegions, hscan]
  cases last? with
  | some start => rfl
  | none => cases state <;> first | rfl | contradiction

end BlockMarks

namespace CommentStyle

-- What is not hidden as a whole is looked through for block comments.
theorem advance_eq_lineRegions (style : CommentStyle) (marks : BlockMarks) (state : RegionState)
    (line : Text) (hblock : style.block = some marks)
    (hshown : (style.advance state line).wholeLine = false) :
    style.advance state line = marks.lineRegions state line := by
  unfold advance at hshown ⊢
  split at hshown
  · cases hshown
  · rename_i hinside
    split at hshown
    · cases hshown
    · rename_i hfence
      split at hshown
      · cases hshown
      · rename_i hcomment
        rw [if_neg hinside, if_neg hfence, if_neg hcomment, hblock]

-- A line that is not hidden as a whole is looked through from mark to mark. The search is over
-- after at most one round more than the line has code points, and its answer is what is hidden
-- of the line: its comments.
theorem advance_outlines_comments (style : CommentStyle) (marks : BlockMarks)
    (state : RegionState) (line : Text) (hblock : style.block = some marks)
    (hstate : state ≠ .inFencedCode)
    (hshown : (style.advance state line).wholeLine = false) :
    (∀ rounds, line.length < rounds →
      marks.answerWithin? line rounds ⟨0, state = .inBlockComment, []⟩ =
        some ((style.advance state line).spans,
          decide ((style.advance state line).state = .inBlockComment))) ∧
      marks.Outlines line (state = .inBlockComment) (style.advance state line) := by
  obtain ⟨spans, left, htraces⟩ :
      ∃ spans left, marks.Traces line 0 (state = .inBlockComment) spans left :=
    BlockMarks.exists_traces 0 _ (Nat.zero_le _)
  have hregions := BlockMarks.lineRegions_of_traces state hstate htraces
  rw [advance_eq_lineRegions style marks state line hblock hshown, hregions]
  refine ⟨fun rounds hrounds => ?_, BlockMarks.outlines_of_traces htraces rfl⟩
  rw [htraces.answerWithin?_eq (Nat.zero_le _) [] rounds (by omega)]
  cases left <;> rfl

-- The opener begins with the closer. What closes the comment that is carried in opens none, and the
-- last one is left open.
theorem advance_outlines_comments_overlapping :
    let marks : BlockMarks := { opener := "*/*".toList, closer := "*/".toList }
    let style : CommentStyle := { block := some marks, linePrefixes := ["#".toList] }
    let line := "# */* a */*/ */* b */* c".toList
    style.block = some marks ∧ RegionState.inBlockComment ≠ .inFencedCode ∧
      (style.advance .inBlockComment line).wholeLine = false ∧
      marks.answerWithin? line 25 ⟨0, true, []⟩ =
        some ([(0, 4), (8, 15), (19, 24)], true) ∧
      marks.Outlines line true (style.advance .inBlockComment line) := by
  intro marks style line
  have hshown : (style.advance .inBlockComment line).wholeLine = false := by decide
  have h := advance_outlines_comments style marks .inBlockComment line rfl (by decide) hshown
  exact ⟨rfl, by decide, hshown, (h.1 25 (by decide)).trans (by decide), h.2⟩

end CommentStyle

end UrlHarvest
