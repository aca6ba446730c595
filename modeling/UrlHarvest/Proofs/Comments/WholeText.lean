import UrlHarvest.Proofs.Comments.Blocks
import UrlHarvest.Proofs.Comments.Fold

namespace UrlHarvest

namespace BlockMarks

open Text

-- The state in which a line is met that begins inside of a comment, or outside of one.
def carried (inside : Bool) : RegionState :=
  if inside then .inBlockComment else .normal

@[simp] theorem carried_eq_inBlockComment (inside : Bool) :
    carried inside = .inBlockComment ↔ inside = true := by
  cases inside <;> simp [carried]

-- Where the comment begins that is carried into a line, if one is.
def carriedStart? (inside : Bool) : Option Nat :=
  if inside then some 0 else none

@[simp] theorem isSome_carriedStart? (inside : Bool) : (carriedStart? inside).isSome = inside := by
  cases inside <;> rfl

theorem eq_zero_of_mem_carriedStart? (inside : Bool) (start : Nat)
    (hstart : start ∈ carriedStart? inside) : start = 0 := by
  cases inside with
  | false => cases hstart
  | true => exact (Option.some.inj hstart).symm

def onlyBlocks (marks : BlockMarks) : CommentStyle :=
  { block := some marks }

variable (marks : BlockMarks)

theorem advance_onlyBlocks (state : RegionState) (line : Text) :
    marks.onlyBlocks.advance state line = marks.lineRegions state line := by
  simp [onlyBlocks, CommentStyle.advance, CommentStyle.commentsOut]

-- Only a comment that is carried in makes a difference to what is found in a line.
theorem lineRegions_eq (state : RegionState) (line : Text) :
    marks.lineRegions state line =
      ⟨(marks.spansFrom 0 0 (carriedStart? (state = .inBlockComment)) [] line).1,
        if marks.endsInside (state = .inBlockComment) 0 line then .inBlockComment
        else if state = .inBlockComment then .normal else state, false⟩ := by
  have hlast := marks.isSome_spansFrom 0 0 (carriedStart? (state = .inBlockComment)) [] line
  rw [isSome_carriedStart?] at hlast
  simp only [lineRegions]
  rw [show (if state = .inBlockComment then some 0 else none) =
    carriedStart? (state = .inBlockComment) by simp [carriedStart?]]
  split
  · rename_i spans start hscan
    rw [hscan] at hlast ⊢
    simp [← hlast]
  · rename_i spans hscan
    rw [hscan] at hlast ⊢
    simp [← hlast]

theorem hides_lineRegions (state : RegionState) (line : Text) (j : Nat) (hj : j < line.length) :
    (marks.lineRegions state line).hides j =
      (marks.hiddenFrom (state = .inBlockComment) 0 line)[j]?.getD false := by
  have hscan := marks.within_spansFrom 0 0 (carriedStart? (state = .inBlockComment)) [] line j hj
    (fun start h => Nat.le_of_eq (eq_zero_of_mem_carriedStart? _ start h)) (by simp)
  rw [isSome_carriedStart?, Nat.zero_add, within_nil, Bool.false_or] at hscan
  rw [lineRegions_eq, ← hscan]
  rfl

theorem lineRegions_carried (inside : Bool) (line : Text) :
    marks.lineRegions (carried inside) line =
      ⟨(marks.spansFrom 0 0 (carriedStart? inside) [] line).1,
        carried (marks.endsInside inside 0 line), false⟩ := by
  simp only [lineRegions_eq, carried_eq_inBlockComment, Bool.decide_eq_true]
  cases inside <;> rfl

theorem hides_lineRegions_carried (inside : Bool) (line : Text) (j : Nat)
    (hj : j < line.length) :
    (marks.lineRegions (carried inside) line).hides j =
      (marks.hiddenFrom inside 0 line)[j]?.getD false := by
  rw [hides_lineRegions _ _ _ _ hj]
  simp only [carried_eq_inBlockComment, Bool.decide_eq_true]

section Lines

variable (hopener : '\n' ∉ marks.opener) (hcloser : '\n' ∉ marks.closer)

include hopener hcloser

theorem stateAfter_lines (inside : Bool) (text : Text) :
    marks.onlyBlocks.stateAfter (carried inside) (lines text) =
      carried (marks.endsInside inside 0 text) := by
  induction text using induction_on_lines generalizing inside with
  | last line hline =>
      rw [lines_of_newline_notMem line hline, CommentStyle.stateAfter_cons, advance_onlyBlocks,
        lineRegions_carried, CommentStyle.stateAfter_nil]
  | more line rest hline ih =>
      rw [lines_append_of_newline_notMem line rest hline, CommentStyle.stateAfter_cons,
        advance_onlyBlocks, lineRegions_carried, ih,
        marks.endsInside_append_cons hopener hcloser inside 0 line rest (Nat.zero_le _)]

-- The answers for a line are a part of the answers for the whole text, cut out where it begins.
theorem hides_regionsFrom (inside : Bool) (text : Text) (k : Nat) (line : Text)
    (regions : LineRegions) (hline : (lines text)[k]? = some line)
    (hregions : (marks.onlyBlocks.regionsFrom (carried inside) [] (lines text))[k]? = some regions)
    (j : Nat) (hj : j < line.length) :
    regions.hides j = (marks.hiddenFrom inside 0 text)[lineStart text k + j]?.getD false := by
  induction text using induction_on_lines generalizing inside k with
  | last only honly =>
      rw [lines_of_newline_notMem only honly] at hline hregions
      cases k with
      | succ k => simp at hline
      | zero =>
          obtain rfl : only = line := by simpa using hline
          obtain rfl : marks.lineRegions (carried inside) only = regions := by
            simpa [advance_onlyBlocks] using hregions
          rw [lineStart_zero, Nat.zero_add, marks.hides_lineRegions_carried inside only j hj]
  | more first rest hfirst ih =>
      rw [lines_append_of_newline_notMem first rest hfirst] at hline hregions
      rw [CommentStyle.regionsFrom_cons, advance_onlyBlocks, lineRegions_carried] at hregions
      rw [marks.hiddenFrom_append_cons hopener hcloser inside 0 first rest (Nat.zero_le _)]
      have hlen := marks.length_hiddenFrom inside 0 first
      cases k with
      | zero =>
          obtain rfl : first = line := by simpa using hline
          rw [List.getElem?_cons_zero, Option.some.injEq] at hregions
          rw [← hregions, ← lineRegions_carried, marks.hides_lineRegions_carried inside first j hj,
            lineStart_zero, Nat.zero_add, List.getElem?_append_left (by omega)]
      | succ k =>
          rw [List.getElem?_cons_succ] at hline hregions
          rw [ih _ k hline hregions, lineStart_succ first rest hfirst,
            List.getElem?_append_right (by omega), hlen,
            show first.length + 1 + lineStart rest k + j - first.length =
              lineStart rest k + j + 1 by omega, List.getElem?_cons_succ]

-- Going through the lines one by one with a carried state hides exactly what the pass over the
-- whole text marks, and the state at the end tells whether its last comment is left open.
theorem regions_agree_with_blocks (text : Text) :
    (marks.onlyBlocks.regions (lines text)).length = (lines text).length ∧
    (∀ (k : Nat) (line : Text) (regions : LineRegions), (lines text)[k]? = some line →
      (marks.onlyBlocks.regions (lines text))[k]? = some regions → ∀ j < line.length,
        (regions.hides j = true ↔ ∃ block ∈ marks.blocks text,
          (block.start : Int) ≤ offsetAt text ⟨k + 1, j + 1⟩ ∧
            offsetAt text ⟨k + 1, j + 1⟩ < block.stop)) ∧
    ((marks.onlyBlocks.regions (lines text)).getLast?.map LineRegions.state =
        some .inBlockComment ↔
      ∃ block, (marks.blocks text).getLast? = some block ∧ block.closed = false) := by
  refine ⟨CommentStyle.length_regionsFrom _ _ _, ?_, ?_⟩
  · intro k line regions hline hregions j hj
    have hlt := lineStart_add_lt text k line hline j hj
    have hhides := marks.hides_regionsFrom hopener hcloser false text k line regions hline
      hregions j hj
    rw [hhides, ← marks.within_blocks text _ hlt, within_map_span, offsetAt_eq_lineStart_add]
    simp only [Int.ofNat_le, Int.ofNat_lt]
  · have hlast := marks.onlyBlocks.getLast?_regionsFrom .normal (lines text) (lines_ne_nil text)
    have hstate := marks.stateAfter_lines hopener hcloser false text
    have hends := marks.endsInside_eq_blocks text
    rw [CommentStyle.regions, hlast, Option.some.injEq]
    change marks.onlyBlocks.stateAfter (carried false) (lines text) = _ ↔ _
    rw [hstate, carried_eq_inBlockComment, hends, Option.any_eq_true]
    simp only [Bool.not_eq_true']

end Lines

-- The opener and the slash behind it do not close a comment, the mark at the start of the next
-- line does.
theorem regions_agree_with_blocks_overlapping :
    let marks : BlockMarks := { opener := "/*".toList, closer := "*/".toList }
    let text := "a/*/ b\n*/c/*".toList
    '\n' ∉ marks.opener ∧ '\n' ∉ marks.closer ∧
    (marks.onlyBlocks.regions (lines text))[1]? =
      some ⟨[(0, 2), (3, 5)], .inBlockComment, false⟩ ∧
    (∃ block ∈ marks.blocks text,
      (block.start : Int) ≤ offsetAt text ⟨2, 2⟩ ∧ offsetAt text ⟨2, 2⟩ < block.stop) ∧
    ∃ block, (marks.blocks text).getLast? = some block ∧ block.closed = false := by
  intro marks text
  have h := regions_agree_with_blocks marks (by decide) (by decide) text
  refine ⟨by decide, by decide, by decide, ?_, h.2.2.mp (by decide)⟩
  exact (h.2.1 1 "*/c/*".toList ⟨[(0, 2), (3, 5)], .inBlockComment, false⟩ (by decide)
    (by decide) 1 (by decide)).mp (by decide)

end BlockMarks

end UrlHarvest
