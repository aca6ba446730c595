import UrlHarvest.Proofs.Comments.Hidden
import UrlHarvest.Proofs.Text.Find

namespace UrlHarvest

-- A comment in a text, from its opener up to and without `stop`. One that is not closed reaches
-- to the end of the text.
structure CommentBlock where
  start : Nat
  stop : Nat
  closed : Bool
deriving Repr, DecidableEq

namespace CommentBlock

def span (block : CommentBlock) : Nat × Nat :=
  (block.start, block.stop)

end CommentBlock

namespace BlockMarks

open Text

-- One pass over a whole text from a cursor on: the next opener, the next closer behind it, and
-- then on from the end of the comment. Lines play no part in it.
def blocksFrom (marks : BlockMarks) (text : Text) (cursor : Nat) : List CommentBlock :=
  match _ : find marks.opener text cursor with
  | none => []
  | some start =>
    match _ : find marks.closer text (start + marks.opener.length) with
    | none => [⟨start, text.length, false⟩]
    | some close =>
      ⟨start, close + marks.closer.length, true⟩ ::
        blocksFrom marks text (close + marks.closer.length)
termination_by text.length - cursor
decreasing_by
  rename_i hopen hclose
  have hs := find_bounds _ _ _ _ marks.opener_ne_nil hopen
  have hc := find_bounds _ _ _ _ marks.closer_ne_nil hclose
  have hpos := marks.length_pos_closer
  omega

def blocks (marks : BlockMarks) (text : Text) : List CommentBlock :=
  marks.blocksFrom text 0

variable (marks : BlockMarks)

theorem spansFrom_skip (offset skip : Nat) (start? : Option Nat) (spans : List (Nat × Nat))
    (text : Text) (hs : skip ≤ text.length) :
    marks.spansFrom offset skip start? spans text =
      marks.spansFrom (offset + skip) 0 start? spans (text.drop skip) := by
  induction skip generalizing offset text with
  | zero => rfl
  | succ skip ih =>
      cases text with
      | nil => simp at hs
      | cons c rest =>
          rw [spansFrom, ih (offset + 1) rest (by simpa using hs), List.drop_succ_cons]
          congr 1
          omega

-- A mark at the front of a text is passed over as a whole.
theorem spansFrom_past_mark (offset : Nat) (start? : Option Nat) (spans : List (Nat × Nat))
    (mark : Text) (c : Char) (rest : Text) (hpos : 0 < mark.length)
    (hmark : mark.isPrefixOf (c :: rest) = true) :
    marks.spansFrom (offset + 1) (mark.length - 1) start? spans rest =
      marks.spansFrom (offset + mark.length) 0 start? spans
        ((c :: rest).drop (offset + mark.length - offset)) := by
  have hlen := (List.isPrefixOf_iff_prefix.mp hmark).length_le
  rw [List.length_cons] at hlen
  rw [marks.spansFrom_skip _ _ _ _ rest (by omega), Nat.add_sub_cancel_left, List.drop_cons hpos]
  congr 1
  omega

-- Outside of a comment the scan goes on to the next opener.
theorem spansFrom_outside (offset : Nat) (spans : List (Nat × Nat)) (text : Text) :
    marks.spansFrom offset 0 none spans text =
      match findFrom marks.opener offset text with
      | none => (spans.reverse, none)
      | some start =>
        marks.spansFrom (start + marks.opener.length) 0 (some start) spans
          (text.drop (start + marks.opener.length - offset)) := by
  have hpos := marks.length_pos_opener
  induction text generalizing offset with
  | nil => simp [findFrom_nil _ _ marks.opener_ne_nil, spansFrom]
  | cons c rest ih =>
      by_cases hp : marks.opener.isPrefixOf (c :: rest)
      · simp only [spansFrom, findFrom, hp, ite_true]
        exact marks.spansFrom_past_mark offset _ _ _ c rest hpos hp
      · simp only [spansFrom, findFrom, hp, Bool.false_eq_true, ite_false, ih (offset + 1)]
        split
        · rfl
        · rename_i start hf
          have hb := findFrom_bounds _ _ _ _ hf
          rw [List.drop_cons (by omega)]
          congr 2

-- Inside of a comment it goes on to the next closer.
theorem spansFrom_inside (offset start : Nat) (spans : List (Nat × Nat)) (text : Text) :
    marks.spansFrom offset 0 (some start) spans text =
      match findFrom marks.closer offset text with
      | none => (((start, offset + text.length) :: spans).reverse, some start)
      | some close =>
        marks.spansFrom (close + marks.closer.length) 0 none
          ((start, close + marks.closer.length) :: spans)
          (text.drop (close + marks.closer.length - offset)) := by
  have hpos := marks.length_pos_closer
  induction text generalizing offset with
  | nil => simp [findFrom_nil _ _ marks.closer_ne_nil, spansFrom]
  | cons c rest ih =>
      by_cases hp : marks.closer.isPrefixOf (c :: rest)
      · simp only [spansFrom, findFrom, hp, ite_true]
        exact marks.spansFrom_past_mark offset _ _ _ c rest hpos hp
      · simp only [spansFrom, findFrom, hp, Bool.false_eq_true, ite_false, ih (offset + 1)]
        split
        · rw [List.length_cons, Nat.add_right_comm]
          rfl
        · rename_i close hf
          have hb := findFrom_bounds _ _ _ _ hf
          rw [List.drop_cons (by omega)]
          congr 2

theorem blocksFrom_of_no_opener (text : Text) (cursor : Nat)
    (hopen : find marks.opener text cursor = none) : marks.blocksFrom text cursor = [] := by
  rw [blocksFrom]
  split <;> simp_all

theorem blocksFrom_of_no_closer (text : Text) (cursor start : Nat)
    (hopen : find marks.opener text cursor = some start)
    (hclose : find marks.closer text (start + marks.opener.length) = none) :
    marks.blocksFrom text cursor = [⟨start, text.length, false⟩] := by
  rw [blocksFrom]
  split
  · simp_all
  · split <;> simp_all

theorem blocksFrom_of_closer (text : Text) (cursor start close : Nat)
    (hopen : find marks.opener text cursor = some start)
    (hclose : find marks.closer text (start + marks.opener.length) = some close) :
    marks.blocksFrom text cursor =
      ⟨start, close + marks.closer.length, true⟩ ::
        marks.blocksFrom text (close + marks.closer.length) := by
  rw [blocksFrom]
  split
  · simp_all
  · split <;> simp_all

-- The scan code point by code point finds what the pass from mark to mark finds.
theorem spansFrom_eq_blocksFrom (text : Text) (cursor : Nat) (spans : List (Nat × Nat)) :
    (marks.spansFrom cursor 0 none spans (text.drop cursor)).1 =
        spans.reverse ++ (marks.blocksFrom text cursor).map CommentBlock.span ∧
      (marks.spansFrom cursor 0 none spans (text.drop cursor)).2.isSome =
        (marks.blocksFrom text cursor).getLast?.any (!·.closed) := by
  induction cursor using BlockMarks.blocksFrom.induct marks text generalizing spans with
  | case1 cursor hopen =>
      have hf : findFrom marks.opener cursor (text.drop cursor) = none := hopen
      rw [spansFrom_outside, hf, marks.blocksFrom_of_no_opener text cursor hopen]
      simp
  | case2 cursor start hopen hclose =>
      have hf : findFrom marks.opener cursor (text.drop cursor) = some start := hopen
      have hg : findFrom marks.closer (start + marks.opener.length)
          (text.drop (start + marks.opener.length)) = none := hclose
      have hb := find_bounds _ _ _ _ marks.opener_ne_nil hopen
      have hd : cursor + (start + marks.opener.length - cursor) = start + marks.opener.length := by
        omega
      have hl : start + marks.opener.length + (text.length - (start + marks.opener.length)) =
          text.length := by omega
      rw [spansFrom_outside, hf, marks.blocksFrom_of_no_closer text cursor start hopen hclose]
      simp only [List.drop_drop, hd, spansFrom_inside, hg]
      simp [CommentBlock.span, hl]
  | case3 cursor start hopen close hclose ih =>
      have hf : findFrom marks.opener cursor (text.drop cursor) = some start := hopen
      have hg : findFrom marks.closer (start + marks.opener.length)
          (text.drop (start + marks.opener.length)) = some close := hclose
      have hb := find_bounds _ _ _ _ marks.opener_ne_nil hopen
      have hc := find_bounds _ _ _ _ marks.closer_ne_nil hclose
      have hd : cursor + (start + marks.opener.length - cursor) = start + marks.opener.length := by
        omega
      have he : start + marks.opener.length +
          (close + marks.closer.length - (start + marks.opener.length)) =
          close + marks.closer.length := by omega
      obtain ⟨hspans, hlast⟩ := ih ((start, close + marks.closer.length) :: spans)
      rw [spansFrom_outside, hf,
        marks.blocksFrom_of_closer text cursor start close hopen hclose]
      simp only [List.drop_drop, hd, spansFrom_inside, hg, he]
      refine ⟨?_, ?_⟩
      · rw [hspans]
        simp [CommentBlock.span]
      · rw [hlast, List.getLast?_cons]
        cases (marks.blocksFrom text (close + marks.closer.length)).getLast? <;> rfl

theorem within_map_span (blocks : List CommentBlock) (offset : Nat) :
    within (blocks.map CommentBlock.span) offset = true ↔
      ∃ block ∈ blocks, block.start ≤ offset ∧ offset < block.stop := by
  simp only [within, List.any_map, List.any_eq_true, Function.comp_apply, Bool.and_eq_true,
    decide_eq_true_eq]
  rfl

theorem within_blocks (text : Text) (offset : Nat) (ho : offset < text.length) :
    within ((marks.blocks text).map CommentBlock.span) offset =
      (marks.hiddenFrom false 0 text)[offset]?.getD false := by
  have hscan := marks.within_spansFrom 0 0 none [] text offset ho (by simp) (by simp)
  have hpass := (marks.spansFrom_eq_blocksFrom text 0 []).1
  rw [List.drop_zero, List.reverse_nil, List.nil_append] at hpass
  rw [hpass, Nat.zero_add, within_nil, Bool.false_or] at hscan
  exact hscan

theorem endsInside_eq_blocks (text : Text) :
    marks.endsInside false 0 text = (marks.blocks text).getLast?.any (!·.closed) := by
  have hpass := (marks.spansFrom_eq_blocksFrom text 0 []).2
  rw [List.drop_zero, isSome_spansFrom] at hpass
  exact hpass

end BlockMarks

end UrlHarvest
