import UrlHarvest.Proofs.Comments.Fold
import UrlHarvest.Proofs.Comments.Spans
import UrlHarvest.Proofs.Pattern.Boundary
import UrlHarvest.Proofs.Pattern.Shown

namespace UrlHarvest

namespace CommentStyle

-- Lines that may differ in what is hidden of them, and in nothing else.
structure AgreeOutside (style : CommentStyle) (state : RegionState) (lines others : List Text) :
    Prop where
  lengths : lines.map List.length = others.map List.length
  regions : style.regionsFrom state [] lines = style.regionsFrom state [] others
  shown : ∀ pair ∈ (lines.zip others).zip (style.regionsFrom state [] lines),
    ∀ j < pair.1.1.length, pair.2.hides j = false → pair.1.1[j]? = pair.1.2[j]?

instance (style : CommentStyle) (state : RegionState) (lines others : List Text) :
    Decidable (style.AgreeOutside state lines others) :=
  decidable_of_iff
    (lines.map List.length = others.map List.length ∧
      style.regionsFrom state [] lines = style.regionsFrom state [] others ∧
      ∀ pair ∈ (lines.zip others).zip (style.regionsFrom state [] lines),
        ∀ j < pair.1.1.length, pair.2.hides j = false → pair.1.1[j]? = pair.1.2[j]?)
    ⟨fun ⟨lengths, regions, shown⟩ => ⟨lengths, regions, shown⟩, fun h =>
      ⟨h.lengths, h.regions, h.shown⟩⟩

variable {style : CommentStyle} {state : RegionState} {row other : Text}
  {lines others : List Text}

-- A place that is hidden behind one that is shown is where a comment opens.
theorem getElem?_of_hides_succ (row : Text) (j : Nat)
    (hshown : (style.advance state row).hides j = false)
    (hhidden : (style.advance state row).hides (j + 1) = true) :
    ∃ marks ∈ style.block, row[j + 1]? = marks.opener.head? := by
  simp only [LineRegions.hides, Bool.or_eq_false_iff, List.any_eq_false] at hshown
  simp only [LineRegions.hides, hshown.1, Bool.false_or, List.any_eq_true, Bool.and_eq_true,
    decide_eq_true_eq] at hhidden
  obtain ⟨span, hspan, hle, hlt⟩ := hhidden
  have hbefore := hshown.2 span hspan
  simp only [Bool.and_eq_true, decide_eq_true_eq] at hbefore
  have hstart : span.1 = j + 1 := by omega
  obtain ⟨marks, hmarks, hopens⟩ := style.opensAt_of_mem_advance state row span hspan
  rw [hstart] at hopens
  obtain ⟨tail, htail⟩ := hopens.resolve_left (Nat.succ_ne_zero j)
  refine ⟨marks, hmarks, ?_⟩
  obtain ⟨c, opener, hopener⟩ := List.exists_cons_of_ne_nil marks.opener_ne_nil
  rw [← Nat.add_zero (j + 1), ← List.getElem?_drop, ← htail, hopener]
  rfl

-- A place that is shown behind one that is hidden is where a comment has closed.
theorem getElem?_of_shows_succ (row : Text) (j : Nat) (hj : j + 1 < row.length)
    (hhidden : (style.advance state row).hides j = true)
    (hshown : (style.advance state row).hides (j + 1) = false) :
    ∃ marks ∈ style.block, row[j]? = marks.closer.getLast? := by
  simp only [LineRegions.hides, Bool.or_eq_false_iff, List.any_eq_false] at hshown
  simp only [LineRegions.hides, hshown.1, Bool.false_or, List.any_eq_true, Bool.and_eq_true,
    decide_eq_true_eq] at hhidden
  obtain ⟨span, hspan, hle, hlt⟩ := hhidden
  have hbehind := hshown.2 span hspan
  simp only [Bool.and_eq_true, decide_eq_true_eq] at hbehind
  have hstop : span.2 = j + 1 := by omega
  obtain ⟨marks, hmarks, hcloses⟩ := style.closesAt_of_mem_advance state row span hspan
  rw [hstop] at hcloses
  obtain ⟨front, hfront⟩ := hcloses.resolve_left (by omega)
  refine ⟨marks, hmarks, ?_⟩
  have hlast := congrArg List.getLast? hfront
  rw [List.getLast?_append_of_ne_nil _ marks.closer_ne_nil, List.take_succ_eq_append_getElem
    (by omega), List.getLast?_concat] at hlast
  rw [List.getElem?_eq_getElem (by omega), hlast]

-- An address in running text ends where a comment opens, and none goes on where one closes.
def endsAddresses (style : CommentStyle) : Bool :=
  style.block.all fun marks =>
    marks.opener.head?.any (!isBodyChar ·) && marks.closer.getLast?.any (!isBodyChar ·)

-- Angle brackets end an address, slashes and asterisks do not.
example : markup.endsAddresses = true ∧ css.endsAddresses = false := by decide

theorem AgreeOutside.advance_eq
    (h : style.AgreeOutside state (row :: lines) (other :: others)) :
    style.advance state other = style.advance state row := by
  have hregions := h.regions
  rw [regionsFrom_cons, regionsFrom_cons] at hregions
  exact (List.cons.inj hregions).1.symm

-- The regions of the two lines are the same, so a comment that opens in one of them opens in the
-- other one at the same place and with the same mark.
theorem AgreeOutside.head (h : style.AgreeOutside state (row :: lines) (other :: others)) :
    AgreeWhereShown (style.advance state row).hides row other := by
  have hlength : row.length = other.length := (List.cons.inj h.lengths).1
  have hshown : ∀ j, (style.advance state row).hides j = false → other[j]? = row[j]? := by
    intro j hj
    by_cases hlt : j < row.length
    · exact (h.shown ((row, other), style.advance state row) (by simp) j hlt hj).symm
    · rw [List.getElem?_eq_none (by omega), List.getElem?_eq_none (by omega)]
  refine ⟨hlength.symm, hshown, ?_⟩
  intro j hj
  cases hnext : (style.advance state row).hides (j + 1) with
  | false => exact hshown (j + 1) hnext
  | true =>
      obtain ⟨marks, hmarks, hrow⟩ := getElem?_of_hides_succ row j hj hnext
      rw [← h.advance_eq] at hj hnext
      obtain ⟨marks', hmarks', hother⟩ := getElem?_of_hides_succ other j hj hnext
      obtain rfl := Option.mem_unique hmarks hmarks'
      rw [hrow, hother]

theorem AgreeOutside.tail (h : style.AgreeOutside state (row :: lines) (other :: others)) :
    style.AgreeOutside (style.advance state row).state lines others where
  lengths := (List.cons.inj h.lengths).2
  regions := by
    have hregions := h.regions
    rw [regionsFrom_cons, regionsFrom_cons, h.advance_eq] at hregions
    exact (List.cons.inj hregions).2
  shown pair hpair := h.shown pair (by
    rw [regionsFrom_cons, List.zip_cons_cons, List.zip_cons_cons]
    exact List.mem_cons_of_mem _ hpair)

end CommentStyle

namespace BoundaryRule

variable (rule : BoundaryRule) {style : CommentStyle} {state : RegionState}

private theorem exists_of_any (mark : Option Char) (h : mark.any (!isBodyChar ·) = true) :
    ∃ c, mark = some c ∧ isBodyChar c = false := by
  obtain ⟨c, hc, hbody⟩ := (Option.any_eq_true _ _).mp h
  exact ⟨c, hc, by simpa using hbody⟩

-- So a match of a boundary rule never reaches across an edge of such comments: a mark stands at
-- every edge and ends the match or the run that it would have to go on from.
theorem keepsApart_of_endsAddresses (hends : style.endsAddresses = true) (row : Text) :
    rule.pattern.KeepsApart (style.advance state row).hides row := by
  intro found hfound j hle hlt
  have hlen := rule.pattern.stop_le_length_of_mem row found hfound
  have hmarks : ∀ marks ∈ style.block, (∃ c, marks.opener.head? = some c ∧ isBodyChar c = false) ∧
      ∃ c, marks.closer.getLast? = some c ∧ isBodyChar c = false := by
    intro marks hm
    have hall := (Option.all_eq_true _ _).mp hends marks hm
    rw [Bool.and_eq_true] at hall
    exact ⟨exists_of_any _ hall.1, exists_of_any _ hall.2⟩
  induction j, hle using Nat.le_induction with
  | base => rfl
  | succ j hle ih =>
      rw [← ih (Nat.lt_of_succ_lt hlt)]
      cases hnext : (style.advance state row).hides (j + 1) with
      | true =>
          cases hj : (style.advance state row).hides j with
          | true => rfl
          | false =>
              obtain ⟨marks, hm, hrow⟩ := CommentStyle.getElem?_of_hides_succ row j hj hnext
              obtain ⟨⟨c, hc, hbody⟩, -⟩ := hmarks marks hm
              have hstop := rule.stop_le_of_delimiter row found hfound (j + 1) c
                (hrow.trans hc) hbody (Nat.le_succ_of_le hle)
              omega
      | false =>
          cases hj : (style.advance state row).hides j with
          | false => rfl
          | true =>
              obtain ⟨marks, hm, hrow⟩ := CommentStyle.getElem?_of_shows_succ row j (by omega)
                hj hnext
              obtain ⟨-, c, hc, hbody⟩ := hmarks marks hm
              have hstop := rule.stop_le_of_delimiter row found hfound j c (hrow.trans hc)
                hbody hle
              omega

end BoundaryRule

end UrlHarvest
