import Mathlib.Data.Prod.Lex
import Mathlib.Data.Set.Function
import Mathlib.Order.Monotone.Basic
import Mathlib.Tactic.MkIffOfInductiveProp
import UrlHarvest.Proofs.Scan.Locator
import UrlHarvest.Scan.Context

namespace UrlHarvest

-- A text is read line by line, and from left to right within a line.
def Position.rank (position : Position) : Int ×ₗ Int :=
  toLex (position.line, position.column)

namespace Text

-- The positions of a text: one for each code point of a line, and one for the end of the line.
@[mk_iff]
structure HasPosition (text : Text) (position : Position) : Prop where
  one_le_line : 1 ≤ position.line
  line_le : position.line ≤ (lines text).length
  one_le_column : 1 ≤ position.column
  column_le : ∀ row ∈ (lines text)[(position.line - 1).toNat]?, position.column ≤ row.length + 1

instance (text : Text) (position : Position) : Decidable (HasPosition text position) :=
  decidable_of_iff' _ (hasPosition_iff text position)

variable (text : Text)

theorem hasPosition_of_place (index : Nat) (row : Text) (hrow : (lines text)[index]? = some row)
    (column : Nat) (hc : column ≤ row.length) : HasPosition text ⟨index + 1, column + 1⟩ := by
  have hindex : index < (lines text).length := (List.getElem?_eq_some_iff.mp hrow).1
  have hline : ((index : Int) + 1 - 1).toNat = index := by omega
  simp only [hasPosition_iff, hline, hrow, Option.mem_some, forall_eq']
  omega

theorem HasPosition.exists_place {text : Text} {position : Position}
    (h : HasPosition text position) :
    ∃ (index : Nat) (row : Text) (column : Nat), (lines text)[index]? = some row ∧
      column ≤ row.length ∧ position = ⟨index + 1, column + 1⟩ := by
  obtain ⟨hline, hlines, hcolumn, hrow⟩ := h
  have hindex : (position.line - 1).toNat < (lines text).length := by omega
  have hget := List.getElem?_eq_getElem hindex
  have hle := hrow _ hget
  refine ⟨_, _, (position.column - 1).toNat, hget, by omega, ?_⟩
  rw [Int.toNat_of_nonneg (by omega), Int.toNat_of_nonneg (by omega), Int.sub_add_cancel,
    Int.sub_add_cancel]

theorem hasPosition_positionAt (offset : Nat) (ho : offset ≤ text.length) :
    HasPosition text (positionAt text offset) := by
  rw [positionAt_eq text offset ho]
  apply hasPosition_of_place text _ _ (getElem?_lines_count text offset ho)
  rw [List.length_append]
  exact Nat.le_add_right _ _

theorem HasPosition.exists_offset {text : Text} {position : Position}
    (h : HasPosition text position) :
    ∃ offset ≤ text.length,
      offsetAt text position = offset ∧ positionAt text offset = position := by
  obtain ⟨index, row, column, hrow, hc, rfl⟩ := h.exists_place
  exact ⟨lineStart text index + column, lineStart_add_le text index row hrow column hc,
    offsetAt_eq_lineStart_add text index column,
    positionAt_lineStart_add text index row hrow column hc⟩

theorem bijOn_positionAt :
    Set.BijOn (positionAt text) {offset | offset ≤ text.length}
      {position | HasPosition text position} := by
  refine ⟨hasPosition_positionAt text, ?_, ?_⟩
  · intro first hfirst second hsecond h
    exact positionAt_injective text hfirst hsecond h
  · intro position hposition
    obtain ⟨offset, ho, -, hat⟩ := HasPosition.exists_offset hposition
    exact ⟨offset, ho, hat⟩

-- Further on there are as many newlines in front or more. Where there are as many, both offsets
-- are in one line, and the columns differ as the offsets do.
theorem rank_positionAt_lt {first second : Nat} (hlt : first < second)
    (hsecond : second ≤ text.length) :
    (positionAt text first).rank < (positionAt text second).rank := by
  have hfirst : first ≤ text.length := hlt.le.trans hsecond
  have hcount : (text.take first).count '\n' ≤ (text.take second).count '\n' :=
    (List.take_sublist_take_left hlt.le).count_le '\n'
  have hstart := lineStart_add_length_lineBefore text first hfirst
  have hstart' := lineStart_add_length_lineBefore text second hsecond
  simp only [Position.rank, positionAt_eq text first hfirst, positionAt_eq text second hsecond,
    Prod.Lex.toLex_lt_toLex]
  rcases hcount.lt_or_eq with hbefore | hsame
  · left
    omega
  · right
    rw [hsame] at hstart
    constructor <;> omega

theorem rank_positionAt_lt_iff {first second : Nat} (hfirst : first ≤ text.length)
    (hsecond : second ≤ text.length) :
    (positionAt text first).rank < (positionAt text second).rank ↔ first < second := by
  have hmono : StrictMonoOn (fun offset => (positionAt text offset).rank)
      {offset | offset ≤ text.length} :=
    fun _ _ _ hsecond hlt => rank_positionAt_lt text hlt hsecond
  exact hmono.lt_iff_lt hfirst hsecond

-- Offsets and positions name the same places in the same order. A position is had by counting the
-- newlines in front of an offset, by walking there from the front of the text, or by numbering the
-- lines and the code points of a line, and each way gives the same one.
theorem coordinates_agree :
    (∀ offset ≤ text.length, HasPosition text (positionAt text offset) ∧
      offsetAt text (positionAt text offset) = offset) ∧
    (∀ position, HasPosition text position → ∃ offset ≤ text.length,
      offsetAt text position = offset ∧ positionAt text offset = position) ∧
    Set.BijOn (positionAt text) {offset | offset ≤ text.length}
      {position | HasPosition text position} ∧
    (∀ first ≤ text.length, ∀ second ≤ text.length,
      (positionAt text first).rank < (positionAt text second).rank ↔ first < second) ∧
    (∀ offset ≤ text.length, (Place.inText text offset).position = positionAt text offset) ∧
    ∀ (index : Nat) (row : Text), (lines text)[index]? = some row → ∀ column ≤ row.length,
      ∀ (value : Text) (snippet : String), Finding.inLine value snippet index column =
        .url (String.ofList value) (some (positionAt text (lineStart text index + column)))
          (some snippet) none := by
  refine ⟨fun offset ho => ?_, fun position h => h.exists_offset, bijOn_positionAt text,
    fun first hfirst second hsecond => ?_, Place.position_inText text, ?_⟩
  · exact ⟨hasPosition_positionAt text offset ho, offsetAt_positionAt text offset ho⟩
  · exact rank_positionAt_lt_iff text hfirst hsecond
  · intro index row hrow column hc value snippet
    rw [positionAt_lineStart_add text index row hrow column hc, Finding.inLine]

theorem coordinates_agree_at_line_ends :
    let text := "a\n\n\rb\n".toList
    (text.length = 6 ∧ HasPosition text ⟨3, 3⟩ ∧ ¬HasPosition text ⟨3, 4⟩ ∧
      ¬HasPosition text ⟨5, 1⟩ ∧ (lines text)[1]? = some []) ∧
    (List.range 7).map (positionAt text) =
      [⟨1, 1⟩, ⟨1, 2⟩, ⟨2, 1⟩, ⟨3, 1⟩, ⟨3, 2⟩, ⟨3, 3⟩, ⟨4, 1⟩] ∧
    offsetAt text (positionAt text 6) = 6 ∧
    (∃ offset ≤ text.length, offsetAt text ⟨3, 3⟩ = offset ∧ positionAt text offset = ⟨3, 3⟩) ∧
    (positionAt text 5).rank < (positionAt text 6).rank ∧
    Finding.inLine "tel:1".toList "" 1 0 =
      .url "tel:1" (some (positionAt text (lineStart text 1 + 0))) (some "") none := by
  intro text
  have hlength : text.length = 6 := by decide
  have hend : HasPosition text ⟨3, 3⟩ := by decide
  have hempty : (lines text)[1]? = some [] := by decide
  obtain ⟨hoffsets, hpositions, -, horder, -, hlines⟩ := coordinates_agree text
  refine ⟨⟨hlength, hend, by decide, by decide, hempty⟩, by decide, ?_, ?_, ?_, ?_⟩
  · exact (hoffsets 6 (by omega)).2
  · exact hpositions _ hend
  · exact (horder 5 (by omega) 6 (by omega)).mpr (by omega)
  · exact hlines 1 [] hempty 0 (Nat.zero_le _) "tel:1".toList ""

end Text

end UrlHarvest
