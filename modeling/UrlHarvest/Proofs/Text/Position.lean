import UrlHarvest.Proofs.Text.Cut
import UrlHarvest.Proofs.Text.Lines
import UrlHarvest.Text.Space

namespace UrlHarvest.Text

-- What stands in front of an offset in its own line.
def lineBefore (text : Text) (offset : Nat) : Text :=
  afterLast '\n' (text.take offset)

theorem takeWhile_append_newline (front back : Text) :
    (front ++ '\n' :: back).takeWhile (· != '\n') = front.takeWhile (· != '\n') := by
  rw [List.takeWhile_append]
  split
  · rename_i h
    rw [List.takeWhile_cons_of_neg (by simp), List.append_nil]
    exact ((List.takeWhile_prefix _).eq_of_length h).symm
  · rfl

theorem afterLast_append_newline (front back : Text) :
    afterLast '\n' (front ++ '\n' :: back) = afterLast '\n' back := by
  rw [afterLast, afterLast, List.reverse_append, List.reverse_cons, List.append_assoc,
    List.singleton_append, takeWhile_append_newline]

theorem afterLast_append (front run : Text) (hrun : '\n' ∉ run) :
    afterLast '\n' (front ++ run) = afterLast '\n' front ++ run := by
  have hreverse : ∀ c ∈ run.reverse, (c != '\n') = true :=
    bne_of_notMem (mt List.mem_reverse.mp hrun)
  rw [afterLast, afterLast, List.reverse_append, List.takeWhile_append_of_pos hreverse,
    List.reverse_append, List.reverse_reverse]

-- Going on within a line.
theorem lineBefore_add (text run : Text) (offset : Nat) (hstands : run <+: text.drop offset)
    (hrun : '\n' ∉ run) :
    lineBefore text (offset + run.length) = lineBefore text offset ++ run := by
  rw [lineBefore, List.take_add, ← List.prefix_iff_eq_take.mp hstands, afterLast_append _ _ hrun,
    lineBefore]

-- Within the first line nothing ends it in front of the offset.
theorem count_take_append (line rest : Text) (hline : '\n' ∉ line) (offset : Nat)
    (ho : offset ≤ line.length) : ((line ++ rest).take offset).count '\n' = 0 := by
  rw [List.take_append_of_le_length ho]
  exact List.count_eq_zero.mpr fun h => hline (List.mem_of_mem_take h)

theorem lineBefore_append (line rest : Text) (hline : '\n' ∉ line) (offset : Nat)
    (ho : offset ≤ line.length) : lineBefore (line ++ rest) offset = line.take offset := by
  rw [lineBefore, List.take_append_of_le_length ho]
  exact afterLast_append [] _ fun h => hline (List.mem_of_mem_take h)

-- Behind it the text goes on with one line more.
theorem count_take_behind (line rest : Text) (hline : '\n' ∉ line) (offset : Nat) :
    ((line ++ '\n' :: rest).take (line.length + (offset + 1))).count '\n' =
      (rest.take offset).count '\n' + 1 := by
  rw [List.take_length_add_append, List.take_succ_cons, List.count_append,
    List.count_eq_zero.mpr hline, List.count_cons_self, Nat.zero_add]

theorem lineBefore_behind (line rest : Text) (offset : Nat) :
    lineBefore (line ++ '\n' :: rest) (line.length + (offset + 1)) = lineBefore rest offset := by
  rw [lineBefore, List.take_length_add_append, List.take_succ_cons, afterLast_append_newline,
    lineBefore]

-- The line of an offset: what stands in front of the offset, and what stands behind it as far as
-- the next newline.
private theorem line_of_offset (text : Text) (offset : Nat) (ho : offset ≤ text.length) :
    (lines text)[(text.take offset).count '\n']? =
        some (lineBefore text offset ++ (text.drop offset).takeWhile (· != '\n')) ∧
      lineStart text ((text.take offset).count '\n') + (lineBefore text offset).length =
        offset := by
  induction text using induction_on_lines generalizing offset with
  | last line hlast =>
      have hcount := count_take_append line [] hlast offset ho
      have hbefore := lineBefore_append line [] hlast offset ho
      rw [List.append_nil] at hcount hbefore
      rw [hcount, hbefore, lineStart_zero, List.length_take, Nat.min_eq_left ho, Nat.zero_add,
        lines_of_newline_notMem line hlast, List.getElem?_cons_zero,
        List.takeWhile_eq_self_iff.mpr, List.take_append_drop]
      · exact ⟨rfl, rfl⟩
      · exact bne_of_notMem fun h => hlast (List.mem_of_mem_drop h)
  | more line rest hfirst ih =>
      rw [lines_append_of_newline_notMem line rest hfirst]
      by_cases hk : offset ≤ line.length
      · rw [count_take_append line _ hfirst offset hk, lineBefore_append line _ hfirst offset hk,
          lineStart_zero, List.length_take, Nat.min_eq_left hk, Nat.zero_add,
          List.getElem?_cons_zero, List.drop_append_of_le_length hk, takeWhile_append_newline,
          List.takeWhile_eq_self_iff.mpr, List.take_append_drop]
        · exact ⟨rfl, rfl⟩
        · exact bne_of_notMem fun h => hfirst (List.mem_of_mem_drop h)
      · obtain ⟨k, rfl⟩ : ∃ k, offset = line.length + (k + 1) :=
          ⟨offset - line.length - 1, by omega⟩
        have hkr : k ≤ rest.length := by
          rw [List.length_append, List.length_cons] at ho
          omega
        obtain ⟨hget, hstart⟩ := ih k hkr
        rw [count_take_behind line rest hfirst, lineBefore_behind, List.getElem?_cons_succ,
          List.drop_length_add_append, List.drop_succ_cons, lineStart_succ line rest hfirst]
        exact ⟨hget, by omega⟩

-- The offset of a place in a line, the end of the line among them: the lines in front of it are
-- counted, and what stands in front of it in its own line is what that line begins with.
private theorem offset_of_place (text : Text) (index : Nat) (row : Text)
    (hrow : (lines text)[index]? = some row) (column : Nat) (hc : column ≤ row.length) :
    lineStart text index + column ≤ text.length ∧
      (text.take (lineStart text index + column)).count '\n' = index ∧
      lineBefore text (lineStart text index + column) = row.take column := by
  induction text using induction_on_lines generalizing index with
  | last only honly =>
      rw [lines_of_newline_notMem only honly] at hrow
      cases index with
      | succ index => simp at hrow
      | zero =>
          obtain rfl : only = row := by simpa using hrow
          have hcount := count_take_append only [] honly column hc
          have hbefore := lineBefore_append only [] honly column hc
          rw [List.append_nil] at hcount hbefore
          rw [lineStart_zero, Nat.zero_add]
          exact ⟨hc, hcount, hbefore⟩
  | more first rest hfirst ih =>
      rw [lines_append_of_newline_notMem first rest hfirst] at hrow
      cases index with
      | zero =>
          obtain rfl : first = row := by simpa using hrow
          rw [lineStart_zero, Nat.zero_add, List.length_append]
          exact ⟨by omega, count_take_append first _ hfirst column hc,
            lineBefore_append first _ hfirst column hc⟩
      | succ index =>
          rw [List.getElem?_cons_succ] at hrow
          obtain ⟨hle, hcount, hbefore⟩ := ih index hrow
          rw [lineStart_succ first rest hfirst,
            show first.length + 1 + lineStart rest index + column =
              first.length + (lineStart rest index + column + 1) by omega,
            count_take_behind first rest hfirst, lineBefore_behind, List.length_append,
            List.length_cons]
          exact ⟨by omega, congrArg (· + 1) hcount, hbefore⟩

theorem getElem?_lines_count (text : Text) (offset : Nat) (ho : offset ≤ text.length) :
    (lines text)[(text.take offset).count '\n']? =
      some (lineBefore text offset ++ (text.drop offset).takeWhile (· != '\n')) :=
  (line_of_offset text offset ho).1

theorem lineStart_add_le (text : Text) (index : Nat) (row : Text)
    (hrow : (lines text)[index]? = some row) (column : Nat) (hc : column ≤ row.length) :
    lineStart text index + column ≤ text.length :=
  (offset_of_place text index row hrow column hc).1

theorem lineStart_add_length_lineBefore (text : Text) (offset : Nat) (ho : offset ≤ text.length) :
    lineStart text ((text.take offset).count '\n') + (lineBefore text offset).length = offset :=
  (line_of_offset text offset ho).2

theorem positionAt_eq (text : Text) (offset : Nat) (ho : offset ≤ text.length) :
    positionAt text offset =
      ⟨(text.take offset).count '\n' + 1, (lineBefore text offset).length + 1⟩ := by
  have hsum := lineStart_add_length_lineBefore text offset ho
  have hlen : (text.take offset).length = offset := by
    rw [List.length_take, Nat.min_eq_left ho]
  rw [lineBefore, afterLast, List.length_reverse] at hsum ⊢
  simp only [positionAt, hlen, Position.mk.injEq, true_and]
  omega

-- The place of a line's code point, or of its end, found again from the offset.
theorem positionAt_lineStart_add (text : Text) (index : Nat) (row : Text)
    (hrow : (lines text)[index]? = some row) (column : Nat) (hc : column ≤ row.length) :
    positionAt text (lineStart text index + column) = ⟨index + 1, column + 1⟩ := by
  obtain ⟨hle, hcount, hbefore⟩ := offset_of_place text index row hrow column hc
  rw [positionAt_eq text _ hle, hcount, hbefore, List.length_take, Nat.min_eq_left hc]

theorem offsetAt_positionAt (text : Text) (offset : Nat) (ho : offset ≤ text.length) :
    offsetAt text (positionAt text offset) = offset := by
  rw [positionAt_eq text offset ho, offsetAt_eq_lineStart_add,
    lineStart_add_length_lineBefore text offset ho]

theorem positionAt_injective (text : Text) {first second : Nat} (hfirst : first ≤ text.length)
    (hsecond : second ≤ text.length) (h : positionAt text first = positionAt text second) :
    first = second := by
  have hoffset := congrArg (offsetAt text) h
  rw [offsetAt_positionAt text first hfirst, offsetAt_positionAt text second hsecond] at hoffset
  exact Int.ofNat_inj.mp hoffset

end UrlHarvest.Text
