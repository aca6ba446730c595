import UrlHarvest.Text.Position

namespace UrlHarvest.Text

theorem lines_newline (rest : Text) : lines ('\n' :: rest) = [] :: lines rest := by
  simp [lines]

theorem lines_ne_nil (text : Text) : lines text ≠ [] := by
  cases text with
  | nil => simp [lines]
  | cons c rest =>
      simp only [lines, List.foldr_cons]
      split
      · simp
      · split <;> simp

theorem lines_cons (c : Char) (rest : Text) (hc : c ≠ '\n') (line : Text) (more : List Text)
    (hr : lines rest = line :: more) : lines (c :: rest) = (c :: line) :: more := by
  simp only [lines] at hr
  simp [lines, hc, hr]

-- A line is a text of its own when nothing in it ends it.
theorem lines_of_newline_notMem (line : Text) (hline : '\n' ∉ line) : lines line = [line] := by
  induction line with
  | nil => rfl
  | cons c rest ih =>
      obtain ⟨hc, hrest⟩ := List.ne_and_not_mem_of_not_mem_cons hline
      exact lines_cons c rest (Ne.symm hc) rest [] (ih hrest)

theorem lines_append_newline (front back : Text) :
    lines (front ++ '\n' :: back) = lines front ++ lines back := by
  induction front with
  | nil => exact lines_newline back
  | cons c rest ih =>
      by_cases hc : c = '\n'
      · subst c
        rw [List.cons_append, lines_newline, lines_newline, ih, List.cons_append]
      · obtain ⟨line, more, hr⟩ := List.exists_cons_of_ne_nil (lines_ne_nil rest)
        rw [hr, List.cons_append] at ih
        rw [List.cons_append, lines_cons c _ hc line (more ++ lines back) ih,
          lines_cons c rest hc line more hr, List.cons_append]

-- A text is its first line, or its first line and the text behind the newline that ends it.
-- Whatever goes through a document line by line is followed with this induction.
theorem induction_on_lines {motive : Text → Prop}
    (last : ∀ line, '\n' ∉ line → motive line)
    (more : ∀ line rest, '\n' ∉ line → motive rest → motive (line ++ '\n' :: rest))
    (text : Text) : motive text := by
  by_cases hn : '\n' ∈ text
  · obtain ⟨line, rest, ht, hline⟩ := List.eq_append_cons_of_mem hn
    have hlt : rest.length < text.length := by
      rw [ht, List.length_append, List.length_cons]
      omega
    rw [ht]
    exact more line rest hline (induction_on_lines last more rest)
  · exact last text hn
termination_by text.length

theorem newline_notMem_of_mem_lines (text line : Text) (hline : line ∈ lines text) :
    '\n' ∉ line := by
  induction text using induction_on_lines with
  | last only ho =>
      rw [lines_of_newline_notMem only ho, List.mem_singleton] at hline
      exact hline ▸ ho
  | more first rest hf ih =>
      rw [lines_append_newline, lines_of_newline_notMem first hf, List.singleton_append,
        List.mem_cons] at hline
      rcases hline with rfl | hline
      · exact hf
      · exact ih hline

theorem lines_append_of_newline_notMem (line rest : Text) (hline : '\n' ∉ line) :
    lines (line ++ '\n' :: rest) = line :: lines rest := by
  rw [lines_append_newline, lines_of_newline_notMem line hline, List.singleton_append]

-- The text that has the given lines.
def unlines (rows : List Text) : Text :=
  ['\n'].intercalate rows

theorem unlines_cons_cons (row next : Text) (more : List Text) :
    unlines (row :: next :: more) = row ++ '\n' :: unlines (next :: more) := by
  rw [unlines, List.intercalate_cons_cons, List.append_assoc]
  rfl

theorem lines_unlines (rows : List Text) (hne : rows ≠ []) (hrows : ∀ row ∈ rows, '\n' ∉ row) :
    lines (unlines rows) = rows := by
  induction rows with
  | nil => exact absurd rfl hne
  | cons row more ih =>
      obtain ⟨hrow, hmore⟩ := List.forall_mem_cons.mp hrows
      cases more with
      | nil => rw [unlines, List.intercalate_singleton, lines_of_newline_notMem row hrow]
      | cons next more =>
          rw [unlines_cons_cons, lines_append_of_newline_notMem row _ hrow,
            ih (List.cons_ne_nil _ _) hmore]

-- A mark does not reach across a code point that is not in it.
theorem isPrefixOf_append_cons {stop : Char} (mark line rest : Text) (hmark : stop ∉ mark) :
    mark.isPrefixOf (line ++ stop :: rest) = mark.isPrefixOf line := by
  induction mark generalizing line with
  | nil => rfl
  | cons m mark ih =>
      obtain ⟨hm, hmark⟩ := List.ne_and_not_mem_of_not_mem_cons hmark
      cases line with
      | nil => simp [List.isPrefixOf, Ne.symm hm]
      | cons c line => simp [List.isPrefixOf, ih line hmark]

-- Where a line begins: each line before it takes its length and the newline after it.
def lineStart (text : Text) (index : Nat) : Nat :=
  ((lines text).take index).foldr (fun line after => line.length + 1 + after) 0

@[simp] theorem lineStart_zero (text : Text) : lineStart text 0 = 0 := by
  simp [lineStart]

theorem lineStart_succ (line rest : Text) (hline : '\n' ∉ line) (index : Nat) :
    lineStart (line ++ '\n' :: rest) (index + 1) = line.length + 1 + lineStart rest index := by
  simp [lineStart, lines_append_of_newline_notMem line rest hline]

theorem getElem?_lineStart_add (text : Text) (index : Nat) (row : Text)
    (hrow : (lines text)[index]? = some row) (column : Nat) (hc : column < row.length) :
    text[lineStart text index + column]? = row[column]? := by
  induction text using induction_on_lines generalizing index with
  | last only honly =>
      rw [lines_of_newline_notMem only honly] at hrow
      cases index with
      | succ index => simp at hrow
      | zero =>
          obtain rfl : only = row := by simpa using hrow
          rw [lineStart_zero, Nat.zero_add]
  | more first rest hfirst ih =>
      rw [lines_append_of_newline_notMem first rest hfirst] at hrow
      cases index with
      | zero =>
          obtain rfl : first = row := by simpa using hrow
          rw [lineStart_zero, Nat.zero_add, List.getElem?_append_left hc]
      | succ index =>
          rw [List.getElem?_cons_succ] at hrow
          rw [lineStart_succ first rest hfirst, ← ih index hrow,
            List.getElem?_append_right (by omega),
            show first.length + 1 + lineStart rest index + column - first.length =
              lineStart rest index + column + 1 by omega, List.getElem?_cons_succ]

theorem lineStart_add_lt (text : Text) (index : Nat) (line : Text)
    (hline : (lines text)[index]? = some line) (column : Nat) (hc : column < line.length) :
    lineStart text index + column < text.length := by
  have hget := getElem?_lineStart_add text index line hline column hc
  rw [List.getElem?_eq_getElem hc] at hget
  exact (List.getElem?_eq_some_iff.mp hget).1

theorem offsetAt_eq_lineStart_add (text : Text) (index column : Nat) :
    offsetAt text ⟨index + 1, column + 1⟩ = ((lineStart text index + column : Nat) : Int) := by
  have hsum : ∀ front : List Text,
      front.foldr (fun line after => (line.length : Int) + 1 + after) 0 =
        (front.foldr (fun line after => line.length + 1 + after) 0 : Nat) := by
    intro front
    induction front with
    | nil => rfl
    | cons line front ih => simp [ih]
  have hindex : (((index : Int) + 1) - 1).toNat = index := by omega
  simp only [offsetAt, hindex, hsum, lineStart]
  omega

end UrlHarvest.Text
