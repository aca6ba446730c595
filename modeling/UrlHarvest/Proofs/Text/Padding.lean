import UrlHarvest.Proofs.Text.Lines
import UrlHarvest.Text.Space

namespace UrlHarvest.Text

-- What a line may be indented with, and what may be left over at the end of it.
def pads : Text :=
  [' ', '\t', '\r']

-- Something to put in front of a line and something to put behind it.
structure Padding where
  front : Text := []
  back : Text := []
  front_subset : front ⊆ pads := by decide
  back_subset : back ⊆ pads := by decide

def Padding.around (padding : Padding) (line : Text) : Text :=
  padding.front ++ (line ++ padding.back)

-- A text with something put around each of its lines.
def padded (padding : Nat → Padding) (text : Text) : Text :=
  unlines ((lines text).mapIdx fun index line => (padding index).around line)

theorem newline_notMem_pads : '\n' ∉ pads := by decide

theorem isBlank_of_subset_pads (text : Text) (htext : text ⊆ pads) :
    ∀ c ∈ text, isBlank c = true :=
  fun c hc => List.all_eq_true.mp (by decide : pads.all isBlank = true) c (htext hc)

-- The letters can be told apart from any pad.
def padless (letters : Text) : Bool :=
  pads.all (!letters.contains ·)

theorem notMem_of_padless (letters : Text) (h : padless letters = true) (c : Char) (hc : c ∈ pads) :
    c ∉ letters := by
  simpa using List.all_eq_true.mp h c hc

theorem newline_notMem_around (padding : Padding) (line : Text) (hline : '\n' ∉ line) :
    '\n' ∉ padding.around line := by
  intro h
  rcases List.mem_append.mp h with h | h
  · exact newline_notMem_pads (padding.front_subset h)
  · rcases List.mem_append.mp h with h | h
    · exact hline h
    · exact newline_notMem_pads (padding.back_subset h)

theorem lines_padded (padding : Nat → Padding) (text : Text) :
    lines (padded padding text) =
      (lines text).mapIdx fun index line => (padding index).around line := by
  apply lines_unlines
  · simpa using lines_ne_nil text
  · intro row hrow
    obtain ⟨index, hindex, rfl⟩ := List.mem_mapIdx.mp hrow
    exact newline_notMem_around _ _ (newline_notMem_of_mem_lines text _ (List.getElem_mem hindex))

theorem trimLeft_append_of_blank (front text : Text) (hfront : ∀ c ∈ front, isBlank c = true) :
    trimLeft (front ++ text) = trimLeft text :=
  List.dropWhile_append_of_pos hfront

theorem trimRight_append_of_blank (text back : Text) (hback : ∀ c ∈ back, isBlank c = true) :
    trimRight (text ++ back) = trimRight text := by
  rw [trimRight, List.reverse_append, List.dropWhile_append_of_pos, trimRight]
  simpa using hback

-- What is behind a line stays there when blanks are taken off its front, unless nothing is left
-- of the line.
theorem trimLeft_append (text back : Text) (hback : ∀ c ∈ back, isBlank c = true) :
    trimLeft text = [] ∧ trimLeft (text ++ back) = [] ∨
      trimLeft (text ++ back) = trimLeft text ++ back := by
  have hblank := trimLeft_append_of_blank back [] hback
  rw [List.append_nil] at hblank
  rw [trimLeft, trimLeft, List.dropWhile_append]
  cases text.dropWhile isBlank with
  | nil => exact .inl ⟨rfl, hblank⟩
  | cons c rest => exact .inr rfl

theorem trimLeft_around (padding : Padding) (line : Text) :
    trimLeft line = [] ∧ trimLeft (padding.around line) = [] ∨
      trimLeft (padding.around line) = trimLeft line ++ padding.back := by
  rw [Padding.around,
    trimLeft_append_of_blank _ _ (isBlank_of_subset_pads _ padding.front_subset)]
  exact trimLeft_append line _ (isBlank_of_subset_pads _ padding.back_subset)

theorem trim_around (padding : Padding) (line : Text) :
    trim (padding.around line) = trim line := by
  rw [trim, trim]
  rcases trimLeft_around padding line with ⟨hline, hrow⟩ | hrow
  · rw [hline, hrow]
  · rw [hrow, trimRight_append_of_blank _ _ (isBlank_of_subset_pads _ padding.back_subset)]

-- A mark without pads is not made up from what is behind a text.
theorem isPrefixOf_append_of_subset_pads (mark text back : Text) (hmark : padless mark = true)
    (hback : back ⊆ pads) : mark.isPrefixOf (text ++ back) = mark.isPrefixOf text := by
  cases back with
  | nil => rw [List.append_nil]
  | cons c rest =>
      have hc := notMem_of_padless mark hmark c (hback List.mem_cons_self)
      exact isPrefixOf_append_cons mark text rest hc

theorem isPrefixOf_trimLeft_around (mark : Text) (hmark : padless mark = true)
    (padding : Padding) (line : Text) :
    mark.isPrefixOf (trimLeft (padding.around line)) = mark.isPrefixOf (trimLeft line) := by
  rcases trimLeft_around padding line with ⟨hline, hrow⟩ | hrow
  · rw [hline, hrow]
  · rw [hrow, isPrefixOf_append_of_subset_pads mark _ _ hmark padding.back_subset]

theorem padded_append_newline (padding : Nat → Padding) (line rest : Text)
    (hline : '\n' ∉ line) :
    padded padding (line ++ '\n' :: rest) =
      (padding 0).around line ++ '\n' :: padded (fun index => padding (index + 1)) rest := by
  obtain ⟨next, more, hrest⟩ := List.exists_cons_of_ne_nil (lines_ne_nil rest)
  rw [padded, padded, lines_append_of_newline_notMem line rest hline, hrest, List.mapIdx_cons,
    List.mapIdx_cons, unlines_cons_cons]

-- A carriage return in front of each newline.
def withCarriageReturns (text : Text) : Text :=
  text.flatMap fun c => if c = '\n' then ['\r', '\n'] else [c]

theorem withCarriageReturns_of_newline_notMem (line : Text) (hline : '\n' ∉ line) :
    withCarriageReturns line = line := by
  induction line with
  | nil => rfl
  | cons c rest ih =>
      obtain ⟨hc, hrest⟩ := List.ne_and_not_mem_of_not_mem_cons hline
      rw [withCarriageReturns, List.flatMap_cons, if_neg (Ne.symm hc), List.singleton_append]
      exact congrArg (c :: ·) (ih hrest)

-- It is behind every line but the last one.
def carriageReturns (count index : Nat) : Padding :=
  if index + 1 < count then { back := ['\r'] } else {}

@[simp] theorem front_carriageReturns (count index : Nat) :
    (carriageReturns count index).front = [] := by
  unfold carriageReturns
  split <;> rfl

theorem withCarriageReturns_eq_padded (text : Text) :
    withCarriageReturns text = padded (carriageReturns (lines text).length) text := by
  induction text using induction_on_lines with
  | last line hline =>
      rw [withCarriageReturns_of_newline_notMem line hline, padded,
        lines_of_newline_notMem line hline]
      simp [carriageReturns, Padding.around, unlines]
  | more line rest hline ih =>
      have hcount := List.length_pos_iff.mpr (lines_ne_nil rest)
      have hfirst : (carriageReturns ((lines rest).length + 1) 0).around line = line ++ ['\r'] := by
        simp [carriageReturns, Padding.around, hcount]
      have hmore : (fun index => carriageReturns ((lines rest).length + 1) (index + 1)) =
          carriageReturns (lines rest).length := by
        funext index
        simp [carriageReturns]
      rw [lines_append_of_newline_notMem line rest hline, List.length_cons,
        padded_append_newline _ line rest hline, hfirst, hmore, ← ih, withCarriageReturns,
        List.flatMap_append, List.flatMap_cons, if_pos rfl, List.append_assoc]
      exact congrArg (· ++ _) (withCarriageReturns_of_newline_notMem line hline)

end UrlHarvest.Text
