import UrlHarvest.Proofs.Pattern.Matches
import UrlHarvest.Proofs.Pattern.Pieces
import UrlHarvest.Proofs.Text.Padding

namespace UrlHarvest

open Text

namespace Text

theorem foldLetter_of_mem_pads (c : Char) (hc : c ∈ pads) : foldLetter c = c :=
  eq_of_beq (List.all_eq_true.mp (by decide : pads.all (fun c => foldLetter c == c) = true) c hc)

-- A word without pads is not begun by one.
theorem dropWord?_cons_of_mem_pads (letters text : Text) (hne : letters ≠ [])
    (hletters : ∀ c ∈ pads, c ∉ letters) (c : Char) (hc : c ∈ pads) :
    dropWord? letters (c :: text) = none := by
  cases letters with
  | nil => exact absurd rfl hne
  | cons w letters =>
      have hw := List.ne_of_not_mem_cons (hletters c hc)
      rw [dropWord?, foldLetter_of_mem_pads c hc, if_neg hw]

theorem dropWord?_append_of_subset_pads (letters text back : Text)
    (hletters : ∀ c ∈ pads, c ∉ letters) (hback : back ⊆ pads) :
    dropWord? letters (text ++ back) = (dropWord? letters text).map (· ++ back) := by
  induction letters generalizing text with
  | nil => rfl
  | cons w letters ih =>
      have hrest : ∀ c ∈ pads, c ∉ letters := fun c hc h =>
        hletters c hc (List.mem_cons_of_mem w h)
      cases text with
      | nil =>
          cases back with
          | nil => rfl
          | cons c back =>
              exact dropWord?_cons_of_mem_pads _ back (List.cons_ne_nil _ _) hletters c
                (hback List.mem_cons_self)
      | cons c text =>
          rw [List.cons_append, dropWord?, dropWord?]
          split
          · exact ih text hrest
          · rfl

end Text

namespace Piece

-- No piece takes a part of a stretch of pads: each of them stops at a pad, or it is a run that
-- goes on at all of them and that something has to follow.
def firm : List Piece → Bool
  | [] => true
  | word letters :: pieces => padless letters && firm pieces
  | one allowed :: pieces => pads.all (!allowed ·) && firm pieces
  | run allowed _ :: pieces | capture _ allowed _ :: pieces =>
    (pads.all (!allowed ·) || pads.all allowed && (take? pieces []).isNone) && firm pieces

-- Nothing that the pieces take begins with a pad.
def beginsFirm : List Piece → Bool
  | [] => false
  | word letters :: _ => letters != [] && padless letters
  | one allowed :: _ => pads.all (!allowed ·)
  | run allowed least :: _ | capture _ allowed least :: _ => least != 0 && pads.all (!allowed ·)

theorem take?_cons_of_mem_pads (pieces : List Piece) (text : Text)
    (hbegins : beginsFirm pieces = true) (c : Char) (hc : c ∈ pads) :
    take? pieces (c :: text) = none := by
  cases pieces with
  | nil => cases hbegins
  | cons piece pieces =>
      cases piece with
      | word letters =>
          simp only [beginsFirm, Bool.and_eq_true, bne_iff_ne] at hbegins
          have hletters := notMem_of_padless letters hbegins.2
          simp [take?, dropWord?_cons_of_mem_pads letters text hbegins.1 hletters c hc]
      | one allowed =>
          simp only [beginsFirm, List.all_eq_true, Bool.not_eq_true'] at hbegins
          simp [take?, hbegins c hc]
      | run allowed least | capture group allowed least =>
          simp only [beginsFirm, Bool.and_eq_true, bne_iff_ne, List.all_eq_true,
            Bool.not_eq_true'] at hbegins
          simp [take?, hbegins.2 c hc, Nat.pos_of_ne_zero hbegins.1]

-- A run ends where it does without the pads behind the text, or it takes everything and leaves
-- nothing to the pieces that have to follow it.
theorem run_append_of_subset_pads (allowed : Char → Bool) (pieces : List Piece) (text back : Text)
    (hback : back ⊆ pads)
    (hfirm : (∀ c ∈ pads, allowed c = false) ∨
      (∀ c ∈ pads, allowed c = true) ∧ take? pieces [] = none) :
    ((text ++ back).takeWhile allowed = text.takeWhile allowed ∧
      (text ++ back).dropWhile allowed = text.dropWhile allowed ++ back) ∨
    (take? pieces (text.dropWhile allowed) = none ∧
      take? pieces ((text ++ back).dropWhile allowed) = none) := by
  induction text with
  | nil =>
      rcases hfirm with hstops | ⟨hgoes, hnone⟩
      · left
        cases back with
        | nil => exact ⟨rfl, rfl⟩
        | cons c back => simp [hstops c (hback List.mem_cons_self)]
      · right
        have hall : (back ++ []).dropWhile allowed = [] :=
          List.dropWhile_append_of_pos fun c hc => hgoes c (hback hc)
        rw [List.append_nil] at hall
        rw [List.nil_append, hall]
        exact ⟨hnone, hnone⟩
  | cons c text ih =>
      by_cases hc : allowed c = true
      · simpa [hc] using ih
      · exact .inl (by simp [hc])

-- What the pieces take of a line is not changed by what is behind it.
theorem take?_append_of_subset_pads (pieces : List Piece) (text back : Text)
    (hfirm : firm pieces = true) (hback : back ⊆ pads) :
    take? pieces (text ++ back) = take? pieces text := by
  induction pieces generalizing text with
  | nil => rfl
  | cons piece pieces ih =>
      cases piece with
      | word letters =>
          rw [firm, Bool.and_eq_true] at hfirm
          have hletters := notMem_of_padless letters hfirm.1
          rw [take?, take?, dropWord?_append_of_subset_pads letters text back hletters hback]
          cases dropWord? letters text with
          | none => rfl
          | some rest => simp [ih rest hfirm.2]
      | one allowed =>
          simp only [firm, Bool.and_eq_true, List.all_eq_true, Bool.not_eq_true'] at hfirm
          cases text with
          | nil =>
              cases back with
              | nil => rfl
              | cons c back => simp [take?, hfirm.1 c (hback List.mem_cons_self)]
          | cons c text => simp [take?, ih text hfirm.2]
      | run allowed least | capture group allowed least =>
          simp only [firm, Bool.and_eq_true, Bool.or_eq_true, List.all_eq_true,
            Bool.not_eq_true', Option.isNone_iff_eq_none] at hfirm
          rcases run_append_of_subset_pads allowed pieces text back hback hfirm.1 with
            ⟨htaken, hleft⟩ | ⟨hnone, hnone'⟩
          · simp [take?, htaken, hleft, ih _ hfirm.2]
          · simp [take?, hnone, hnone']

end Piece

-- The same match in a line that stands `count` places further on.
def Match.movedBy (count : Nat) (found : Match) : Match :=
  { found with start := found.start + count }

namespace Pattern

variable (pattern : Pattern)

theorem matchAt?_add (start count : Nat) (text : Text) :
    pattern.matchAt? (start + count) text =
      (pattern.matchAt? start text).map (Match.movedBy count) := by
  rw [matchAt?, matchAt?, Option.map_map]
  rfl

theorem matchesFrom_add (start count skip : Nat) (text : Text) :
    pattern.matchesFrom (start + count) skip [] text =
      (pattern.matchesFrom start skip [] text).map (Match.movedBy count) := by
  induction text generalizing start skip with
  | nil => rfl
  | cons c rest ih =>
      have hnext := fun skip => Nat.add_right_comm start count 1 ▸ ih (start + 1) skip
      cases skip with
      | succ skip => exact hnext skip
      | zero =>
          have hmoved := pattern.matchAt?_add start count (c :: rest)
          cases hat : pattern.matchAt? start (c :: rest) with
          | none =>
              rw [hat, Option.map_none] at hmoved
              rw [matchesFrom_of_none _ _ _ _ hmoved, matchesFrom_of_none _ _ _ _ hat, hnext]
          | some found =>
              rw [hat, Option.map_some] at hmoved
              rw [matchesFrom_of_some _ _ _ _ _ hmoved, matchesFrom_of_some _ _ _ _ _ hat, hnext]
              rfl

theorem firstMatch?_congr (alternatives : List (List Piece)) (text other : Text)
    (h : ∀ pieces ∈ alternatives, Piece.take? pieces text = Piece.take? pieces other) :
    firstMatch? alternatives text = firstMatch? alternatives other := by
  induction alternatives with
  | nil => rfl
  | cons pieces rest ih =>
      obtain ⟨hhead, hrest⟩ := List.forall_mem_cons.mp h
      have hrest := ih hrest
      simp only [firstMatch?] at hrest ⊢
      rw [List.findSome?_cons, List.findSome?_cons, hhead, hrest]

-- No alternative takes pads into account around what it matches.
def firm : Bool :=
  pattern.alternatives.all fun pieces => Piece.firm pieces && Piece.beginsFirm pieces

variable (hfirm : pattern.firm = true)

include hfirm

theorem matchAt?_cons_of_mem_pads (start : Nat) (c : Char) (text : Text) (hc : c ∈ pads) :
    pattern.matchAt? start (c :: text) = none := by
  have hnone : firstMatch? pattern.alternatives (c :: text) = none := by
    apply List.findSome?_eq_none_iff.mpr
    intro pieces hpieces
    have hbegins := (Bool.and_eq_true_iff.mp (List.all_eq_true.mp hfirm pieces hpieces)).2
    exact Piece.take?_cons_of_mem_pads pieces text hbegins c hc
  rw [matchAt?, hnone, Option.map_none]

theorem matchAt?_append_of_subset_pads (start : Nat) (text back : Text) (hback : back ⊆ pads) :
    pattern.matchAt? start (text ++ back) = pattern.matchAt? start text := by
  have hfirst : firstMatch? pattern.alternatives (text ++ back) =
      firstMatch? pattern.alternatives text := by
    apply firstMatch?_congr
    intro pieces hpieces
    have hpieces := (Bool.and_eq_true_iff.mp (List.all_eq_true.mp hfirm pieces hpieces)).1
    exact Piece.take?_append_of_subset_pads pieces text back hpieces hback
  rw [matchAt?, matchAt?, hfirst]
  cases hwhole : firstMatch? pattern.alternatives text with
  | none => rfl
  | some taken =>
      obtain ⟨length, groups⟩ := taken
      obtain ⟨pieces, -, ht⟩ := List.exists_of_findSome?_eq_some hwhole
      have hlength := Piece.le_length_of_take? pieces text length groups ht
      simp only [Option.map_some, List.take_append_of_le_length hlength]

theorem matchesFrom_of_subset_pads (start : Nat) (front text : Text) (hfront : front ⊆ pads) :
    pattern.matchesFrom start 0 [] (front ++ text) =
      pattern.matchesFrom (start + front.length) 0 [] text := by
  induction front generalizing start with
  | nil => rfl
  | cons c front ih =>
      have hnone := pattern.matchAt?_cons_of_mem_pads hfirm start c (front ++ text)
        (hfront List.mem_cons_self)
      rw [List.cons_append, matchesFrom_of_none _ _ _ _ hnone,
        ih (start + 1) fun d hd => hfront (List.mem_cons_of_mem c hd), List.length_cons]
      congr 1
      omega

theorem matchesFrom_append_of_subset_pads (start skip : Nat) (text back : Text)
    (hback : back ⊆ pads) (hskip : skip ≤ text.length) :
    pattern.matchesFrom start skip [] (text ++ back) = pattern.matchesFrom start skip [] text := by
  induction text generalizing start skip with
  | nil =>
      obtain rfl : skip = 0 := by simpa using hskip
      have hnone := pattern.matchesFrom_of_subset_pads hfirm start back [] hback
      rwa [List.append_nil] at hnone
  | cons c rest ih =>
      have hsame := pattern.matchAt?_append_of_subset_pads hfirm start (c :: rest) back hback
      cases skip with
      | succ skip => exact ih (start + 1) skip (by simpa using hskip)
      | zero =>
          cases hat : pattern.matchAt? start (c :: rest) with
          | none =>
              rw [hat] at hsame
              rw [List.cons_append] at hsame ⊢
              rw [matchesFrom_of_none _ _ _ _ hsame, matchesFrom_of_none _ _ _ _ hat,
                ih (start + 1) 0 (Nat.zero_le _)]
          | some found =>
              have hlength := (pattern.prefix_of_matchAt? start _ found hat).length_le
              rw [List.length_cons] at hlength
              rw [hat] at hsame
              rw [List.cons_append] at hsame ⊢
              rw [matchesFrom_of_some _ _ _ _ _ hsame, matchesFrom_of_some _ _ _ _ _ hat,
                ih (start + 1) _ (by omega)]

-- The matches in a line are the same with something put around it. They begin further on by what
-- is put in front.
theorem matchesIn_around (padding : Padding) (line : Text) :
    pattern.matchesIn (padding.around line) =
      (pattern.matchesIn line).map (Match.movedBy padding.front.length) := by
  rw [matchesIn, Padding.around,
    pattern.matchesFrom_of_subset_pads hfirm 0 _ _ padding.front_subset,
    pattern.matchesFrom_append_of_subset_pads hfirm _ 0 line _ padding.back_subset
      (Nat.zero_le _), matchesFrom_add]
  rfl

end Pattern

end UrlHarvest
