import Mathlib.Data.List.Sort
import UrlHarvest.Proofs.Pattern.Matches
import UrlHarvest.Proofs.Pattern.Pieces

namespace UrlHarvest

-- Two texts of one length that agree wherever something is shown. `behind` is about the edges:
-- what ends a shown stretch is the same in both as well.
structure AgreeWhereShown (hidden : Nat → Bool) (text other : Text) : Prop where
  length_eq : other.length = text.length
  shown : ∀ j, hidden j = false → other[j]? = text[j]?
  behind : ∀ j, hidden j = false → other[j + 1]? = text[j + 1]?

theorem AgreeWhereShown.symm {hidden : Nat → Bool} {text other : Text}
    (h : AgreeWhereShown hidden text other) : AgreeWhereShown hidden other text :=
  ⟨h.length_eq.symm, fun j hj => (h.shown j hj).symm, fun j hj => (h.behind j hj).symm⟩

namespace Match

variable {found others : List Match}

theorem stop_le_start_of_pairwise
    (h : found.Pairwise fun earlier later =>
      earlier.start < later.start ∧ earlier.stop ≤ later.start)
    (earlier later : Match) (hearlier : earlier ∈ found) (hlater : later ∈ found)
    (hlt : earlier.start < later.start) : earlier.stop ≤ later.start := by
  obtain ⟨i, hi, rfl⟩ := List.getElem_of_mem hearlier
  obtain ⟨j, hj, rfl⟩ := List.getElem_of_mem hlater
  have hpairs := List.pairwise_iff_getElem.mp h
  rcases Nat.lt_trichotomy i j with hij | rfl | hij
  · exact (hpairs i j hi hj hij).2
  · exact absurd hlt (Nat.lt_irrefl _)
  · exact absurd hlt (Nat.lt_asymm (hpairs j i hj hi hij).1)

-- Matches that follow each other are known when it is known which ones there are.
theorem eq_of_mem_iff_of_pairwise
    (h : found.Pairwise fun earlier later => earlier.start < later.start)
    (h' : others.Pairwise fun earlier later => earlier.start < later.start)
    (hmem : ∀ m, m ∈ found ↔ m ∈ others) : found = others := by
  let before (earlier later : Match) : Prop := earlier.start < later.start
  have : Std.Irrefl before := ⟨fun found => Nat.lt_irrefl found.start⟩
  have : Std.Antisymm before := ⟨fun _ _ hab hba => absurd hba (Nat.lt_asymm hab)⟩
  exact List.Pairwise.eq_of_mem_iff (r := before) h h' hmem

end Match

namespace Pattern

variable (pattern : Pattern)

-- No match has one foot in what is hidden and the other in what is shown.
def KeepsApart (hidden : Nat → Bool) (text : Text) : Prop :=
  ∀ found ∈ pattern.matchesIn text, ∀ j, found.start ≤ j → j < found.stop →
    hidden j = hidden found.start

instance (hidden : Nat → Bool) (text : Text) : Decidable (pattern.KeepsApart hidden text) :=
  inferInstanceAs (Decidable (∀ found ∈ pattern.matchesIn text, ∀ j, found.start ≤ j →
    j < found.stop → hidden j = hidden found.start))

theorem prefix_of_mem_matchesIn (text : Text) (found : Match)
    (hfound : found ∈ pattern.matchesIn text) : found.text <+: text.drop found.start := by
  obtain ⟨-, hat⟩ := pattern.matchAt?_of_mem_matchesIn text found hfound
  exact pattern.prefix_of_matchAt? _ _ found hat

theorem stop_le_length_of_mem (text : Text) (found : Match)
    (hfound : found ∈ pattern.matchesIn text) : found.stop ≤ text.length := by
  obtain ⟨hstart, -⟩ := pattern.matchAt?_of_mem_matchesIn text found hfound
  have hlen := (pattern.prefix_of_mem_matchesIn text found hfound).length_le
  rw [List.length_drop] at hlen
  unfold Match.stop
  omega

theorem stop_le_start_of_lt (text : Text) (earlier later : Match)
    (hearlier : earlier ∈ pattern.matchesIn text) (hlater : later ∈ pattern.matchesIn text)
    (hlt : earlier.start < later.start) : earlier.stop ≤ later.start :=
  Match.stop_le_start_of_pairwise (pattern.pairwise_matchesFrom 0 0 text) earlier later hearlier
    hlater hlt

variable {hidden : Nat → Bool} {text other : Text}

-- A shown match lies in the part that both texts share, and what it looks at behind itself does
-- as well.
theorem agree_of_shown (h : AgreeWhereShown hidden text other)
    (hapart : pattern.KeepsApart hidden text) (found : Match)
    (hfound : found ∈ pattern.matchesIn text) (hshown : hidden found.start = false) (j : Nat)
    (hj : j ≤ found.text.length) :
    (other.drop found.start)[j]? = (text.drop found.start)[j]? := by
  rw [List.getElem?_drop, List.getElem?_drop]
  cases j with
  | zero => exact h.shown found.start hshown
  | succ j =>
      have hside := hapart found hfound (found.start + j) (Nat.le_add_right _ _)
        (Nat.add_lt_add_left hj _)
      exact h.behind (found.start + j) (hside.trans hshown)

-- One step of the comparison. A match of the first text could be missing in the second one only
-- because an earlier match has taken its place there; that one would be shown too.
theorem mem_matchesIn_of_agree (h : AgreeWhereShown hidden text other)
    (hapart : pattern.KeepsApart hidden text) (hapart' : pattern.KeepsApart hidden other)
    (found : Match) (hfound : found ∈ pattern.matchesIn text)
    (hshown : hidden found.start = false)
    (hearlier : ∀ earlier ∈ pattern.matchesIn other, earlier.start < found.start →
      hidden earlier.start = false → earlier ∈ pattern.matchesIn text) :
    found ∈ pattern.matchesIn other := by
  obtain ⟨hi, hat⟩ := pattern.matchAt?_of_mem_matchesIn text found hfound
  have hlen := h.length_eq
  have hmem : ∀ there, pattern.matchAt? found.start (other.drop found.start) = some there →
      there ∈ pattern.matchesIn other := by
    intro there hthere
    rcases pattern.mem_matchesIn_or_taken other found.start (by omega) there hthere with
      hin | ⟨earlier, hin, hlt, hstop⟩
    · exact hin
    · have hside := hapart' earlier hin found.start (Nat.le_of_lt hlt) hstop
      have hback := hearlier earlier hin hlt (hside.symm.trans hshown)
      have hle := pattern.stop_le_start_of_lt text earlier found hback hfound hlt
      omega
  apply hmem
  refine pattern.matchAt?_eq_of_agree found.start _ _ found hat
    (pattern.agree_of_shown h hapart found hfound hshown) ?_
  intro there hthere j hj
  have hplace := pattern.start_of_matchAt? _ _ _ hthere
  have hin := hmem there hthere
  have hagree := pattern.agree_of_shown h.symm hapart' there hin (hplace ▸ hshown) j hj
  rw [hplace] at hagree
  exact hagree.symm

theorem mem_matchesIn_iff_of_agree (h : AgreeWhereShown hidden text other)
    (hapart : pattern.KeepsApart hidden text) (hapart' : pattern.KeepsApart hidden other)
    (found : Match) (hshown : hidden found.start = false) :
    found ∈ pattern.matchesIn text ↔ found ∈ pattern.matchesIn other := by
  -- The matches are compared from left to right, so the induction is on where they begin.
  induction hstart : found.start using Nat.strongRecOn generalizing found with
  | ind start ih =>
      subst hstart
      constructor
      · intro hfound
        exact pattern.mem_matchesIn_of_agree h hapart hapart' found hfound hshown
          fun earlier hin hlt hs => (ih earlier.start hlt earlier hs rfl).mpr hin
      · intro hfound
        exact pattern.mem_matchesIn_of_agree h.symm hapart' hapart found hfound hshown
          fun earlier hin hlt hs => (ih earlier.start hlt earlier hs rfl).mp hin

-- What is hidden has no say in which matches are met where something is shown.
theorem filter_matchesIn_eq_of_agree (h : AgreeWhereShown hidden text other)
    (hapart : pattern.KeepsApart hidden text) (hapart' : pattern.KeepsApart hidden other) :
    (pattern.matchesIn text).filter (fun found => !hidden found.start) =
      (pattern.matchesIn other).filter fun found => !hidden found.start := by
  have hpairs : ∀ text : Text, ((pattern.matchesIn text).filter fun found =>
      !hidden found.start).Pairwise fun earlier later => earlier.start < later.start :=
    fun text => ((pattern.pairwise_matchesFrom 0 0 text).imp And.left).filter _
  refine Match.eq_of_mem_iff_of_pairwise (hpairs text) (hpairs other) fun found => ?_
  rw [List.mem_filter, List.mem_filter]
  refine and_congr_left fun hshown => ?_
  exact pattern.mem_matchesIn_iff_of_agree h hapart hapart' found (by simpa using hshown)

end Pattern

end UrlHarvest
