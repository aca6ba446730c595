import UrlHarvest.Pattern.Basic

namespace UrlHarvest

namespace Text

theorem eq_drop_of_dropWord? (word text rest : Text) (h : dropWord? word text = some rest) :
    rest = text.drop word.length := by
  induction word generalizing text with
  | nil => simpa [dropWord?] using h.symm
  | cons w word ih =>
      cases text with
      | nil => simp [dropWord?] at h
      | cons c text =>
          simp only [dropWord?] at h
          split at h
          · exact ih text h
          · cases h

theorem dropWhile_eq_drop (p : Char → Bool) (text : Text) :
    text.dropWhile p = text.drop (text.takeWhile p).length := by
  conv => rhs; arg 2; rw [← List.takeWhile_append_dropWhile (p := p) (l := text)]
  rw [List.drop_left]

theorem eq_cons_of_getElem?_zero (text : Text) (c : Char) (h : text[0]? = some c) :
    ∃ rest, text = c :: rest := by
  cases text with
  | nil => simp at h
  | cons d rest => exact ⟨rest, by simpa using h⟩

-- Whether a run goes on is decided by the code point behind it, and by nothing further on.
theorem takeWhile_eq_of_agree (p : Char → Bool) (text other : Text)
    (hagree : ∀ j ≤ (text.takeWhile p).length, other[j]? = text[j]?) :
    other.takeWhile p = text.takeWhile p := by
  induction text generalizing other with
  | nil =>
      have hhead := hagree 0 (Nat.zero_le _)
      rw [List.getElem?_nil, List.getElem?_eq_none_iff, Nat.le_zero] at hhead
      rw [List.eq_nil_of_length_eq_zero hhead]
  | cons c rest ih =>
      obtain ⟨tail, rfl⟩ := eq_cons_of_getElem?_zero other c (hagree 0 (Nat.zero_le _))
      by_cases hc : p c = true
      · rw [List.takeWhile_cons_of_pos hc] at hagree ⊢
        rw [List.takeWhile_cons_of_pos hc, ih tail]
        intro j hj
        exact hagree (j + 1) (Nat.succ_le_succ hj)
      · rw [List.takeWhile_cons_of_neg hc, List.takeWhile_cons_of_neg hc]

theorem dropWord?_of_agree (word text rest other : Text) (h : dropWord? word text = some rest)
    (hagree : ∀ j < word.length, other[j]? = text[j]?) :
    dropWord? word other = some (other.drop word.length) := by
  induction word generalizing text other with
  | nil => rfl
  | cons w word ih =>
      cases text with
      | nil => simp [dropWord?] at h
      | cons c text =>
          obtain ⟨tail, rfl⟩ := eq_cons_of_getElem?_zero other c (hagree 0 (Nat.succ_pos _))
          simp only [dropWord?] at h ⊢
          split at h
          · rw [if_pos ‹_›]
            exact ih text tail h fun j hj => hagree (j + 1) (Nat.succ_lt_succ hj)
          · cases h

end Text

namespace Piece

open Text

variable (pieces : List Piece) (text : Text) (length : Nat) (groups : List (Nat × Text))

theorem take?_word_eq_some_iff (letters : Text) :
    take? (.word letters :: pieces) text = some (length, groups) ↔
      ∃ rest more, dropWord? letters text = some rest ∧ take? pieces rest = some (more, groups) ∧
        length = letters.length + more := by
  simp only [take?, Option.bind_eq_bind, Option.bind_eq_some_iff, Option.some.injEq, Prod.exists,
    Prod.mk.injEq]
  constructor
  · rintro ⟨rest, hd, more, inner, ht, rfl, rfl⟩
    exact ⟨rest, more, hd, ht, rfl⟩
  · rintro ⟨rest, more, hd, ht, rfl⟩
    exact ⟨rest, hd, more, groups, ht, rfl, rfl⟩

theorem take?_one_eq_some_iff (allowed : Char → Bool) :
    take? (.one allowed :: pieces) text = some (length, groups) ↔
      ∃ c rest more, text = c :: rest ∧ allowed c = true ∧
        take? pieces rest = some (more, groups) ∧ length = more + 1 := by
  cases text with
  | nil => simp [take?]
  | cons c rest =>
      by_cases hc : allowed c = true
      · simp only [take?, hc, ite_true, Option.bind_eq_bind, Option.bind_eq_some_iff,
          Option.some.injEq, Prod.exists, Prod.mk.injEq, List.cons.injEq]
        constructor
        · rintro ⟨more, inner, ht, rfl, rfl⟩
          exact ⟨c, rest, more, ⟨rfl, rfl⟩, hc, ht, rfl⟩
        · rintro ⟨_, _, more, ⟨rfl, rfl⟩, -, ht, rfl⟩
          exact ⟨more, groups, ht, rfl, rfl⟩
      · simp only [take?, hc, Bool.false_eq_true, ite_false, reduceCtorEq, false_iff]
        rintro ⟨_, _, more, he, ha, -, -⟩
        obtain ⟨rfl, rfl⟩ := List.cons.inj he
        exact hc ha

theorem take?_run_eq_some_iff (allowed : Char → Bool) (least : Nat) :
    take? (.run allowed least :: pieces) text = some (length, groups) ↔
      ∃ more, least ≤ (text.takeWhile allowed).length ∧
        take? pieces (text.dropWhile allowed) = some (more, groups) ∧
        length = (text.takeWhile allowed).length + more := by
  simp only [take?]
  split
  · simp only [reduceCtorEq, false_iff]
    rintro ⟨more, hle, -, -⟩
    omega
  · simp only [Option.bind_eq_bind, Option.bind_eq_some_iff, Option.some.injEq, Prod.exists,
      Prod.mk.injEq]
    constructor
    · rintro ⟨more, inner, ht, rfl, rfl⟩
      exact ⟨more, by omega, ht, rfl⟩
    · rintro ⟨more, -, ht, rfl⟩
      exact ⟨more, groups, ht, rfl, rfl⟩

theorem take?_capture_eq_some_iff (group : Nat) (allowed : Char → Bool) (least : Nat) :
    take? (.capture group allowed least :: pieces) text = some (length, groups) ↔
      ∃ more inner, least ≤ (text.takeWhile allowed).length ∧
        take? pieces (text.dropWhile allowed) = some (more, inner) ∧
        length = (text.takeWhile allowed).length + more ∧
        groups = (group, text.takeWhile allowed) :: inner := by
  simp only [take?]
  split
  · simp only [reduceCtorEq, false_iff]
    rintro ⟨more, inner, hle, -, -, -⟩
    omega
  · simp only [Option.bind_eq_bind, Option.bind_eq_some_iff, Option.some.injEq, Prod.exists,
      Prod.mk.injEq]
    constructor
    · rintro ⟨more, inner, ht, rfl, rfl⟩
      exact ⟨more, inner, by omega, ht, rfl, rfl⟩
    · rintro ⟨more, inner, -, ht, rfl, rfl⟩
      exact ⟨more, inner, ht, rfl, rfl⟩

theorem le_length_of_take? (h : take? pieces text = some (length, groups)) :
    length ≤ text.length := by
  induction pieces generalizing text length groups with
  | nil =>
      obtain ⟨rfl, -⟩ := Prod.mk.inj (Option.some.inj h)
      exact Nat.zero_le _
  | cons piece pieces ih =>
      cases piece with
      | word letters =>
          obtain ⟨rest, more, hd, ht, rfl⟩ := (take?_word_eq_some_iff ..).mp h
          have hlen := length_of_dropWord? hd
          have hmore := ih rest more groups ht
          omega
      | one allowed =>
          obtain ⟨c, rest, more, rfl, -, ht, rfl⟩ := (take?_one_eq_some_iff ..).mp h
          exact Nat.succ_le_succ (ih rest more groups ht)
      | run allowed least =>
          obtain ⟨more, -, ht, rfl⟩ := (take?_run_eq_some_iff ..).mp h
          have hmore := ih _ more groups ht
          rw [dropWhile_eq_drop, List.length_drop] at hmore
          have hrun := (List.takeWhile_prefix allowed : _ <+: text).length_le
          omega
      | capture group allowed least =>
          obtain ⟨more, inner, -, ht, rfl, -⟩ := (take?_capture_eq_some_iff ..).mp h
          have hmore := ih _ more inner ht
          rw [dropWhile_eq_drop, List.length_drop] at hmore
          have hrun := (List.takeWhile_prefix allowed : _ <+: text).length_le
          omega

-- What the pieces take depends on the code points taken and on the one behind them.
theorem take?_of_agree (other : Text) (h : take? pieces text = some (length, groups))
    (hagree : ∀ j ≤ length, other[j]? = text[j]?) :
    take? pieces other = some (length, groups) := by
  induction pieces generalizing text other length groups with
  | nil => exact h
  | cons piece pieces ih =>
      cases piece with
      | word letters =>
          obtain ⟨rest, more, hd, ht, rfl⟩ := (take?_word_eq_some_iff ..).mp h
          have hrest := eq_drop_of_dropWord? letters text rest hd
          have hword := dropWord?_of_agree letters text rest other hd fun j hj =>
            hagree j (by omega)
          refine (take?_word_eq_some_iff ..).mpr ⟨_, more, hword, ih _ more groups _ ht ?_, rfl⟩
          intro j hj
          rw [hrest, List.getElem?_drop, List.getElem?_drop]
          exact hagree _ (by omega)
      | one allowed =>
          obtain ⟨c, rest, more, rfl, hc, ht, rfl⟩ := (take?_one_eq_some_iff ..).mp h
          obtain ⟨tail, rfl⟩ := eq_cons_of_getElem?_zero other c (hagree 0 (Nat.zero_le _))
          refine (take?_one_eq_some_iff ..).mpr
            ⟨c, tail, more, rfl, hc, ih rest more groups tail ht ?_, rfl⟩
          intro j hj
          exact hagree (j + 1) (Nat.succ_le_succ hj)
      | run allowed least =>
          obtain ⟨more, hle, ht, rfl⟩ := (take?_run_eq_some_iff ..).mp h
          have htaken := takeWhile_eq_of_agree allowed text other fun j hj => hagree j (by omega)
          refine (take?_run_eq_some_iff ..).mpr
            ⟨more, htaken ▸ hle, ih _ more groups _ ht ?_, by rw [htaken]⟩
          intro j hj
          rw [dropWhile_eq_drop, dropWhile_eq_drop, htaken, List.getElem?_drop,
            List.getElem?_drop]
          exact hagree _ (by omega)
      | capture group allowed least =>
          obtain ⟨more, inner, hle, ht, rfl, rfl⟩ := (take?_capture_eq_some_iff ..).mp h
          have htaken := takeWhile_eq_of_agree allowed text other fun j hj => hagree j (by omega)
          refine (take?_capture_eq_some_iff ..).mpr
            ⟨more, inner, htaken ▸ hle, ih _ more inner _ ht ?_, by rw [htaken], by rw [htaken]⟩
          intro j hj
          rw [dropWhile_eq_drop, dropWhile_eq_drop, htaken, List.getElem?_drop,
            List.getElem?_drop]
          exact hagree _ (by omega)

end Piece

namespace Pattern

theorem isSome_firstMatch?_of_agree (alternatives : List (List Piece)) (text other : Text)
    (length : Nat) (groups : List (Nat × Text))
    (h : firstMatch? alternatives text = some (length, groups))
    (hagree : ∀ j ≤ length, other[j]? = text[j]?) :
    (firstMatch? alternatives other).isSome = true := by
  obtain ⟨pieces, hmem, ht⟩ := List.exists_of_findSome?_eq_some h
  have ho := Piece.take?_of_agree pieces text length groups other ht hagree
  exact List.findSome?_isSome_iff.mpr ⟨pieces, hmem, by rw [ho]; rfl⟩

-- Where two texts agree as far as both of their matches look, no alternative that comes earlier
-- can be the first to match in only one of them.
theorem firstMatch?_eq_of_agree (alternatives : List (List Piece)) (text other : Text)
    (length otherLength : Nat) (groups otherGroups : List (Nat × Text))
    (h : firstMatch? alternatives text = some (length, groups))
    (ho : firstMatch? alternatives other = some (otherLength, otherGroups))
    (hagree : ∀ j ≤ length, other[j]? = text[j]?)
    (hagree' : ∀ j ≤ otherLength, other[j]? = text[j]?) :
    (otherLength, otherGroups) = (length, groups) := by
  induction alternatives with
  | nil => simp [firstMatch?] at h
  | cons pieces rest ih =>
      simp only [firstMatch?, List.findSome?_cons] at h ho
      cases ht : Piece.take? pieces text with
      | some found =>
          rw [ht, Option.some.injEq] at h
          subst h
          rw [Piece.take?_of_agree pieces text length groups other ht hagree] at ho
          exact (Option.some.inj ho).symm
      | none =>
          rw [ht] at h
          cases hother : Piece.take? pieces other with
          | some found =>
              rw [hother, Option.some.injEq] at ho
              subst ho
              rw [Piece.take?_of_agree pieces other otherLength otherGroups text hother
                fun j hj => (hagree' j hj).symm] at ht
              cases ht
          | none =>
              rw [hother] at ho
              exact ih h ho

variable (pattern : Pattern)

theorem exists_of_matchAt? (start : Nat) (text : Text) (found : Match)
    (h : pattern.matchAt? start text = some found) :
    ∃ groups, firstMatch? pattern.alternatives text = some (found.text.length, groups) ∧
      found = ⟨start, text.take found.text.length,
        (List.range pattern.groups).map fun group => groups.lookup group⟩ := by
  obtain ⟨⟨length, groups⟩, hfirst, rfl⟩ := Option.map_eq_some_iff.mp h
  obtain ⟨pieces, -, ht⟩ := List.exists_of_findSome?_eq_some hfirst
  have hlen := Piece.le_length_of_take? pieces text length groups ht
  have htake : (text.take length).length = length := by rw [List.length_take]; omega
  exact ⟨groups, by rw [htake]; exact hfirst, by rw [htake]⟩

theorem prefix_of_matchAt? (start : Nat) (text : Text) (found : Match)
    (h : pattern.matchAt? start text = some found) : found.text <+: text := by
  obtain ⟨groups, -, htext⟩ := pattern.exists_of_matchAt? start text found h
  rw [congrArg Match.text htext]
  exact List.take_prefix _ _

theorem matchAt?_eq_of_agree (start : Nat) (text other : Text) (found : Match)
    (h : pattern.matchAt? start text = some found)
    (hagree : ∀ j ≤ found.text.length, other[j]? = text[j]?)
    (hagree' : ∀ found', pattern.matchAt? start other = some found' →
      ∀ j ≤ found'.text.length, other[j]? = text[j]?) :
    pattern.matchAt? start other = some found := by
  obtain ⟨groups, hfirst, hfound⟩ := pattern.exists_of_matchAt? start text found h
  have hsome := isSome_firstMatch?_of_agree _ text other _ groups hfirst hagree
  obtain ⟨r, hr⟩ := Option.isSome_iff_exists.mp hsome
  obtain ⟨found', hother⟩ : ∃ found', pattern.matchAt? start other = some found' :=
    ⟨_, by rw [matchAt?, hr, Option.map_some]⟩
  obtain ⟨groups', hfirst', hfound'⟩ := pattern.exists_of_matchAt? start other found' hother
  have heq := firstMatch?_eq_of_agree _ text other _ _ groups groups' hfirst hfirst' hagree
    (hagree' found' hother)
  obtain ⟨hlen, rfl⟩ := Prod.mk.inj heq
  have htake : other.take found.text.length = text.take found.text.length := by
    apply List.ext_getElem?
    intro j
    rw [List.getElem?_take, List.getElem?_take]
    split
    · exact hagree j (Nat.le_of_lt ‹_›)
    · rfl
  rw [hother, hfound', hlen, htake, ← hfound]

end Pattern

end UrlHarvest
