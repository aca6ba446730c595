import UrlHarvest.Pattern.Basic

namespace UrlHarvest.Pattern

variable (pattern : Pattern)

theorem matchesFrom_eq_reverse_append (start skip : Nat) (found : List Match) (text : Text) :
    pattern.matchesFrom start skip found text =
      found.reverse ++ pattern.matchesFrom start skip [] text := by
  induction text generalizing start skip found with
  | nil => simp [matchesFrom]
  | cons c rest ih =>
      cases skip with
      | succ skip =>
          simp only [matchesFrom]
          exact ih (start + 1) skip found
      | zero =>
          simp only [matchesFrom]
          split
          · exact ih (start + 1) 0 found
          · rename_i m _
            rw [ih _ _ (m :: found), ih _ _ [m], List.reverse_cons, List.append_assoc]
            rfl

theorem matchesFrom_nil (start skip : Nat) : pattern.matchesFrom start skip [] [] = [] := rfl

theorem matchesFrom_of_none (start : Nat) (c : Char) (rest : Text)
    (hm : pattern.matchAt? start (c :: rest) = none) :
    pattern.matchesFrom start 0 [] (c :: rest) = pattern.matchesFrom (start + 1) 0 [] rest := by
  simp only [matchesFrom, hm]

theorem matchesFrom_of_some (start : Nat) (c : Char) (rest : Text) (m : Match)
    (hm : pattern.matchAt? start (c :: rest) = some m) :
    pattern.matchesFrom start 0 [] (c :: rest) =
      m :: pattern.matchesFrom (start + 1) (m.text.length - 1) [] rest := by
  simp only [matchesFrom, hm]
  rw [matchesFrom_eq_reverse_append]
  rfl

theorem start_of_matchAt? (start : Nat) (text : Text) (m : Match)
    (hm : pattern.matchAt? start text = some m) : m.start = start := by
  simp only [matchAt?, Option.map_eq_some_iff] at hm
  obtain ⟨_, -, rfl⟩ := hm
  rfl

theorem matchAt?_of_mem_matchesFrom (start skip : Nat) (text : Text) (m : Match)
    (hm : m ∈ pattern.matchesFrom start skip [] text) :
    ∃ i < text.length, skip ≤ i ∧ m.start = start + i ∧
      pattern.matchAt? (start + i) (text.drop i) = some m := by
  induction text generalizing start skip with
  | nil => simp [matchesFrom_nil] at hm
  | cons c rest ih =>
      have hlater : ∀ skip', m ∈ pattern.matchesFrom (start + 1) skip' [] rest →
          skip ≤ skip' + 1 → ∃ i < (c :: rest).length, skip ≤ i ∧ m.start = start + i ∧
            pattern.matchAt? (start + i) ((c :: rest).drop i) = some m := by
        intro skip' hm hs
        obtain ⟨i, hi, hle, hstart, hat⟩ := ih (start + 1) skip' hm
        refine ⟨i + 1, by simpa using hi, by omega, by omega, ?_⟩
        rwa [List.drop_succ_cons, show start + (i + 1) = start + 1 + i by omega]
      cases skip with
      | succ skip => exact hlater skip hm (Nat.le_refl _)
      | zero =>
          cases hat : pattern.matchAt? start (c :: rest) with
          | none =>
              rw [matchesFrom_of_none _ _ _ _ hat] at hm
              exact hlater 0 hm (Nat.zero_le _)
          | some first =>
              rw [matchesFrom_of_some _ _ _ _ _ hat, List.mem_cons] at hm
              rcases hm with rfl | hm
              · exact ⟨0, Nat.succ_pos _, Nat.le_refl _, pattern.start_of_matchAt? _ _ _ hat, hat⟩
              · exact hlater _ hm (Nat.zero_le _)

-- Each match begins behind the one before it and behind everything that one has taken.
theorem pairwise_matchesFrom (start skip : Nat) (text : Text) :
    (pattern.matchesFrom start skip [] text).Pairwise fun earlier later =>
      earlier.start < later.start ∧ earlier.stop ≤ later.start := by
  induction text generalizing start skip with
  | nil => exact List.Pairwise.nil
  | cons c rest ih =>
      cases skip with
      | succ skip => exact ih (start + 1) skip
      | zero =>
          cases hat : pattern.matchAt? start (c :: rest) with
          | none =>
              rw [matchesFrom_of_none _ _ _ _ hat]
              exact ih (start + 1) 0
          | some first =>
              rw [matchesFrom_of_some _ _ _ _ _ hat]
              refine List.pairwise_cons.mpr ⟨?_, ih (start + 1) _⟩
              intro later hlater
              obtain ⟨i, -, hskip, hstart, -⟩ :=
                pattern.matchAt?_of_mem_matchesFrom _ _ rest later hlater
              have hfirst := pattern.start_of_matchAt? _ _ _ hat
              unfold Match.stop
              omega

-- A place where the pattern matches is where a match begins, or it lies behind the beginning of
-- a match that has taken it.
theorem mem_matchesFrom_or_taken (start skip : Nat) (text : Text) (i : Nat) (hi : i < text.length)
    (hs : skip ≤ i) (m : Match) (hm : pattern.matchAt? (start + i) (text.drop i) = some m) :
    m ∈ pattern.matchesFrom start skip [] text ∨
      ∃ other ∈ pattern.matchesFrom start skip [] text,
        other.start < start + i ∧ start + i < other.stop := by
  induction text generalizing start skip i with
  | nil => simp at hi
  | cons c rest ih =>
      have hlater : ∀ i' skip', i = i' + 1 → skip' ≤ i' →
          m ∈ pattern.matchesFrom (start + 1) skip' [] rest ∨
            ∃ other ∈ pattern.matchesFrom (start + 1) skip' [] rest,
              other.start < start + i ∧ start + i < other.stop := by
        rintro i' skip' rfl hs
        rw [List.drop_succ_cons, show start + (i' + 1) = start + 1 + i' by omega] at hm
        rw [show start + (i' + 1) = start + 1 + i' by omega]
        exact ih (start + 1) skip' i' (by simpa using hi) hs hm
      cases skip with
      | succ skip => exact hlater (i - 1) skip (by omega) (by omega)
      | zero =>
          cases hat : pattern.matchAt? start (c :: rest) with
          | none =>
              rw [matchesFrom_of_none _ _ _ _ hat]
              cases i with
              | zero => rw [List.drop_zero, Nat.add_zero, hat] at hm; cases hm
              | succ i => exact hlater i 0 rfl (Nat.zero_le _)
          | some first =>
              rw [matchesFrom_of_some _ _ _ _ _ hat]
              cases i with
              | zero =>
                  rw [List.drop_zero, Nat.add_zero, hat, Option.some.injEq] at hm
                  exact .inl (hm ▸ List.mem_cons_self)
              | succ i =>
                  by_cases hle : first.text.length - 1 ≤ i
                  · rcases hlater i _ rfl hle with h | ⟨other, h, ho⟩
                    · exact .inl (List.mem_cons_of_mem _ h)
                    · exact .inr ⟨other, List.mem_cons_of_mem _ h, ho⟩
                  · have hstart := pattern.start_of_matchAt? _ _ _ hat
                    refine .inr ⟨first, List.mem_cons_self, by omega, ?_⟩
                    unfold Match.stop
                    omega

theorem matchAt?_of_mem_matchesIn (text : Text) (m : Match) (hm : m ∈ pattern.matchesIn text) :
    m.start < text.length ∧ pattern.matchAt? m.start (text.drop m.start) = some m := by
  obtain ⟨i, hi, -, hstart, hat⟩ := pattern.matchAt?_of_mem_matchesFrom 0 0 text m hm
  rw [Nat.zero_add] at hstart hat
  subst hstart
  exact ⟨hi, hat⟩

theorem mem_matchesIn_or_taken (text : Text) (i : Nat) (hi : i < text.length) (m : Match)
    (hm : pattern.matchAt? i (text.drop i) = some m) :
    m ∈ pattern.matchesIn text ∨
      ∃ other ∈ pattern.matchesIn text, other.start < i ∧ i < other.stop := by
  have h := pattern.mem_matchesFrom_or_taken 0 0 text i hi (Nat.zero_le _) m (by rwa [Nat.zero_add])
  rwa [Nat.zero_add] at h

end UrlHarvest.Pattern
