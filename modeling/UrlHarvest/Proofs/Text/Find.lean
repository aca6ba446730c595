import UrlHarvest.Text.Basic

namespace UrlHarvest.Text

-- The first occurrence of `needle` that begins at `cursor` or after it.
def find (needle text : Text) (cursor : Nat) : Option Nat :=
  findFrom needle cursor (text.drop cursor)

theorem findFrom_nil (needle : Text) (offset : Nat) (hne : needle ≠ []) :
    findFrom needle offset [] = none := by
  simp [findFrom, hne]

theorem findFrom_bounds (needle text : Text) (offset i : Nat)
    (hf : findFrom needle offset text = some i) :
    offset ≤ i ∧ i + needle.length ≤ offset + text.length := by
  induction text generalizing offset with
  | nil =>
      by_cases hne : needle = []
      · subst needle
        simp only [findFrom, List.isEmpty_nil, ite_true, Option.some.injEq] at hf
        subst i
        exact ⟨Nat.le_refl _, Nat.le_refl _⟩
      · rw [findFrom_nil needle offset hne] at hf
        exact absurd hf (by simp)
  | cons c rest ih =>
      simp only [findFrom] at hf
      split at hf
      · rename_i hp
        have hlen := (List.isPrefixOf_iff_prefix.mp hp).length_le
        simp only [Option.some.injEq] at hf
        subst i
        exact ⟨Nat.le_refl _, Nat.add_le_add_left hlen _⟩
      · have hi := ih (offset + 1) hf
        simp only [List.length_cons]
        omega

theorem find_bounds (needle text : Text) (cursor i : Nat) (hne : needle ≠ [])
    (hf : find needle text cursor = some i) :
    cursor ≤ i ∧ i + needle.length ≤ text.length := by
  have hb := findFrom_bounds needle (text.drop cursor) cursor i hf
  have hpos := List.length_pos_iff.mpr hne
  rw [List.length_drop] at hb
  omega

theorem isSome_findFrom_iff (needle text : Text) (offset : Nat) :
    (findFrom needle offset text).isSome = true ↔ needle <:+: text := by
  induction text generalizing offset with
  | nil =>
      rw [findFrom, List.infix_nil]
      cases needle <;> simp
  | cons c rest ih =>
      rw [findFrom, List.infix_cons_iff]
      split
      · rename_i hp
        simp [List.isPrefixOf_iff_prefix.mp hp]
      · rename_i hp
        have hp : ¬ needle <+: c :: rest := mt List.isPrefixOf_iff_prefix.mpr hp
        simp [ih, hp]

-- A text includes another one if that one stands somewhere in it.
theorem includes_iff (text needle : Text) : includes text needle = true ↔ needle <:+: text :=
  isSome_findFrom_iff needle text 0

-- Nor does a word reach across a code point that it does not have.
theorem prefix_of_notMem (word front rest : Text) (c : Char) (h : word <+: front ++ c :: rest)
    (hc : c ∉ word) : word <+: front := by
  by_cases hlength : word.length ≤ front.length
  · exact List.prefix_of_prefix_length_le h (List.prefix_append _ _) hlength
  · have hshort : front ++ [c] <+: front ++ c :: rest :=
      (List.prefix_append_right_inj front).mpr (List.prefix_append [c] rest)
    have hwithin := List.prefix_of_prefix_length_le hshort h (by simp; omega)
    exact absurd (hwithin.subset (by simp)) hc

-- The first place at `cursor` or behind it where `needle` stands.
structure FirstAt (needle text : Text) (cursor place : Nat) : Prop where
  le : cursor ≤ place
  stands : needle <+: text.drop place
  least : ∀ other, cursor ≤ other → needle <+: text.drop other → place ≤ other

theorem findFrom_spec (needle text : Text) (offset place : Nat)
    (hf : findFrom needle offset text = some place) :
    offset ≤ place ∧ needle <+: text.drop (place - offset) ∧
      ∀ step, needle <+: text.drop step → place ≤ offset + step := by
  induction text generalizing offset with
  | nil =>
      simp only [findFrom, Option.ite_none_right_eq_some, List.isEmpty_iff,
        Option.some.injEq] at hf
      obtain ⟨rfl, rfl⟩ := hf
      exact ⟨Nat.le_refl _, List.nil_prefix, fun step _ => Nat.le_add_right _ _⟩
  | cons c rest ih =>
      rw [findFrom] at hf
      split at hf
      · rename_i hp
        cases hf
        rw [Nat.sub_self]
        exact ⟨Nat.le_refl _, List.isPrefixOf_iff_prefix.mp hp, fun step _ => Nat.le_add_right _ _⟩
      · rename_i hp
        obtain ⟨hle, hstands, hleast⟩ := ih (offset + 1) hf
        refine ⟨by omega, ?_, fun step hstep => ?_⟩
        · rwa [List.drop_cons (by omega), Nat.sub_sub]
        · cases step with
          | zero => exact absurd (List.isPrefixOf_iff_prefix.mpr hstep) hp
          | succ step =>
              have hrest := hleast step hstep
              omega

theorem firstAt_of_find {needle text : Text} {cursor place : Nat}
    (hf : find needle text cursor = some place) : FirstAt needle text cursor place := by
  obtain ⟨hle, hstands, hleast⟩ := findFrom_spec needle _ cursor place hf
  rw [List.drop_drop, Nat.add_sub_cancel' hle] at hstands
  refine ⟨hle, hstands, fun other hother h => ?_⟩
  have hplace := hleast (other - cursor) (by rwa [List.drop_drop, Nat.add_sub_cancel' hother])
  omega

theorem not_stands_of_find_eq_none {needle text : Text} {cursor : Nat}
    (hf : find needle text cursor = none) (place : Nat) (hplace : cursor ≤ place) :
    ¬ needle <+: text.drop place := by
  intro h
  have hnone := isSome_findFrom_iff needle (text.drop cursor) cursor
  rw [show findFrom needle cursor (text.drop cursor) = none from hf] at hnone
  rw [← Nat.add_sub_cancel' hplace, ← List.drop_drop] at h
  have hinfix := h.isInfix.trans (List.drop_suffix _ _).isInfix
  exact absurd (hnone.mpr hinfix) (by simp)

end UrlHarvest.Text
