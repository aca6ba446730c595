import UrlHarvest.Proofs.Pattern.Links
import UrlHarvest.Proofs.Pattern.Shown

namespace UrlHarvest

theorem infix_take_of_infix_take_drop {value text : Text} (front count : Nat)
    (h : value <:+: (text.drop front).take count) : value <:+: text.take (front + count) := by
  rw [List.take_drop] at h
  exact h.trans (List.drop_suffix _ _).isInfix

theorem exists_prefix_drop_of_infix {value text : Text} (h : value <:+: text) :
    ∃ place, value <+: text.drop place := by
  obtain ⟨front, back, rfl⟩ := h
  refine ⟨front.length, back, ?_⟩
  rw [List.append_assoc, List.drop_left]

namespace Piece

open Text

-- A group holds a stretch of what the pieces take.
theorem infix_of_mem_groups (pieces : List Piece) (text : Text) (length : Nat)
    (groups : List (Nat × Text)) (h : take? pieces text = some (length, groups))
    (group : Nat) (value : Text) (hvalue : (group, value) ∈ groups) :
    value <:+: text.take length := by
  induction pieces generalizing text length groups with
  | nil =>
      obtain ⟨-, rfl⟩ := Prod.mk.inj (Option.some.inj h)
      cases hvalue
  | cons piece pieces ih =>
      cases piece with
      | word letters =>
          obtain ⟨rest, more, hd, ht, rfl⟩ := (take?_word_eq_some_iff ..).mp h
          have hrest := ih rest more groups ht hvalue
          rw [eq_drop_of_dropWord? letters text rest hd] at hrest
          exact infix_take_of_infix_take_drop _ _ hrest
      | one allowed =>
          obtain ⟨c, rest, more, rfl, -, ht, rfl⟩ := (take?_one_eq_some_iff ..).mp h
          exact (ih rest more groups ht hvalue).trans (List.suffix_cons c _).isInfix
      | run allowed least =>
          obtain ⟨more, -, ht, rfl⟩ := (take?_run_eq_some_iff ..).mp h
          have hrest := ih _ more groups ht hvalue
          rw [dropWhile_eq_drop] at hrest
          exact infix_take_of_infix_take_drop _ _ hrest
      | capture group allowed least =>
          obtain ⟨more, inner, -, ht, rfl, rfl⟩ := (take?_capture_eq_some_iff ..).mp h
          rcases List.mem_cons.mp hvalue with hheld | hheld
          · obtain ⟨-, rfl⟩ := Prod.mk.inj hheld
            exact (List.prefix_take_iff.mpr
              ⟨List.takeWhile_prefix allowed, Nat.le_add_right _ _⟩).isInfix
          · have hrest := ih _ more inner ht hheld
            rw [dropWhile_eq_drop] at hrest
            exact infix_take_of_infix_take_drop _ _ hrest

end Piece

namespace Match

theorem firstGroup_eq_or_mem (found : Match) :
    found.firstGroup = found.text ∨ some found.firstGroup ∈ found.groups := by
  cases hfirst : (found.groups.filterMap id).head? with
  | none => exact .inl (by rw [firstGroup, hfirst, Option.getD_none])
  | some group =>
      right
      rw [firstGroup, hfirst, Option.getD_some]
      obtain ⟨held, hheld, he⟩ := List.mem_filterMap.mp (List.mem_of_mem_head? hfirst)
      exact he ▸ hheld

end Match

namespace Pattern

theorem infix_of_mem_groups (pattern : Pattern) (start : Nat) (text : Text) (found : Match)
    (h : pattern.matchAt? start text = some found) (value : Text)
    (hvalue : some value ∈ found.groups) : value <:+: found.text := by
  obtain ⟨groups, hfirst, hfound⟩ := pattern.exists_of_matchAt? start text found h
  obtain ⟨pieces, -, ht⟩ := List.exists_of_findSome?_eq_some hfirst
  rw [congrArg Match.groups hfound] at hvalue
  obtain ⟨group, -, hlookup⟩ := List.mem_map.mp hvalue
  obtain ⟨front, back, rfl, -⟩ := List.lookup_eq_some_iff.mp hlookup
  rw [congrArg Match.text hfound]
  exact Piece.infix_of_mem_groups pieces text _ _ ht group value
    (List.mem_append_right _ List.mem_cons_self)

end Pattern

namespace CapturePass

-- What a pass reads off a match stands somewhere in it.
def StaysInside (pass : CapturePass) : Prop :=
  ∀ start text found, pass.pattern.matchAt? start text = some found →
    pass.target found <:+: found.text

theorem staysInside_firstGroup (pattern : Pattern) : (firstGroup pattern).StaysInside := by
  intro start text found h
  change found.firstGroup <:+: found.text
  rcases found.firstGroup_eq_or_mem with hwhole | hgroup
  · rw [hwhole]
  · exact pattern.infix_of_mem_groups start text found h _ hgroup

theorem linkTarget_isInfix (raw : Text) : linkTarget raw <:+: raw := by
  obtain ⟨place, hstands⟩ := exists_linkTarget_prefix_drop raw
  exact hstands.isInfix.trans (List.drop_suffix place raw).isInfix

theorem staysInside_markdownLink : markdownLink.StaysInside := by
  intro start text found h
  obtain ⟨label, inner, rest, -, hgroups⟩ :=
    Pattern.exists_of_matchAt?_markdownLink start text found h
  have hmem : some inner ∈ found.groups := by simp [hgroups]
  have hinner := Pattern.markdownLink.infix_of_mem_groups start text found h inner hmem
  have htarget : markdownLink.target found = linkTarget inner := by
    simp [markdownLink, hgroups]
  exact htarget ▸ (linkTarget_isInfix inner).trans hinner

end CapturePass

end UrlHarvest
