import Mathlib.Data.List.Infix
import UrlHarvest.Pattern.Capture
import UrlHarvest.Proofs.Pattern.Boundary
import UrlHarvest.Proofs.Pattern.Pieces
import UrlHarvest.Scan.Formats

namespace UrlHarvest

namespace Text

theorem toLower_capital_isSmall (c : Char) (hlo : 65 ≤ c.toNat) (hhi : c.toNat ≤ 90) :
    'a' ≤ c.toLower ∧ c.toLower ≤ 'z' := by
  have hall : ∀ i : Fin 26,
      'a' ≤ (Char.ofNat (65 + i)).toLower ∧ (Char.ofNat (65 + i)).toLower ≤ 'z' := by decide
  have hc := hall ⟨c.toNat - 65, by omega⟩
  rwa [show 65 + (c.toNat - 65) = c.toNat by omega, Char.ofNat_toNat] at hc

-- Nothing but small letters stands for something else.
theorem eq_of_foldLetter (c d : Char) (h : foldLetter c = d) (hd : ¬('a' ≤ d ∧ d ≤ 'z')) :
    c = d := by
  unfold foldLetter at h
  split at h
  · rename_i hcap
    rw [Bool.and_eq_true, decide_eq_true_eq, decide_eq_true_eq] at hcap
    exact absurd (h ▸ toLower_capital_isSmall c hcap.1 hcap.2) hd
  · split at h
    · exact absurd (h ▸ by decide) hd
    · split at h
      · exact absurd (h ▸ by decide) hd
      · split at h
        · exact absurd (h ▸ by decide) hd
        · exact h

-- Marks without letters stand in the text as they are written.
theorem eq_append_of_dropWord? (mark text rest : Text)
    (hmark : mark.any (fun d => 'a' ≤ d && d ≤ 'z') = false) (h : dropWord? mark text = some rest) :
    text = mark ++ rest := by
  obtain ⟨front, rfl, rfl⟩ := (dropWord?_eq_some_iff mark text rest).mp h
  congr 1
  conv => lhs; rw [← List.map_id front]
  apply List.map_congr_left
  intro c hc
  have hlarge := List.any_eq_false.mp hmark _ (List.mem_map_of_mem hc)
  rw [Bool.and_eq_true, decide_eq_true_eq, decide_eq_true_eq] at hlarge
  exact eq_of_foldLetter c _ rfl hlarge

theorem firstWord_prefix (text : Text) :
    firstWord text <+: text.drop (text.takeWhile isBlank).length := by
  rw [← dropWhile_eq_drop]
  exact List.takeWhile_prefix _

end Text

namespace CapturePass

-- The target of a link stands somewhere between its parentheses.
theorem exists_linkTarget_prefix_drop (raw : Text) : ∃ p, linkTarget raw <+: raw.drop p := by
  simp only [linkTarget]
  split
  · refine ⟨(raw.takeWhile Text.isBlank).length + 1, ?_⟩
    rw [← List.drop_drop]
    exact (List.dropLast_prefix _).trans (List.IsPrefix.drop (Text.firstWord_prefix raw) 1)
  · exact ⟨_, Text.firstWord_prefix raw⟩

end CapturePass

namespace Pattern

theorem take?_of_matchAt?_single (pieces : List Piece) (groups start : Nat) (text : Text)
    (found : Match) (h : matchAt? ⟨groups, [pieces]⟩ start text = some found) :
    ∃ held, Piece.take? pieces text = some (found.text.length, held) ∧
      found.groups = (List.range groups).map fun group => held.lookup group := by
  obtain ⟨held, hfirst, hfound⟩ := exists_of_matchAt? _ _ _ _ h
  obtain ⟨only, honly, ht⟩ := List.exists_of_findSome?_eq_some hfirst
  rw [List.mem_singleton.mp honly] at ht
  exact ⟨held, ht, congrArg Match.groups hfound⟩

-- An autolink: brackets around its only group.
theorem exists_of_matchAt?_markdownAutolink (start : Nat) (text : Text) (found : Match)
    (h : markdownAutolink.matchAt? start text = some found) :
    ∃ inner rest, text = '<' :: (inner ++ '>' :: rest) ∧ found.groups = [some inner] := by
  obtain ⟨held, hwhole, hgroups⟩ := take?_of_matchAt?_single _ _ _ _ _ h
  obtain ⟨rest, _, hopen, hinner, -⟩ := (Piece.take?_word_eq_some_iff ..).mp hwhole
  obtain ⟨_, held', -, hend, -, hheld⟩ := (Piece.take?_capture_eq_some_iff ..).mp hinner
  obtain ⟨behind, _, hclose, -, -⟩ := (Piece.take?_word_eq_some_iff ..).mp hend
  subst hheld
  have hopen := Text.eq_append_of_dropWord? _ _ _ (by decide) hopen
  have hclose := Text.eq_append_of_dropWord? _ _ _ (by decide) hclose
  refine ⟨rest.takeWhile (notIn ">"), behind, ?_, hgroups⟩
  rw [hopen]
  conv => lhs; rw [← List.takeWhile_append_dropWhile (p := notIn ">") (l := rest), hclose]
  rfl

-- A link: a label in brackets and what stands in the parentheses behind it.
theorem exists_of_matchAt?_markdownLink (start : Nat) (text : Text) (found : Match)
    (h : markdownLink.matchAt? start text = some found) :
    ∃ label inner rest, text = '[' :: (label ++ ']' :: '(' :: (inner ++ ')' :: rest)) ∧
      found.groups = [some label, some inner] := by
  obtain ⟨held, hwhole, hgroups⟩ := take?_of_matchAt?_single _ _ _ _ _ h
  obtain ⟨rest, _, hopen, hlabel, -⟩ := (Piece.take?_word_eq_some_iff ..).mp hwhole
  obtain ⟨_, held', -, hbetween, -, hheld⟩ := (Piece.take?_capture_eq_some_iff ..).mp hlabel
  obtain ⟨middle, _, hmiddle, hinner, -⟩ := (Piece.take?_word_eq_some_iff ..).mp hbetween
  obtain ⟨_, held'', -, hend, -, hheld'⟩ := (Piece.take?_capture_eq_some_iff ..).mp hinner
  obtain ⟨behind, _, hclose, -, -⟩ := (Piece.take?_word_eq_some_iff ..).mp hend
  subst hheld'
  subst hheld
  have hopen := Text.eq_append_of_dropWord? _ _ _ (by decide) hopen
  have hmiddle := Text.eq_append_of_dropWord? _ _ _ (by decide) hmiddle
  have hclose := Text.eq_append_of_dropWord? _ _ _ (by decide) hclose
  refine ⟨rest.takeWhile (notIn "]"), middle.takeWhile (notIn ")"), behind, ?_, hgroups⟩
  rw [hopen]
  conv =>
    lhs
    rw [← List.takeWhile_append_dropWhile (p := notIn "]") (l := rest), hmiddle,
      ← List.takeWhile_append_dropWhile (p := notIn ")") (l := middle), hclose]
  rfl

end Pattern

end UrlHarvest
