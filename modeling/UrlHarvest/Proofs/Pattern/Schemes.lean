import UrlHarvest.Proofs.Pattern.Boundary
import UrlHarvest.Scheme

namespace UrlHarvest

open Text

namespace Scheme

-- An address that begins with a mark, but with a letter from outside ASCII in it.
def Disguised (address : Text) : Prop :=
  ∃ front rest, address = front ++ rest ∧ front.map foldLetter ∈ marks.map Prod.fst ∧
    ∃ c ∈ front, 128 ≤ c.toNat

theorem readable_marks : ReadableMarks marks :=
  ⟨by decide, by decide⟩

theorem length_le_of_mem_marks (mark : Text × Scheme) (hmark : mark ∈ marks) :
    mark.1.length ≤ 8 := by
  have hall : ∀ mark ∈ marks, mark.1.length ≤ 8 := by decide
  exact hall mark hmark

-- The code points looked at are enough for every mark.
theorem beginsPlainly_take_iff (mark : Text × Scheme) (hmark : mark ∈ marks) (address : Text) :
    BeginsPlainly mark.1 (address.take 8) ↔ BeginsPlainly mark.1 address :=
  ⟨.extend (List.take_prefix 8 address), .take 8 (length_le_of_mem_marks mark hmark)⟩

-- A mark in plain letters is read as it is meant, in any letter case.
theorem ofAddress_of_beginsPlainly (mark : Text × Scheme) (hmark : mark ∈ marks) (address : Text)
    (h : BeginsPlainly mark.1 address) : ofAddress address = mark.2 := by
  have hhead := (beginsPlainly_take_iff mark hmark address).mpr h
  have hfind := (readable_marks.find?_eq_some_iff (address.take 8) mark).mpr ⟨hmark, hhead⟩
  rw [ofAddress, hfind]

theorem ofAddress_of_no_mark (address : Text)
    (h : ∀ mark ∈ marks, ¬ BeginsPlainly mark.1 address) : ofAddress address = unknown := by
  have hfind := (readable_marks.find?_eq_none_iff (address.take 8)).mpr fun mark hmark =>
    mt (beginsPlainly_take_iff mark hmark address).mp (h mark hmark)
  rw [ofAddress, hfind]

-- With another letter in its mark, an address is of no scheme.
theorem ofAddress_of_disguised (address : Text) (h : Disguised address) :
    ofAddress address = unknown := by
  obtain ⟨front, rest, rfl, hmem, hforeign⟩ := h
  obtain ⟨whole, hwhole, he⟩ := List.mem_map.mp hmem
  refine ofAddress_of_no_mark _ fun mark hmark => ?_
  have hkelvin : 'k' ∉ whole.1 := by
    have hall : ∀ mark ∈ marks, 'k' ∉ mark.1 := by decide
    exact hall whole hwhole
  rw [he] at hkelvin
  refine not_beginsPlainly_of_foreign mark.1 front rest (fun hprefix => ?_) hkelvin hforeign
  rw [← he] at hprefix ⊢
  rw [readable_marks.apart mark hmark whole hwhole hprefix]

end Scheme

namespace BoundaryRule

-- The schemes of the addresses that a rule looks for.
def schemes : BoundaryRule → List Scheme
  | web => [.http, .https]
  | ftp => [.ftp]
  | mailto => [.mailto]
  | tel => [.tel]
  | file => [.file]

theorem exists_scheme_of_mem_marks (rule : BoundaryRule) (mark : Text) (hmark : mark ∈ rule.marks) :
    ∃ scheme ∈ rule.schemes, (mark, scheme) ∈ Scheme.marks := by
  have hall : ∀ rule ∈ all, ∀ mark ∈ rule.marks,
      ∃ scheme ∈ rule.schemes, (mark, scheme) ∈ Scheme.marks := by decide
  exact hall rule (by cases rule <;> decide) mark hmark

-- What a rule finds begins with one of its marks.
theorem exists_mark_of_mem_matchesIn (rule : BoundaryRule) (text : Text) (found : Match)
    (hfound : found ∈ rule.pattern.matchesIn text) :
    ∃ mark front rest, mark ∈ rule.marks ∧ found.text = front ++ rest ∧
      front.map foldLetter = mark := by
  obtain ⟨-, hat⟩ := rule.pattern.matchAt?_of_mem_matchesIn text found hfound
  rw [matchAt?_pattern] at hat
  split at hat
  · rename_i hbegins
    obtain ⟨mark, hmark, hnext⟩ := List.any_eq_true.mp hbegins
    obtain ⟨c, hhead, -⟩ := (Option.any_eq_true _ _).mp hnext
    obtain ⟨rest, hd, -⟩ := Option.bind_eq_some_iff.mp hhead
    obtain ⟨front, hfront, hfold⟩ := (dropWord?_eq_some_iff mark _ rest).mp hd
    have hlength : front.length = mark.length := by rw [← hfold, List.length_map]
    refine ⟨mark, front, rest.takeWhile isBodyChar, hmark, ?_, hfold⟩
    rw [← congrArg Match.text (Option.some.inj hat),
      rule.takeWhile_of_dropWord? mark _ rest hmark hd, hfront, ← hlength, List.take_left]
  · cases hat

-- The scheme of what a rule finds is one of those it looks for, or none at all.
theorem ofAddress_of_mem_matchesIn (rule : BoundaryRule) (text : Text) (found : Match)
    (hfound : found ∈ rule.pattern.matchesIn text) :
    (Scheme.Disguised found.text → Scheme.ofAddress found.text = .unknown) ∧
      (¬ Scheme.Disguised found.text → Scheme.ofAddress found.text ∈ rule.schemes) := by
  refine ⟨Scheme.ofAddress_of_disguised found.text, fun hplain => ?_⟩
  obtain ⟨mark, front, rest, hmark, htext, hfold⟩ :=
    rule.exists_mark_of_mem_matchesIn text found hfound
  obtain ⟨scheme, hscheme, hmem⟩ := rule.exists_scheme_of_mem_marks mark hmark
  have hascii : ∀ c ∈ front, c.toNat < 128 := by
    intro c hc
    apply Nat.lt_of_not_le
    intro hforeign
    refine hplain ⟨front, rest, htext, ?_, c, hc, hforeign⟩
    rw [hfold]
    exact List.mem_map_of_mem hmem
  have hbegins : BeginsPlainly mark found.text := by
    rw [htext, ← hfold]
    exact .of_ascii_front front rest hascii
  rw [Scheme.ofAddress_of_beginsPlainly (mark, scheme) hmem found.text hbegins]
  exact hscheme

end BoundaryRule

end UrlHarvest
