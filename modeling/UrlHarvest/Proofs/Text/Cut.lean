import Mathlib.Data.List.TakeWhile
import UrlHarvest.Text.Basic

namespace UrlHarvest.Text

variable (mark : Char) (text front rest behind : Text)

theorem bne_of_notMem {mark : Char} {text : Text} (h : mark ∉ text) :
    ∀ c ∈ text, (c != mark) = true := by
  intro c hc
  rw [bne_iff_ne]
  rintro rfl
  exact h hc

theorem cutAt_of_notMem (h : mark ∉ text) : cutAt mark text = (text, none) := by
  have hall := bne_of_notMem h
  rw [cutAt, List.takeWhile_eq_self_iff.mpr hall, List.dropWhile_eq_nil_iff.mpr hall]

theorem cutAt_append_cons (h : mark ∉ front) :
    cutAt mark (front ++ mark :: rest) = (front, some rest) := by
  have hall := bne_of_notMem h
  rw [cutAt, List.takeWhile_append_of_pos hall, List.dropWhile_append_of_pos hall]
  simp

-- A text is cut at its first mark, or holds none.
theorem cutAt_cases :
    mark ∉ text ∧ cutAt mark text = (text, none) ∨
      ∃ front rest, mark ∉ front ∧ text = front ++ mark :: rest ∧
        cutAt mark text = (front, some rest) := by
  by_cases h : mark ∈ text
  · obtain ⟨front, rest, rfl, hfront⟩ := List.eq_append_cons_of_mem h
    exact .inr ⟨front, rest, hfront, rfl, cutAt_append_cons mark front rest hfront⟩
  · exact .inl ⟨h, cutAt_of_notMem mark text h⟩

theorem notMem_cutAt : mark ∉ (cutAt mark text).1 := by
  rcases cutAt_cases mark text with ⟨h, he⟩ | ⟨front, rest, h, -, he⟩
  · rwa [he]
  · rwa [he]

theorem cutAt_prefix : (cutAt mark text).1 <+: text :=
  List.takeWhile_prefix _

theorem cutAt_suffix : (cutAt mark text).2.getD [] <:+ text := by
  rcases cutAt_cases mark text with ⟨-, he⟩ | ⟨front, rest, -, rfl, he⟩
  · rw [he]
    exact List.nil_suffix
  · rw [he]
    exact (List.suffix_cons _ _).trans (List.suffix_append _ _)

-- A mark with nothing behind it may be left out: what is cut off stays the same.
theorem cutAt_append_marked (h : mark ∉ front) :
    (cutAt mark (front ++ if behind.isEmpty then [] else mark :: behind)).1 = front ∧
      (cutAt mark (front ++ if behind.isEmpty then [] else mark :: behind)).2.getD [] =
        behind := by
  cases behind with
  | nil => simp [cutAt_of_notMem mark front h]
  | cons c behind => simp [cutAt_append_cons mark front (c :: behind) h]

end UrlHarvest.Text
