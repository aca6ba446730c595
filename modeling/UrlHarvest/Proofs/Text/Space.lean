import Mathlib.Data.List.DropRight
import UrlHarvest.Text.Space

namespace UrlHarvest.Text

theorem trimLeft_trimLeft (text : Text) : trimLeft (trimLeft text) = trimLeft text :=
  List.dropWhile_idempotent _ _

theorem trimRight_trimRight (text : Text) : trimRight (trimRight text) = trimRight text :=
  List.rdropWhile_idempotent _ _

theorem trimRight_isPrefix (text : Text) : trimRight text <+: text :=
  List.rdropWhile_prefix _ _

-- A text whose first code point is not blank keeps it when its end is cut off.
theorem trimLeft_of_prefix (front text : Text) (hfront : front <+: text)
    (htext : trimLeft text = text) : trimLeft front = front := by
  obtain ⟨back, rfl⟩ := hfront
  cases front with
  | nil => rfl
  | cons c rest =>
      have hc : ¬isBlank c = true := List.dropWhile_eq_self_iff.mp htext (by simp)
      exact List.dropWhile_cons_of_neg hc

theorem trim_trim (text : Text) : trim (trim text) = trim text := by
  have hleft : trimLeft (trim text) = trim text :=
    trimLeft_of_prefix _ _ (trimRight_isPrefix _) (trimLeft_trimLeft text)
  rw [trim, hleft, trim, trimRight_trimRight]

theorem trim_sublist (text : Text) : (trim text).Sublist text :=
  (trimRight_isPrefix _).sublist.trans (List.dropWhile_sublist _)

end UrlHarvest.Text

namespace UrlHarvest

@[simp] theorem toList_trimmed (text : String) : (trimmed text).toList = Text.trim text.toList :=
  String.toList_ofList

theorem trimmed_trimmed (text : String) : trimmed (trimmed text) = trimmed text := by
  rw [trimmed, toList_trimmed, Text.trim_trim, trimmed]

end UrlHarvest
