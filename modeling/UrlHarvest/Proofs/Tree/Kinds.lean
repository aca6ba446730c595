import UrlHarvest.Proofs.Reference.Kinds
import UrlHarvest.Proofs.Tree.Collect

namespace UrlHarvest

open Text

namespace Url

variable (value context : String) (position : Option Position)

theorem type_ofReference :
    (ofReference value context position).type = some (Reference.kind value.toList).tag :=
  rfl

theorem toList_value_ofReference :
    (ofReference value context position).value.toList = trim value.toList :=
  toList_trimmed value

theorem scheme_ofReference :
    (ofReference value context position).scheme = Scheme.ofAddress (trim value.toList) := by
  rw [ofReference, ofValue, toList_trimmed]

end Url

namespace Tree

open Reference (Agree Disguised Kind holds kind)

-- What one of the three collections gives, for any tree, list or map.
def Collected (url : Url) : Prop :=
  (∃ path tree, url ∈ references path tree) ∨
    (∃ context items, url ∈ referencesAmong context items) ∨
      ∃ context entries, url ∈ referencesOf context entries

theorem collected_ofReference (value path : String) (h : holds value.toList = true) :
    Collected (Url.ofReference value path none) := by
  refine .inl ⟨path, text value, ?_⟩
  rw [references_text, if_pos h]
  exact List.mem_singleton_self _

-- A record that was made of a reference.
def MadeOfReference (url : Url) : Prop :=
  ∃ leaf context position, holds leaf.toList = true ∧
    url = Url.ofReference leaf context position

theorem madeOfReference_of_mem_references (path : String) (tree : Tree) (url : Url)
    (hurl : url ∈ references path tree) : MadeOfReference url := by
  obtain ⟨⟨place, leaf⟩, -, hmade⟩ := List.mem_filterMap.mp hurl
  obtain ⟨hholds, he⟩ := Option.ite_none_right_eq_some.mp hmade
  exact ⟨leaf, place, none, hholds, (Option.some.inj he).symm⟩

theorem madeOfReference_of_mem_referencesAmong (context : String) (items : List Tree) (url : Url)
    (hurl : url ∈ referencesAmong context items) : MadeOfReference url := by
  obtain ⟨⟨item, index⟩, -, hmade⟩ := List.mem_filterMap.mp hurl
  cases item with
  | text leaf =>
      obtain ⟨hholds, he⟩ := Option.ite_none_right_eq_some.mp hmade
      exact ⟨leaf, underIndex context index, some ⟨index + 1, 1⟩, hholds, (Option.some.inj he).symm⟩
  | _ => cases hmade

theorem madeOfReference_of_mem_referencesOf (context : String) (entries : List (String × Tree))
    (url : Url) (hurl : url ∈ referencesOf context entries) : MadeOfReference url := by
  obtain ⟨⟨key, value⟩, -, hurl⟩ := List.mem_flatMap.mp hurl
  cases value with
  | text leaf =>
      obtain ⟨hholds, hurl⟩ := List.mem_ite_nil_right.mp hurl
      exact ⟨leaf, underKey context key, none, hholds, List.mem_singleton.mp hurl⟩
  | list items => exact madeOfReference_of_mem_referencesAmong _ _ url hurl
  | map inner => exact madeOfReference_of_mem_references _ _ url hurl
  | null | bool | number | moment => cases hurl

theorem Collected.madeOfReference {url : Url} (h : Collected url) : MadeOfReference url := by
  rcases h with ⟨path, tree, hurl⟩ | ⟨context, items, hurl⟩ | ⟨context, entries, hurl⟩
  · exact madeOfReference_of_mem_references path tree url hurl
  · exact madeOfReference_of_mem_referencesAmong context items url hurl
  · exact madeOfReference_of_mem_referencesOf context entries url hurl

-- What leads somewhere is of a known kind unless its mark is disguised, and what was collected is
-- tagged with that kind.
theorem tagged_unknown_iff_disguised (value : Text) (url : Url) :
    (holds value = true → (kind value = .unknown ↔ Disguised (trim value))) ∧
    (Collected url → ∃ kind : Kind, url.type = some kind.tag ∧
      (kind = .unknown ↔ Disguised url.value.toList)) := by
  refine ⟨Reference.kind_eq_unknown_iff value, fun hurl => ?_⟩
  obtain ⟨leaf, context, position, hholds, rfl⟩ := hurl.madeOfReference
  refine ⟨kind leaf.toList, Url.type_ofReference leaf context position, ?_⟩
  rw [Url.toList_value_ofReference, Reference.kind_eq_unknown_iff _ hholds]

-- A mark in capitals is none the less known.
theorem tagged_unknown_iff_disguised_capitals :
    let value := " FTPS://x"
    let url := Url.ofReference value "root.link" none
    holds value.toList = true ∧ ¬ Disguised (trim value.toList) ∧
    Collected url ∧ ∃ kind : Kind, url.type = some kind.tag ∧
      (kind = .unknown ↔ Disguised url.value.toList) := by
  intro value url
  have hholds : holds value.toList = true := by decide
  have hknown : kind value.toList ≠ .unknown := by decide
  have hurl : Collected url := collected_ofReference value "root.link" hholds
  have h := tagged_unknown_iff_disguised value.toList url
  exact ⟨hholds, mt (h.1 hholds).mpr hknown, hurl, h.2 hurl⟩

-- The long s is folded into the mark and not read into it.
theorem collected_of_unknown_kind :
    let tree := map [("link", text "httpſ://a.b")]
    holds "httpſ://a.b".toList = true ∧ kind "httpſ://a.b".toList = .unknown ∧
    (references "root" tree).map Url.label =
      [("httpſ://a.b", some "unknown", some "root.link")] := by
  decide

-- The kind that is told by the whole value and the scheme that is told by its front never
-- contradict each other, neither in a value nor in a record.
theorem tag_agrees_with_scheme (value : Text) (url : Url) :
    Agree (kind value).tag (Scheme.ofAddress (trim value)) ∧
    (Collected url → ∃ tag, url.type = some tag ∧ Agree tag url.scheme) := by
  refine ⟨Reference.agree_kind value, fun hurl => ?_⟩
  obtain ⟨leaf, context, position, -, rfl⟩ := hurl.madeOfReference
  refine ⟨(kind leaf.toList).tag, Url.type_ofReference leaf context position, ?_⟩
  rw [Url.scheme_ofReference]
  exact Reference.agree_kind leaf.toList

theorem tag_agrees_with_scheme_of_mailbox :
    let url := Url.ofReference "MailTo:a@b.c" "root.mail" none
    Collected url ∧ (∃ tag, url.type = some tag ∧ Agree tag url.scheme) ∧
    Agree "mailto" (Scheme.ofAddress "MailTo:a@b.c".toList) := by
  intro url
  have hurl : Collected url := collected_ofReference _ _ (by decide)
  have h := tag_agrees_with_scheme "MailTo:a@b.c".toList url
  exact ⟨hurl, h.2 hurl, h.1⟩

end Tree

end UrlHarvest
