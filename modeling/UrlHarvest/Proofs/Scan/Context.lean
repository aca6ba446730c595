import UrlHarvest.Proofs.Tidy.Firsts
import UrlHarvest.Scan.Context

namespace UrlHarvest

open Tidy

section Unseen

variable {α : Type} (key : α → String) (seen : Std.HashSet String) (item : α) (rest : List α)

theorem firsts_unseen_of_seen (hseen : seen.contains (key item) = true) :
    firsts key ((item :: rest).filter fun other => !seen.contains (key other)) =
      firsts key (rest.filter fun other => !seen.contains (key other)) := by
  rw [List.filter_cons_of_neg (by simp [hseen])]

-- An item that is kept counts as seen for the ones behind it.
theorem firsts_unseen_of_new (hnew : seen.contains (key item) = false) :
    firsts key ((item :: rest).filter fun other => !seen.contains (key other)) =
      item :: firsts key (rest.filter fun other =>
        !(seen.insert (key item)).contains (key other)) := by
  rw [List.filter_cons_of_pos (by simp [hnew]), firsts_cons, List.filter_filter]
  congr 2
  apply List.filter_congr
  intro other _
  rw [Std.HashSet.contains_insert, Bool.not_or, Bool.beq_comm]

end Unseen

namespace Finding

-- The record that a finding makes when its value is not known yet. An empty value makes none.
def url? : Finding → Option Url
  | .url value position context type =>
    if value = "" then none else some (Url.ofValue value position context type)
  | .problem _ => none

def problem? : Finding → Option Problem
  | .url .. => none
  | .problem met => some met

theorem url?_inLine (value : Text) (line : String) (lineIndex columnIndex : Int)
    (hvalue : value ≠ []) :
    (inLine value line lineIndex columnIndex).url? =
      some (Url.ofValue (String.ofList value) (some ⟨lineIndex + 1, columnIndex + 1⟩)
        (some line) none) := by
  simp [inLine, url?, hvalue]

end Finding

namespace ScanContext

@[simp] theorem takeAll_nil (context : ScanContext) : context.takeAll [] = context := rfl

theorem takeAll_cons (context : ScanContext) (finding : Finding) (rest : List Finding) :
    context.takeAll (finding :: rest) = (context.take finding).takeAll rest := rfl

-- A finding that is not recorded has no value, or one that was seen before.
theorem take_cases (context : ScanContext) (finding : Finding) :
    (∃ problem, finding.url? = none ∧ finding.problem? = some problem ∧
      context.take finding = context.note problem) ∨
    (finding.url? = none ∧ finding.problem? = none ∧ context.take finding = context) ∨
    (∃ url, finding.url? = some url ∧ finding.problem? = none ∧
      context.seen.contains url.value = true ∧ context.take finding = context) ∨
    (∃ url, finding.url? = some url ∧ finding.problem? = none ∧
      context.seen.contains url.value = false ∧
      context.take finding = { context with
        seen := context.seen.insert url.value
        urls := context.urls.push url }) := by
  cases finding with
  | problem problem => exact .inl ⟨problem, rfl, rfl, rfl⟩
  | url value position snippet type =>
      by_cases hv : value = ""
      · exact .inr (.inl ⟨by simp [Finding.url?, hv], rfl, by simp [take, add, isNew, hv]⟩)
      · cases hs : context.seen.contains value with
        | true =>
            exact .inr (.inr (.inl ⟨Url.ofValue value position snippet type,
              by simp [Finding.url?, hv], rfl, hs, by simp [take, add, isNew, hs]⟩))
        | false =>
            exact .inr (.inr (.inr ⟨Url.ofValue value position snippet type,
              by simp [Finding.url?, hv], rfl, hs,
              by simp [take, add, isNew, hv, hs, Url.ofValue]⟩))

theorem toList_urls_takeAll (context : ScanContext) (findings : List Finding) :
    (context.takeAll findings).urls.toList =
      context.urls.toList ++ firsts Url.value
        ((findings.filterMap Finding.url?).filter fun url =>
          !context.seen.contains url.value) := by
  induction findings generalizing context with
  | nil => simp
  | cons finding rest ih =>
      rw [takeAll_cons, ih]
      rcases context.take_cases finding with
        ⟨problem, hu, -, he⟩ | ⟨hu, -, he⟩ | ⟨url, hu, -, hs, he⟩ | ⟨url, hu, -, hs, he⟩
      · rw [he, List.filterMap_cons_none hu]
        rfl
      · rw [he, List.filterMap_cons_none hu]
      · rw [he, List.filterMap_cons_some hu, firsts_unseen_of_seen Url.value _ url _ hs]
      · rw [he, List.filterMap_cons_some hu, firsts_unseen_of_new Url.value _ url _ hs,
          Array.toList_push, List.append_assoc, List.singleton_append]

theorem toList_problems_takeAll (context : ScanContext) (findings : List Finding) :
    (context.takeAll findings).problems.toList =
      context.problems.toList ++ findings.filterMap Finding.problem? := by
  induction findings generalizing context with
  | nil => simp
  | cons finding rest ih =>
      rw [takeAll_cons, ih]
      rcases context.take_cases finding with
        ⟨problem, -, hp, he⟩ | ⟨-, hp, he⟩ | ⟨url, -, hp, -, he⟩ | ⟨url, -, hp, -, he⟩
      · rw [he, List.filterMap_cons_some hp]
        simp [note]
      all_goals rw [he, List.filterMap_cons_none hp]

theorem contains_seen_takeAll (context : ScanContext) (findings : List Finding)
    (value : String) :
    (context.takeAll findings).seen.contains value =
      (context.seen.contains value ||
        ((findings.filterMap Finding.url?).map Url.value).contains value) := by
  induction findings generalizing context with
  | nil => simp
  | cons finding rest ih =>
      rw [takeAll_cons, ih]
      rcases context.take_cases finding with
        ⟨problem, hu, -, he⟩ | ⟨hu, -, he⟩ | ⟨url, hu, -, hs, he⟩ | ⟨url, hu, -, hs, he⟩
      · rw [he, List.filterMap_cons_none hu]
        rfl
      · rw [he, List.filterMap_cons_none hu]
      · rw [he, List.filterMap_cons_some hu, List.map_cons, List.contains_cons]
        by_cases hv : value = url.value
        · rw [hv, hs, Bool.true_or, Bool.true_or]
        · rw [beq_false_of_ne hv, Bool.false_or]
      · rw [he, List.filterMap_cons_some hu, List.map_cons, List.contains_cons,
          Std.HashSet.contains_insert, Bool.beq_comm, Bool.or_left_comm, Bool.or_assoc]

theorem toList_urls_takeAll_fresh (findings : List Finding) :
    (takeAll {} findings).urls.toList =
      firsts Url.value (findings.filterMap Finding.url?) := by
  rw [toList_urls_takeAll, List.filter_eq_self.mpr (by simp)]
  rfl

theorem exists_finding_of_mem_urls (findings : List Finding) (url : Url)
    (hurl : url ∈ (takeAll {} findings).urls.toList) :
    ∃ finding ∈ findings, finding.url? = some url := by
  rw [toList_urls_takeAll_fresh] at hurl
  exact List.mem_filterMap.mp (mem_of_mem_firsts Url.value url _ hurl)

theorem mem_values_takeAll_fresh (findings : List Finding) (value : String) :
    value ∈ (takeAll {} findings).urls.toList.map Url.value ↔
      value ∈ (findings.filterMap Finding.url?).map Url.value := by
  rw [toList_urls_takeAll_fresh, mem_map_firsts]

end ScanContext

end UrlHarvest
