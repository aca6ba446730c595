import UrlHarvest.Proofs.Ini.Dangling

namespace UrlHarvest.Ini

-- Names tell the sections apart, and the settings within each of them. The keys before the first
-- header are in a section that comes before all others.
structure Document.Distinct (document : Document) : Prop where
  top : document.sections.head?.map Section.name = some topName
  sections : (document.sections.map Section.name).Nodup
  settings : ∀ part ∈ document.sections, (part.settings.map Setting.name).Nodup
  shared : (document.shared.map Setting.name).Nodup

namespace Progress

-- The same of a document that is being read, where sections and settings stand in reverse.
structure Distinct (progress : Progress) : Prop where
  top : progress.sections.getLast?.map Section.name = some topName
  sections : (progress.sections.map Section.name).Nodup
  settings : ∀ part ∈ progress.sections, (part.settings.map Setting.name).Nodup
  shared : (progress.shared.map Setting.name).Nodup

theorem distinct_empty : Distinct {} :=
  ⟨rfl, by simp, by simp, List.nodup_nil⟩

variable {progress next : Progress}

theorem Distinct.nodup_settings (h : progress.Distinct) :
    (progress.settings.map Setting.name).Nodup := by
  unfold Progress.settings
  split
  · exact h.shared
  · cases hsections : progress.sections with
    | nil => exact List.nodup_nil
    | cons latest before => exact h.settings latest (hsections ▸ List.mem_cons_self)

theorem Distinct.withSettings (h : progress.Distinct) (settings : List Setting)
    (hsettings : (settings.map Setting.name).Nodup) :
    (progress.withSettings settings).Distinct := by
  unfold Progress.withSettings
  split
  · exact ⟨h.top, h.sections, h.settings, hsettings⟩
  · split
    · exact h
    · rename_i latest before hsections
      have htop := h.top
      have hnames := h.sections
      rw [hsections] at htop hnames
      refine ⟨?_, hnames, ?_, h.shared⟩
      · cases before with
        | nil => exact htop
        | cons other before => exact htop
      · intro part hpart
        rcases List.mem_cons.mp hpart with rfl | hpart
        · exact hsettings
        · exact h.settings part (hsections ▸ List.mem_cons_of_mem latest hpart)

theorem Distinct.addLine (h : progress.Distinct) (line : Text)
    (hnext : progress.addLine line = .ok next) : next.Distinct := by
  have hnames := h.nodup_settings
  unfold Progress.addLine at hnext
  split at hnext
  · rename_i name lines before hsettings
    obtain rfl := Except.ok.inj hnext
    rw [hsettings] at hnames
    exact h.withSettings _ hnames
  · cases hnext

theorem Distinct.openSection (h : progress.Distinct) (number : Nat) (name : String)
    (hnext : progress.openSection number name = .ok next) : next.Distinct := by
  unfold Progress.openSection at hnext
  split at hnext
  · cases hnext
  · rename_i hnew
    dsimp only at hnext
    split at hnext
    · obtain rfl := Except.ok.inj hnext
      exact ⟨h.top, h.sections, h.settings, h.shared⟩
    · obtain rfl := Except.ok.inj hnext
      refine ⟨?_, ?_, ?_, h.shared⟩
      · have htop := h.top
        cases hsections : progress.sections with
        | nil => simp [hsections] at htop
        | cons latest before => rwa [List.getLast?_cons_cons, ← hsections]
      · refine List.nodup_cons.mpr ⟨fun hmem => hnew ?_, h.sections⟩
        obtain ⟨part, hpart, he⟩ := List.mem_map.mp hmem
        exact List.any_eq_true.mpr ⟨part, hpart, beq_iff_eq.mpr he⟩
      · intro part hpart
        rcases List.mem_cons.mp hpart with rfl | hpart
        · exact List.nodup_nil
        · exact h.settings part hpart

theorem Distinct.addSetting (h : progress.Distinct) (number : Nat) (line content : Text)
    (hnext : progress.addSetting number line content = .ok next) : next.Distinct := by
  unfold Progress.addSetting at hnext
  cases hkey : keyAndValue content with
  | mk key value =>
  rw [hkey] at hnext
  dsimp -zeta only at hnext
  extract_lets name noted at hnext
  have hnoted : noted.Distinct := by
    unfold noted
    split
    · exact ⟨h.top, h.sections, h.settings, h.shared⟩
    · exact h
  clear_value noted
  split at hnext
  · cases hnext
  · rename_i hnew
    obtain rfl := Except.ok.inj hnext
    have hnames : name ∉ noted.settings.map Setting.name := by
      intro hmem
      obtain ⟨setting, hsetting, he⟩ := List.mem_map.mp hmem
      exact hnew (List.any_eq_true.mpr ⟨setting, hsetting, beq_iff_eq.mpr he⟩)
    have hadded := hnoted.withSettings (⟨name, value.map ([·])⟩ :: noted.settings)
      (List.nodup_cons.mpr ⟨hnames, hnoted.nodup_settings⟩)
    exact ⟨hadded.top, hadded.sections, hadded.settings, hadded.shared⟩

theorem Distinct.take (h : progress.Distinct) (number : Nat) (line : Text)
    (hnext : progress.take number line = .ok next) : next.Distinct := by
  have hmoved : { progress with indent := indentOf line }.Distinct :=
    ⟨h.top, h.sections, h.settings, h.shared⟩
  rw [take_eq] at hnext
  split at hnext
  · split at hnext
    · exact h.addLine [] hnext
    · exact Except.ok.inj hnext ▸ h
  · split at hnext
    · exact h.addLine _ hnext
    · split at hnext
      · exact hmoved.openSection number _ hnext
      · exact hmoved.addSetting number line _ hnext

theorem Distinct.takeLines (h : progress.Distinct) (number : Nat) (lines : List Text)
    (hnext : progress.takeLines number lines = .ok next) : next.Distinct := by
  induction lines generalizing number progress with
  | nil => exact Except.ok.inj hnext ▸ h
  | cons line rest ih =>
      rw [takeLines_cons] at hnext
      cases htake : progress.take number line with
      | error fault =>
          rw [htake] at hnext
          cases hnext
      | ok after =>
          rw [htake] at hnext
          exact ih (h.take number line htake) (number + 1) hnext

theorem Distinct.document (h : progress.Distinct) : progress.document.Distinct := by
  have hreversed : ∀ settings : List Setting, (settings.map Setting.name).Nodup →
      (settings.reverse.map Setting.name).Nodup := by
    intro settings hsettings
    rw [List.map_reverse]
    exact (List.reverse_perm _).nodup_iff.mpr hsettings
  refine ⟨?_, ?_, ?_, hreversed _ h.shared⟩
  · rw [Progress.document, List.head?_reverse, List.getLast?_map, Option.map_map]
    exact h.top
  · rw [Progress.document, List.map_reverse, List.map_map]
    exact (List.reverse_perm _).nodup_iff.mpr h.sections
  · intro part hpart
    obtain ⟨read, hread, rfl⟩ := List.mem_map.mp (List.mem_reverse.mp hpart)
    exact hreversed _ (h.settings read hread)

end Progress

-- Whatever repeats a name is refused by the reader.
theorem distinct_of_readDocument (text : Text) (document : Document)
    (h : readDocument text = .ok document) : document.Distinct := by
  rw [readDocument_eq] at h
  cases hlines : Progress.takeLines {} 2 (linesOf text) with
  | error fault =>
      rw [hlines] at h
      cases h
  | ok progress =>
      rw [hlines] at h
      simp only [bind, Except.bind] at h
      split at h
      · obtain rfl := Except.ok.inj h
        exact (Progress.distinct_empty.takeLines 2 (linesOf text) hlines).document
      · cases h

end UrlHarvest.Ini
