import UrlHarvest.CommandLine.Workspace

namespace UrlHarvest

-- The limits that no configuration goes below.
structure SafetySettings.Bounded (safety : SafetySettings) : Prop where
  contentSize : 1000 ≤ safety.contentSize
  outputLines : 100 ≤ safety.outputLines
  documents : 1 ≤ safety.documents

theorem SafetySettings.bounded_default : Bounded {} := by
  constructor <;> decide

namespace Settings

theorem Checked.and_eq_ok {α β : Type} {first : Checked α} {second : Checked β}
    {a : α} {b : β} (h : first.and second = .ok (a, b)) : first = .ok a ∧ second = .ok b := by
  cases first with
  | error details => cases second <;> cases h
  | ok x =>
      cases second with
      | error details => cases h
      | ok y =>
          cases h
          exact ⟨rfl, rfl⟩

theorem Checked.exists_of_map {α β : Type} {read : Checked α} {f : α → β} {b : β}
    (h : read.map f = .ok b) : ∃ a, read = .ok a ∧ f a = b := by
  cases read with
  | error details => cases h
  | ok a =>
      cases h
      exact ⟨a, rfl, rfl⟩

-- What is read of a configuration is its default, or comes from the value at its key.
theorem eq_default_or_read_of_field {α : Type} {entries : List (String × Tree)} {name : String}
    {default value : α} {read : Tree → Except Cause α}
    (h : field entries name default read = .ok value) :
    value = default ∨ ∃ tree, read tree = .ok value := by
  rw [field] at h
  split at h
  · cases h
    exact .inl rfl
  · next tree _ =>
      cases hread : read tree with
      | error cause =>
          rw [hread] at h
          cases h
      | ok other =>
          rw [hread] at h
          cases h
          exact .inr ⟨tree, hread⟩

theorem eq_default_or_read_of_part {α : Type} {entries : List (String × Tree)}
    {name model : String} {default value : α} {read : List (String × Tree) → Checked α}
    (h : part entries name model default read = .ok value) :
    value = default ∨ ∃ inner, read inner = .ok value := by
  rw [part] at h
  split at h
  · cases h
    exact .inl rfl
  · next inner _ =>
      cases hread : read inner with
      | error details =>
          rw [hread] at h
          cases h
      | ok other =>
          rw [hread] at h
          cases h
          exact .inr ⟨inner, hread⟩
  · cases h

theorem le_of_readAtLeast {least value : Nat} {tree : Tree}
    (h : readAtLeast least tree = .ok value) : least ≤ value := by
  rw [readAtLeast] at h
  cases hread : readWhole tree with
  | error cause =>
      rw [hread] at h
      cases h
  | ok whole =>
      rw [hread] at h
      change (if (least : Int) ≤ whole then .ok whole.toNat else .error (Cause.tooSmall least)) =
        Except.ok value at h
      split at h
      · cases h
        omega
      · cases h

theorem le_of_field {entries : List (String × Tree)} {name : String} {least default value : Nat}
    (hdefault : least ≤ default)
    (h : field entries name default (readAtLeast least) = .ok value) : least ≤ value := by
  rcases eq_default_or_read_of_field h with rfl | ⟨tree, hread⟩
  · exact hdefault
  · exact le_of_readAtLeast hread

theorem bounded_of_readSafety {entries : List (String × Tree)} {safety : SafetySettings}
    (h : readSafety entries = .ok safety) : safety.Bounded := by
  obtain ⟨⟨enabled, contentSize, outputLines, documents⟩, hread, rfl⟩ :=
    Checked.exists_of_map h
  obtain ⟨-, hread⟩ := Checked.and_eq_ok hread
  obtain ⟨hsize, hread⟩ := Checked.and_eq_ok hread
  obtain ⟨hlines, hdocuments⟩ := Checked.and_eq_ok hread
  exact ⟨le_of_field (by decide) hsize, le_of_field (by decide) hlines,
    le_of_field (by decide) hdocuments⟩

theorem bounded_of_ofTree {tree : Tree} {settings : Settings} (h : ofTree tree = .ok settings) :
    settings.safety.Bounded := by
  cases tree with
  | map entries =>
      obtain ⟨⟨safety, output, logging⟩, hread, rfl⟩ := Checked.exists_of_map h
      rcases eq_default_or_read_of_part (Checked.and_eq_ok hread).1 with rfl | ⟨inner, hsafety⟩
      · exact SafetySettings.bounded_default
      · exact bounded_of_readSafety hsafety
  | _ => cases h

theorem bounded_of_ofDocument {bytes : List UInt8} {settings : Settings}
    (h : ofDocument bytes = .ok settings) : settings.safety.Bounded := by
  rw [ofDocument] at h
  split at h
  · cases h
  · split at h
    · next htree =>
        cases h
        exact bounded_of_ofTree htree
    · cases h

end Settings

-- Whichever file the settings come from, they are within the bounds.
theorem CommandLine.Workspace.bounded_of_settings {workspace : Workspace} {asked : Option FilePath}
    {settings : Settings} (h : workspace.settings asked = .ok settings) :
    settings.safety.Bounded := by
  simp only [Workspace.settings] at h
  split at h
  · cases h
    exact SafetySettings.bounded_default
  · split at h
    · next hdocument =>
        cases h
        exact Settings.bounded_of_ofDocument hdocument
    · cases h
    · cases h

end UrlHarvest
