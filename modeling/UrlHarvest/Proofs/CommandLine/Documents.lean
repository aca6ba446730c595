import Mathlib.Data.List.Forall2
import UrlHarvest.CommandLine.Run
import UrlHarvest.Proofs.Settings.Bounds
import UrlHarvest.Proofs.Text.Control

namespace UrlHarvest.CommandLine

abbrev File :=
  FilePath × List UInt8

def File.content (file : File) : String :=
  String.ofList (Text.Utf8.decode file.2)

-- The format that is asked for, or else the one that the name of the file stands for.
def File.tag (file : File) (options : ExtractOptions) : String :=
  options.tag.getD file.1.format.tag

-- What is reported of a file that is not too long.
def File.report (file : File) (options : ExtractOptions) : Report :=
  let extraction := Extraction.run .builtin {} .never file.content (file.tag options)
  let found := extraction.result.urls
  ⟨file.1, extraction, if options.dedupe then Tidy.dedupeUrls found else found⟩

-- What is shown of a file: each address in a line of its own.
def File.shown (file : File) (options : ExtractOptions) : String :=
  String.join ((file.report options).urls.map fun url => url.value ++ "\n")

theorem File.ended_shown (file : File) (options : ExtractOptions) : Ended (file.shown options) := by
  have hlines := ended_join ((file.report options).urls.map Url.value)
  rwa [List.map_map] at hlines

@[simp] theorem File.result_report (file : File) (options : ExtractOptions) :
    (file.report options).result = extractUrls file.content (file.tag options) := rfl

-- A host would be warned of one of the files, or of their number.
def Refused (safety : SafetySettings) (files : List File) : Prop :=
  safety.enabled = true ∧
    (safety.documents < files.length ∨
      ∃ file ∈ files, safety.contentSize < file.content.length)

instance (safety : SafetySettings) (files : List File) : Decidable (Refused safety files) :=
  inferInstanceAs (Decidable (_ ∧ (_ ∨ _)))

section Reports

variable (settings : Settings) (options : ExtractOptions)

theorem reportsOf_cons (file : File) (rest : List File) :
    reportsOf settings options (file :: rest) =
      match settings.safety.contentWarning? file.content.length with
      | some warning => ([], some (file.1.toString ++ ": " ++ warning.message))
      | none => (file.report options :: (reportsOf settings options rest).1,
          (reportsOf settings options rest).2) := by
  obtain ⟨path, bytes⟩ := file
  simp only [reportsOf, Report.ofContent, File.content]
  cases settings.safety.contentWarning? (String.ofList (Text.Utf8.decode bytes)).length <;> rfl

theorem reportsOf_of_short (files : List File)
    (hshort : ∀ file ∈ files, settings.safety.contentWarning? file.content.length = none) :
    reportsOf settings options files = (files.map (·.report options), none) := by
  induction files with
  | nil => rfl
  | cons file rest ih =>
      obtain ⟨hfile, hrest⟩ := List.forall_mem_cons.mp hshort
      rw [reportsOf_cons, hfile, ih hrest, List.map_cons]

-- The refusal does not depend on how many files were gone through before.
theorem exists_refusal_of_long (files : List File) (file : File) (hfile : file ∈ files)
    (hlong : settings.safety.contentWarning? file.content.length ≠ none) :
    ∃ line, (reportsOf settings options files).2 = some line := by
  induction files with
  | nil => cases hfile
  | cons first rest ih =>
      rw [reportsOf_cons]
      cases hfirst : settings.safety.contentWarning? first.content.length with
      | some warning => exact ⟨_, rfl⟩
      | none =>
          rcases List.mem_cons.mp hfile with rfl | hrest
          · exact absurd hfirst hlong
          · exact ih hrest

end Reports

/-! What is shown of all files together -/

theorem joined_append_newline (values : List String) (hne : values ≠ []) :
    Tidy.joined values ++ "\n" = String.join (values.map (· ++ "\n")) := by
  induction values with
  | nil => exact absurd rfl hne
  | cons value rest ih =>
      rw [List.map_cons, String.join_cons]
      by_cases hrest : rest = []
      · subst rest
        rw [Tidy.joined, String.intercalate_singleton, List.map_nil, String.join_nil,
          String.append_empty]
      · rw [← ih hrest, Tidy.joined, String.intercalate_cons_of_ne_nil hrest, Tidy.joined,
          String.append_assoc, String.append_assoc]

theorem join_flatMap {α : Type} (f : α → List String) (items : List α) :
    String.join (items.flatMap f) = String.join (items.map fun item => String.join (f item)) := by
  induction items with
  | nil => rfl
  | cons item rest ih =>
      rw [List.flatMap_cons, String.join_append, List.map_cons, String.join_cons, ih]

theorem shownReports_map_report (clock : Number) (options : ExtractOptions)
    (hjson : options.json = false) (files : List File) :
    shownReports clock options (files.map (·.report options)) =
      String.join (files.map (·.shown options)) := by
  have hlines : ((files.map (·.report options)).flatMap fun report =>
        report.urls.map Url.value).map (· ++ "\n") =
      files.flatMap fun file => (file.report options).urls.map fun url => url.value ++ "\n" := by
    simp only [List.map_flatMap, List.map_map, List.flatMap_map, Function.comp_def]
  have hshown : String.join (files.map (·.shown options)) = String.join (files.flatMap fun file =>
      (file.report options).urls.map fun url => url.value ++ "\n") :=
    (join_flatMap _ files).symm
  rw [hshown, ← hlines]
  simp only [shownReports, hjson, Bool.false_eq_true, if_false, List.isEmpty_iff]
  split
  · next hnone => rw [hnone, List.map_nil, String.join_nil]
  · next hsome => exact joined_append_newline _ hsome

/-! What comes of an extraction -/

theorem contentWarning?_eq_none_iff (safety : SafetySettings) (size : Nat) :
    safety.contentWarning? size = none ↔
      ¬(safety.enabled = true ∧ safety.contentSize < size) := by
  simp [SafetySettings.contentWarning?]

theorem documentsWarning?_eq_none_iff (safety : SafetySettings) (count : Nat) :
    safety.documentsWarning? count = none ↔
      ¬(safety.enabled = true ∧ safety.documents < count) := by
  simp [SafetySettings.documentsWarning?]

section Extract

variable (clock : Number) (settings : Settings) (options : ExtractOptions) (files : List File)

theorem extract_of_refused (h : Refused settings.safety files) :
    (extract clock settings options files).status = 2 ∧
      (extract clock settings options files).output = "" := by
  obtain ⟨henabled, hbeyond⟩ := h
  cases hmany : settings.safety.documentsWarning? files.length with
  | some warning =>
      rw [extract, hmany]
      exact ⟨rfl, rfl⟩
  | none =>
      have hfew := (documentsWarning?_eq_none_iff settings.safety files.length).mp hmany
      rcases hbeyond with hcount | ⟨file, hfile, hlong⟩
      · exact absurd ⟨henabled, hcount⟩ hfew
      · have hwarned : settings.safety.contentWarning? file.content.length ≠ none :=
          fun hnone => (contentWarning?_eq_none_iff _ _).mp hnone ⟨henabled, hlong⟩
        obtain ⟨line, hline⟩ := exists_refusal_of_long settings options files file hfile hwarned
        simp only [extract, hmany, hline]
        exact ⟨rfl, trivial⟩

theorem extract_of_not_refused (hjson : options.json = false)
    (h : ¬Refused settings.safety files) :
    (extract clock settings options files).output =
        String.join (files.map (·.shown options)) ∧
      (extract clock settings options files).status =
        if ∃ file ∈ files, (extractUrls file.content (file.tag options)).success = false
        then 1 else 0 := by
  have hmany : settings.safety.documentsWarning? files.length = none := by
    rw [documentsWarning?_eq_none_iff]
    exact fun ⟨henabled, hcount⟩ => h ⟨henabled, .inl hcount⟩
  have hshort : ∀ file ∈ files, settings.safety.contentWarning? file.content.length = none := by
    intro file hfile
    rw [contentWarning?_eq_none_iff]
    exact fun ⟨henabled, hlong⟩ => h ⟨henabled, .inr ⟨file, hfile, hlong⟩⟩
  simp only [extract, hmany, reportsOf_of_short settings options files hshort,
    shownReports_map_report clock options hjson, List.all_map, Function.comp_def,
    File.result_report]
  refine ⟨trivial, ?_⟩
  by_cases hall : files.all fun file => (extractUrls file.content (file.tag options)).success
  · rw [if_pos hall, if_neg]
    rintro ⟨file, hfile, hfails⟩
    exact Bool.eq_false_iff.mp hfails (List.all_eq_true.mp hall file hfile)
  · rw [if_neg hall, if_pos]
    · rfl
    · simpa using hall

theorem echoed_extract (terminal : Bool) (hjson : options.json = false)
    (h : ¬Refused settings.safety files) :
    (extract clock settings options files).echoed terminal =
      String.join (files.map fun file => echoed terminal (file.shown options)) := by
  rw [Outcome.echoed, (extract_of_not_refused clock settings options files hjson h).1,
    echoed_join, List.map_map]
  · rfl
  · intro text htext
    obtain ⟨file, -, rfl⟩ := List.mem_map.mp htext
    exact file.ended_shown options

end Extract

/-! One run with many files, and many runs with one file each -/

-- The same words, with one file instead of all of them.
def Words.only (words : Words) (text : String) : Words :=
  { words with others := [text] }

-- The words of a command lead to files that are there.
def LeadTo (workspace : Workspace) (words : List String) (files : List File) : Prop :=
  List.Forall₂ (fun text file => existingFile workspace "PATHS..." text = .ok file) words files

theorem LeadTo.mapM {workspace : Workspace} {words : List String} {files : List File}
    (h : LeadTo workspace words files) :
    words.mapM (existingFile workspace "PATHS...") = .ok files := by
  induction h with
  | nil => rfl
  | cons hfile hrest ih =>
      rw [List.mapM_cons, hfile, ih]
      rfl

theorem runCommand_extract {workspace : Workspace} {words : Words} {files : List File}
    (settings : Settings) (hsome : words.others ≠ [])
    (hfiles : LeadTo workspace words.others files) :
    runCommand workspace settings words .extract =
      .ok (extract workspace.clock settings (extractOptions settings words) files) := by
  have hsome : words.others.isEmpty = false := List.isEmpty_eq_false_iff.mpr hsome
  rw [runCommand, hsome, hfiles.mapM]
  rfl

-- Accepted settings allow one file at least, so a file on its own is refused only for its length.
theorem not_refused_singleton {safety : SafetySettings} (hbounded : safety.Bounded)
    {files : List File} (h : ¬Refused safety files) (file : File) (hfile : file ∈ files) :
    ¬Refused safety [file] := by
  rintro ⟨henabled, hmany | ⟨other, hother, hlong⟩⟩
  · have hone := hbounded.documents
    rw [List.length_singleton] at hmany
    omega
  · rw [List.mem_singleton] at hother
    subst other
    exact h ⟨henabled, .inr ⟨file, hfile, hlong⟩⟩

theorem exists_singles (workspace : Workspace) (settings : Settings) (words : Words)
    (files : List File) (hbounded : settings.safety.Bounded) (hjson : words.has "--json" = false)
    (hfiles : LeadTo workspace words.others files) (h : ¬Refused settings.safety files) :
    ∃ singles, List.Forall₂ (fun text single =>
        runCommand workspace settings (words.only text) .extract = .ok single)
        words.others singles ∧
      ∀ terminal,
        (extract workspace.clock settings (extractOptions settings words) files).echoed terminal =
          String.join (singles.map (Outcome.echoed terminal)) := by
  let options := extractOptions settings words
  refine ⟨files.map fun file => extract workspace.clock settings options [file], ?_, ?_⟩
  · rw [List.forall₂_map_right_iff]
    refine hfiles.imp fun text file hfile => ?_
    exact runCommand_extract settings (List.cons_ne_nil _ _) (.cons hfile .nil)
  · intro terminal
    rw [echoed_extract _ _ _ files terminal hjson h, List.map_map]
    congr 1
    apply List.map_congr_left
    intro file hfile
    have hsingle := not_refused_singleton hbounded h file hfile
    rw [Function.comp, echoed_extract _ _ _ [file] terminal hjson hsingle, List.map_singleton,
      String.join_cons, String.join_nil, String.append_empty]

-- A run with many files is refused as a whole, or shows what the runs with each of them show, in
-- order, and is unsuccessful if one of these is. It does not matter where the output goes.
theorem extract_goes_file_by_file (workspace : Workspace) (asked : Option FilePath)
    (settings : Settings) (words : Words) (files : List File)
    (hsettings : workspace.settings asked = .ok settings) (hjson : words.has "--json" = false)
    (hsome : words.others ≠ []) (hfiles : LeadTo workspace words.others files) :
    let options := extractOptions settings words
    ∃ outcome, runCommand workspace settings words .extract = .ok outcome ∧
      (Refused settings.safety files →
        outcome.status = 2 ∧ ∀ terminal, outcome.echoed terminal = "") ∧
      (¬Refused settings.safety files →
        (∃ singles, List.Forall₂ (fun text single =>
            runCommand workspace settings (words.only text) .extract = .ok single)
            words.others singles ∧
          ∀ terminal, outcome.echoed terminal =
            String.join (singles.map (Outcome.echoed terminal))) ∧
        outcome.status =
          if ∃ file ∈ files, (extractUrls file.content (file.tag options)).success = false
          then 1 else 0) := by
  intro options
  refine ⟨_, runCommand_extract settings hsome hfiles, fun h => ?_, fun h => ?_⟩
  · obtain ⟨hstatus, houtput⟩ := extract_of_refused workspace.clock settings options files h
    refine ⟨hstatus, fun terminal => ?_⟩
    rw [Outcome.echoed, houtput, echoed_empty]
  · have hbounded := Workspace.bounded_of_settings hsettings
    exact ⟨exists_singles workspace settings words files hbounded hjson hfiles h,
      (extract_of_not_refused _ _ _ files hjson h).2⟩

-- Two files, one of which is not text.
def pageFile : File :=
  (⟨[], ["a.json".toList]⟩, Text.Utf8.encode "[\"tel:1\"]".toList)

def noiseFile : File :=
  (⟨[], ["b".toList]⟩, [0xFF, 0x0A])

def smallWorkspace : Workspace where
  directory := ⟨[], []⟩
  userSettings := ⟨[], ["settings".toList]⟩
  entries := [(pageFile.1, .file pageFile.2), (noiseFile.1, .file noiseFile.2)]
  clock := .whole 0

-- Eight files are allowed without settings, and nine are not.
theorem extract_goes_file_by_file_small :
    (∃ outcome page noise,
      runCommand smallWorkspace {} ⟨[], ["a.json", "b"]⟩ .extract = .ok outcome ∧
      runCommand smallWorkspace {} ⟨[], ["a.json"]⟩ .extract = .ok page ∧
      runCommand smallWorkspace {} ⟨[], ["b"]⟩ .extract = .ok noise ∧
      outcome.echoed false = String.join [page.echoed false, noise.echoed false]) ∧
    ∃ outcome,
      runCommand smallWorkspace {} ⟨[], List.replicate 9 "a.json"⟩ .extract = .ok outcome ∧
      outcome.status = 2 ∧ outcome.echoed false = "" := by
  have hpage : existingFile smallWorkspace "PATHS..." "a.json" = .ok pageFile := rfl
  have hnoise : existingFile smallWorkspace "PATHS..." "b" = .ok noiseFile := rfl
  constructor
  · obtain ⟨outcome, hrun, -, hshown⟩ := extract_goes_file_by_file smallWorkspace none {}
      ⟨[], ["a.json", "b"]⟩ [pageFile, noiseFile] rfl rfl (by decide)
      (.cons hpage (.cons hnoise .nil))
    obtain ⟨⟨singles, hsingles, houtput⟩, -⟩ := hshown (by decide)
    cases hsingles with
    | @cons _ page _ _ hpage hrest =>
        cases hrest with
        | @cons _ noise _ _ hnoise hend =>
            cases hend
            exact ⟨outcome, page, noise, hrun, hpage, hnoise, houtput false⟩
  · obtain ⟨outcome, hrun, hrefused, -⟩ := extract_goes_file_by_file smallWorkspace none {}
      ⟨[], List.replicate 9 "a.json"⟩ (List.replicate 9 pageFile) rfl rfl (by decide)
      (by simp [LeadTo, List.replicate, hpage])
    obtain ⟨hstatus, houtput⟩ := hrefused (by decide)
    exact ⟨outcome, hrun, hstatus, houtput false⟩

end UrlHarvest.CommandLine
