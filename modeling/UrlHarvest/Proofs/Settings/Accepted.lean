import UrlHarvest.Proofs.Settings.Bounds
import UrlHarvest.Proofs.Text.Lowercase

namespace UrlHarvest

namespace Settings

-- What every accepted configuration keeps to.
structure Valid (settings : Settings) : Prop where
  safety : settings.safety.Bounded
  level : String.ofList (Text.lower settings.logging.level.toList) ∈ levelNames

theorem mem_levelNames_of_readLevel {tree : Tree} {level : String}
    (h : readLevel tree = .ok level) :
    String.ofList (Text.lower level.toList) ∈ levelNames := by
  cases tree with
  | text name =>
      rw [readLevel] at h
      split at h
      · next hname =>
          cases h
          simpa using hname
      · cases h
  | _ => cases h

theorem mem_levelNames_default :
    String.ofList (Text.lower ({} : LoggingSettings).level.toList) ∈ levelNames := by
  decide

theorem mem_levelNames_of_readLogging {entries : List (String × Tree)} {logging : LoggingSettings}
    (h : readLogging entries = .ok logging) :
    String.ofList (Text.lower logging.level.toList) ∈ levelNames := by
  obtain ⟨level, hfield, rfl⟩ := Checked.exists_of_map h
  rcases eq_default_or_read_of_field hfield with rfl | ⟨tree, hread⟩
  · exact mem_levelNames_default
  · exact mem_levelNames_of_readLevel hread

theorem valid_of_ofTree {tree : Tree} {settings : Settings} (h : ofTree tree = .ok settings) :
    settings.Valid := by
  refine ⟨bounded_of_ofTree h, ?_⟩
  cases tree with
  | map entries =>
      obtain ⟨⟨safety, output, logging⟩, hread, rfl⟩ := Checked.exists_of_map h
      have hlogging := (Checked.and_eq_ok (Checked.and_eq_ok hread).2).2
      rcases eq_default_or_read_of_part hlogging with rfl | ⟨inner, hinner⟩
      · exact mem_levelNames_default
      · exact mem_levelNames_of_readLogging hinner
  | _ => cases h

section Dumped

theorem field_of_lookup {α : Type} {entries : List (String × Tree)} {name : String}
    {default value : α} {read : Tree → Except Cause α} {tree : Tree}
    (hlookup : entries.lookup name = some tree) (hread : read tree = .ok value) :
    field entries name default read = .ok value := by
  simp only [field, hlookup, hread]

theorem part_of_lookup {α : Type} {entries inner : List (String × Tree)} {name model : String}
    {default value : α} {read : List (String × Tree) → Checked α}
    (hlookup : entries.lookup name = some (.map inner)) (hread : read inner = .ok value) :
    part entries name model default read = .ok value := by
  simp only [part, hlookup, hread]

theorem readAtLeast_whole {least value : Nat} (h : least ≤ value) :
    readAtLeast least (.number (.whole value)) = .ok value := by
  change (if (least : Int) ≤ value then _ else _) = _
  rw [if_pos (Int.ofNat_le.mpr h)]
  rfl

theorem readSafety_toTree {safety : SafetySettings} (h : safety.Bounded) :
    ∃ entries, safety.toTree = .map entries ∧ readSafety entries = .ok safety := by
  refine ⟨_, rfl, ?_⟩
  have henabled : readBool (.bool safety.enabled) = .ok safety.enabled := rfl
  rw [readSafety, field_of_lookup rfl henabled,
    field_of_lookup rfl (readAtLeast_whole h.contentSize),
    field_of_lookup rfl (readAtLeast_whole h.outputLines),
    field_of_lookup rfl (readAtLeast_whole h.documents)]
  rfl

theorem readOutput_toTree (output : OutputSettings) :
    ∃ entries, output.toTree = .map entries ∧ readOutput entries = .ok output :=
  ⟨_, rfl, rfl⟩

theorem readLogging_toTree {logging : LoggingSettings}
    (h : String.ofList (Text.lower logging.level.toList) ∈ levelNames) :
    ∃ entries, logging.toTree = .map entries ∧ readLogging entries = .ok logging := by
  refine ⟨_, rfl, ?_⟩
  have hread : readLevel (.text logging.level) = .ok logging.level :=
    if_pos (List.contains_iff_mem.mpr h)
  rw [readLogging, field_of_lookup rfl hread]
  rfl

theorem ofTree_toTree {settings : Settings} (h : settings.Valid) :
    ofTree settings.toTree = .ok settings := by
  obtain ⟨_, hsafety, hreadSafety⟩ := readSafety_toTree h.safety
  obtain ⟨_, houtput, hreadOutput⟩ := readOutput_toTree settings.output
  obtain ⟨_, hlogging, hreadLogging⟩ := readLogging_toTree h.level
  rw [toTree, hsafety, houtput, hlogging, ofTree, part_of_lookup rfl hreadSafety,
    part_of_lookup rfl hreadOutput, part_of_lookup rfl hreadLogging]
  rfl

end Dumped

-- A level that is known in small letters is known in capitals as well.
theorem exists_level_of_mem_levelNames (name : String)
    (h : String.ofList (Text.lower name.toList) ∈ levelNames) :
    ∃ level : Log.Level, String.ofList (Text.lower name.toList) = level.tag ∧
      Text.capitals name.toList = level.tag.toList.map Char.toUpper := by
  have hall : ∀ small ∈ levelNames, ∃ level ∈ Log.Level.all, small = level.tag := by decide
  obtain ⟨level, -, he⟩ := hall _ h
  have hlower : Text.lower name.toList = level.tag.toList := by
    rw [← he, String.toList_ofList]
  have hreads : Text.ReadsPlain level.tag.toList ∧ 'k' ∉ level.tag.toList := by
    cases level <;> decide
  obtain ⟨hplain, hfold⟩ := Text.map_foldLetter_of_lowerFrom _ _ false hreads.1 hlower
  refine ⟨level, he, ?_⟩
  rw [Text.capitals_of_isPlain _ hplain (hfold ▸ hreads.2), hfold]

-- What is accepted keeps to the bounds and names a level that the log knows, so that its default
-- is not needed, and is accepted again as it is written down.
theorem accepted_settings_are_sound (tree : Tree) (settings : Settings)
    (h : ofTree tree = .ok settings) :
    settings.safety.Bounded ∧
    (∃ level : Log.Level,
      String.ofList (Text.lower settings.logging.level.toList) = level.tag ∧
      (settings.logging.levelName, level.weight) ∈ Log.thresholds ∧
      Log.threshold? settings.logging.levelName = some level.weight) ∧
    ofTree settings.toTree = .ok settings := by
  have hvalid := valid_of_ofTree h
  refine ⟨hvalid.safety, ?_, ofTree_toTree hvalid⟩
  obtain ⟨level, hlower, hcapitals⟩ := exists_level_of_mem_levelNames _ hvalid.level
  refine ⟨level, hlower, ?_⟩
  rw [LoggingSettings.levelName, hcapitals]
  cases level <;> decide

-- Numbers and yes are read out of texts, and a key that is not known is passed over.
theorem accepted_settings_are_sound_lax :
    let tree : Tree := .map [
      ("safety", .map [("file_size_warn_bytes", .text " 1_000.0 "), ("enabled", .text "OFF"),
        ("many_documents_threshold", .bool true)]),
      ("logging", .map [("level", .text "WaRning"), ("colour", .null)])]
    let settings : Settings :=
      ⟨⟨false, 1000, 50000, 1⟩, ⟨false, false⟩, ⟨"WaRning"⟩⟩
    ofTree tree = .ok settings ∧ settings.safety.Bounded ∧
    (∃ level : Log.Level, Log.threshold? settings.logging.levelName = some level.weight) ∧
    ofTree settings.toTree = .ok settings := by
  intro tree settings
  have hread : ofTree tree = .ok settings := by rfl
  obtain ⟨hbounded, ⟨level, -, -, hthreshold⟩, hagain⟩ :=
    accepted_settings_are_sound tree settings hread
  exact ⟨hread, hbounded, ⟨level, hthreshold⟩, hagain⟩

end Settings

end UrlHarvest
