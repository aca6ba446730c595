import Mathlib.Data.List.Perm.Basic
import UrlHarvest.Proofs.Ini.Distinct
import UrlHarvest.Proofs.Tree.Entries

namespace UrlHarvest.Ini

open Entries
open UrlHarvest.Tree (leaves leaves_ofEntries ofEntries rootPath underKey)

-- The text of a setting. A key that is followed by no sign has none.
def Setting.text? (setting : Setting) : Option String :=
  setting.lines.map fun lines =>
    String.ofList (Text.trimRight (['\n'].intercalate lines.reverse))

-- Settings that have a text, each with the path of its key below `path`.
def optionsBelow (path : String) (settings : List Setting) : List (String × String) :=
  settings.filterMap fun setting => setting.text?.map fun text => (underKey path setting.name, text)

def Section.path (part : Section) : String :=
  if part.name = topName then rootPath else underKey rootPath part.name

namespace Document

-- A section has its own settings, and those shared ones whose names it does not use itself.
def settingsOf (document : Document) (part : Section) : List Setting :=
  part.settings ++ document.shared.filter fun setting =>
    !(part.settings.map Setting.name).contains setting.name

def options (document : Document) : List (String × String) :=
  document.sections.flatMap fun part => optionsBelow part.path (document.settingsOf part)

def topSettings (document : Document) : List Setting :=
  (document.sections.filter (·.name == topName)).flatMap document.settingsOf

def headers (document : Document) : List String :=
  (document.sections.filter (·.name != topName)).map Section.name

-- The options before the first header whose key is the name of a section further down.
def overwritten (document : Document) : List (String × String) :=
  optionsBelow rootPath (document.topSettings.filter fun setting =>
    document.headers.contains setting.name)

-- No key with a value that stands before the first header is the name of a section.
def KeysApart (document : Document) : Prop :=
  ∀ setting ∈ document.topSettings, ∀ part ∈ document.sections, part.name ≠ topName →
    setting.text?.isSome = true → setting.name ≠ part.name

instance (document : Document) : Decidable document.KeysApart :=
  inferInstanceAs (Decidable (∀ setting ∈ document.topSettings, ∀ part ∈ document.sections,
    part.name ≠ topName → setting.text?.isSome = true → setting.name ≠ part.name))

end Document

theorem leaves_entry (path : String) (setting : Setting) :
    leaves (underKey path setting.entry.1) setting.entry.2 =
      (setting.text?.map fun text => (underKey path setting.name, text)).toList := by
  cases setting with
  | mk name lines =>
  cases lines <;> rfl

theorem flatMap_leaves_entries (path : String) (settings : List Setting) :
    (settings.map Setting.entry).flatMap (fun entry => leaves (underKey path entry.1) entry.2) =
      optionsBelow path settings := by
  induction settings with
  | nil => rfl
  | cons setting rest ih =>
      rw [List.map_cons, List.flatMap_cons, leaves_entry, ih, optionsBelow, optionsBelow,
        List.filterMap_cons]
      cases setting.text? <;> rfl

theorem keys_map_entry (settings : List Setting) :
    keys (settings.map Setting.entry) = settings.map Setting.name := by
  rw [keys, List.map_map]
  rfl

theorem without_map_entry (settings : List Setting) (taken : List String) :
    without (settings.map Setting.entry) taken =
      (settings.filter fun setting => !taken.contains setting.name).map Setting.entry := by
  rw [without, List.filter_map]
  rfl

theorem optionsBelow_append (path : String) (front back : List Setting) :
    optionsBelow path (front ++ back) = optionsBelow path front ++ optionsBelow path back :=
  List.filterMap_append

section Sections

variable {document : Document} {part : Section}
  (hshared : (document.shared.map Setting.name).Nodup)
  (hsettings : (part.settings.map Setting.name).Nodup)

include hshared hsettings

theorem putAll_entriesOf :
    (putAll [] (document.entriesOf part)).Perm ((document.settingsOf part).map Setting.entry) := by
  have hknown : (putAll [] (document.shared.map Setting.entry)).Perm
      (document.shared.map Setting.entry) := by
    have h := putAll_perm [] (document.shared.map Setting.entry) List.nodup_nil
      (by rwa [keys_map_entry])
    rwa [show without [] _ = ([] : List (String × Tree)) from rfl, List.append_nil] at h
  rw [Document.entriesOf, List.map_append, putAll_append]
  calc putAll (putAll [] (document.shared.map Setting.entry)) (part.settings.map Setting.entry)
    _ |>.Perm (part.settings.map Setting.entry ++
        without (putAll [] (document.shared.map Setting.entry))
          (part.settings.map Setting.name)) := by
      have h := putAll_perm (putAll [] (document.shared.map Setting.entry))
        (part.settings.map Setting.entry) (nodup_keys_putAll [] _ List.nodup_nil)
        (by rwa [keys_map_entry])
      rwa [keys_map_entry] at h
    _ |>.Perm (part.settings.map Setting.entry ++
        without (document.shared.map Setting.entry) (part.settings.map Setting.name)) :=
      (hknown.filter _).append_left _
    _ |>.Perm ((document.settingsOf part).map Setting.entry) := by
      rw [without_map_entry, ← List.map_append]
      exact .refl _

theorem leaves_section (path : String) :
    (leaves path (ofEntries (document.entriesOf part))).Perm
      (optionsBelow path (document.settingsOf part)) := by
  rw [leaves_ofEntries, ← flatMap_leaves_entries]
  exact (putAll_entriesOf hshared hsettings).flatMap_right _

end Sections

namespace Document

theorem overwritten_eq_nil_iff (document : Document) :
    document.overwritten = [] ↔ document.KeysApart := by
  rw [KeysApart, overwritten, optionsBelow, List.filterMap_eq_nil_iff]
  constructor
  · intro hnone setting hsetting part hpart hname htext he
    have hheader : document.headers.contains setting.name = true := by
      rw [List.contains_eq_mem, decide_eq_true_eq, he]
      exact List.mem_map_of_mem (List.mem_filter.mpr ⟨hpart, bne_iff_ne.mpr hname⟩)
    have hgone := hnone setting (List.mem_filter.mpr ⟨hsetting, hheader⟩)
    rw [Option.map_eq_none_iff] at hgone
    simp [hgone] at htext
  · intro hapart setting hsetting
    obtain ⟨hmem, hheader⟩ := List.mem_filter.mp hsetting
    rw [List.contains_eq_mem, decide_eq_true_eq] at hheader
    obtain ⟨part, hpart, he⟩ := List.mem_map.mp hheader
    obtain ⟨hsection, hname⟩ := List.mem_filter.mp hpart
    rw [Option.map_eq_none_iff, ← Option.not_isSome_iff_eq_none]
    exact fun htext => hapart setting hmem part hsection (bne_iff_ne.mp hname) htext he.symm

variable {document : Document} (h : document.Distinct)

include h

-- The section before the first header comes first, and no other section has its name.
theorem Distinct.exists_top : ∃ top rest, document.sections = top :: rest ∧ top.name = topName ∧
    ∀ part ∈ rest, part.name ≠ topName := by
  have htop := h.top
  have hnames := h.sections
  cases hsections : document.sections with
  | nil => simp [hsections] at htop
  | cons top rest =>
      rw [hsections] at htop hnames
      have hname : top.name = topName := Option.some.inj htop
      refine ⟨top, rest, rfl, hname, fun part hpart he => ?_⟩
      exact (List.nodup_cons.mp hnames).1 (hname ▸ he ▸ List.mem_map_of_mem hpart)

theorem Distinct.topSettings_eq (top : Section) (rest : List Section)
    (hsections : document.sections = top :: rest) :
    document.topSettings = document.settingsOf top ∧
      document.headers = rest.map Section.name := by
  obtain ⟨_, _, hfirst, hname, hrest⟩ := h.exists_top
  obtain ⟨rfl, rfl⟩ := List.cons.inj (hsections.symm.trans hfirst)
  have hnone : rest.filter (·.name == topName) = [] :=
    List.filter_eq_nil_iff.mpr fun part hpart he => hrest part hpart (eq_of_beq he)
  have hall : rest.filter (·.name != topName) = rest :=
    List.filter_eq_self.mpr fun part hpart => bne_iff_ne.mpr (hrest part hpart)
  simp [topSettings, headers, hsections, hname, hnone, hall]

theorem Distinct.toTree_eq (top : Section) (rest : List Section)
    (hsections : document.sections = top :: rest) :
    document.toTree = ofEntries (document.entriesOf top ++
      rest.map fun part => (part.name, ofEntries (document.entriesOf part))) := by
  obtain ⟨_, _, hfirst, hname, hrest⟩ := h.exists_top
  obtain ⟨rfl, rfl⟩ := List.cons.inj (hsections.symm.trans hfirst)
  have hbelow : (rest.flatMap fun part =>
      if part.name = topName then document.entriesOf part
      else [(part.name, ofEntries (document.entriesOf part))]) =
        rest.map fun part => (part.name, ofEntries (document.entriesOf part)) := by
    rw [List.map_eq_flatMap, List.flatMap_congr]
    intro part hpart
    rw [if_neg (hrest part hpart)]
  rw [toTree, hsections, List.flatMap_cons, if_pos hname, hbelow]

-- The keys of the top section and the names of the others share the first level of the tree.
-- Where two of them coincide, the section is written over the key.
theorem Distinct.leaves_append_overwritten :
    (leaves rootPath document.toTree ++ document.overwritten).Perm document.options := by
  obtain ⟨top, rest, hsections, hname, hrest⟩ := h.exists_top
  obtain ⟨htopSettings, hheaders⟩ := h.topSettings_eq top rest hsections
  have hsettings := h.settings
  have hnames := h.sections
  rw [hsections] at hsettings hnames
  let headed := rest.map fun part => (part.name, ofEntries (document.entriesOf part))
  let isHeader (setting : Setting) : Bool := (rest.map Section.name).contains setting.name
  let below (entry : String × Tree) := leaves (underKey rootPath entry.1) entry.2
  let ofRest := rest.flatMap fun part => optionsBelow part.path (document.settingsOf part)
  let ofTop := document.settingsOf top
  have hkeys : Entries.keys headed = rest.map Section.name := by
    rw [Entries.keys, List.map_map]
    rfl
  have htop : (putAll [] (document.entriesOf top)).Perm (ofTop.map Setting.entry) :=
    putAll_entriesOf h.shared (hsettings top List.mem_cons_self)
  have hentries : (putAll [] (document.entriesOf top ++ headed)).Perm
      (headed ++ (ofTop.filter fun setting => !isHeader setting).map Setting.entry) := by
    have hall := putAll_perm (putAll [] (document.entriesOf top)) headed
      (nodup_keys_putAll [] _ List.nodup_nil) (hkeys ▸ (List.nodup_cons.mp hnames).2)
    rw [hkeys] at hall
    rw [putAll_append, ← without_map_entry]
    exact hall.trans ((htop.filter _).append_left headed)
  have hheaded : (headed.flatMap below).Perm ofRest := by
    rw [List.flatMap_map]
    refine List.Perm.flatMap_left rest fun part hpart => ?_
    rw [Section.path, if_neg (hrest part hpart)]
    exact leaves_section h.shared (hsettings part (List.mem_cons_of_mem top hpart)) _
  have hleaves : (leaves rootPath document.toTree).Perm
      (ofRest ++ optionsBelow rootPath (ofTop.filter fun setting => !isHeader setting)) := by
    rw [h.toTree_eq top rest hsections, leaves_ofEntries, ← flatMap_leaves_entries]
    refine (hentries.flatMap_right below).trans ?_
    rw [List.flatMap_append]
    exact hheaded.append_right _
  have hsplit : (optionsBelow rootPath (ofTop.filter fun setting => !isHeader setting) ++
      optionsBelow rootPath (ofTop.filter isHeader)).Perm (optionsBelow rootPath ofTop) := by
    rw [← optionsBelow_append]
    exact (List.perm_append_comm.trans (List.filter_append_perm isHeader ofTop)).filterMap _
  have hoverwritten : document.overwritten = optionsBelow rootPath (ofTop.filter isHeader) := by
    rw [overwritten, htopSettings, hheaders]
  have hoptions : document.options = optionsBelow rootPath ofTop ++ ofRest := by
    rw [options, hsections, List.flatMap_cons, Section.path, if_pos hname]
  calc leaves rootPath document.toTree ++ document.overwritten
    _ |>.Perm (ofRest ++ optionsBelow rootPath (ofTop.filter fun setting => !isHeader setting) ++
        document.overwritten) := hleaves.append_right _
    _ |>.Perm (ofRest ++ optionsBelow rootPath ofTop) := by
      rw [List.append_assoc, hoverwritten]
      exact hsplit.append_left ofRest
    _ |>.Perm document.options := by
      rw [hoptions]
      exact List.perm_append_comm

end Document

-- The leaves of an accepted document are its options one for one, apart from those before the
-- first header whose keys are names of sections: these are lost. So nothing is lost exactly if no
-- such key with a value is the name of a section.
theorem leaves_are_options (text : Text) (tree : Tree) (hread : read text = .ok tree) :
    ∃ document, readDocument text = .ok document ∧
      (leaves rootPath tree ++ document.overwritten).Perm document.options ∧
      ((leaves rootPath tree).Perm document.options ↔ document.KeysApart) := by
  rw [read] at hread
  cases hdocument : readDocument text with
  | error fault =>
      rw [hdocument] at hread
      cases hread
  | ok document =>
      have hdistinct := distinct_of_readDocument text document hdocument
      rw [hdocument] at hread
      obtain rfl := Except.ok.inj hread
      have hall := hdistinct.leaves_append_overwritten
      refine ⟨document, rfl, hall, ?_⟩
      rw [← document.overwritten_eq_nil_iff]
      constructor
      · intro hleaves
        have hlength := hall.length_eq
        rw [List.length_append, hleaves.length_eq] at hlength
        exact List.eq_nil_of_length_eq_zero (by omega)
      · intro hnone
        rwa [hnone, List.append_nil] at hall

-- A key without a value may have the name of a section, and a section may write a shared key anew.
theorem leaves_are_options_shared :
    let text := "a = tel:1\nk\n[k]\nb: tel:2\n[__urls_core_default__]\nb = x\nc = y".toList
    ∃ tree document, read text = .ok tree ∧ readDocument text = .ok document ∧
      document.KeysApart ∧
      document.options = [("root.a", "tel:1"), ("root.b", "x"), ("root.c", "y"),
        ("root.k.b", "tel:2"), ("root.k.c", "y")] ∧
      (leaves rootPath tree).Perm document.options := by
  intro text
  have hread : read text = .ok (.map [
      ("b", .text "x"), ("c", .text "y"), ("a", .text "tel:1"),
      ("k", .map [("b", .text "tel:2"), ("c", .text "y")])]) := by rfl
  have hdocument : readDocument text = .ok ⟨[
      ⟨topName, [⟨"a", some ["tel:1".toList]⟩, ⟨"k", none⟩]⟩,
      ⟨"k", [⟨"b", some ["tel:2".toList]⟩]⟩],
      [⟨"b", some ["x".toList]⟩, ⟨"c", some ["y".toList]⟩]⟩ := by rfl
  obtain ⟨document, hother, -, hiff⟩ := leaves_are_options text _ hread
  obtain rfl := Except.ok.inj (hdocument.symm.trans hother)
  exact ⟨_, _, hread, hdocument, by decide, by decide, hiff.mpr (by decide)⟩

-- The option before the header is accepted, and nothing of it is in the tree.
theorem option_lost_to_section :
    let text := "a = tel:1\n[a]\nb = tel:2".toList
    ∃ tree document, read text = .ok tree ∧ readDocument text = .ok document ∧
      document.options = [("root.a", "tel:1"), ("root.a.b", "tel:2")] ∧
      leaves rootPath tree = [("root.a.b", "tel:2")] := by
  exact ⟨.map [("a", .map [("b", .text "tel:2")])],
    ⟨[⟨topName, [⟨"a", some ["tel:1".toList]⟩]⟩, ⟨"a", [⟨"b", some ["tel:2".toList]⟩]⟩], []⟩,
    by rfl, by rfl, by decide, by decide⟩

end UrlHarvest.Ini
