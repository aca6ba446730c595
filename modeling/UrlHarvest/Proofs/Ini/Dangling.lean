import UrlHarvest.Ini.Reader

namespace UrlHarvest.Ini

-- What a line says without its comment.
def contentOf (line : Text) : Text :=
  Text.trim (line.take ((commentStart? line).getD line.length))

def indentOf (line : Text) : Nat :=
  (line.takeWhile Text.isBlank).length

-- The key that the next line may go on with: how far its line is indented, and whether it has a
-- value.
structure OpenKey where
  indent : Nat
  hasValue : Bool
deriving Repr, DecidableEq

-- A header opens no key, and neither does a line that begins with its sign.
def openedBy (line : Text) : Option OpenKey :=
  match header? (contentOf line) with
  | some _ => none
  | none =>
    if (keyAndValue (contentOf line)).1 = [] then none
    else some ⟨indentOf line, (keyAndValue (contentOf line)).2.isSome⟩

def goesOn (key : Option OpenKey) (line : Text) : Bool :=
  !(contentOf line).isEmpty && key.any fun key => key.indent < indentOf line

def openedAfter (key : Option OpenKey) (line : Text) : Option OpenKey :=
  if contentOf line = [] ∨ goesOn key line then key else openedBy line

-- The line goes on with a key that has no value it could be added to.
def dangles (key : Option OpenKey) (line : Text) : Bool :=
  goesOn key line && key.any fun key => !key.hasValue

-- Among the lines from one on, with the key that is open before that one.
def hasDanglingLine : Option OpenKey → List Text → Bool
  | _, [] => false
  | key, line :: rest => dangles key line || hasDanglingLine (openedAfter key line) rest

namespace Progress

def openKey (progress : Progress) : Option OpenKey :=
  progress.open?.map fun setting => ⟨progress.indent, setting.lines.isSome⟩

variable (progress : Progress)

theorem settings_withSettings (settings : List Setting) (h : progress.sections ≠ []) :
    (progress.withSettings settings).settings = settings := by
  unfold withSettings
  split
  · rename_i hshared
    simp [Progress.settings, hshared]
  · split
    · exact absurd ‹_› h
    · simp_all [Progress.settings]

theorem sections_withSettings (settings : List Setting) (h : progress.sections ≠ []) :
    (progress.withSettings settings).sections ≠ [] := by
  unfold withSettings
  split
  · exact h
  · split
    · exact h
    · exact List.cons_ne_nil _ _

theorem current_withSettings (settings : List Setting) :
    (progress.withSettings settings).current = progress.current := by
  unfold withSettings
  split
  · rfl
  · split <;> rfl

theorem indent_withSettings (settings : List Setting) :
    (progress.withSettings settings).indent = progress.indent := by
  unfold withSettings
  split
  · rfl
  · split <;> rfl

theorem openKey_of_current (name : String) (h : progress.current = some name) :
    progress.openKey =
      if name = "" then none
      else progress.settings.head?.map fun setting =>
        ⟨progress.indent, setting.lines.isSome⟩ := by
  unfold openKey open?
  rw [h]
  split <;> simp_all

theorem exists_of_open? (setting : Setting) (h : progress.open? = some setting) :
    (∃ name, progress.current = some name ∧ name ≠ "") ∧
      ∃ before, progress.settings = setting :: before := by
  unfold open? at h
  split at h
  · cases h
  · cases h
  · rename_i name hname hcurrent
    exact ⟨⟨name, hcurrent, hname⟩, List.head?_eq_some_iff.mp h⟩

theorem goesOn_iff (line : Text) (hcontent : contentOf line ≠ []) :
    goesOn progress.openKey line = true ↔
      progress.open?.isSome = true ∧ progress.indent < indentOf line := by
  rw [goesOn, openKey]
  cases progress.open? with
  | none => simp
  | some setting => simp [hcontent]

theorem take_eq (number : Nat) (line : Text) :
    progress.take number line =
      if contentOf line = [] then
        match commentStart? line, progress.open? with
        | none, some ⟨_, some _⟩ => progress.addLine []
        | _, _ => .ok progress
      else if progress.open?.isSome ∧ progress.indent < indentOf line then
        progress.addLine (contentOf line)
      else
        match header? (contentOf line) with
        | some name =>
          { progress with indent := indentOf line }.openSection number (String.ofList name)
        | none =>
          { progress with indent := indentOf line }.addSetting number line (contentOf line) := by
  unfold take
  simp only [List.isEmpty_iff]
  rfl

-- What the reading of a line comes to: the key that is open after it, or a fault, which is that of
-- a dangling line only where the line dangles.
def Follows (key : Option OpenKey) (dangling : Bool) : Except Fault Progress → Prop
  | .ok next => next.sections ≠ [] ∧ next.openKey = key ∧ dangling = false
  | .error fault => fault = .danglingLine ↔ dangling = true

section Parts

variable {progress : Progress} (hsections : progress.sections ≠ [])

include hsections

theorem addLine_follows (setting : Setting) (line : Text)
    (hopen : progress.open? = some setting) :
    Follows progress.openKey setting.lines.isNone (progress.addLine line) := by
  obtain ⟨⟨name, hcurrent, hname⟩, before, hsettings⟩ := progress.exists_of_open? setting hopen
  cases setting with
  | mk key lines =>
  unfold addLine
  rw [hsettings]
  cases lines with
  | none => exact iff_of_true rfl rfl
  | some lines =>
      refine ⟨progress.sections_withSettings _ hsections, ?_, rfl⟩
      let settings : List Setting := ⟨key, some (line :: lines)⟩ :: before
      have hkept := (progress.current_withSettings settings).trans hcurrent
      rw [openKey_of_current _ name hkept, openKey_of_current _ name hcurrent,
        settings_withSettings _ _ hsections, indent_withSettings, hsettings]
      rfl

theorem openSection_follows (number : Nat) (name : String) :
    Follows none false (progress.openSection number name) := by
  unfold openSection
  split
  · exact iff_of_false (fun h => nomatch h) Bool.false_ne_true
  · split
    · exact ⟨hsections, rfl, rfl⟩
    · exact ⟨List.cons_ne_nil _ _, rfl, rfl⟩

theorem addSetting_follows (number : Nat) (line content : Text) :
    Follows
      (if (keyAndValue content).1 = [] then none
        else some ⟨progress.indent, (keyAndValue content).2.isSome⟩)
      false (progress.addSetting number line content) := by
  unfold addSetting
  cases keyAndValue content with
  | mk name value =>
  dsimp -zeta only
  extract_lets key noted
  have hnoted : noted.sections ≠ [] ∧ noted.indent = progress.indent := by
    unfold noted
    split
    · exact ⟨hsections, rfl⟩
    · exact ⟨hsections, rfl⟩
  clear_value noted
  by_cases hrepeated : noted.settings.any (·.name == key) = true
  · rw [if_pos hrepeated]
    exact iff_of_false (fun h => nomatch h) Bool.false_ne_true
  · rw [if_neg hrepeated]
    refine ⟨noted.sections_withSettings _ hnoted.1, ?_, rfl⟩
    let settings : List Setting := ⟨key, value.map ([·])⟩ :: noted.settings
    let next : Progress := { noted.withSettings settings with current := some key }
    refine (next.openKey_of_current key rfl).trans ?_
    change (if key = "" then none
      else (noted.withSettings settings).settings.head?.map fun setting =>
        (⟨(noted.withSettings settings).indent, setting.lines.isSome⟩ : OpenKey)) = _
    rw [settings_withSettings _ _ hnoted.1, indent_withSettings, hnoted.2]
    simp only [key, String.ofList_eq_empty_iff, settings, List.head?_cons, Option.map_some,
      Option.isSome_map]

theorem take_follows (number : Nat) (line : Text) :
    Follows (openedAfter progress.openKey line) (dangles progress.openKey line)
      (progress.take number line) := by
  rw [take_eq, openedAfter, dangles]
  by_cases hempty : contentOf line = []
  · have hstays : goesOn progress.openKey line = false := by simp [goesOn, hempty]
    rw [if_pos hempty, if_pos (.inl hempty), hstays, Bool.false_and]
    split
    · rename_i hopen
      exact addLine_follows hsections _ [] hopen
    · exact ⟨hsections, rfl, rfl⟩
  · rw [if_neg hempty]
    by_cases hgoes : goesOn progress.openKey line = true
    · have hdeeper := (progress.goesOn_iff line hempty).mp hgoes
      obtain ⟨setting, hopen⟩ := Option.isSome_iff_exists.mp hdeeper.1
      have hnone : progress.openKey.any (!·.hasValue) = setting.lines.isNone := by
        rw [openKey, hopen]
        cases hlines : setting.lines <;> simp [hlines]
      rw [if_pos hdeeper, if_pos (.inr hgoes), hgoes, Bool.true_and, hnone]
      exact addLine_follows hsections setting (contentOf line) hopen
    · rw [if_neg (mt (progress.goesOn_iff line hempty).mpr hgoes),
        if_neg (not_or.mpr ⟨hempty, hgoes⟩), Bool.eq_false_iff.mpr hgoes, Bool.false_and, openedBy]
      have hmoved : { progress with indent := indentOf line }.sections ≠ [] := hsections
      split
      · exact openSection_follows hmoved _ _
      · exact addSetting_follows hmoved _ _ _

end Parts

def takeLines (progress : Progress) (number : Nat) (lines : List Text) : Except Fault Progress :=
  (lines.zipIdx number).foldlM
    (fun (progress : Progress) (line, number) => progress.take number line) progress

theorem takeLines_cons (number : Nat) (line : Text) (rest : List Text) :
    progress.takeLines number (line :: rest) =
      progress.take number line >>= fun next => next.takeLines (number + 1) rest := by
  rw [takeLines, List.zipIdx_cons, List.foldlM_cons]
  rfl

-- As far as lines are read without a fault, the keys that they are taken to go on with are those
-- that the lines alone tell of.
theorem takeLines_follows (number : Nat) (lines : List Text) (hsections : progress.sections ≠ []) :
    match progress.takeLines number lines with
    | .ok _ => hasDanglingLine progress.openKey lines = false
    | .error fault => fault = .danglingLine → hasDanglingLine progress.openKey lines = true := by
  induction lines generalizing number progress with
  | nil => rfl
  | cons line rest ih =>
      have hfollows := take_follows hsections number line
      rw [takeLines_cons, hasDanglingLine]
      cases htake : progress.take number line with
      | error fault =>
          rw [htake] at hfollows
          intro hdangling
          rw [hfollows.mp hdangling, Bool.true_or]
      | ok next =>
          rw [htake] at hfollows
          obtain ⟨hnext, hopen, hstays⟩ := hfollows
          rw [hstays, Bool.false_or, ← hopen]
          exact ih next (number + 1) hnext

end Progress

theorem readDocument_eq (text : Text) :
    readDocument text =
      Progress.takeLines {} 2 (linesOf text) >>= fun progress =>
        if progress.bad.reverse = [] then .ok progress.document
        else .error (.badLines progress.bad.reverse) := by
  unfold readDocument
  congr 1
  funext progress
  cases progress.bad.reverse with
  | nil => rfl
  | cons line rest => rfl

theorem readDocument_follows (text : Text) :
    match readDocument text with
    | .ok _ => hasDanglingLine none (linesOf text) = false
    | .error fault => fault = .danglingLine → hasDanglingLine none (linesOf text) = true := by
  have hfollows := Progress.takeLines_follows {} 2 (linesOf text) (List.cons_ne_nil _ _)
  rw [readDocument_eq]
  cases hlines : Progress.takeLines {} 2 (linesOf text) with
  | error fault =>
      rw [hlines] at hfollows
      exact hfollows
  | ok progress =>
      rw [hlines] at hfollows
      by_cases hbad : progress.bad.reverse = []
      · simp only [bind, Except.bind, if_pos hbad]
        exact hfollows
      · simp only [bind, Except.bind, if_neg hbad]
        exact fun h => nomatch h

-- A reading that gives up has come to a dangling line.
theorem hasDanglingLine_of_fatal (text : Text) (fault : ScanFault)
    (h : read text = .error (.fatal fault)) : hasDanglingLine none (linesOf text) = true := by
  have hfollows := readDocument_follows text
  unfold read at h
  cases hdocument : readDocument text with
  | ok document =>
      rw [hdocument] at h
      cases h
  | error stopped =>
      rw [hdocument] at h hfollows
      cases stopped with
      | danglingLine => exact hfollows rfl
      | repeatedSection => cases h
      | repeatedKey => cases h
      | badLines => cases h

end UrlHarvest.Ini
