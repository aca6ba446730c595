import UrlHarvest.CommandLine.Report
import UrlHarvest.CommandLine.Usage
import UrlHarvest.CommandLine.Workspace
import UrlHarvest.Text.Control
import UrlHarvest.Tidy.Document
import UrlHarvest.Tree.Printer

namespace UrlHarvest.CommandLine

-- What a command tells besides its output.
inductive Notice
  | line (text : String)
  | record (record : Log.Record)

structure Outcome where
  status : Nat := 0
  output : String := ""
  notices : List Notice := []
  written : List (FilePath × String) := []

-- What arrives of the output, at a terminal or elsewhere.
def Outcome.echoed (terminal : Bool) (outcome : Outcome) : String :=
  UrlHarvest.echoed terminal outcome.output

inductive Fault
  | misuse (fault : Misuse)
  | settings (fault : SettingsFault)
  | output (fault : OutputFault)

def Fault.message : Fault → String
  | misuse fault => fault.message
  | settings fault => fault.message
  | output fault => fault.message

def version : String := "0.1.0"

inductive Command
  | extract
  | dedupe
  | sort
  | formats
  | showSettings
  | initSettings
  | version
deriving Repr, DecidableEq

namespace Command

def name : Command → String
  | extract => "extract"
  | dedupe => "dedupe"
  | sort => "sort"
  | formats => "formats"
  | showSettings => "config-show"
  | initSettings => "config-init"
  | version => "version"

def all : List Command :=
  [extract, dedupe, sort, formats, showSettings, initSettings, version]

def ofName? (text : String) : Option Command :=
  all.find? (·.name == text)

private def flag (spelling : String) : OptionForm :=
  ⟨spelling, false⟩

private def valued (spelling : String) : OptionForm :=
  ⟨spelling, true⟩

def helpForm : OptionForm :=
  ⟨"--help", false⟩

def options : Command → List OptionForm
  | extract => [valued "--format", flag "--dedupe", flag "--no-dedupe", flag "--json",
      flag "--show-errors", flag "--hide-errors", helpForm]
  | dedupe => [valued "-o", valued "--output", helpForm]
  | sort => [valued "--order", valued "-o", valued "--output", helpForm]
  | initSettings => [valued "--path", flag "--force", helpForm]
  | formats | showSettings | version => [helpForm]

end Command

def rootForms : List OptionForm :=
  [⟨"--config", true⟩, Command.helpForm]

private def misused {α : Type} (fault : Misuse) : Except Fault α :=
  .error (.misuse fault)

-- A path with a slash at its end asks for a directory.
def asksForDirectory (text : String) : Bool :=
  let ending := Text.afterLast '/' text.toList
  '/' ∈ text.toList && (ending.isEmpty || ending == ['.'])

-- A file that is there, with its content.
def existingFile (workspace : Workspace) (argument text : String) :
    Except Fault (FilePath × List UInt8) :=
  let path := FilePath.ofText text.toList
  match workspace.entry? path with
  | some .directory =>
    if text = "" then misused (.noSuchFile argument text)
    else misused (.isDirectory argument text)
  | some (.file bytes) =>
    if asksForDirectory text then misused (.noSuchFile argument text) else .ok (path, bytes)
  | none => misused (.noSuchFile argument text)

-- The only argument of a command. Words after it are looked at last.
def onlyFile (workspace : Workspace) (words : Words) : Except Fault (FilePath × List UInt8) :=
  match words.others with
  | [] => misused (.missingArgument "PATH")
  | text :: rest => do
    let file ← existingFile workspace "PATH" text
    if rest.isEmpty then return file else misused (.extraArguments rest)

def noArguments (words : Words) : Except Fault Unit :=
  if words.others.isEmpty then .ok () else misused (.extraArguments words.others)

/-! Extraction -/

structure ExtractOptions where
  tag : Option String
  dedupe : Bool
  json : Bool
  showErrors : Bool

def extractOptions (settings : Settings) (words : Words) : ExtractOptions where
  tag := (words.valueOf? ["--format"]).filter (· != "")
  dedupe := (words.choice? "--dedupe" "--no-dedupe").getD settings.output.dedupe
  json := words.has "--json"
  showErrors := (words.choice? "--show-errors" "--hide-errors").getD settings.output.showErrors

def reportNotices (threshold : Nat) (options : ExtractOptions) (report : Report) : List Notice :=
  (report.extraction.log threshold).map .record ++ report.incompleteLine.map .line ++
    (if options.showErrors && !options.json then report.problemLines.map .line else [])

-- The documents are gone through up to the first of which a host would be warned.
def reportsOf (settings : Settings) (options : ExtractOptions) :
    List (FilePath × List UInt8) → List Report × Option String
  | [] => ([], none)
  | (path, bytes) :: rest =>
    let content := String.ofList (Text.Utf8.decode bytes)
    match Report.ofContent settings.safety options.dedupe options.tag path content with
    | .error warning => ([], some (path.toString ++ ": " ++ warning.message))
    | .ok report =>
      let (reports, warning) := reportsOf settings options rest
      (report :: reports, warning)

def refusedStatus : Nat := 2

def incompleteStatus : Nat := 1

def shownReports (clock : Number) (options : ExtractOptions) (reports : List Report) : String :=
  let values := reports.flatMap fun report => report.urls.map Url.value
  if options.json then
    (Tree.list (reports.map (Report.toTree clock options.showErrors))).spread ++ "\n"
  else if values.isEmpty then ""
  else Tidy.joined values ++ "\n"

-- No output is given if there are too many documents or if a host would be warned of one of them.
def extract (clock : Number) (settings : Settings) (options : ExtractOptions)
    (files : List (FilePath × List UInt8)) : Outcome :=
  let threshold := Log.thresholdOf (some settings.logging.levelName)
  match settings.safety.documentsWarning? files.length with
  | some warning => { status := refusedStatus, notices := [.line warning.message] }
  | none =>
    let (reports, refusal) := reportsOf settings options files
    let notices := reports.flatMap (reportNotices threshold options)
    match refusal with
    | some line => { status := refusedStatus, notices := notices ++ [.line line] }
    | none =>
      let count := (reports.flatMap fun report => report.urls).length
      let long := (settings.safety.outputWarning? count).map Warning.message
      { status := if reports.all (·.result.success) then 0 else incompleteStatus
        output := shownReports clock options reports
        notices := notices ++ long.toList.map .line }

/-! Cleaning up files -/

-- The result goes to a file if one is named.
def cleaned (workspace : Workspace) (words : Words) (lines : List String) (summary : String) :
    Except Fault Outcome :=
  match words.valueOf? ["-o", "--output"] with
  | none => .ok { output := Tidy.joined lines ++ "\n", notices := [.line summary] }
  | some target =>
    let target := FilePath.ofText target.toList
    match workspace.outputFault? target with
    | some fault => .error (.output fault)
    | none => .ok { notices := [.line summary], written := [(target, Tidy.joined lines)] }

def dedupe (workspace : Workspace) (words : Words) (bytes : List UInt8) : Except Fault Outcome :=
  let lines := Tidy.linesOf bytes
  let kept := Tidy.dedupeLines lines
  cleaned workspace words kept ("Removed " ++ toString (Tidy.repeatedCount lines) ++
    " duplicate URLs (" ++ toString kept.length ++ " remaining)")

def sort (workspace : Workspace) (words : Words) (order : LineOrder) (bytes : List UInt8) :
    Except Fault Outcome :=
  let lines := Tidy.sortLines order (Tidy.linesOf bytes)
  cleaned workspace words lines
    ("Sorted " ++ toString lines.length ++ " URLs (" ++ order.tag ++ ")")

def orderOf (words : Words) : Except Fault LineOrder :=
  match words.valueOf? ["--order"] with
  | none => .ok .ascending
  | some value =>
    match LineOrder.ofTag? value with
    | some order => .ok order
    | none => misused (.notAmong "--order" value (LineOrder.all.map LineOrder.tag))

/-! Settings -/

def showSettings (settings : Settings) : Outcome :=
  { output := settings.toTree.spread ++ "\n" }

-- What is there already is only overwritten by force. Missing directories are made.
def initSettings (workspace : Workspace) (words : Words) : Except Fault Outcome :=
  let target := match words.valueOf? ["--path"] with
    | some text => FilePath.ofText text.toList
    | none => workspace.projectSettings
  if (workspace.entry? target).isSome ∧ ¬ words.has "--force" then
    .ok { status := 1, notices :=
        [.line (target.toString ++ " already exists; pass --force to overwrite it")] }
  else
    match workspace.newOutputFault? target with
    | some fault => .error (.output fault)
    | none =>
      .ok { output := target.toString ++ "\n", written := [(target, Settings.defaultDocument)] }

def listFormats : Outcome :=
  { output := String.join (FileFormat.all.map fun format => format.tag ++ "\n") }

/-! The whole command line -/

-- Options are looked at before arguments, in the order in which they are written.
def runCommand (workspace : Workspace) (settings : Settings) (words : Words) :
    Command → Except Fault Outcome
  | .extract => do
    if words.others.isEmpty then misused (.missingArgument "PATHS...")
    else
      let files ← words.others.mapM (existingFile workspace "PATHS...")
      return extract workspace.clock settings (extractOptions settings words) files
  | .dedupe => do
    let (_, bytes) ← onlyFile workspace words
    dedupe workspace words bytes
  | .sort => do
    let order ← orderOf words
    let (_, bytes) ← onlyFile workspace words
    sort workspace words order bytes
  | .formats => do
    noArguments words
    return listFormats
  | .showSettings => do
    noArguments words
    return showSettings settings
  | .initSettings => do
    noArguments words
    initSettings workspace words
  | .version => do
    noArguments words
    return { output := version ++ "\n" }

def readWordsOf (forms : List OptionForm) (mixed : Bool) (args : List String) :
    Except Fault Words :=
  match readWords forms mixed none {} args with
  | .ok words => .ok words
  | .error fault => misused fault

-- The name of the command is looked at before the settings are read, and its words after that. A
-- request for help ends the command.
def run (workspace : Workspace) (args : List String) : Except Fault Outcome := do
  let root ← readWordsOf rootForms false args
  if root.has "--help" then return {}
  match root.others with
  | [] => misused .missingCommand
  | name :: rest =>
    match Command.ofName? name with
    | none => misused (.unknownCommand name)
    | some command =>
      let asked := (root.valueOf? ["--config"]).map fun text => FilePath.ofText text.toList
      match workspace.settings asked with
      | .error fault => .error (.settings fault)
      | .ok settings =>
        let words ← readWordsOf command.options true rest
        if words.has "--help" then return {}
        runCommand workspace settings words command

end UrlHarvest.CommandLine
