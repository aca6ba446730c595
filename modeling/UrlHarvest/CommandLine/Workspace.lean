import UrlHarvest.FilePath
import UrlHarvest.Settings.Document
import UrlHarvest.Text.Quoted

namespace UrlHarvest.CommandLine

inductive Entry
  | file (bytes : List UInt8)
  | directory
deriving Repr, DecidableEq

-- What a command can see: where it runs, where the user keeps settings, what is on the disk, and
-- the time. Entries are known by their paths from the working directory, or from the root.
structure Workspace where
  directory : FilePath
  userSettings : FilePath
  entries : List (FilePath × Entry)
  clock : Number

namespace Workspace

-- Takes names back that are followed by two dots.
def flatten (names : List Text) : List Text :=
  (names.foldl (fun kept name =>
    if name = "..".toList then kept.drop 1 else name :: kept) []).reverse

-- The path from the working directory, if it leads below it.
def localPath (workspace : Workspace) (path : FilePath) : FilePath :=
  let names := flatten path.names
  if path.root.isEmpty then ⟨[], names⟩
  else if workspace.directory.names.isPrefixOf names then
    ⟨[], names.drop workspace.directory.names.length⟩
  else ⟨path.root, names⟩

def isBelow (path directory : FilePath) : Bool :=
  path.root == directory.root && directory.names.isPrefixOf path.names &&
    directory.names.length < path.names.length

-- A path that leads to other entries is a directory, and so is the working directory.
def entry? (workspace : Workspace) (path : FilePath) : Option Entry :=
  let path := workspace.localPath path
  match workspace.entries.find? fun (known, _) => known == path with
  | some (_, entry) => some entry
  | none =>
    if path = ⟨[], []⟩ ∨ workspace.entries.any fun (known, _) => isBelow known path then
      some .directory
    else none

def file? (workspace : Workspace) (path : FilePath) : Option (List UInt8) :=
  match workspace.entry? path with
  | some (.file bytes) => some bytes
  | _ => none

def isDirectory (workspace : Workspace) (path : FilePath) : Bool :=
  workspace.entry? path == some .directory

-- The paths that lead to a path, the nearest first.
def parents (path : FilePath) : List FilePath :=
  (List.range path.names.length).reverse.map fun count =>
    { path with names := path.names.take count }

def underFile (workspace : Workspace) (path : FilePath) : Bool :=
  (parents path).any fun parent => (workspace.file? parent).isSome

def projectSettings (workspace : Workspace) : FilePath :=
  workspace.directory.append [".urls-core", "config.yaml"]

end Workspace

-- The texts in the words of a command that may be paths: whole words, values behind an equals
-- sign, and values behind a letter.
def mentionedTexts (args : List String) : List Text :=
  args.flatMap fun word =>
    [word.toList, ((Text.cutAt '=' word.toList).2).getD [], word.toList.drop 2]

-- The paths that a command may ask about, with all that lead to them.
def Workspace.mentioned (workspace : Workspace) (args : List String) : List FilePath :=
  let paths := workspace.projectSettings :: workspace.userSettings ::
    (mentionedTexts args).map FilePath.ofText
  (paths.flatMap fun path => path :: parents path).eraseDups

-- Why a file cannot be written.
inductive OutputFault
  | noDirectory (path : FilePath)
  | underFile (path : FilePath)
  | isFile (path : FilePath)
  | isDirectory (path : FilePath)
deriving Repr, DecidableEq

private def systemFault (number reason : String) (path : FilePath) : String :=
  "[Errno " ++ number ++ "] " ++ reason ++ ": " ++ String.ofList (Text.quoted path.toText)

def OutputFault.message : OutputFault → String
  | noDirectory path => systemFault "2" "No such file or directory" path
  | underFile path => systemFault "20" "Not a directory" path
  | isFile path => systemFault "17" "File exists" path
  | isDirectory path => systemFault "21" "Is a directory" path

-- A file is written where a directory is.
def Workspace.outputFault? (workspace : Workspace) (path : FilePath) : Option OutputFault :=
  if workspace.isDirectory path then some (.isDirectory path)
  else if workspace.underFile path then some (.underFile path)
  else if (Workspace.parents path).head?.all workspace.isDirectory then none
  else some (.noDirectory path)

-- Directories are made first for a file whose directory is missing.
def Workspace.newOutputFault? (workspace : Workspace) (path : FilePath) : Option OutputFault :=
  if workspace.isDirectory path then some (.isDirectory path)
  else
    match (Workspace.parents path).head? with
    | none => none
    | some parent =>
      if (workspace.file? parent).isSome then some (.isFile parent)
      else if workspace.underFile parent then some (.underFile parent)
      else none

inductive SettingsFault
  | unreadable (path : String)
  | invalid (path : String) (details : List Settings.Detail)
deriving Repr, DecidableEq

def SettingsFault.message : SettingsFault → String
  | unreadable path => "Invalid YAML in " ++ path
  | invalid path _ => "Invalid configuration in " ++ path

-- The first settings file counts of those that are asked for, of the project and of the user.
def Workspace.settings (workspace : Workspace) (asked : Option FilePath) :
    Except SettingsFault Settings :=
  let candidates := asked.toList ++ [workspace.projectSettings, workspace.userSettings]
  let found := candidates.findSome? fun path =>
    (workspace.file? path).map fun bytes => (path, bytes)
  match found with
  | none => .ok {}
  | some (path, bytes) =>
    match Settings.ofDocument bytes with
    | .ok settings => .ok settings
    | .error .unreadable => .error (.unreadable path.toString)
    | .error (.invalid details) => .error (.invalid path.toString details)

end UrlHarvest.CommandLine
