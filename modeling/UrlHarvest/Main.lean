import Std.Time.DateTime.Timestamp
import UrlHarvest.CommandLine.Run

namespace UrlHarvest.CommandLine

def currentTime : IO Number := do
  let now ← Std.Time.Timestamp.now
  return .decimal now.toNanosecondsSinceUnixEpoch.val 9

-- The user's settings are kept where the environment says, or else in the home directory.
def userSettingsPath : IO FilePath := do
  let home ← IO.getEnv "HOME"
  let place ← IO.getEnv "XDG_CONFIG_HOME"
  let directory := match place.filter (· ≠ "") with
    | some place => FilePath.ofText place.toList
    | none => (FilePath.ofText (home.getD "").toList).append [".config"]
  return directory.append ["urls-core", "config.yaml"]

-- What cannot be read counts as not being there.
def entryAt (path : FilePath) : IO (Option Entry) := do
  try
    let metadata ← ((← IO.currentDir) / path.toString).metadata
    match metadata.type with
    | .dir => return some .directory
    | _ => return some (.file (← IO.FS.readBinFile path.toString).data.toList)
  catch _ => return none

-- The part of the disk that a command may ask about.
def currentWorkspace (args : List String) : IO Workspace := do
  let directory ← IO.currentDir
  let empty : Workspace := {
    directory := FilePath.ofText directory.toString.toList
    userSettings := ← userSettingsPath
    entries := []
    clock := ← currentTime }
  let entries ← (empty.mentioned args).filterMapM fun path => do
    return (← entryAt path).map fun entry => (empty.localPath path, entry)
  return { empty with entries }

def notify : Notice → IO Unit
  | .line text => do IO.eprintln (echoed (← (← IO.getStderr).isTty) text)
  | .record record => IO.eprintln (Tree.map record.fields).inline

def write (path : FilePath) (content : String) : IO Unit := do
  match (Workspace.parents path).head? with
  | some parent => IO.FS.createDirAll parent.toString
  | none => pure ()
  IO.FS.writeFile path.toString content

def misuseStatus : UInt32 := 2

def faultStatus : Fault → UInt32
  | .misuse _ => misuseStatus
  | .settings _ | .output _ => 1

end UrlHarvest.CommandLine

open UrlHarvest.CommandLine in
def main (args : List String) : IO UInt32 := do
  match run (← currentWorkspace args) args with
  | .error fault =>
    IO.eprintln ("Error: " ++ fault.message)
    return faultStatus fault
  | .ok outcome =>
    outcome.notices.forM notify
    outcome.written.forM fun (path, content) => write path content
    IO.print (outcome.echoed (← (← IO.getStdout).isTty))
    return UInt32.ofNat outcome.status
