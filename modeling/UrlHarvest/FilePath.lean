import UrlHarvest.FileFormat
import UrlHarvest.Text.Basic

namespace UrlHarvest

-- A path of a file: the slashes in front of it and the names between the others.
structure FilePath where
  root : Text := []
  names : List Text
deriving Repr, DecidableEq, Inhabited

namespace FilePath

-- Exactly two slashes in front of a path are kept apart from one; three mean no more than one.
def rootOf (text : Text) : Text :=
  match (text.takeWhile (· == '/')).length with
  | 0 => []
  | 2 => "//".toList
  | _ => ['/']

-- Empty names and names that stand for the directory itself do not count.
def ofText (text : Text) : FilePath :=
  ⟨rootOf text, (Text.splitAt '/' text).filter fun name => name != [] && name != ['.']⟩

def toText (path : FilePath) : Text :=
  if path.root.isEmpty ∧ path.names.isEmpty then ['.']
  else path.root ++ ['/'].intercalate path.names

def toString (path : FilePath) : String :=
  String.ofList path.toText

def append (path : FilePath) (names : List String) : FilePath :=
  { path with names := path.names ++ names.map String.toList }

-- The part of the last name from its last dot on. A dot at either end of the name makes no
-- suffix.
def suffix (path : FilePath) : Text :=
  match path.names.getLast? with
  | none => []
  | some name =>
    let ending := Text.afterLast '.' name
    if '.' ∉ name ∨ ending.isEmpty ∨ ending.length + 1 = name.length then []
    else '.' :: ending

def format (path : FilePath) : FileFormat :=
  FileFormat.ofSuffix path.suffix

end FilePath

end UrlHarvest
