import Std.Data.HashSet
import UrlHarvest.Scan.Problem
import UrlHarvest.Url

namespace UrlHarvest

-- What a scan comes upon, in the order in which it does.
inductive Finding
  | url (value : String) (position : Option Position) (context type : Option String)
  | problem (problem : Problem)
deriving Repr, DecidableEq

-- What scans have found so far. A context may be handed from one scan to the next.
structure ScanContext where
  seen : Std.HashSet String := {}
  urls : Array Url := #[]
  problems : Array Problem := #[]

namespace ScanContext

def isNew (context : ScanContext) (value : String) : Bool :=
  value != "" && !context.seen.contains value

-- A value is recorded once: the first finding of it counts.
def add (context : ScanContext) (value : String) (position : Option Position)
    (snippet type : Option String) : ScanContext :=
  if context.isNew value then
    { context with
      seen := context.seen.insert value
      urls := context.urls.push (Url.ofValue value position snippet type) }
  else context

def note (context : ScanContext) (problem : Problem) : ScanContext :=
  { context with problems := context.problems.push problem }

def take (context : ScanContext) : Finding → ScanContext
  | .url value position snippet type => context.add value position snippet type
  | .problem problem => context.note problem

def takeAll (context : ScanContext) (findings : List Finding) : ScanContext :=
  findings.foldl take context

end ScanContext

namespace Finding

-- A value found in a line, both counted from zero. The trimmed line is its context.
def inLine (value : Text) (line : String) (lineIndex columnIndex : Int) : Finding :=
  .url (String.ofList value) (some ⟨lineIndex + 1, columnIndex + 1⟩) (some line) none

end Finding

end UrlHarvest
