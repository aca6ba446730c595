import UrlHarvest.Text.LetterCase
import UrlHarvest.Tree.Basic

namespace UrlHarvest.Log

inductive Level
  | debug
  | info
  | warning
  | error
  | critical
deriving Repr, DecidableEq, Inhabited

def Level.tag : Level → String
  | .debug => "debug"
  | .info => "info"
  | .warning => "warning"
  | .error => "error"
  | .critical => "critical"

def Level.all : List Level :=
  [.debug, .info, .warning, .error, .critical]

-- Higher levels weigh more.
def Level.weight : Level → Nat
  | .debug => 10
  | .info => 20
  | .warning => 30
  | .error => 40
  | .critical => 50

-- The least weight that is written under each name, some names being second spellings.
def thresholds : List (String × Nat) := [
  ("CRITICAL", 50), ("FATAL", 50), ("ERROR", 40), ("WARN", 30), ("WARNING", 30), ("INFO", 20),
  ("DEBUG", 10), ("NOTSET", 0)]

def defaultThreshold : Nat :=
  Level.info.weight

-- The least weight written under a name, if the name is known in any letter case.
def threshold? (name : String) : Option Nat :=
  thresholds.lookup (String.ofList (Text.capitals name.toList))

-- No name, an empty one and an unknown one stand for the default.
def thresholdOf (name : Option String) : Nat :=
  (name.bind threshold?).getD defaultThreshold

-- One event with the fields passed to it.
structure Event where
  level : Level
  name : String
  fields : List (String × Tree) := []

-- A line of the log. The names of the fields are distinct.
structure Record where
  fields : List (String × Tree)

-- The name of the emitter that all others descend from.
def rootEmitter : String := "root"

-- The subsystem that an emitter belongs to: the second part of a dotted name inside the package,
-- and the first part of any other name. An emitter without a name is the root.
def componentOf (package emitter : String) : String :=
  if emitter = "" then rootEmitter
  else
    match Text.splitAt '.' emitter.toList with
    | first :: second :: _ =>
      if first = package.toList then String.ofList second else String.ofList first
    | _ => emitter

-- Fields of the event win over those of the running scan; the level and the message win over
-- both. The component is filled in only where no field names one.
def Event.record (component : String) (scope : List (String × Tree)) (event : Event) : Record :=
  let fields := (scope ++ event.fields).foldl (fun known field =>
    Entries.put known field.1 field.2) []
  let fields := Entries.put fields "level" (.text event.level.tag)
  let fields :=
    if fields.any (·.1 == "component") then fields
    else Entries.put fields "component" (.text component)
  ⟨Entries.put fields "msg" (.text event.name)⟩

def Event.isWritten (threshold : Nat) (event : Event) : Bool :=
  threshold ≤ event.level.weight

-- What a running scan adds to its records.
def scanScope (format scanner : String) : List (String × Tree) :=
  [("format", .text format), ("scanner", .text scanner)]

end UrlHarvest.Log
