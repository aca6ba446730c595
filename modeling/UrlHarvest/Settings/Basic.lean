import UrlHarvest.Log
import UrlHarvest.Tree.Basic

namespace UrlHarvest

-- What a host is asked about before a large document is read or a long answer is printed.
structure SafetySettings where
  enabled : Bool := true
  contentSize : Nat := 1000000
  outputLines : Nat := 50000
  documents : Nat := 8
deriving Repr, DecidableEq

structure OutputSettings where
  dedupe : Bool := false
  showErrors : Bool := false
deriving Repr, DecidableEq

structure LoggingSettings where
  level : String := "INFO"
deriving Repr, DecidableEq

structure Settings where
  safety : SafetySettings := {}
  output : OutputSettings := {}
  logging : LoggingSettings := {}
deriving Repr, DecidableEq

def LoggingSettings.levelName (settings : LoggingSettings) : String :=
  String.ofList (Text.capitals settings.level.toList)

private def count (n : Nat) : Tree :=
  .number (.whole n)

def SafetySettings.toTree (settings : SafetySettings) : Tree :=
  .map [("enabled", .bool settings.enabled), ("file_size_warn_bytes", count settings.contentSize),
    ("large_output_lines_threshold", count settings.outputLines),
    ("many_documents_threshold", count settings.documents)]

def OutputSettings.toTree (settings : OutputSettings) : Tree :=
  .map [("dedupe_enabled", .bool settings.dedupe), ("show_parse_errors", .bool settings.showErrors)]

def LoggingSettings.toTree (settings : LoggingSettings) : Tree :=
  .map [("level", .text settings.level)]

def Settings.toTree (settings : Settings) : Tree :=
  .map [("safety", settings.safety.toTree), ("output", settings.output.toTree),
    ("logging", settings.logging.toTree)]

end UrlHarvest
