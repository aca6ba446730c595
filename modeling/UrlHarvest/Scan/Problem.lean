import UrlHarvest.FileFormat
import UrlHarvest.Log
import UrlHarvest.Text.Position

namespace UrlHarvest

inductive Severity
  | info
  | warning
  | error
  | critical
deriving Repr, DecidableEq, Inhabited

def Severity.tag : Severity → String
  | info => "info"
  | warning => "warning"
  | error => "error"
  | critical => "critical"

def Severity.all : List Severity :=
  [info, warning, error, critical]

def Severity.ofTag? (text : String) : Option Severity :=
  all.find? (·.tag == text)

-- What a host can do about a problem.
inductive Recovery
  | retry
  | fallback
  | userAction
  | skip
  | abort
  | truncate
deriving Repr, DecidableEq, Inhabited

def Recovery.tag : Recovery → String
  | retry => "retry"
  | fallback => "fallback"
  | userAction => "user-action"
  | skip => "skip"
  | abort => "abort"
  | truncate => "truncate"

def Recovery.all : List Recovery :=
  [retry, fallback, userAction, skip, abort, truncate]

def Recovery.ofTag? (text : String) : Option Recovery :=
  all.find? (·.tag == text)

-- What went wrong while a document was read. None of these ends a scan except `scanFailed`, and
-- a host may recover from all of them.
inductive Problem
  | lineSkipped (scanner : String) (line : Nat) (reason : String)
  | valueSkipped (scanner path reason : String)
  | unparsed (scanner label reason : String)
  | tooLarge (size : Nat) (limit : Int)
  | tooManyUrls (count : Nat) (limit : Int)
  | scanFailed (format : FileFormat) (reason : String)
  | noted (message : String) (severity : Severity) (recovery : Recovery)
      (position : Option Position)
deriving Repr, DecidableEq

namespace Problem

def message : Problem → String
  | lineSkipped scanner line reason =>
    "Skipped line " ++ toString line ++ " while scanning " ++ scanner ++ " content: " ++ reason
  | valueSkipped scanner path reason =>
    "Skipped value at " ++ path ++ " while scanning " ++ scanner ++ " content: " ++ reason
  | unparsed _ label reason =>
    label ++ " parsing failed, falling back to line scanning: " ++ reason
  | tooLarge size limit =>
    "Content too large (" ++ toString size ++ " characters), maximum size is " ++
      toString limit ++ " characters"
  | tooManyUrls count limit =>
    "URL count (" ++ toString count ++ ") exceeds limit (" ++ toString limit ++
      "), truncated results"
  | scanFailed format reason =>
    "Failed to extract URLs from " ++ format.tag ++ " content: " ++ reason
  | noted message _ _ _ => message

def severity : Problem → Severity
  | noted _ severity _ _ => severity
  | _ => .warning

def recovery : Problem → Recovery
  | lineSkipped .. | valueSkipped .. | scanFailed .. => .skip
  | unparsed .. => .fallback
  | tooLarge .. | tooManyUrls .. => .truncate
  | noted _ _ recovery _ => recovery

def isRecoverable (_ : Problem) : Bool := true

def category (_ : Problem) : String := "parsing"

-- Only a skipped line has a place of its own: the start of the line.
def position : Problem → Option Position
  | lineSkipped _ line _ => some ⟨line, 1⟩
  | noted _ _ _ position => position
  | _ => none

private def number (n : Int) : Tree :=
  .number (.whole n)

-- What the log says of a problem. A host's own note is not logged.
def event? : Problem → Option Log.Event
  | lineSkipped scanner line reason =>
    some ⟨.warning, "scanner.line_skipped",
      [("scanner", .text scanner), ("line", number line), ("error", .text reason)]⟩
  | valueSkipped scanner path reason =>
    some ⟨.warning, "scanner.value_skipped",
      [("scanner", .text scanner), ("path", .text path), ("error", .text reason)]⟩
  | unparsed scanner _ reason =>
    some ⟨.warning, "scanner.fallback", [("scanner", .text scanner), ("reason", .text reason)]⟩
  | tooLarge size limit =>
    some ⟨.warning, "extract.too_large", [("size", number size), ("limit", number limit)]⟩
  | tooManyUrls count limit =>
    some ⟨.warning, "extract.truncated", [("count", number count), ("limit", number limit)]⟩
  | scanFailed format _ =>
    some ⟨.error, "extract.scanner_failed", [("format", .text format.tag)]⟩
  | noted .. => none

end Problem

end UrlHarvest
