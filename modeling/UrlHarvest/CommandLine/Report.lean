import UrlHarvest.Extraction
import UrlHarvest.FilePath
import UrlHarvest.Settings.Safety
import UrlHarvest.Tidy.Urls

namespace UrlHarvest.CommandLine

-- What comes of one document: the result of its extraction, and the addresses to be shown.
structure Report where
  path : FilePath
  extraction : Extraction
  urls : List Url

namespace Report

def result (report : Report) : ExtractionResult :=
  report.extraction.result

-- Nothing is extracted from a document that a host would be warned of.
def ofContent (safety : SafetySettings) (dedupe : Bool) (tag : Option String) (path : FilePath)
    (content : String) : Except Warning Report :=
  match safety.contentWarning? content.length with
  | some warning => .error warning
  | none =>
    let extraction :=
      Extraction.run .builtin {} .never content (tag.getD path.format.tag)
    let found := extraction.result.urls
    .ok ⟨path, extraction, if dedupe then Tidy.dedupeUrls found else found⟩

def incompleteLine (report : Report) : List String :=
  if report.result.success then []
  else
    let reason := (report.result.problems.head?.map Problem.message).getD "Unknown error"
    [report.path.toString ++ ": extraction incomplete: " ++ reason]

def problemLines (report : Report) : List String :=
  report.result.problems.map fun problem =>
    report.path.toString ++ ": " ++ problem.severity.tag ++ ": " ++ problem.message

end Report

private def optional : Option String → Tree
  | some text => .text text
  | none => .null

private def whole (n : Int) : Tree :=
  .number (.whole n)

def positionTree : Option Position → Tree
  | some position => .map [("line", whole position.line), ("column", whole position.column)]
  | none => .null

def urlTree (url : Url) : Tree :=
  .map [("value", .text url.value), ("scheme", .text url.scheme.tag), ("type", optional url.type),
    ("host", optional url.host), ("path", optional url.path),
    ("position", positionTree url.position), ("context", optional url.context)]

def problemTree (clock : Number) (problem : Problem) : Tree :=
  .map [("severity", .text problem.severity.tag), ("message", .text problem.message),
    ("recoverable", .bool problem.isRecoverable),
    ("recovery_action", .text problem.recovery.tag), ("timestamp", .number clock),
    ("position", positionTree problem.position), ("category", .text problem.category)]

def countsTree (urls : List Url) : Tree :=
  .map ((Url.schemeCounts urls).map fun (scheme, count) => (scheme.tag, whole count))

def Report.toTree (clock : Number) (showErrors : Bool) (report : Report) : Tree :=
  .map ([("file", .text report.path.toString), ("format", .text report.result.format.tag),
    ("success", .bool report.result.success), ("schemes", countsTree report.urls),
    ("urls", .list (report.urls.map urlTree))] ++
    if showErrors then [("errors", .list (report.result.problems.map (problemTree clock)))] else [])

end UrlHarvest.CommandLine
