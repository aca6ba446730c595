import UrlHarvest.Scan.Registry

namespace UrlHarvest

structure Limits where
  contentSize : Int := 10000000
  urlCount : Int := 50000
deriving Repr, DecidableEq

structure ExtractionResult where
  success : Bool
  format : FileFormat
  urls : List Url := []
  problems : List Problem := []
deriving Repr, DecidableEq

-- The answers of a host that is asked whether it has called the extraction off, by the number of
-- the question.
abbrev Cancellation := Nat → Bool

namespace Cancellation

def never : Cancellation := fun _ => false

def always : Cancellation := fun _ => true

-- Called off once it has been asked `count` times.
def after (count : Nat) : Cancellation := fun question => count ≤ question

end Cancellation

-- A result, how often the host was asked for it, and the scanner that ran.
structure Extraction where
  result : ExtractionResult
  questions : Nat
  scanner : Option String := none
deriving Repr, DecidableEq

namespace Extraction

def failed (format : FileFormat) (problem : Problem) : ExtractionResult :=
  { success := false, format, problems := [problem] }

-- A negative limit counts from the end.
def cutTo (limit : Int) (urls : List Url) : List Url :=
  if 0 ≤ limit then urls.take limit.toNat else urls.take (urls.length - limit.natAbs)

-- Too many addresses alone do not make an extraction unsuccessful.
def resultOf (limit : Int) (format : FileFormat) (context : ScanContext) : ExtractionResult :=
  let urls := context.urls.toList
  let problems := context.problems.toList
  let success := problems.isEmpty
  if limit < urls.length then
    ⟨success, format, cutTo limit urls, problems ++ [.tooManyUrls urls.length limit]⟩
  else ⟨success, format, urls, problems⟩

-- Markdown looks for more than any other format, so its scanner stands in for one that is
-- missing.
def scannerFor (registry : Registry) (format : FileFormat) : Except Registry.Fault Scanner :=
  match registry.scannerOf? format with
  | some scanner => .ok scanner
  | none => registry.get (.exact .markdown)

-- Whatever the scanner does, there is a result.
def scanWith (registry : Registry) (limits : Limits) (content : String) (format : FileFormat) :
    ExtractionResult × Option String :=
  match scannerFor registry format with
  | .error fault => (failed format (.scanFailed format fault.message), none)
  | .ok scanner =>
    match scanner.scan content.toList {} with
    | .error fault => (failed format (.scanFailed format fault.message), some scanner.name)
    | .ok context => (resultOf limits.urlCount format context, some scanner.name)

-- The host answers, and the next question has the next number.
def ask (cancelled : Cancellation) : StateM Nat Bool :=
  modifyGet fun question => (cancelled question, question + 1)

-- The host is asked at the start and right before the scan. A scan that has begun runs to its
-- end.
def outcome (registry : Registry) (limits : Limits) (cancelled : Cancellation)
    (content tag : String) : StateM Nat (ExtractionResult × Option String) := do
  if ← ask cancelled then return ({ success := false, format := .unknown }, none)
  else if limits.contentSize < content.length then
    return (failed .unknown (.tooLarge content.length limits.contentSize), none)
  else
    let format := FileFormat.resolve tag
    if ← ask cancelled then return ({ success := false, format }, none)
    else return scanWith registry limits content format

def run (registry : Registry) (limits : Limits) (cancelled : Cancellation) (content tag : String) :
    Extraction :=
  let ((result, scanner), questions) := (outcome registry limits cancelled content tag).run 0
  { result, questions, scanner }

def component : String := "scanner"

-- A problem that the scanner met is logged in the scope of its scan; the others are logged
-- outside of it.
def scopeOf (extraction : Extraction) : Problem → List (String × Tree)
  | .tooLarge .. | .tooManyUrls .. | .scanFailed .. | .noted .. => []
  | .lineSkipped .. | .valueSkipped .. | .unparsed .. =>
    match extraction.scanner with
    | some scanner => Log.scanScope extraction.result.format.tag scanner
    | none => []

def log (threshold : Nat) (extraction : Extraction) : List Log.Record :=
  extraction.result.problems.filterMap fun problem =>
    match problem.event? with
    | some event =>
      if event.isWritten threshold then some (event.record component (extraction.scopeOf problem))
      else none
    | none => none

end Extraction

-- What the addresses in a document are with the builtin scanners and the default limits.
def extractUrls (content tag : String) : ExtractionResult :=
  (Extraction.run .builtin {} .never content tag).result

end UrlHarvest
