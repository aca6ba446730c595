import UrlHarvest.Scan.Scanner

namespace UrlHarvest

-- What a host or a scanner of its own can ask of a context. A match names the line it was found
-- in, both counted from zero.
inductive ContextStep
  | scan (scanner : Scanner) (text : Text)
  | add (value : String) (position : Option Position) (snippet type : Option String)
  | addMatch (value line : String) (lineIndex columnIndex : Int)
  | record (message : String) (severity : Severity) (recovery : Recovery)
      (position : Option Position)

inductive StepAnswer
  | scanned
  | failed (fault : ScanFault)
  | added (new : Bool)
  | recorded (problem : Problem)
deriving Repr, DecidableEq

namespace ScanContext

def addMatch (context : ScanContext) (value line : String) (lineIndex columnIndex : Int) :
    ScanContext :=
  context.take (.inLine value.toList (trimmed line) lineIndex columnIndex)

-- A scan that fails leaves the context as it was.
def perform (context : ScanContext) : ContextStep → StepAnswer × ScanContext
  | .scan scanner text =>
    match scanner.scan text context with
    | .ok after => (.scanned, after)
    | .error fault => (.failed fault, context)
  | .add value position snippet type =>
    (.added (context.isNew value), context.add value position snippet type)
  | .addMatch value line lineIndex columnIndex =>
    (.added (context.isNew value), context.addMatch value line lineIndex columnIndex)
  | .record message severity recovery position =>
    let problem := .noted message severity recovery position
    (.recorded problem, context.note problem)

def performAll (context : ScanContext) (steps : List ContextStep) : ScanContext :=
  steps.foldl (fun context step => (context.perform step).2) context

end ScanContext

end UrlHarvest
