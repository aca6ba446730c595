import UrlHarvest.Comments.Regions
import UrlHarvest.Pattern.Boundary
import UrlHarvest.Scan.Context

namespace UrlHarvest

-- A structural pass: where a pattern matches, `target` reads off what the match points to.
structure CapturePass where
  pattern : Pattern
  target : Match → Text

-- A value in a line and the offset at which its match begins.
structure Hit where
  offset : Nat
  value : Text
deriving Repr, DecidableEq

-- A scanner that goes through a document line by line. `refuses` gives the reason for which a
-- line cannot be read.
structure LineScanner where
  name : String
  formats : List FileFormat
  comments : CommentStyle := .plain
  captures : List CapturePass := []
  rules : List BoundaryRule := BoundaryRule.all
  inlineCode : Bool := false
  refuses : Text → Option String := fun _ => none

namespace LineScanner

def hides (scanner : LineScanner) (regions : LineRegions) (line : Text) (offset : Nat) : Bool :=
  regions.hides offset || (scanner.inlineCode && inInlineCode line offset)

-- A target is reported only where it is an address of a supported scheme. It stands at the start
-- of its match: the attribute name, the opening quote or bracket.
def captureHits (scanner : LineScanner) (regions : LineRegions) (line : Text)
    (pass : CapturePass) : List Hit :=
  (pass.pattern.matchesIn line).filterMap fun found =>
    if scanner.hides regions line found.start then none
    else
      let value := pass.target found
      if !value.isEmpty && isValidUrl value then some ⟨found.start, value⟩ else none

def plainHits (scanner : LineScanner) (regions : LineRegions) (line : Text) : List Hit :=
  (BoundaryRule.matchesIn scanner.rules line).filterMap fun found =>
    if scanner.hides regions line found.start then none else some ⟨found.start, found.text⟩

-- Structural passes go first, so that their hits are the ones recorded.
def hits (scanner : LineScanner) (regions : LineRegions) (line : Text) : List Hit :=
  scanner.captures.flatMap (scanner.captureHits regions line) ++ scanner.plainHits regions line

-- A line that is hidden whole yields nothing; one that is refused yields the problem alone.
def findingsInLine (scanner : LineScanner) (index : Nat) (line : Text) (regions : LineRegions) :
    List Finding :=
  if regions.wholeLine then []
  else
    match scanner.refuses line with
    | some reason => [.problem (.lineSkipped scanner.name (index + 1) reason)]
    | none =>
      match scanner.hits regions line with
      | [] => []
      | hits =>
        let snippet := String.ofList (Text.trim line)
        hits.map fun hit => Finding.inLine hit.value snippet index hit.offset

def findings (scanner : LineScanner) (text : Text) : List Finding :=
  let lines := Text.lines text
  (lines.zip (scanner.comments.regions lines)).zipIdx.flatMap fun ((line, regions), index) =>
    scanner.findingsInLine index line regions

def scan (scanner : LineScanner) (text : Text) (context : ScanContext) : ScanContext :=
  context.takeAll (scanner.findings text)

end LineScanner

end UrlHarvest
