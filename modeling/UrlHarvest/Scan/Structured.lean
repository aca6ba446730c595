import UrlHarvest.Scan.Fault
import UrlHarvest.Scan.Line
import UrlHarvest.Scan.Locator
import UrlHarvest.Tree.Basic

namespace UrlHarvest

-- A scanner that reads a document as a tree and reports each value with the path to it. `refuses`
-- gives the reason for which a value cannot be looked at.
structure StructuredScanner where
  name : String
  label : String
  formats : List FileFormat
  comments : CommentStyle
  read : Text → Except ReadFault Tree
  refuses : Text → Option String := fun _ => none

namespace StructuredScanner

-- What a document is scanned with that does not read as a tree.
def lineByLine (scanner : StructuredScanner) : LineScanner where
  name := scanner.name
  formats := []
  comments := scanner.comments

-- A leaf that is one address as a whole yields that address, even where a boundary rule would end
-- it earlier.
def candidates (leaf : Text) : List Text :=
  let whole := Text.trim leaf
  if !whole.isEmpty && !whole.any Text.isBlank && isValidUrl whole then [whole]
  else (BoundaryRule.matchesIn BoundaryRule.all leaf).map Match.text

-- A value that is known already is not looked for, so that it does not move the cursor.
def takeCandidate (path : String) (state : Locator × ScanContext) (value : Text) :
    Locator × ScanContext :=
  let (locator, context) := state
  let text := String.ofList value
  if context.isNew text then
    let (position, locator) := locator.locate value
    (locator, context.take (.url text position (some path) none))
  else state

def takeLeaf (scanner : StructuredScanner) (state : Locator × ScanContext)
    (leaf : String × String) : Locator × ScanContext :=
  let (path, text) := leaf
  match scanner.refuses text.toList with
  | some reason => (state.1, state.2.take (.problem (.valueSkipped scanner.name path reason)))
  | none => (candidates text.toList).foldl (takeCandidate path) state

def scan (scanner : StructuredScanner) (text : Text) (context : ScanContext) :
    Except ScanFault ScanContext :=
  match scanner.read text with
  | .ok tree =>
    let locator := Locator.ofText text scanner.comments
    .ok ((tree.leaves Tree.rootPath).foldl scanner.takeLeaf (locator, context)).2
  | .error (.malformed reason) =>
    .ok (scanner.lineByLine.scan text
      (context.note (.unparsed scanner.name scanner.label reason)))
  | .error (.fatal fault) => .error fault

end StructuredScanner

end UrlHarvest
