import UrlHarvest.Entries
import UrlHarvest.Scan.Scanner
import UrlHarvest.Text.Quoted

namespace UrlHarvest

-- A format is asked for by its tag or as itself.
inductive FormatRequest
  | byTag (text : String)
  | exact (format : FileFormat)
deriving Repr, DecidableEq

namespace FormatRequest

def resolve? : FormatRequest → Option FileFormat
  | byTag text => FileFormat.ofTag? text
  | exact format => some format

-- A format that is asked for as itself is shown by its name among the formats.
def shown : FormatRequest → String
  | byTag text => text
  | exact format => "FileFormat." ++ String.ofList (Text.capitals format.tag.toList)

end FormatRequest

-- The scanner of each format, in the order in which the formats were first registered.
structure Registry where
  scanners : List (FileFormat × Scanner) := []

namespace Registry

inductive Fault
  | taken (format : FileFormat)
  | unknownTag (text : String)
  | noScanner (request : FormatRequest)
deriving Repr, DecidableEq

def Fault.message : Fault → String
  | taken format => "Scanner already registered for format: " ++ format.tag
  | unknownTag text => quotedString text ++ " is not a valid FileFormat"
  | noScanner request => "No scanner registered for format: " ++ request.shown

def empty : Registry := {}

def formats (registry : Registry) : List FileFormat :=
  registry.scanners.map (·.1)

def scannerOf? (registry : Registry) (format : FileFormat) : Option Scanner :=
  registry.scanners.lookup format

-- Either all formats of the scanner are registered or none. Only an override replaces a scanner,
-- and it keeps the place of the format.
def register (registry : Registry) (scanner : Scanner) (override : Bool) :
    Except Fault Registry :=
  match scanner.formats.find? fun format => !override && registry.formats.contains format with
  | some format => .error (.taken format)
  | none =>
    .ok ⟨scanner.formats.foldl (fun known format => Entries.put known format scanner)
      registry.scanners⟩

-- Nothing changes for a format that has no scanner.
def unregister (registry : Registry) (request : FormatRequest) : Except Fault Registry :=
  match request with
  | .byTag text =>
    match FileFormat.ofTag? text with
    | some format => .ok ⟨Entries.erase registry.scanners format⟩
    | none => .error (.unknownTag text)
  | .exact format => .ok ⟨Entries.erase registry.scanners format⟩

def get (registry : Registry) (request : FormatRequest) : Except Fault Scanner :=
  match request.resolve?.bind registry.scannerOf? with
  | some scanner => .ok scanner
  | none => .error (.noScanner request)

-- Registers one scanner after the other up to the first that is refused. What was registered
-- before that one stays.
def registerAll (registry : Registry) : List Scanner → Registry × Option Fault
  | [] => (registry, none)
  | scanner :: rest =>
    match registry.register scanner false with
    | .ok registry => registry.registerAll rest
    | .error fault => (registry, some fault)

def loadBuiltin (registry : Registry) : Registry × Option Fault :=
  registry.registerAll Scanner.builtin

-- A registry without any scanner is filled with the builtin ones.
def filled (registry : Registry) : Registry :=
  if registry.scanners.isEmpty then registry.loadBuiltin.1 else registry

def builtin : Registry := empty.filled

end Registry

end UrlHarvest
