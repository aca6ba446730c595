import UrlHarvest.Ini.Reader
import UrlHarvest.Scan.Formats
import UrlHarvest.Scan.Structured
import UrlHarvest.Toml.Document

namespace UrlHarvest

namespace StructuredScanner

def toml : StructuredScanner where
  name := "toml"
  label := "TOML"
  formats := [.toml]
  comments := .hash
  read := Toml.read

def ini : StructuredScanner where
  name := "ini"
  label := "INI"
  formats := [.ini]
  comments := .ini
  read := Ini.read

end StructuredScanner

-- A host may bring scanners of its own, and one that never gives a result is among what has to be
-- reckoned with.
inductive Scanner
  | line (scanner : LineScanner)
  | structured (scanner : StructuredScanner)
  | failing (name : String) (formats : List FileFormat) (reason : String)

namespace Scanner

def name : Scanner → String
  | line scanner => scanner.name
  | structured scanner => scanner.name
  | failing name _ _ => name

def formats : Scanner → List FileFormat
  | line scanner => scanner.formats
  | structured scanner => scanner.formats
  | failing _ formats _ => formats

-- A scan that fails leaves no context behind.
def scan (text : Text) (context : ScanContext) : Scanner → Except ScanFault ScanContext
  | line scanner => .ok (scanner.scan text context)
  | structured scanner => scanner.scan text context
  | failing _ _ reason => .error (.failed reason)

def builtin : List Scanner := [
  line .markdown, line .html, line .css, line .script, line .json, line .yaml, line .properties,
  structured .toml, structured .ini, line .xml]

end Scanner

end UrlHarvest
