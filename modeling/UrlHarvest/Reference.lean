import UrlHarvest.Text.LetterCase
import UrlHarvest.Text.Lowercase
import UrlHarvest.Text.Space

namespace UrlHarvest

-- The looser notion of what leads somewhere: besides addresses with a scheme, paths and bare
-- domains count.
namespace Reference

open Text

inductive Kind
  | https
  | http
  | ftps
  | ftp
  | file
  | mailto
  | tel
  | data
  | relativePath
  | absolutePath
  | domain
  | unknown
deriving Repr, DecidableEq, Inhabited

def Kind.tag : Kind → String
  | .https => "https"
  | .http => "http"
  | .ftps => "ftps"
  | .ftp => "ftp"
  | .file => "file"
  | .mailto => "mailto"
  | .tel => "tel"
  | .data => "data"
  | .relativePath => "relative-path"
  | .absolutePath => "absolute-path"
  | .domain => "domain"
  | .unknown => "unknown"

-- Beginnings that need no more after them, in any letter case.
def schemeMarks : List Text := [
  "https://".toList, "http://".toList, "ftps://".toList, "ftp://".toList, "file://".toList,
  "mailto:".toList, "tel:".toList, "data:".toList]

def isLabelStart (c : Char) : Bool :=
  isAsciiLetter c || isAsciiDigit c

def isLabelChar (c : Char) : Bool :=
  isLabelStart c || c == '-'

-- A label, a dot and at least two letters; whatever follows is not looked at.
def startsWithDomain : Text → Bool
  | [] => false
  | c :: rest =>
    isLabelStart c &&
      match rest.dropWhile isLabelChar with
      | '.' :: a :: b :: _ => isAsciiLetter a && isAsciiLetter b
      | _ => false

-- A single slash is no path yet, and two slashes begin no path.
def startsWithPath : Text → Bool
  | '/' :: c :: _ => c != '/'
  | '.' :: '/' :: _ => true
  | '.' :: '.' :: '/' :: _ => true
  | _ => false

def holds (value : Text) : Bool :=
  let text := trim value
  schemeMarks.any (fun mark => (dropWord? mark text).isSome) || startsWithPath text ||
    startsWithDomain text

def kindMarks : List (Text × Kind) := [
  ("https://".toList, .https), ("http://".toList, .http), ("ftps://".toList, .ftps),
  ("ftp://".toList, .ftp), ("file://".toList, .file), ("mailto:".toList, .mailto),
  ("tel:".toList, .tel), ("data:".toList, .data), ("./".toList, .relativePath),
  ("../".toList, .relativePath), ("/".toList, .absolutePath)]

-- Judged in small letters, so a beginning that only folds into a mark is not recognised here.
def kind (value : Text) : Kind :=
  let text := lower (trim value)
  match kindMarks.find? (·.1.isPrefixOf text) with
  | some (_, kind) => kind
  | none => if startsWithDomain text then .domain else .unknown

end Reference

end UrlHarvest
