import UrlHarvest.Pattern.Basic
import UrlHarvest.Text.Space
import UrlHarvest.Text.Word

namespace UrlHarvest.Pattern

open Text

def letters (text : String) : Piece :=
  .word text.toList

def spaces : Piece :=
  .run isSpace 0

-- Either quote may open a value and either may close it.
def isQuote (c : Char) : Bool :=
  c == '\x22' || c == '\x27'

def isScriptQuote (c : Char) : Bool :=
  isQuote c || c == '\x60'

def notIn (stops : String) (c : Char) : Bool :=
  !stops.toList.contains c

-- An attribute with a value between quotes; its name is any of the given sequences.
def quotedAttribute (names : List (List Piece)) : Pattern :=
  ⟨1, names.map (· ++
    [spaces, letters "=", spaces, .one isQuote, .capture 0 (!isQuote ·) 1, .one isQuote])⟩

def htmlHref : Pattern :=
  quotedAttribute [[letters "href"]]

def htmlSource : Pattern :=
  quotedAttribute [[letters "src"]]

def htmlAction : Pattern :=
  quotedAttribute [[letters "action"]]

def isNameChar (c : Char) : Bool :=
  isWord c || c == '.' || c == '-'

def nameRun : Piece :=
  .run isNameChar 1

def xmlAttribute : Pattern :=
  quotedAttribute [
    [letters "xlink:href"], [letters "href"], [letters "src"], [letters "url"], [letters "data"],
    [letters "xmlns:", nameRun], [letters "xmlns"],
    [nameRun, letters ":schemalocation"], [letters "schemalocation"],
    [letters "repository"], [letters "scm"], [letters "issuemanagement"], [letters "website"],
    [letters "link"], [letters "downloadurl"]]

def markdownLink : Pattern :=
  ⟨2, [[letters "[", .capture 0 (notIn "]") 1, letters "](", .capture 1 (notIn ")") 1,
    letters ")"]]⟩

def markdownAutolink : Pattern :=
  ⟨1, [[letters "<", .capture 0 (notIn ">") 1, letters ">"]]⟩

def stringLiteral : Pattern :=
  ⟨1, [[.one isScriptQuote, .capture 0 (!isScriptQuote ·) 0, .one isScriptQuote]]⟩

def isBareUrlChar (c : Char) : Bool :=
  !isSpace c && !isQuote c && c != ')'

def cssUrl : Pattern :=
  ⟨3, [
    [letters "url(", spaces, letters "\"", .capture 0 (notIn "\"") 0, letters "\"", spaces,
      letters ")"],
    [letters "url(", spaces, letters "'", .capture 1 (notIn "'") 0, letters "'", spaces,
      letters ")"],
    [letters "url(", spaces, .capture 2 isBareUrlChar 1, spaces, letters ")"]]⟩

def cssImport : Pattern :=
  ⟨2, [
    [letters "@import", .run isSpace 1, letters "\"", .capture 0 (notIn "\"") 0, letters "\""],
    [letters "@import", .run isSpace 1, letters "'", .capture 1 (notIn "'") 0, letters "'"]]⟩

end UrlHarvest.Pattern
