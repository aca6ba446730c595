import UrlHarvest.Pattern.Basic
import UrlHarvest.Text.Space

namespace UrlHarvest

-- Ends an address met in markup, between quotes or in prose.
def isTerminator (c : Char) : Bool :=
  "<>\"'\x7b\x7d|\\^\x60[];)".toList.contains c

-- A code point that an address in running text goes on with.
def isBodyChar (c : Char) : Bool :=
  !Text.isSpace c && !isTerminator c

-- The rules that find addresses in running text, one for each family of schemes.
inductive BoundaryRule
  | web
  | ftp
  | mailto
  | tel
  | file
deriving Repr, DecidableEq, Inhabited

namespace BoundaryRule

def name : BoundaryRule → String
  | web => "web"
  | ftp => "ftp"
  | mailto => "mailto"
  | tel => "tel"
  | file => "file"

def all : List BoundaryRule :=
  [web, ftp, mailto, tel, file]

def marks : BoundaryRule → List Text
  | web => ["https://".toList, "http://".toList]
  | ftp => ["ftp://".toList]
  | mailto => ["mailto:".toList]
  | tel => ["tel:".toList]
  | file => ["file://".toList]

def pattern (rule : BoundaryRule) : Pattern :=
  ⟨0, rule.marks.map fun mark => [.word mark, .run isBodyChar 1]⟩

structure UnknownNames where
  names : List String
deriving Repr, DecidableEq

def UnknownNames.message (unknown : UnknownNames) : String :=
  "Unknown boundary rule(s): " ++ ", ".intercalate unknown.names

-- The rules of the given names. Their order is that of `all`, whatever the order of the names.
def named (names : List String) : Except UnknownNames (List BoundaryRule) :=
  let unknown := names.eraseDups.filter fun name => !(all.map BoundaryRule.name).contains name
  if unknown.isEmpty then .ok (all.filter fun rule => names.contains rule.name)
  else .error ⟨unknown.mergeSort (· ≤ ·)⟩

-- Rule by rule, and for each rule from left to right.
def matchesIn (rules : List BoundaryRule) (text : Text) : List Match :=
  rules.flatMap fun rule => rule.pattern.matchesIn text

end BoundaryRule

end UrlHarvest
