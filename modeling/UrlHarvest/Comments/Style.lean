import UrlHarvest.Text.Space

namespace UrlHarvest

-- The marks around a block comment; neither of them is empty.
structure BlockMarks where
  opener : Text
  closer : Text
  opener_ne_nil : opener ≠ [] := by decide
  closer_ne_nil : closer ≠ [] := by decide
deriving DecidableEq

def BlockMarks.of? (opener closer : Text) : Option BlockMarks :=
  if h : opener ≠ [] ∧ closer ≠ [] then some ⟨opener, closer, h.1, h.2⟩ else none

-- What a document format hides from the scan.
structure CommentStyle where
  block : Option BlockMarks := none
  linePrefixes : List Text := []
  fences : Bool := false
deriving DecidableEq

namespace CommentStyle

def plain : CommentStyle := {}

def markup : CommentStyle :=
  { block := some { opener := "<!--".toList, closer := "-->".toList } }

def markdown : CommentStyle :=
  { markup with fences := true }

def css : CommentStyle :=
  { block := some { opener := "/*".toList, closer := "*/".toList } }

def hash : CommentStyle :=
  { linePrefixes := ["#".toList] }

def properties : CommentStyle :=
  { linePrefixes := ["#".toList, "!".toList] }

def ini : CommentStyle :=
  { linePrefixes := [";".toList, "#".toList] }

-- Whether a text that begins a line, less its indentation, begins a comment.
def commentsOut (style : CommentStyle) (text : Text) : Bool :=
  style.linePrefixes.any fun mark => mark.isPrefixOf (Text.trimLeft text)

end CommentStyle

def fenceMark : Text :=
  "\x60\x60\x60".toList

-- A fence may be indented and may be followed by anything.
def isFence (line : Text) : Bool :=
  fenceMark.isPrefixOf (Text.trim line)

-- An odd number of backticks in front of a place leaves a code span open there.
def inInlineCode (line : Text) (offset : Nat) : Bool :=
  (line.take offset).count '\x60' % 2 == 1

end UrlHarvest
