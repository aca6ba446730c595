import UrlHarvest.Ini.Document
import UrlHarvest.Scan.Fault
import UrlHarvest.Text.Quoted
import UrlHarvest.Text.Space

namespace UrlHarvest.Ini

-- A line that breaks a rule does not end the reading, so that all such lines can be named.
-- Whatever else goes wrong ends it at once.
inductive Fault
  | repeatedSection (line : Nat) (name : String)
  | repeatedKey (line : Nat) (name inSection : String)
  | badLines (lines : List (Nat × Text))
  | danglingLine
deriving Repr, DecidableEq

def lineNumber (line : Nat) : String :=
  "[line " ++ (if line < 10 then " " else "") ++ toString line ++ "]"

def Fault.toReadFault : Fault → ReadFault
  | repeatedSection line name =>
    .malformed ("While reading from '<string>' " ++ lineNumber line ++ ": section " ++
      quotedString name ++ " already exists")
  | repeatedKey line name inSection =>
    .malformed ("While reading from '<string>' " ++ lineNumber line ++ ": option " ++
      quotedString name ++ " in section " ++ quotedString inSection ++ " already exists")
  | badLines lines =>
    .malformed ("Source contains parsing errors: '<string>'" ++
      String.join (lines.map fun (line, text) =>
        "\n\t" ++ lineNumber line ++ ": " ++ quotedString (String.ofList text)))
  | danglingLine => .fatal .danglingLine

def isCommentMark (c : Char) : Bool :=
  c == ';' || c == '#'

-- Where a mark stands in a line, and whether a blank or the start of the line is before it.
structure Mark where
  offset : Nat
  afterBlank : Bool
deriving Repr, DecidableEq

def marksOf (c : Char) (line : Text) : List Mark :=
  (line.zip (' ' :: line)).zipIdx.filterMap fun ((found, before), offset) =>
    if found = c then some ⟨offset, Text.isBlank before⟩ else none

-- The first marks of both kinds, then the second ones, and so on.
def rounds : List Mark → List Mark → List (List Mark)
  | [], others => others.map fun mark => [mark]
  | marks, [] => marks.map fun mark => [mark]
  | mark :: marks, other :: others => [mark, other] :: rounds marks others

-- Where a comment behind other text begins: the marks are looked at in rounds, and the first
-- round with a mark after a blank decides.
def inlineComment? (line : Text) : Option Nat :=
  (rounds (marksOf ';' line) (marksOf '#' line)).findSome? fun round =>
    ((round.filter Mark.afterBlank).map Mark.offset).min?

-- A line whose first code point that is no blank is a mark is a comment as a whole.
def commentStart? (line : Text) : Option Nat :=
  if ((Text.trimLeft line).head?.map isCommentMark).getD false then some 0
  else inlineComment? line

-- The name between the first bracket and the last one that closes; it is not empty.
def header? (content : Text) : Option Text :=
  match content with
  | '[' :: rest =>
    match rest.reverse.dropWhile (· != ']') with
    | _ :: c :: name => some (c :: name).reverse
    | _ => none
  | _ => none

-- The key and what follows the first equals sign or colon, if there is one.
def keyAndValue (content : Text) : Text × Option Text :=
  let isSign (c : Char) : Bool := c == '=' || c == ':'
  let name := Text.trimRight (content.takeWhile (!isSign ·))
  match content.dropWhile (!isSign ·) with
  | [] => (name, none)
  | _ :: value => (name, some (Text.trim value))

-- A document as far as it is read: the section and the key that the next line may go on with,
-- and how far the last line that did not go on with a value is indented. Sections stand in
-- reverse, and so do the settings of each, and the lines that break a rule.
structure Progress where
  sections : List Section := [⟨topName, []⟩]
  shared : List Setting := []
  inShared : Bool := false
  current : Option String := none
  indent : Nat := 0
  bad : List (Nat × Text) := []

namespace Progress

def sectionName (progress : Progress) : String :=
  if progress.inShared then sharedName else (progress.sections.head?.map Section.name).getD topName

def settings (progress : Progress) : List Setting :=
  if progress.inShared then progress.shared
  else (progress.sections.head?.map Section.settings).getD []

def withSettings (progress : Progress) (settings : List Setting) : Progress :=
  if progress.inShared then { progress with shared := settings }
  else
    match progress.sections with
    | [] => progress
    | latest :: before => { progress with sections := { latest with settings } :: before }

-- The setting that the next line may go on with. A key without a name is never gone on with.
def open? (progress : Progress) : Option Setting :=
  match progress.current with
  | none => none
  | some "" => none
  | some _ => progress.settings.head?

def addLine (progress : Progress) (line : Text) : Except Fault Progress :=
  match progress.settings with
  | ⟨name, some lines⟩ :: before =>
    .ok (progress.withSettings (⟨name, some (line :: lines)⟩ :: before))
  | _ => .error .danglingLine

def openSection (progress : Progress) (number : Nat) (name : String) : Except Fault Progress :=
  if progress.sections.any (·.name == name) then .error (.repeatedSection number name)
  else
    let progress := { progress with current := none }
    if name = sharedName then .ok { progress with inShared := true }
    else .ok { progress with sections := ⟨name, []⟩ :: progress.sections, inShared := false }

def addSetting (progress : Progress) (number : Nat) (line content : Text) :
    Except Fault Progress :=
  let (name, value) := keyAndValue content
  let name := String.ofList name
  let progress :=
    if name = "" then { progress with bad := (number, line) :: progress.bad } else progress
  if progress.settings.any (·.name == name) then
    .error (.repeatedKey number name progress.sectionName)
  else
    .ok { progress.withSettings (⟨name, value.map ([·])⟩ :: progress.settings) with
      current := some name }

-- Reads the line with the given number, newline included. A line that is indented deeper than
-- the one with the key goes on with its value.
def take (progress : Progress) (number : Nat) (line : Text) : Except Fault Progress :=
  let comment := commentStart? line
  let content := Text.trim (line.take (comment.getD line.length))
  if content.isEmpty then
    match comment, progress.open? with
    | none, some ⟨_, some _⟩ => progress.addLine []
    | _, _ => .ok progress
  else
    let indent := (line.takeWhile Text.isBlank).length
    if progress.open?.isSome ∧ progress.indent < indent then progress.addLine content
    else
      let progress := { progress with indent }
      match header? content with
      | some name => progress.openSection number (String.ofList name)
      | none => progress.addSetting number line content

def document (progress : Progress) : Document :=
  ⟨(progress.sections.map fun part =>
    { part with settings := part.settings.reverse }).reverse, progress.shared.reverse⟩

end Progress

-- The lines with their newlines. What follows the last newline is a line only if it is not empty.
def linesOf (text : Text) : List Text :=
  let lines := Text.lines text
  lines.dropLast.map (· ++ ['\n']) ++ (match lines.getLast? with
    | some (c :: rest) => [c :: rest]
    | _ => [])

-- Lines count from two: the header of the top section is taken to stand in front of the text.
def readDocument (text : Text) : Except Fault Document := do
  let progress ← ((linesOf text).zipIdx 2).foldlM
    (fun (progress : Progress) (line, number) => progress.take number line) {}
  match progress.bad.reverse with
  | [] => return progress.document
  | lines => .error (.badLines lines)

def read (text : Text) : Except ReadFault Tree :=
  match readDocument text with
  | .ok document => .ok document.toTree
  | .error fault => .error fault.toReadFault

end UrlHarvest.Ini
