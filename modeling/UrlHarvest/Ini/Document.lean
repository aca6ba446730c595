import UrlHarvest.Text.Space
import UrlHarvest.Tree.Basic

namespace UrlHarvest.Ini

-- A key with the lines of its value, the last line first. A key that is followed by no sign has
-- no value, not even an empty one.
structure Setting where
  name : String
  lines : Option (List Text)
deriving Repr, DecidableEq

structure Section where
  name : String
  settings : List Setting := []
deriving Repr, DecidableEq

-- The section of the keys before the first header. Its name is reserved, so that a header which
-- repeats it is a second section of that name.
def topName : String := "__urls_core_top__"

-- The settings below this name count in every section. A text may open it more than once.
def sharedName : String := "__urls_core_default__"

-- The sections in order of their headers, the top one first.
structure Document where
  sections : List Section := [⟨topName, []⟩]
  shared : List Setting := []
deriving Repr, DecidableEq

-- Blanks that end a value are left out, empty lines among them.
def Setting.value (setting : Setting) : Tree :=
  match setting.lines with
  | none => .null
  | some lines =>
    .text (String.ofList (Text.trimRight (['\n'].intercalate lines.reverse)))

def Setting.entry (setting : Setting) : String × Tree :=
  (setting.name, setting.value)

-- A setting of the section itself goes before a shared one of its name, but takes its place.
def Document.entriesOf (document : Document) (part : Section) : List (String × Tree) :=
  (document.shared ++ part.settings).map Setting.entry

-- The settings of the top section stand beside the other sections.
def Document.toTree (document : Document) : Tree :=
  .ofEntries (document.sections.flatMap fun part =>
    if part.name = topName then document.entriesOf part
    else [(part.name, .ofEntries (document.entriesOf part))])

end UrlHarvest.Ini
