import UrlHarvest.Settings.Checked
import UrlHarvest.Text.Utf8
import UrlHarvest.Yaml.Document

namespace UrlHarvest.Settings

inductive DocumentFault
  | unreadable
  | invalid (details : List Detail)
deriving Repr, DecidableEq

-- A document that says nothing, zero or no.
def isVoid : Tree → Bool
  | .null => true
  | .bool value => !value
  | .number (.whole value) => value == 0
  | .number (.decimal mantissa _) => mantissa == 0
  | .text value => value == ""
  | .list items => items.isEmpty
  | .map entries => entries.isEmpty
  | .number .notFinite | .moment => false

-- Every line end reads as a newline.
def unifyLineEnds (text : Text) : Text :=
  (text.foldl (fun (read, afterReturn) c =>
    if c = '\r' then ('\n' :: read, true)
    else if c = '\n' ∧ afterReturn then (read, false)
    else (c :: read, false)) (([] : Text), false)).1.reverse

-- A void document leaves all settings as they are.
def ofDocument (bytes : List UInt8) : Except DocumentFault Settings :=
  match Yaml.read? (unifyLineEnds (Text.Utf8.decode bytes)) with
  | none => .error .unreadable
  | some tree =>
    match ofTree (if isVoid tree then .map [] else tree) with
    | .ok settings => .ok settings
    | .error details => .error (.invalid details)

def plainWord : Tree → String
  | .bool value => if value then "true" else "false"
  | .number (.whole value) => toString value
  | .text value => value
  | _ => ""

-- One line for each setting, indented below the line of its part.
def partLines : String × Tree → List String
  | (name, .map entries) =>
    (name ++ ":") :: entries.map fun (key, value) => "  " ++ key ++ ": " ++ plainWord value
  | (name, value) => [name ++ ": " ++ plainWord value]

-- The settings that hold without a document, as a document.
def defaultDocument : String :=
  match ({} : Settings).toTree with
  | .map parts => String.join ((parts.flatMap partLines).map (· ++ "\n"))
  | _ => ""

end UrlHarvest.Settings
