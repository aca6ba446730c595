import UrlHarvest.Text.Quoted

namespace UrlHarvest.CommandLine

-- What is wrong with the words of a command.
inductive Misuse
  | missingCommand
  | unknownCommand (name : String)
  | unknownOption (name : String)
  | missingValue (option : String)
  | unwantedValue (option : String)
  | missingArgument (name : String)
  | extraArguments (words : List String)
  | noSuchFile (argument path : String)
  | isDirectory (argument path : String)
  | notAmong (option value : String) (choices : List String)
deriving Repr, DecidableEq

private def invalidValue (parameter reason : String) : String :=
  "Invalid value for '" ++ parameter ++ "': " ++ reason

def Misuse.message : Misuse → String
  | missingCommand => "Missing command."
  | unknownCommand name => "No such command " ++ quotedString name ++ "."
  | unknownOption name => "No such option " ++ quotedString name ++ "."
  | missingValue option => "Option " ++ quotedString option ++ " requires an argument."
  | unwantedValue option => "Option " ++ quotedString option ++ " does not take a value."
  | missingArgument name => "Missing argument '" ++ name ++ "'."
  | extraArguments words =>
    "Got unexpected extra argument" ++ (if words.length = 1 then "" else "s") ++ " (" ++
      " ".intercalate words ++ ")"
  | noSuchFile argument path =>
    invalidValue argument ("File " ++ quotedString path ++ " does not exist.")
  | isDirectory argument path =>
    invalidValue argument ("File " ++ quotedString path ++ " is a directory.")
  | notAmong option value choices =>
    invalidValue option (quotedString value ++ " is not one of " ++
      ", ".intercalate (choices.map quotedString) ++ ".")

-- An option as it is written, and whether a value follows it.
structure OptionForm where
  spelling : String
  takesValue : Bool := false

-- The options in the order in which they are written, and the other words.
structure Words where
  options : List (String × Option String) := []
  others : List String := []

namespace Words

-- Of an option that is written more than once the last value counts.
def valueOf? (words : Words) (spellings : List String) : Option String :=
  ((words.options.reverse.find? fun option => spellings.contains option.1).bind (·.2))

def has (words : Words) (spelling : String) : Bool :=
  words.options.any (·.1 == spelling)

-- Of a pair of options that exclude each other the last one counts.
def choice? (words : Words) (yes no : String) : Option Bool :=
  (words.options.reverse.find? fun option => option.1 == yes || option.1 == no).map (·.1 == yes)

end Words

-- What a word that begins with a dash says: options without values, and at its end an option with
-- its value or one whose value is the next word.
structure Dashed where
  options : List (String × Option String)
  waiting : Option String := none

def formOf? (forms : List OptionForm) (spelling : String) : Option OptionForm :=
  forms.find? (·.spelling == spelling)

-- Letters after a single dash. An option with a value takes the rest of the word.
def readLetters (forms : List OptionForm) : Text → Except Misuse Dashed
  | [] => .ok ⟨[], none⟩
  | letter :: rest =>
    let spelling := String.ofList ['-', letter]
    match formOf? forms spelling with
    | none => .error (.unknownOption spelling)
    | some form =>
      if form.takesValue then
        if rest.isEmpty then .ok ⟨[], some spelling⟩
        else .ok ⟨[(spelling, some (String.ofList rest))], none⟩
      else
        match readLetters forms rest with
        | .ok dashed => .ok { dashed with options := (spelling, none) :: dashed.options }
        | .error misuse => .error misuse

-- A long option may carry its value behind an equals sign.
def readDashed (forms : List OptionForm) (word : Text) : Except Misuse Dashed :=
  let (name, value) := Text.cutAt '=' word
  let spelling := String.ofList name
  let long := forms.filter fun form => form.spelling.startsWith "--"
  match formOf? long spelling, value with
  | some form, some value =>
    if form.takesValue then .ok ⟨[(spelling, some (String.ofList value))], none⟩
    else .error (.unwantedValue spelling)
  | some form, none =>
    if form.takesValue then .ok ⟨[], some spelling⟩ else .ok ⟨[(spelling, none)], none⟩
  | none, _ =>
    match word with
    | '-' :: '-' :: _ => .error (.unknownOption spelling)
    | _ => readLetters forms (word.drop 1)

-- Reads words from left to right. `waiting` is the option whose value is due. Two dashes end the
-- options, and so does the first other word unless options are `mixed` with other words.
def readWords (forms : List OptionForm) (mixed : Bool) (waiting : Option String)
    (found : Words) : List String → Except Misuse Words
  | [] =>
    match waiting with
    | some option => .error (.missingValue option)
    | none => .ok found
  | word :: rest =>
    match waiting with
    | some option =>
      readWords forms mixed none { found with
        options := found.options ++ [(option, some word)] } rest
    | none =>
      if word = "--" then .ok { found with others := found.others ++ rest }
      else if word.startsWith "-" ∧ word ≠ "-" then
        match readDashed forms word.toList with
        | .error misuse => .error misuse
        | .ok dashed =>
          readWords forms mixed dashed.waiting { found with
            options := found.options ++ dashed.options } rest
      else if mixed then
        readWords forms mixed none { found with others := found.others ++ [word] } rest
      else .ok { found with others := found.others ++ word :: rest }

end UrlHarvest.CommandLine
