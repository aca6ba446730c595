import UrlHarvest.Settings.Basic
import UrlHarvest.Text.Lowercase
import UrlHarvest.Text.Space

namespace UrlHarvest.Settings

inductive Cause
  | notMap (model : String)
  | notWhole
  | unreadableWhole
  | wholeTooLong
  | fractional
  | notFinite
  | tooSmall (least : Nat)
  | notBool
  | unreadableBool
  | notText
  | unknownLevel (name : String)
deriving Repr, DecidableEq

def Cause.kind : Cause → String
  | notMap _ => "model_type"
  | notWhole => "int_type"
  | unreadableWhole => "int_parsing"
  | wholeTooLong => "int_parsing_size"
  | fractional => "int_from_float"
  | notFinite => "finite_number"
  | tooSmall _ => "greater_than_equal"
  | notBool => "bool_type"
  | unreadableBool => "bool_parsing"
  | notText => "string_type"
  | unknownLevel _ => "value_error"

def Cause.message : Cause → String
  | notMap model => "Input should be a valid dictionary or instance of " ++ model
  | notWhole => "Input should be a valid integer"
  | unreadableWhole => "Input should be a valid integer, unable to parse string as an integer"
  | wholeTooLong => "Unable to parse input string as an integer, exceeded maximum size"
  | fractional => "Input should be a valid integer, got a number with a fractional part"
  | notFinite => "Input should be a finite number"
  | tooSmall least => "Input should be greater than or equal to " ++ toString least
  | notBool => "Input should be a valid boolean"
  | unreadableBool => "Input should be a valid boolean, unable to interpret input"
  | notText => "Input should be a valid string"
  | unknownLevel name => "Value error, Unknown logging level: " ++ name

-- A cause and the keys that lead to the value at fault.
structure Detail where
  place : List String
  cause : Cause
deriving Repr, DecidableEq

-- All that is wrong with a configuration is told at once.
abbrev Checked (α : Type) := Except (List Detail) α

def Checked.and {α β : Type} : Checked α → Checked β → Checked (α × β)
  | .ok a, .ok b => .ok (a, b)
  | .ok _, .error details => .error details
  | .error details, .ok _ => .error details
  | .error details, .error more => .error (details ++ more)

-- Digits of which a single underscore may stand between two.
def spacedDigits? (digits : Text) : Option Nat :=
  let pieces := Text.splitAt '_' digits
  if pieces.all fun piece => !piece.isEmpty && piece.all Text.isAsciiDigit then
    some (Text.digitsValue pieces.flatten)
  else none

-- Underscores among the leading zeros are not looked at, as long as a zero comes first and
-- something else comes last.
def unsigned? (digits : Text) : Option Nat :=
  if digits.head? = some '0' then
    match digits.dropWhile fun c => c == '0' || c == '_' with
    | [] => if digits.getLast? = some '0' then some 0 else none
    | rest => spacedDigits? rest
  else spacedDigits? digits

-- A text reads as a whole number if nothing but zeros follows its point.
def wholeOfText? (text : Text) : Option Int :=
  let body := ((text.dropWhile Text.isSpace).reverse.dropWhile Text.isSpace).reverse
  let (whole, fraction) := Text.cutAt '.' body
  if (fraction.getD []).all (· == '0') then
    match whole with
    | '+' :: digits => (unsigned? digits).map Int.ofNat
    | '-' :: digits => (spacedDigits? (digits.dropWhile (· == '_'))).map fun n => -(n : Int)
    | digits => (unsigned? digits).map Int.ofNat
  else none

-- Numbers with a point or an exponent are whole up to the range of 64 bits.
def readWhole : Tree → Except Cause Int
  | .bool value => .ok (if value then 1 else 0)
  | .number (.whole value) => .ok value
  | .number (.decimal mantissa places) =>
    if mantissa % (Nat.pow 10 places : Nat) ≠ 0 then .error .fractional
    else
      let value := mantissa / (Nat.pow 10 places : Nat)
      if value.natAbs < Nat.pow 2 63 then .ok value else .error .wholeTooLong
  | .number .notFinite => .error .notFinite
  | .text text =>
    if 4300 < text.utf8ByteSize then .error .wholeTooLong
    else
      match wholeOfText? text.toList with
      | some value => .ok value
      | none => .error .unreadableWhole
  | _ => .error .notWhole

def readAtLeast (least : Nat) (tree : Tree) : Except Cause Nat := do
  let value ← readWhole tree
  if (least : Int) ≤ value then return value.toNat else throw (.tooSmall least)

def boolWords : List (String × Bool) := [
  ("0", false), ("f", false), ("n", false), ("no", false), ("off", false), ("false", false),
  ("1", true), ("t", true), ("y", true), ("yes", true), ("on", true), ("true", true)]

def boolOfWhole : Int → Except Cause Bool
  | 0 => .ok false
  | 1 => .ok true
  | _ => .error .unreadableBool

def readBool : Tree → Except Cause Bool
  | .bool value => .ok value
  | .number (.whole value) => boolOfWhole value
  | .number (.decimal mantissa places) =>
    match readWhole (.number (.decimal mantissa places)) with
    | .ok value => boolOfWhole value
    | .error _ => .error .notBool
  | .text text =>
    match boolWords.lookup (String.ofList (text.toList.map Char.toLower)) with
    | some value => .ok value
    | none => .error .unreadableBool
  | _ => .error .notBool

def levelNames : List String :=
  ["critical", "error", "warning", "info", "debug"]

-- The level keeps the letters in which it is written.
def readLevel : Tree → Except Cause String
  | .text text =>
    if levelNames.contains (String.ofList (Text.lower text.toList)) then .ok text
    else .error (.unknownLevel text)
  | _ => .error .notText

-- A key that is not there has its default. Keys that are not asked for are not looked at.
def field {α : Type} (entries : List (String × Tree)) (name : String) (default : α)
    (read : Tree → Except Cause α) : Checked α :=
  match entries.lookup name with
  | none => .ok default
  | some tree =>
    match read tree with
    | .ok value => .ok value
    | .error cause => .error [⟨[name], cause⟩]

def part {α : Type} (entries : List (String × Tree)) (name model : String) (default : α)
    (read : List (String × Tree) → Checked α) : Checked α :=
  match entries.lookup name with
  | none => .ok default
  | some (.map inner) =>
    match read inner with
    | .ok value => .ok value
    | .error details => .error (details.map fun detail => ⟨name :: detail.place, detail.cause⟩)
  | some _ => .error [⟨[name], .notMap model⟩]

def readSafety (entries : List (String × Tree)) : Checked SafetySettings :=
  ((field entries "enabled" true readBool).and
    ((field entries "file_size_warn_bytes" 1000000 (readAtLeast 1000)).and
      ((field entries "large_output_lines_threshold" 50000 (readAtLeast 100)).and
        (field entries "many_documents_threshold" 8 (readAtLeast 1))))).map
    fun (enabled, contentSize, outputLines, documents) =>
      ⟨enabled, contentSize, outputLines, documents⟩

def readOutput (entries : List (String × Tree)) : Checked OutputSettings :=
  ((field entries "dedupe_enabled" false readBool).and
    (field entries "show_parse_errors" false readBool)).map
    fun (dedupe, showErrors) => ⟨dedupe, showErrors⟩

def readLogging (entries : List (String × Tree)) : Checked LoggingSettings :=
  (field entries "level" "INFO" readLevel).map fun level => ⟨level⟩

def ofTree : Tree → Checked Settings
  | .map entries =>
    ((part entries "safety" "SafetyConfig" {} readSafety).and
      ((part entries "output" "OutputConfig" {} readOutput).and
        (part entries "logging" "LoggingConfig" {} readLogging))).map
      fun (safety, output, logging) => ⟨safety, output, logging⟩
  | _ => .error [⟨[], .notMap "AppConfig"⟩]

end UrlHarvest.Settings
