import UrlHarvest.Text.Basic
import UrlHarvest.Tree.Basic

namespace UrlHarvest.Yaml

def nullWords : List String :=
  ["", "~", "null", "Null", "NULL"]

def boolWords : List (String × Bool) := [
  ("yes", true), ("Yes", true), ("YES", true), ("no", false), ("No", false), ("NO", false),
  ("true", true), ("True", true), ("TRUE", true), ("false", false), ("False", false),
  ("FALSE", false), ("on", true), ("On", true), ("ON", true), ("off", false), ("Off", false),
  ("OFF", false)]

def isSign (c : Char) : Bool :=
  c == '+' || c == '-'

-- The sign and what follows it. A number without a sign is positive.
def cutSign : Text → Int × Text
  | '-' :: rest => (-1, rest)
  | '+' :: rest => (1, rest)
  | text => (1, text)

def significant (digits : Text) : Text :=
  digits.filter (· != '_')

def isSpacedDigit (c : Char) : Bool :=
  Text.isAsciiDigit c || c == '_'

def isOctalDigit (c : Char) : Bool :=
  '0' ≤ c && c ≤ '7'

def isBinaryDigit (c : Char) : Bool :=
  c == '0' || c == '1'

-- Digits in a base, underscores among them; there is at least one code point.
def basedValue? (base : Nat) (isDigit : Char → Bool) (digits : Text) : Option Nat :=
  if !digits.isEmpty && digits.all fun c => isDigit c || c == '_' then
    some ((significant digits).foldl (fun value c => base * value + Text.hexValue [c]) 0)
  else none

-- One or two digits below sixty.
def isSixtieth (digits : Text) : Bool :=
  match digits with
  | [a] => Text.isAsciiDigit a
  | [a, b] => '0' ≤ a && a ≤ '5' && Text.isAsciiDigit b
  | _ => false

def startsWithDigit (text : Text) : Bool :=
  (text.head?.map Text.isAsciiDigit).getD false

-- Places in base sixty, with colons between them.
def sixtiesValue? (text : Text) : Option Nat :=
  match Text.splitAt ':' text with
  | first :: more =>
    if startsWithDigit first && first.all isSpacedDigit && more.all isSixtieth then
      some (more.foldl (fun value place => 60 * value + Text.digitsValue place)
        (Text.digitsValue (significant first)))
    else none
  | [] => none

def wholeBody? : Text → Option Nat
  | ['0'] => some 0
  | '0' :: 'b' :: digits => basedValue? 2 isBinaryDigit digits
  | '0' :: 'x' :: digits => basedValue? 16 Text.isHexDigit digits
  | '0' :: digits => basedValue? 8 isOctalDigit digits
  | body => sixtiesValue? body

def whole? (text : Text) : Option Int :=
  let (sign, body) := cutSign text
  (wholeBody? body).map fun value => sign * (value : Int)

-- The exponent after the letter; its sign may not be left out.
def exponent? : Text → Option Int
  | [] => some 0
  | letter :: sign :: digits =>
    if (letter = 'e' ∨ letter = 'E') ∧ isSign sign ∧ !digits.isEmpty ∧
        digits.all Text.isAsciiDigit then
      some ((cutSign [sign]).1 * (Text.digitsValue digits : Int))
    else none
  | _ => none

def infinityWords : List String :=
  [".inf", ".Inf", ".INF"]

def notANumberWords : List String :=
  [".nan", ".NaN", ".NAN"]

-- A number with a point. Without a digit before the point there is no sign either.
def decimal? (text : Text) : Option Number :=
  let (sign, body) := cutSign text
  let (before, after) := Text.cutAt '.' body
  match after with
  | none => none
  | some after =>
    let digits := after.takeWhile isSpacedDigit
    let rest := after.dropWhile isSpacedDigit
    let places := significant digits
    if before.isEmpty then
      if body.length = text.length ∧ startsWithDigit after then
        (exponent? rest).map fun exponent =>
          .ofScientific (Text.digitsValue places) (exponent - places.length)
      else none
    else if startsWithDigit before ∧ before.all isSpacedDigit then
      (exponent? rest).map fun exponent =>
        .ofScientific (sign * (Text.digitsValue (significant before ++ places) : Int))
          (exponent - places.length)
    else if ':' ∈ before ∧ rest.isEmpty then
      (sixtiesValue? before).map fun value =>
        .ofScientific
          (sign * ((value * Nat.pow 10 places.length + Text.digitsValue places : Nat) : Int))
          (-places.length)
    else none

def number? (text : Text) : Option Number :=
  let word := String.ofList text
  if notANumberWords.contains word ∨
      infinityWords.contains (String.ofList (cutSign text).2) then some .notFinite
  else
    match whole? text with
    | some value => some (.whole value)
    | none => decimal? text

def isDigits (least most : Nat) (text : Text) : Bool :=
  least ≤ text.length && text.length ≤ most && text.all Text.isAsciiDigit

-- A year of four digits, a month and a day.
def isDate (least : Nat) (text : Text) : Bool :=
  match Text.splitAt '-' text with
  | [year, month, day] => isDigits 4 4 year && isDigits least 2 month && isDigits least 2 day
  | _ => false

def isBlank (c : Char) : Bool :=
  c == ' ' || c == '\t'

-- A distance from universal time, or the letter that stands for none.
def isZone (text : Text) : Bool :=
  match text.dropWhile isBlank with
  | [] => text.isEmpty
  | ['Z'] => true
  | sign :: rest =>
    isSign sign &&
      match Text.splitAt ':' rest with
      | [hours] => isDigits 1 2 hours
      | [hours, minutes] => isDigits 1 2 hours && isDigits 2 2 minutes
      | _ => false

-- Hours, minutes and seconds, a fraction of the second and a zone.
def isTime (text : Text) : Bool :=
  match Text.splitAt ':' text with
  | hours :: minutes :: seconds :: more =>
    let rest := [':'].intercalate ((seconds.drop 2) :: more)
    let rest := match rest with
      | '.' :: fraction => fraction.dropWhile Text.isAsciiDigit
      | rest => rest
    isDigits 1 2 hours && isDigits 2 2 minutes && isDigits 2 2 (seconds.take 2) && isZone rest
  | _ => false

def isMoment (text : Text) : Bool :=
  let date := text.takeWhile fun c => Text.isAsciiDigit c || c == '-'
  match text.dropWhile fun c => Text.isAsciiDigit c || c == '-' with
  | [] => isDate 2 date
  | c :: rest =>
    isDate 1 date &&
      (if c = 'T' ∨ c = 't' then isTime rest else isBlank c && isTime (rest.dropWhile isBlank))

-- What a plain scalar stands for. Two of the words stand for nothing by themselves.
def plainValue? (text : Text) : Option Tree :=
  let word := String.ofList text
  if word = "<<" ∨ word = "=" then none
  else if nullWords.contains word then some .null
  else
    match boolWords.lookup word with
    | some value => some (.bool value)
    | none =>
      match number? text with
      | some number => some (.number number)
      | none => some (if isMoment text then .moment else .text word)

def standardTags : Text := "tag:yaml.org,2002:".toList

-- The name of a standard tag.
def standardName? (tag : Text) : Option String :=
  match tag with
  | '!' :: '!' :: name => some (String.ofList name)
  | '!' :: '<' :: rest =>
    if standardTags.isPrefixOf rest ∧ rest.getLast? = some '>' then
      some (String.ofList (rest.drop standardTags.length).dropLast)
    else none
  | _ => none

-- What a scalar stands for under a tag. A lone exclamation mark asks for the value that the words
-- have without quotes.
def taggedValue? (tag : Text) (text : Text) : Option Tree :=
  if tag = ['!'] then plainValue? text
  else
    match standardName? tag with
    | some "str" => some (.text (String.ofList text))
    | some "null" => some .null
    | some "bool" => (boolWords.lookup (String.ofList (text.map Char.toLower))).map .bool
    | some "int" => (whole? text).map fun value => .number (.whole value)
    | some "float" =>
      match number? text with
      | some (.whole value) => some (.number (.decimal value 0))
      | some number => some (.number number)
      | none => none
    | some "timestamp" => if isMoment text then some .moment else none
    | _ => none

end UrlHarvest.Yaml
