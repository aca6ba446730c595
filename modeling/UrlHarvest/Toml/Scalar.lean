import UrlHarvest.Toml.Basic
import UrlHarvest.Tree.Basic

namespace UrlHarvest.Toml

-- How much of the text goes on with digits. An underscore may stand between two of them.
def moreDigits (isDigit : Char → Bool) : Text → Nat
  | '_' :: c :: rest => if isDigit c then 2 + moreDigits isDigit rest else 0
  | c :: rest => if isDigit c then 1 + moreDigits isDigit rest else 0
  | [] => 0

-- Nothing is taken of a text that does not begin with a digit.
def digitRun (isDigit : Char → Bool) : Text → Nat
  | [] => 0
  | c :: rest => if isDigit c then 1 + moreDigits isDigit rest else 0

def significant (digits : Text) : Text :=
  digits.filter (· != '_')

def baseValue (base : Nat) (digits : Text) : Nat :=
  (significant digits).foldl (fun value c => base * value + Text.hexValue [c]) 0

-- The bases that a letter after a leading zero stands for.
def basePrefixes : List (Char × Nat × (Char → Bool)) := [
  ('x', 16, Text.isHexDigit), ('b', 2, fun c => c == '0' || c == '1'),
  ('o', 8, fun c => '0' ≤ c && c ≤ '7')]

def basedInteger? (text : Text) : Option (Number × Nat) :=
  match text with
  | '0' :: letter :: rest => do
    let (_, base, isDigit) ← basePrefixes.find? (·.1 == letter)
    let length := digitRun isDigit rest
    if length = 0 then none
    else some (.whole (baseValue base (rest.take length)), 2 + length)
  | _ => none

-- A number in base ten taken apart: whether it is negative, its digits before and after the
-- point, its exponent if it has one, and its length.
structure Decimal where
  negative : Bool
  whole : Text
  fraction : Text
  exponent : Option Int
  length : Nat

def isSign (c : Char) : Bool :=
  c == '+' || c == '-'

def signLength (text : Text) : Nat :=
  if (text.head?.map isSign).getD false then 1 else 0

-- A leading zero stands alone.
def wholeLength : Text → Nat
  | '0' :: _ => 1
  | text => digitRun Text.isAsciiDigit text

def fractionLength : Text → Nat
  | '.' :: rest =>
    match digitRun Text.isAsciiDigit rest with
    | 0 => 0
    | length => 1 + length
  | _ => 0

def exponentLength : Text → Nat
  | c :: rest =>
    if c = 'e' ∨ c = 'E' then
      match digitRun Text.isAsciiDigit (rest.drop (signLength rest)) with
      | 0 => 0
      | length => 1 + signLength rest + length
    else 0
  | [] => 0

def exponentValue (text : Text) : Int :=
  let digits := text.drop (1 + signLength (text.drop 1))
  let size : Int := Text.digitsValue (significant digits)
  if (text.drop 1).head? = some '-' then -size else size

def decimal? (text : Text) : Option Decimal :=
  let sign := signLength text
  let afterSign := text.drop sign
  let whole := wholeLength afterSign
  if whole = 0 then none
  else
    let afterWhole := afterSign.drop whole
    let fraction := fractionLength afterWhole
    let afterFraction := afterWhole.drop fraction
    let exponent := exponentLength afterFraction
    some {
      negative := text.head? = some '-'
      whole := significant (afterSign.take whole)
      fraction := significant ((afterWhole.take fraction).drop 1)
      exponent := if exponent = 0 then none else some (exponentValue (afterFraction.take exponent))
      length := sign + whole + fraction + exponent }

-- Only whole numbers are limited in their digits.
def Decimal.read (number : Decimal) : Except Fault Number :=
  let signed (n : Nat) : Int := if number.negative then -n else n
  if number.fraction.isEmpty ∧ number.exponent = none then
    if 4300 < number.whole.length then .error (.longNumber number.whole.length)
    else .ok (.whole (signed (Text.digitsValue number.whole)))
  else
    .ok (.ofScientific (signed (Text.digitsValue (number.whole ++ number.fraction)))
      (number.exponent.getD 0 - number.fraction.length))

-- Takes a number of two digits in a range off the front.
def twoDigits? (low high : Nat) : Text → Option (Nat × Text)
  | a :: b :: rest =>
    if Text.isAsciiDigit a && Text.isAsciiDigit b then
      let n := Text.digitsValue [a, b]
      if low ≤ n ∧ n ≤ high then some (n, rest) else none
    else none
  | _ => none

def char? (mark : Char) : Text → Option Text
  | c :: rest => if c = mark then some rest else none
  | [] => none

-- What follows a time of day, if one stands at the front. Digits after the sixth place of the
-- second are left out.
def afterTime? (text : Text) : Option Text := do
  let (_, text) ← twoDigits? 0 23 text
  let text ← char? ':' text
  let (_, text) ← twoDigits? 0 59 text
  let text ← char? ':' text
  let (_, text) ← twoDigits? 0 59 text
  match text with
  | '.' :: rest =>
    match rest.takeWhile Text.isAsciiDigit with
    | [] => some text
    | digits => some (rest.drop digits.length)
  | _ => some text

def afterZone (text : Text) : Text :=
  match text with
  | c :: rest =>
    if c = 'Z' ∨ c = 'z' then rest
    else if isSign c then
      (do
        let (_, rest) ← twoDigits? 0 23 rest
        let rest ← char? ':' rest
        let (_, rest) ← twoDigits? 0 59 rest
        some rest).getD text
    else text
  | [] => text

-- A date that is followed by no full time of day stands alone.
def afterTimeOfDate (text : Text) : Text :=
  match text with
  | c :: rest =>
    if c = 'T' ∨ c = 't' ∨ c = ' ' then
      match afterTime? rest with
      | some rest => afterZone rest
      | none => text
    else text
  | [] => text

structure Date where
  year : Nat
  month : Nat
  day : Nat

def date? (text : Text) : Option (Date × Text) := do
  let year := text.take 4
  if year.length ≠ 4 ∨ ¬ year.all Text.isAsciiDigit then none
  else
    let rest ← char? '-' (text.drop 4)
    let (month, rest) ← twoDigits? 1 12 rest
    let rest ← char? '-' rest
    let (day, rest) ← twoDigits? 1 31 rest
    some (⟨Text.digitsValue year, month, day⟩, rest)

def isLeap (year : Nat) : Bool :=
  year % 4 == 0 && (year % 100 != 0 || year % 400 == 0)

def daysInMonth (year month : Nat) : Nat :=
  if month = 2 then (if isLeap year then 29 else 28)
  else if month = 4 ∨ month = 6 ∨ month = 9 ∨ month = 11 then 30
  else 31

-- There is no year zero.
def Date.exists (date : Date) : Bool :=
  0 < date.year && date.day ≤ daysInMonth date.year date.month

-- The words for numbers that are not finite.
def notFiniteWords : List Text := [
  "inf".toList, "nan".toList, "+inf".toList, "-inf".toList, "+nan".toList, "-nan".toList]

-- A value that is no string, no list and no table. Moments are tried before numbers, since every
-- moment begins with digits.
def scalar : Reading Tree := do
  let text ← get
  if "true".toList.isPrefixOf text then
    Reading.drop 4
    return .bool true
  else if "false".toList.isPrefixOf text then
    Reading.drop 5
    return .bool false
  else if let some (date, rest) := date? text then
    if date.exists then
      set (afterTimeOfDate rest)
      return .moment
    else Reading.fail .invalidMoment
  else if let some rest := afterTime? text then
    set rest
    return .moment
  else if let some (number, length) := basedInteger? text then
    Reading.drop length
    return .number number
  else if let some number := decimal? text then
    let value ← (number.read : Except Fault Number)
    Reading.drop number.length
    return .number value
  else if let some word := notFiniteWords.find? (·.isPrefixOf text) then
    Reading.drop word.length
    return .number .notFinite
  else Reading.fail .invalidValue

end UrlHarvest.Toml
