import UrlHarvest.Toml.Basic

namespace UrlHarvest.Toml

def simpleEscape? : Char → Option Char
  | 'b' => some '\x08'
  | 't' => some '\t'
  | 'n' => some '\n'
  | 'f' => some '\x0c'
  | 'r' => some '\r'
  | '\x22' => some '\x22'
  | '\\' => some '\\'
  | _ => none

def isScalar (n : Nat) : Bool :=
  n ≤ 0xD7FF || (0xE000 ≤ n && n ≤ 0x10FFFF)

-- The code point that `width` hexadecimal digits name, and what the escape takes up with its
-- backslash and its letter.
def hexEscape (width : Nat) (text : Text) : Except Fault (Text × Nat) :=
  let digits := (text.drop 2).take width
  if digits.length ≠ width ∨ ¬ digits.all Text.isHexDigit then
    .error (.broken .invalidHexValue (text.drop 2))
  else if isScalar (Text.hexValue digits) then
    .ok ([Char.ofNat (Text.hexValue digits)], 2 + width)
  else .error (.broken .notScalar (text.drop (2 + width)))

-- A backslash that ends a line joins it to the next one, all blanks between them left out. Blanks
-- may follow the backslash in its line, but nothing else.
def lineJoin (text : Text) : Except Fault (Text × Nat) :=
  let blanks := ((text.drop 1).takeWhile isBlank).length
  match text.drop (1 + blanks) with
  | [] => .ok ([], 1 + blanks)
  | '\n' :: rest => .ok ([], 2 + blanks + (rest.takeWhile isBlankOrNewline).length)
  | rest => .error (.broken .unescapedBackslash rest)

-- What the escape at the front of the text stands for, and how much of the text it takes up.
def escape (multiline : Bool) (text : Text) : Except Fault (Text × Nat) :=
  match (text.drop 1).head? with
  | none => .error (.broken .unescapedBackslash [])
  | some 'u' => hexEscape 4 text
  | some 'U' => hexEscape 8 text
  | some c =>
    if multiline && isBlankOrNewline c then lineJoin text
    else
      match simpleEscape? c with
      | some plain => .ok ([plain], 2)
      | none => .error (.broken .unescapedBackslash (text.drop 2))

def basicQuote (multiline : Bool) : Text :=
  if multiline then "\"\"\"".toList else "\"".toList

-- Reads up to the closing quote. `skip` code points at the front belong to an escape already
-- read, or to the closing quote once the string is `closed`; what is read is kept in reverse.
def basicFrom (multiline closed : Bool) (skip : Nat) (read : Text) :
    Text → Except Fault (Text × Text)
  | [] => if closed then .ok (read.reverse, []) else .error (.broken .unterminatedString [])
  | c :: rest =>
    match skip with
    | skip + 1 => basicFrom multiline closed skip read rest
    | 0 =>
      if closed then .ok (read.reverse, c :: rest)
      else if (basicQuote multiline).isPrefixOf (c :: rest) then
        basicFrom multiline true ((basicQuote multiline).length - 1) read rest
      else if c = '\\' then
        match escape multiline (c :: rest) with
        | .error fault => .error fault
        | .ok (plain, length) =>
          basicFrom multiline false (length - 1) (plain.reverse ++ read) rest
      else if (if multiline then isIllegalInLines c else isIllegalInLine c) then
        .error (.broken (.illegalCharacter c) (c :: rest))
      else basicFrom multiline false 0 (c :: read) rest

def basicBody (multiline : Bool) : Reading Text :=
  basicFrom multiline false 0 []

def literalBody (multiline : Bool) : Reading Text := do
  let quote := if multiline then "\x27\x27\x27".toList else "\x27".toList
  let isIllegal := if multiline then isIllegalInLines else isIllegalInLine
  let body ← takeUntil quote isIllegal
  Reading.drop quote.length
  return body

-- Up to two more quotes after the closing three belong to the string.
def spareQuotes (quote : Char) : Reading Text := do
  let spare := ((← get).take 2).takeWhile (· == quote)
  Reading.drop spare.length
  return spare

-- A newline right after the opening quotes does not belong to the string.
def multilineString (quote : Char) : Reading Text := do
  Reading.drop 3
  if ← Reading.startsWith ['\n'] then Reading.drop 1
  let body ← if quote = '\x27' then literalBody true else basicBody true
  return body ++ (← spareQuotes quote)

def lineString (quote : Char) : Reading Text := do
  Reading.drop 1
  if quote = '\x27' then literalBody false else basicBody false

-- A string that opens with three quotes goes over lines.
def anyString (quote : Char) : Reading Text := do
  if ← Reading.startsWith [quote, quote, quote] then multilineString quote else lineString quote

end UrlHarvest.Toml
