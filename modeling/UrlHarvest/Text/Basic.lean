namespace UrlHarvest

-- A text is the list of its code points, so every offset, column and length counts code points.
abbrev Text := List Char

namespace Text

-- Only a newline ends a line: a carriage return stays with the line that it follows.
def lines (text : Text) : List Text :=
  text.foldr (fun c found =>
    if c = '\n' then [] :: found
    else match found with
      | [] => [[c]]
      | line :: more => (c :: line) :: more) [[]]

-- The offset of the first occurrence of `needle`, where the text itself begins at `offset`.
def findFrom (needle : Text) (offset : Nat) : Text → Option Nat
  | [] => if needle.isEmpty then some offset else none
  | c :: rest =>
    if needle.isPrefixOf (c :: rest) then some offset else findFrom needle (offset + 1) rest

def includes (text needle : Text) : Bool :=
  (findFrom needle 0 text).isSome

-- What stands before the first `mark`, and what stands after it where there is one.
def cutAt (mark : Char) (text : Text) : Text × Option Text :=
  (text.takeWhile (· != mark), match text.dropWhile (· != mark) with
    | [] => none
    | _ :: rest => some rest)

-- What stands after the last `mark`; the whole text where there is none.
def afterLast (mark : Char) (text : Text) : Text :=
  (text.reverse.takeWhile (· != mark)).reverse

-- The pieces between the marks; there is one more piece than there are marks.
def splitAt (mark : Char) (text : Text) : List Text :=
  text.foldr (fun c found =>
    if c = mark then [] :: found
    else match found with
      | [] => [[c]]
      | piece :: more => (c :: piece) :: more) [[]]

def isAsciiDigit (c : Char) : Bool :=
  '0' ≤ c && c ≤ '9'

def isAsciiLetter (c : Char) : Bool :=
  ('a' ≤ c && c ≤ 'z') || ('A' ≤ c && c ≤ 'Z')

def isHexDigit (c : Char) : Bool :=
  isAsciiDigit c || ('a' ≤ c && c ≤ 'f') || ('A' ≤ c && c ≤ 'F')

-- The number that the digits write in base ten; anything else than a digit counts as its
-- distance from zero, so callers check first.
def digitsValue (digits : Text) : Nat :=
  digits.foldl (fun value c => 10 * value + (c.toNat - 48)) 0

def hexValue (digits : Text) : Nat :=
  digits.foldl (fun value c =>
    16 * value + (if isAsciiDigit c then c.toNat - 48 else (c.toNat ||| 32) - 87)) 0

end Text

end UrlHarvest
