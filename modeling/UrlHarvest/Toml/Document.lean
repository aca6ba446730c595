import UrlHarvest.Toml.Quoted
import UrlHarvest.Toml.Scalar
import UrlHarvest.Toml.Tables

namespace UrlHarvest.Toml

def isBareKeyChar (c : Char) : Bool :=
  Text.isAsciiLetter c || Text.isAsciiDigit c || c == '-' || c == '_'

def isKeyStart (c : Char) : Bool :=
  isBareKeyChar c || c == '\x22' || c == '\x27'

-- A part of a key and the blanks after it. A quoted part stays in one line.
def keyPart : Reading String := do
  let part ←
    match (← get).head? with
    | some c =>
      if isBareKeyChar c then Reading.takeWhile isBareKeyChar
      else if isKeyStart c then lineString c
      else Reading.fail .invalidKeyStart
    | none => Reading.fail .invalidKeyStart
  Reading.skipWhile isBlank
  return String.ofList part

-- Every further part takes up a dot at least, so the length of the text bounds their number.
def moreKeyParts : (fuel : Nat) → Reading Key
  | 0 => return []
  | fuel + 1 => do
    if ← Reading.startsWith ['.'] then
      Reading.drop 1
      Reading.skipWhile isBlank
      let part ← keyPart
      return part :: (← moreKeyParts fuel)
    else return []

def key : Reading Key := do
  let first ← keyPart
  return first :: (← moreKeyParts (← get).length)

-- Blanks, newlines and comments, in any order.
def skipBetweenItems : (fuel : Nat) → Reading Unit
  | 0 => return ()
  | fuel + 1 => do
    Reading.skipWhile isBlankOrNewline
    if ← Reading.startsWith ['#'] then
      skipComment
      skipBetweenItems fuel

def skipItemSpace : Reading Unit := do
  skipBetweenItems ((← get).length + 1)

-- A fault of the tables is reported at the current place.
def lift {α : Type} : Except Cause α → Reading α
  | .ok value => return value
  | .error cause => Reading.fail cause

-- Inline tables do not open the lists in them.
def addInline (entries : Table) (frozen : Frozen) (key : Key) (value : Tree) :
    Except Cause Table :=
  if frozen.holds key then .error (.immutable key)
  else within false (addNew (stem key) value (.duplicateInlineKey (stem key))) key.dropLast entries

-- Values that stand in one another are read by calls within calls, and a tree is walked so too. A
-- host has room for a thousand calls; a tenth of it is left to what runs around the reader.
def callRoom : Nat := 900

-- Goes on only if there is room for the calls that are open then.
def enter (opened : Nat) : Reading Unit :=
  fun rest => if callRoom < opened then .error .nestedTooDeep else .ok ((), rest)

-- Every call takes up a code point of the text or goes one level down after having done so; twice
-- the length of the text is more fuel than any text needs. What stands in a list is read two calls
-- further down, what stands in an inline table three.
mutual
def value : (fuel opened : Nat) → Reading Tree
  | 0, _ => Reading.fail .invalidValue
  | fuel + 1, opened => do
    match (← get).head? with
    | some '\x22' => return .text (String.ofList (← anyString '\x22'))
    | some '\x27' => return .text (String.ofList (← anyString '\x27'))
    | some '[' => do
      Reading.drop 1
      enter (opened + 2)
      skipItemSpace
      items fuel (opened + 2) []
    | some '\x7b' => do
      Reading.drop 1
      enter (opened + 3)
      Reading.skipWhile isBlank
      if ← Reading.startsWith ['\x7d'] then
        Reading.drop 1
        return .map []
      else inlineEntries fuel (opened + 3) [] {}
    | _ => scalar

-- The items of a list, in reverse as far as they are read. A comma may follow the last one.
def items : (fuel opened : Nat) → (read : List Tree) → Reading Tree
  | 0, _, _ => Reading.fail .unclosedArray
  | fuel + 1, opened, read => do
    if ← Reading.startsWith [']'] then
      Reading.drop 1
      return .list read.reverse
    else
      let item ← value fuel opened
      skipItemSpace
      if ← Reading.startsWith [','] then
        Reading.drop 1
        skipItemSpace
        items fuel opened (item :: read)
      else
        Reading.expect [']'] .unclosedArray
        return .list (item :: read).reverse

-- The entries of an inline table from the current one on. A list or a table among them is closed
-- once the next entry begins. No comma may follow the last one.
def inlineEntries : (fuel opened : Nat) → (read : Table) → (frozen : Frozen) → Reading Tree
  | 0, _, _, _ => Reading.fail .unclosedInlineTable
  | fuel + 1, opened, read, frozen => do
    let path ← key
    Reading.expect ['='] .missingEquals
    Reading.skipWhile isBlank
    let item ← value fuel opened
    let read ← lift (addInline read frozen path item)
    Reading.skipWhile isBlank
    if ← Reading.startsWith [','] then
      Reading.drop 1
      Reading.skipWhile isBlank
      inlineEntries fuel opened read (frozen.mark path item)
    else
      Reading.expect ['\x7d'] .unclosedInlineTable
      return .map read
end

def assignment (tables : Tables) : Reading Tables := do
  let path ← key
  Reading.expect ['='] .missingEquals
  Reading.skipWhile isBlank
  let item ← value (2 * (← get).length + 2) 0
  lift (tables.assign path item)

def header (tables : Tables) : Reading Tables := do
  if ← Reading.startsWith ['[', '['] then
    Reading.drop 2
    Reading.skipWhile isBlank
    let path ← key
    let tables ← lift (tables.settle.openListItem path)
    Reading.expect [']', ']'] .unclosedArrayHeader
    return tables
  else
    Reading.drop 1
    Reading.skipWhile isBlank
    let path ← key
    let tables ← lift (tables.settle.openTable path)
    Reading.expect [']'] .unclosedTableHeader
    return tables

-- The statement that begins with `c`, if it is one, and the comment after it.
def statement (tables : Tables) (c : Char) : Reading Tables := do
  let tables ←
    if isKeyStart c then assignment tables
    else if c = '[' then header tables
    else if c = '#' then pure tables
    else Reading.fail .invalidStatement
  Reading.skipWhile isBlank
  skipComment
  return tables

-- Every line takes up its newline at least, so the length of the text bounds their number.
def statements : (fuel : Nat) → Tables → Reading Tables
  | 0, tables => return tables
  | fuel + 1, tables => do
    Reading.skipWhile isBlank
    match (← get).head? with
    | none => return tables
    | some c =>
      let tables ← if c = '\n' then pure tables else statement tables c
      match (← get).head? with
      | none => return tables
      | some c =>
        if c = '\n' then
          Reading.drop 1
          statements fuel tables
        else Reading.fail .statementGoesOn

-- A carriage return and a newline together count as a newline.
def unifyNewlines (text : Text) : Text :=
  (text.foldl (fun read c =>
    match c, read with
    | '\n', '\r' :: before => '\n' :: before
    | c, read => c :: read) []).reverse

def parse (text : Text) : Except ReadFault Tree :=
  let text := unifyNewlines text
  match statements (text.length + 1) {} text with
  | .ok (tables, _) => .ok (.map tables.root)
  | .error fault => .error (fault.toReadFault text)

-- A tree that there is no room to walk is given up as well; dotted keys make one without any call.
def read (text : Text) : Except ReadFault Tree :=
  match parse text with
  | .ok tree => if callRoom < tree.depth then .error (.fatal .nestedTooDeep) else .ok tree
  | .error fault => .error fault

end UrlHarvest.Toml
