import UrlHarvest.Scan.Fault
import UrlHarvest.Text.Position
import UrlHarvest.Text.Quoted

namespace UrlHarvest.Toml

-- A dotted key, part by part.
abbrev Key := List String

inductive Cause
  | invalidStatement
  | statementGoesOn
  | expected (mark : Text)
  | invalidCharacter (c : Char)
  | illegalCharacter (c : Char)
  | unescapedBackslash
  | invalidHexValue
  | notScalar
  | unterminatedString
  | invalidKeyStart
  | missingEquals
  | declaredTwice (key : Key)
  | immutable (key : Key)
  | redefined (key : Key)
  | overwritten
  | duplicateInlineKey (name : String)
  | unclosedArray
  | unclosedInlineTable
  | unclosedTableHeader
  | unclosedArrayHeader
  | invalidMoment
  | invalidValue
deriving Repr, DecidableEq

def Cause.message : Cause → String
  | invalidStatement => "Invalid statement"
  | statementGoesOn => "Expected newline or end of document after a statement"
  | expected mark => "Expected " ++ quotedString (String.ofList mark)
  | invalidCharacter c => "Found invalid character " ++ quotedString (String.singleton c)
  | illegalCharacter c => "Illegal character " ++ quotedString (String.singleton c)
  | unescapedBackslash => "Unescaped '\\' in a string"
  | invalidHexValue => "Invalid hex value"
  | notScalar => "Escaped character is not a Unicode scalar value"
  | unterminatedString => "Unterminated string"
  | invalidKeyStart => "Invalid initial character for a key part"
  | missingEquals => "Expected '=' after a key in a key/value pair"
  | declaredTwice key => "Cannot declare " ++ quotedTuple key ++ " twice"
  | immutable key => "Cannot mutate immutable namespace " ++ quotedTuple key
  | redefined key => "Cannot redefine namespace " ++ quotedTuple key
  | overwritten => "Cannot overwrite a value"
  | duplicateInlineKey name => "Duplicate inline table key " ++ quotedString name
  | unclosedArray => "Unclosed array"
  | unclosedInlineTable => "Unclosed inline table"
  | unclosedTableHeader => "Expected ']' at the end of a table declaration"
  | unclosedArrayHeader => "Expected ']]' at the end of an array declaration"
  | invalidMoment => "Invalid date or datetime"
  | invalidValue => "Invalid value"

-- A rule that the text breaks, with what remains of the text from there on, or what the reader
-- gives up at: a number of too many digits, or a value nested too deeply.
inductive Fault
  | broken (cause : Cause) (rest : Text)
  | longNumber (digits : Nat)
  | nestedTooDeep
deriving Repr, DecidableEq

def placeName (text rest : Text) : String :=
  if rest.isEmpty then "end of document"
  else
    let position := Text.positionAt text (text.length - rest.length)
    "line " ++ toString position.line ++ ", column " ++ toString position.column

def Fault.toReadFault (text : Text) : Fault → ReadFault
  | broken cause rest => .malformed (cause.message ++ " (at " ++ placeName text rest ++ ")")
  | longNumber digits => .fatal (.longNumber digits)
  | nestedTooDeep => .fatal .nestedTooDeep

-- Readers take what they read off the front of the text.
abbrev Reading := StateT Text (Except Fault)

namespace Reading

def fail {α : Type} (cause : Cause) : Reading α :=
  fun rest => .error (.broken cause rest)

def skipWhile (skips : Char → Bool) : Reading Unit :=
  modify (·.dropWhile skips)

def takeWhile (takes : Char → Bool) : Reading Text := do
  let text ← get
  set (text.dropWhile takes)
  return text.takeWhile takes

def drop (count : Nat) : Reading Unit :=
  modify (·.drop count)

def startsWith (mark : Text) : Reading Bool :=
  return mark.isPrefixOf (← get)

-- Takes `mark` off the front, or fails where it does not stand there.
def expect (mark : Text) (cause : Cause) : Reading Unit := do
  if ← startsWith mark then drop mark.length else fail cause

end Reading

def isBlank (c : Char) : Bool :=
  c == ' ' || c == '\t'

def isBlankOrNewline (c : Char) : Bool :=
  isBlank c || c == '\n'

def isControl (c : Char) : Bool :=
  c.toNat < 32 || c.toNat == 127

-- Controls that may not stand in a comment or in a string of one line.
def isIllegalInLine (c : Char) : Bool :=
  isControl c && c != '\t'

def isIllegalInLines (c : Char) : Bool :=
  isIllegalInLine c && c != '\n'

-- Takes a piece without illegal code points off the front.
def takeLegal (isIllegal : Char → Bool) (count : Nat) : Reading Text := do
  let text ← get
  let piece := text.take count
  let legal := piece.takeWhile (!isIllegal ·)
  match piece.drop legal.length with
  | [] =>
    set (text.drop count)
    return piece
  | c :: _ =>
    set (text.drop legal.length)
    Reading.fail (.invalidCharacter c)

-- What stands before the next `mark`. A text without the mark is at fault at its end, even if an
-- illegal code point stands before that.
def takeUntil (mark : Text) (isIllegal : Char → Bool) : Reading Text := do
  match Text.findFrom mark 0 (← get) with
  | none =>
    set ([] : Text)
    Reading.fail (.expected mark)
  | some count => takeLegal isIllegal count

-- A comment reaches up to the end of its line.
def skipComment : Reading Unit := do
  match ← get with
  | '#' :: rest =>
    set rest
    let _ ← takeLegal isIllegalInLine (rest.takeWhile (· != '\n')).length
  | _ => pure ()

end UrlHarvest.Toml
