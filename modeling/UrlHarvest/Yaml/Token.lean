import UrlHarvest.Text.Basic

namespace UrlHarvest.Yaml

-- A scalar is plain if it stands without quotes; only then its words are looked at.
inductive Token
  | directive (name value : Text)
  | documentStart
  | documentEnd
  | sequenceStart
  | mappingStart
  | blockEnd
  | flowSequenceStart
  | flowSequenceEnd
  | flowMappingStart
  | flowMappingEnd
  | entry
  | flowEntry
  | key
  | value
  | alias (name : Text)
  | anchor (name : Text)
  | tag (text : Text)
  | scalar (text : Text) (plain : Bool)
deriving Repr, DecidableEq

-- A token that may turn out to begin a key: how many tokens stand before it, and where it stands.
-- A key that is needed has to be followed by its value in the same line.
structure KeyStart where
  tokensBefore : Nat
  needed : Bool
  offset : Nat
  line : Nat
  column : Nat

-- A text as far as it is split. Outside of flow collections `indent` is the column of the open
-- block collection, and `indents` those of the collections around it.
structure Cursor where
  rest : Text
  offset : Nat := 0
  line : Nat := 0
  column : Nat := 0
  tokens : List Token := []
  flowLevel : Nat := 0
  indent : Int := -1
  indents : List Int := []
  keyAllowed : Bool := true
  keyStarts : List (Nat × KeyStart) := []

-- A text that breaks the rules has no tokens.
abbrev Lexing := StateT Cursor Option

def isBreak (c : Char) : Bool :=
  c == '\n' || c == '\u0085' || c == '\u2028' || c == '\u2029'

-- Ends a word: a blank, a line break or the end of the text.
def endsWord : Option Char → Bool
  | none => true
  | some c => c == ' ' || c == '\t' || isBreak c

def endsLine : Option Char → Bool
  | none => true
  | some c => isBreak c

namespace Lexing

def fail {α : Type} : Lexing α :=
  fun _ => none

def peek : Lexing (Option Char) :=
  return (← get).rest.head?

def peekAt (count : Nat) : Lexing (Option Char) :=
  return (← get).rest[count]?

def stepOver (cursor : Cursor) (c : Char) : Cursor :=
  if isBreak c then { cursor with
    rest := cursor.rest.drop 1, offset := cursor.offset + 1, line := cursor.line + 1, column := 0 }
  else { cursor with
    rest := cursor.rest.drop 1
    offset := cursor.offset + 1
    column := if c = '\uFEFF' then cursor.column else cursor.column + 1 }

-- Takes `count` code points off the front.
def take (count : Nat) : Lexing Text := do
  let taken := (← get).rest.take count
  modify fun cursor => taken.foldl stepOver cursor
  return taken

def skip (count : Nat) : Lexing Unit := do
  let _ ← take count

def takeWhile (takes : Char → Bool) : Lexing Text := do
  take ((← get).rest.takeWhile takes).length

def skipWhile (skips : Char → Bool) : Lexing Unit := do
  let _ ← takeWhile skips

-- The line break at the front, if there is one. Two of the breaks count as themselves, all others
-- as a newline.
def lineBreak : Lexing Text := do
  match ← peek with
  | some c =>
    if isBreak c then
      skip 1
      return [if c = '\u0085' then '\n' else c]
    else return []
  | none => return []

def add (token : Token) : Lexing Unit :=
  modify fun cursor => { cursor with tokens := cursor.tokens ++ [token] }

def allowKey (allowed : Bool) : Lexing Unit :=
  modify fun cursor => { cursor with keyAllowed := allowed }

-- Closes the block collections that are indented deeper than `column`.
def unwind (column : Int) : Lexing Unit :=
  modify fun cursor =>
    if 0 < cursor.flowLevel then cursor
    else
      let closed := ((cursor.indent :: cursor.indents).takeWhile (column < ·)).length
      match (cursor.indent :: cursor.indents).drop closed with
      | [] => cursor
      | indent :: indents => { cursor with
        indent, indents, tokens := cursor.tokens ++ List.replicate closed .blockEnd }

-- Opens a block collection at a column unless one is open there.
def indentTo (column : Nat) (token : Token) (before : Nat) : Lexing Unit :=
  modify fun cursor =>
    if cursor.indent < (column : Int) then { cursor with
      indents := cursor.indent :: cursor.indents
      indent := column
      tokens := cursor.tokens.take before ++ token :: cursor.tokens.drop before }
    else cursor

-- Forgets the key that may have begun at this level; it must not be one that is needed.
def dropKeyStart : Lexing Unit := do
  let cursor ← get
  match cursor.keyStarts.lookup cursor.flowLevel with
  | some start => if start.needed then fail else
    set { cursor with keyStarts := cursor.keyStarts.filter (·.1 != cursor.flowLevel) }
  | none => return ()

def saveKeyStart : Lexing Unit := do
  let cursor ← get
  if cursor.keyAllowed then
    dropKeyStart
    let start : KeyStart := {
      tokensBefore := cursor.tokens.length
      needed := cursor.flowLevel = 0 && cursor.indent = cursor.column
      offset := cursor.offset
      line := cursor.line
      column := cursor.column }
    modify fun cursor => { cursor with
      keyStarts := (cursor.flowLevel, start) :: cursor.keyStarts }

-- A key does not go on in the next line and is not longer than 1024 code points.
def dropStaleKeyStarts : Lexing Unit := do
  let cursor ← get
  let isStale (start : KeyStart) : Bool :=
    start.line != cursor.line || 1024 < cursor.offset - start.offset
  if cursor.keyStarts.any fun (_, start) => isStale start && start.needed then fail
  else
    set { cursor with keyStarts := cursor.keyStarts.filter fun (_, start) => !isStale start }

-- Blanks, comments and line breaks between two tokens. A tab does not count as a blank here.
def skipToToken : (fuel : Nat) → Lexing Unit
  | 0 => return ()
  | fuel + 1 => do
    skipWhile (· == ' ')
    if (← peek) = some '#' then skipWhile (!isBreak ·)
    match ← lineBreak with
    | [] => return ()
    | _ =>
      if (← get).flowLevel = 0 then allowKey true
      skipToToken fuel

-- Whether a document mark stands at the front.
def atDocumentMark : Lexing Bool := do
  let mark := (← get).rest.take 3
  return (mark == "---".toList || mark == "...".toList) && endsWord (← peekAt 3)

/-! Scalars -/

-- The line breaks inside a scalar between quotes, with the blanks around them.
def quotedBreaks : (fuel : Nat) → Lexing Text
  | 0 => fail
  | fuel + 1 => do
    if ← atDocumentMark then fail
    else
      skipWhile fun c => c == ' ' || c == '\t'
      match ← lineBreak with
      | [] => return []
      | found => return found ++ (← quotedBreaks fuel)

-- One line break is a blank; of more than one the first is left out.
def folded (first more : Text) : Text :=
  if first != ['\n'] then first ++ more else if more.isEmpty then [' '] else more

def simpleEscapes : List (Char × Char) := [
  ('0', '\x00'), ('a', '\x07'), ('b', '\x08'), ('t', '\t'), ('\t', '\t'), ('n', '\n'),
  ('v', '\x0b'), ('f', '\x0c'), ('r', '\r'), ('e', '\x1b'), (' ', ' '), ('\x22', '\x22'),
  ('\\', '\\'), ('/', '/'), ('N', '\u0085'), ('_', '\u00a0'), ('L', '\u2028'), ('P', '\u2029')]

def hexWidths : List (Char × Nat) :=
  [('x', 2), ('u', 4), ('U', 8)]

def hexEscape (width : Nat) : Lexing Text := do
  let digits ← take width
  let value := Text.hexValue digits
  if digits.length = width ∧ digits.all Text.isHexDigit ∧ value ≤ 0x10FFFF then
    return [Char.ofNat value]
  else fail

def escape (fuel : Nat) : Lexing Text := do
  skip 1
  match ← peek with
  | none => fail
  | some c =>
    match simpleEscapes.lookup c, hexWidths.lookup c with
    | some plain, _ =>
      skip 1
      return [plain]
    | none, some width =>
      skip 1
      hexEscape width
    | none, none =>
      if isBreak c then
        let _ ← lineBreak
        quotedBreaks fuel
      else fail

-- What stands between quotes, up to the closing one.
def quotedBody (quote : Char) : (fuel : Nat) → Lexing Text
  | 0 => fail
  | fuel + 1 => do
    match ← peek with
    | none => fail
    | some c =>
      if c = quote then
        if quote = '\x27' ∧ (← peekAt 1) = some '\x27' then
          skip 2
          return '\x27' :: (← quotedBody quote fuel)
        else
          skip 1
          return []
      else if c = '\\' ∧ quote = '\x22' then
        let plain ← escape fuel
        return plain ++ (← quotedBody quote fuel)
      else if c = ' ' ∨ c = '\t' ∨ isBreak c then
        let blanks ← takeWhile fun c => c == ' ' || c == '\t'
        match ← peek with
        | none => fail
        | some _ =>
          match ← lineBreak with
          | [] => return blanks ++ (← quotedBody quote fuel)
          | first =>
            let more ← quotedBreaks fuel
            return folded first more ++ (← quotedBody quote fuel)
      else
        let piece ← take 1
        return piece ++ (← quotedBody quote fuel)

def isFlowMark (c : Char) : Bool :=
  ",[]\x7b\x7d".toList.contains c

-- How far a plain scalar goes in its line before the next blank.
def plainLength (inFlow : Bool) : Text → Nat
  | [] => 0
  | c :: rest =>
    let ends :=
      endsWord (some c) ||
        (c == ':' && (endsWord rest.head? || (inFlow && (rest.head?.map isFlowMark).getD false))) ||
        (inFlow && (isFlowMark c || c == '?'))
    if ends then 0 else 1 + plainLength inFlow rest

-- The line breaks after the first one inside a plain scalar. Nothing is told where a document mark
-- follows.
def plainBreaks : (fuel : Nat) → Lexing (Option Text)
  | 0 => return some []
  | fuel + 1 => do
    skipWhile (· == ' ')
    match ← lineBreak with
    | [] => return some []
    | found =>
      if ← atDocumentMark then return none
      else return (← plainBreaks fuel).map (found ++ ·)

-- The blanks and line breaks after a piece of a plain scalar. Nothing is told where the scalar
-- cannot go on.
def plainSpace (fuel : Nat) : Lexing (Option Text) := do
  let blanks ← takeWhile (· == ' ')
  match ← lineBreak with
  | [] => return if blanks.isEmpty then none else some blanks
  | first =>
    allowKey true
    if ← atDocumentMark then return none
    else return (← plainBreaks fuel).map (folded first ·)

def plainBody (indent : Int) (space : Text) : (fuel : Nat) → Lexing Text
  | 0 => return []
  | fuel + 1 => do
    let cursor ← get
    let length := plainLength (0 < cursor.flowLevel) cursor.rest
    if cursor.rest.head? = some '#' ∨ length = 0 then return []
    else
      allowKey false
      let piece ← take length
      match ← plainSpace fuel with
      | none => return space ++ piece
      | some more =>
        let cursor ← get
        if cursor.rest.head? = some '#' ∨ (cursor.flowLevel = 0 ∧ cursor.column < indent) then
          return space ++ piece
        else return space ++ piece ++ (← plainBody indent more fuel)

-- What becomes of the line breaks at the end of a block scalar.
inductive Chomping
  | strip
  | clip
  | keep

def chomping? : Option Char → Option Chomping
  | some '+' => some .keep
  | some '-' => some .strip
  | _ => none

def increment? : Lexing (Option Nat) := do
  match ← peek with
  | some c =>
    if Text.isAsciiDigit c then
      skip 1
      if c = '0' then fail else return some (Text.digitsValue [c])
    else return none
  | none => return none

-- The signs after the mark of a block scalar, in either order.
def blockHeader : Lexing (Chomping × Option Nat) := do
  match chomping? (← peek) with
  | some chomping =>
    skip 1
    return (chomping, ← increment?)
  | none =>
    let increment ← increment?
    match chomping? (← peek) with
    | some chomping =>
      if increment.isSome then
        skip 1
        return (chomping, increment)
      else return (.clip, increment)
    | none => return (.clip, increment)

-- Nothing but a comment may follow the signs.
def blockHeaderEnd : Lexing Unit := do
  skipWhile (· == ' ')
  if (← peek) = some '#' then skipWhile (!isBreak ·)
  if endsLine (← peek) then
    let _ ← lineBreak
  else fail

-- The empty lines in front of a block scalar, and the deepest column that their blanks reach.
def blockIndent (deepest : Nat) : (fuel : Nat) → Lexing (Text × Nat)
  | 0 => return ([], deepest)
  | fuel + 1 => do
    skipWhile (· == ' ')
    let deepest := max deepest (← get).column
    match ← lineBreak with
    | [] => return ([], deepest)
    | found =>
      let (more, deepest) ← blockIndent deepest fuel
      return (found ++ more, deepest)

-- Skips the blanks up to a column.
def skipIndent (indent : Nat) : Lexing Unit := do
  let cursor ← get
  skip (min (indent - cursor.column) (cursor.rest.takeWhile (· == ' ')).length)

def blockBreaks (indent : Nat) : (fuel : Nat) → Lexing Text
  | 0 => return []
  | fuel + 1 => do
    skipIndent indent
    match ← lineBreak with
    | [] => return []
    | found => return found ++ (← blockBreaks indent fuel)

def isBlankStart : Option Char → Bool
  | some c => c == ' ' || c == '\t'
  | none => false

-- The lines of a block scalar, with the last line break and the empty lines after it.
def blockLines (folds : Bool) (indent : Nat) (breaks : Text) :
    (fuel : Nat) → Lexing (Text × Text × Text)
  | 0 => return ([], [], breaks)
  | fuel + 1 => do
    let cursor ← get
    if cursor.column ≠ indent ∨ cursor.rest.isEmpty then return ([], [], breaks)
    else
      let startsBlank := isBlankStart (← peek)
      let line ← takeWhile (!isBreak ·)
      let last ← lineBreak
      let more ← blockBreaks indent fuel
      let cursor ← get
      if cursor.column = indent ∧ !cursor.rest.isEmpty then
        let joint :=
          if folds && last == ['\n'] && !startsBlank && !isBlankStart (← peek) then
            (if more.isEmpty then [' '] else [])
          else last
        let (text, last, rest) ← blockLines folds indent more fuel
        return (breaks ++ line ++ joint ++ text, last, rest)
      else return (breaks ++ line, last, more)

def blockScalar (folds : Bool) (fuel : Nat) : Lexing Text := do
  skip 1
  let (chomping, increment) ← blockHeader
  blockHeaderEnd
  let least := max 1 ((← get).indent + 1).toNat
  let (breaks, indent) ←
    match increment with
    | none => do
      let (breaks, deepest) ← blockIndent 0 fuel
      pure (breaks, max least deepest)
    | some increment => do
      let indent := least + increment - 1
      pure (← blockBreaks indent fuel, indent)
  let (text, last, rest) ← blockLines folds indent breaks fuel
  return match chomping with
    | .strip => text
    | .clip => text ++ last
    | .keep => text ++ last ++ rest

/-! Names and directives -/

def isNameChar (c : Char) : Bool :=
  Text.isAsciiLetter c || Text.isAsciiDigit c || c == '-' || c == '_'

-- The name after the mark of an anchor or an alias.
def name : Lexing Text := do
  skip 1
  let found ← takeWhile isNameChar
  let next ← peek
  let ends := endsWord next || (next.map ("?:,]\x7d%@\x60".toList.contains ·)).getD false
  if found.isEmpty ∨ ¬ ends then fail else return found

-- A tag reaches up to the next blank, which is no tab. Inside of flow collections a comma or a
-- bracket does not end it.
def tagText : Lexing Text := do
  let found ← takeWhile fun c => !endsWord (some c)
  if (← peek) = some '\t' then fail else return found

def directive : Lexing Token := do
  skip 1
  let found ← takeWhile isNameChar
  if found.isEmpty then fail
  else
    skipWhile (· == ' ')
    let value ← takeWhile fun c => !isBreak c && c != '#'
    skipWhile (!isBreak ·)
    return .directive found value

/-! Tokens -/

def flowStart (token : Token) : Lexing Unit := do
  saveKeyStart
  modify fun cursor => { cursor with flowLevel := cursor.flowLevel + 1 }
  allowKey true
  skip 1
  add token

def flowEnd (token : Token) : Lexing Unit := do
  dropKeyStart
  if (← get).flowLevel = 0 then fail
  modify fun cursor => { cursor with flowLevel := cursor.flowLevel - 1 }
  allowKey false
  skip 1
  add token

def documentMark (token : Token) : Lexing Unit := do
  unwind (-1)
  dropKeyStart
  allowKey false
  skip 3
  add token

-- Outside of flow collections an entry or a key begins a collection at its column, and it may only
-- stand where a key may.
def openHere (token : Token) : Lexing Unit := do
  let cursor ← get
  if cursor.flowLevel = 0 then
    if !cursor.keyAllowed then fail
    indentTo cursor.column token cursor.tokens.length

def blockEntry : Lexing Unit := do
  openHere .sequenceStart
  allowKey true
  dropKeyStart
  skip 1
  add .entry

def keyMark : Lexing Unit := do
  openHere .mappingStart
  allowKey ((← get).flowLevel = 0)
  dropKeyStart
  skip 1
  add .key

-- A colon makes a key of the token that may have begun one; where there is none, the key is empty.
def valueMark : Lexing Unit := do
  let cursor ← get
  match cursor.keyStarts.lookup cursor.flowLevel with
  | some start =>
    modify fun cursor => { cursor with
      keyStarts := cursor.keyStarts.filter (·.1 != cursor.flowLevel)
      tokens := cursor.tokens.take start.tokensBefore ++
        .key :: cursor.tokens.drop start.tokensBefore }
    if cursor.flowLevel = 0 then indentTo start.column .mappingStart start.tokensBefore
    allowKey false
  | none =>
    openHere .mappingStart
    allowKey (cursor.flowLevel = 0)
    dropKeyStart
  skip 1
  add .value

def scalarToken (plain : Bool) (read : Lexing Text) : Lexing Unit := do
  saveKeyStart
  allowKey false
  add (.scalar (← read) plain)

def propertyToken (read : Lexing Token) : Lexing Unit := do
  saveKeyStart
  allowKey false
  add (← read)

def blockScalarToken (folds : Bool) (fuel : Nat) : Lexing Unit := do
  allowKey true
  dropKeyStart
  add (.scalar (← blockScalar folds fuel) false)

-- Whether a plain scalar can begin with `c`, with `next` after it.
def startsPlain (inFlow : Bool) (c : Char) (next : Option Char) : Bool :=
  !(endsWord (some c) || "-?:,[]\x7b\x7d#&*!|>'\"%@\x60".toList.contains c) ||
    (!endsWord next && (c == '-' || (!inFlow && (c == '?' || c == ':'))))

-- The token that begins with `c`.
def tokenAt (c : Char) (fuel : Nat) : Lexing Unit := do
  let cursor ← get
  let inFlow : Bool := 0 < cursor.flowLevel
  let next := cursor.rest[1]?
  if c = '%' ∧ cursor.column = 0 then
    unwind (-1)
    dropKeyStart
    allowKey false
    add (← directive)
  else if cursor.column = 0 ∧ (← atDocumentMark) then
    documentMark (if c = '-' then .documentStart else .documentEnd)
  else if c = '[' then flowStart .flowSequenceStart
  else if c = '\x7b' then flowStart .flowMappingStart
  else if c = ']' then flowEnd .flowSequenceEnd
  else if c = '\x7d' then flowEnd .flowMappingEnd
  else if c = ',' then
    allowKey true
    dropKeyStart
    skip 1
    add .flowEntry
  else if c = '-' ∧ endsWord next then blockEntry
  else if c = '?' ∧ (inFlow ∨ endsWord next) then keyMark
  else if c = ':' ∧ (inFlow ∨ endsWord next) then valueMark
  else if c = '*' then propertyToken (return .alias (← name))
  else if c = '&' then propertyToken (return .anchor (← name))
  else if c = '!' then propertyToken (return .tag (← tagText))
  else if c = '|' ∧ !inFlow then blockScalarToken false fuel
  else if c = '>' ∧ !inFlow then blockScalarToken true fuel
  else if c = '\x27' ∨ c = '\x22' then
    scalarToken false do
      skip 1
      quotedBody c fuel
  else if startsPlain inFlow c next then
    scalarToken true do plainBody ((← get).indent + 1) [] fuel
  else fail

def allTokens : (fuel : Nat) → Lexing Unit
  | 0 => fail
  | fuel + 1 => do
    let size := (← get).rest.length + 1
    skipToToken size
    dropStaleKeyStarts
    unwind (← get).column
    match ← peek with
    | none =>
      unwind (-1)
      dropKeyStart
    | some c =>
      tokenAt c size
      allTokens fuel

end Lexing

-- Code points that may stand in a document.
def isPrintable (c : Char) : Bool :=
  let n := c.toNat
  n == 0x09 || n == 0x0A || n == 0x0D || (0x20 ≤ n && n ≤ 0x7E) || n == 0x85 ||
    (0xA0 ≤ n && n ≤ 0xFFFD) || 0x10000 ≤ n

-- A mark of the byte order in front of a text does not belong to it.
def tokens? (text : Text) : Option (List Token) :=
  if text.all isPrintable then
    let text := if text.head? = some '\uFEFF' then text.drop 1 else text
    match Lexing.allTokens (text.length + 2) { rest := text } with
    | some ((), cursor) => if cursor.flowLevel = 0 then some cursor.tokens else none
    | none => none
  else none

end UrlHarvest.Yaml
