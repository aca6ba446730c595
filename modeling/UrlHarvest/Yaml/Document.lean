import UrlHarvest.Yaml.Scalar
import UrlHarvest.Yaml.Token

namespace UrlHarvest.Yaml

-- The tokens that are left and the nodes that have a name so far.
structure Progress where
  tokens : List Token
  anchors : List (Text × Tree) := []

-- A document that breaks the rules has no tree.
abbrev Reading := StateT Progress Option

-- The entry of a map, or the entries that another map lends to it.
inductive Pair
  | entry (key : Option String) (value : Tree)
  | merge (entries : List (String × Tree))

namespace Reading

def fail {α : Type} : Reading α :=
  fun _ => none

def peek : Reading (Option Token) :=
  return (← get).tokens.head?

def drop : Reading Unit :=
  modify fun progress => { progress with tokens := progress.tokens.drop 1 }

-- Takes a token off the front if it stands there.
def takeToken (token : Token) : Reading Bool := do
  if (← peek) = some token then
    drop
    return true
  else return false

def expect (token : Token) : Reading Unit := do
  if ¬ (← takeToken token) then fail

-- Whether one of the tokens or the end stands at the front.
def atOneOf (tokens : List Token) : Reading Bool := do
  match ← peek with
  | none => return true
  | some token => return tokens.contains token

-- An anchor and a tag, in either order; each of them may be missing.
def properties : Reading (Option Text × Option Text) := do
  match ← peek with
  | some (.anchor name) =>
    drop
    match ← peek with
    | some (.tag tag) =>
      drop
      return (some name, some tag)
    | _ => return (some name, none)
  | some (.tag tag) =>
    drop
    match ← peek with
    | some (.anchor name) =>
      drop
      return (some name, some tag)
    | _ => return (none, some tag)
  | _ => return (none, none)

def ofOption {α : Type} : Option α → Reading α
  | some value => return value
  | none => fail

-- Names a node. A name is given once.
def define (name : Option Text) (tree : Tree) : Reading Tree := do
  match name with
  | none => return tree
  | some name =>
    let progress ← get
    if (progress.anchors.lookup name).isSome then fail
    else
      set { progress with anchors := (name, tree) :: progress.anchors }
      return tree

def lookup (name : Text) : Reading Tree := do
  ofOption ((← get).anchors.lookup name)

end Reading

-- Only texts are kept as keys, since nothing else is asked for. Lists and maps are no keys.
def keyOf? : Tree → Option (Option String)
  | .text name => some (some name)
  | .list _ | .map _ => none
  | _ => some none

def entries? : Tree → Option (List (String × Tree))
  | .map entries => some entries
  | _ => none

-- The entries that a map or a list of maps lends. Of a list, earlier maps win.
def lent? : Tree → Option (List (String × Tree))
  | .list items => (items.reverse.mapM entries?).map List.flatten
  | tree => entries? tree

-- Entries of the map itself go before those that are lent.
def mapOf (pairs : List Pair) : Tree :=
  let lent := pairs.flatMap fun
    | .merge entries => entries
    | .entry _ _ => []
  let own := pairs.filterMap fun
    | .entry (some key) value => some (key, value)
    | _ => none
  .ofEntries (lent ++ own)

def collectionTag? (name : String) : Option Text → Option Unit
  | none => some ()
  | some tag => if tag = ['!'] ∨ standardName? tag = some name then some () else none

open Reading

-- Every call takes up a token or goes one level down after having done so; the fuel is more than
-- the tokens of a document can use up.
mutual
-- `inBlock` tells whether block collections may begin here, and `flush` whether a list may stand
-- at the column of the map around it.
def node (inBlock flush : Bool) : (fuel : Nat) → Reading Tree
  | 0 => fail
  | fuel + 1 => do
    match ← peek with
    | some (.alias name) =>
      drop
      lookup name
    | _ =>
      let (anchor, tag) ← properties
      match ← peek with
      | some (.scalar text plain) =>
        drop
        let value := match tag with
          | some tag => taggedValue? tag text
          | none => if plain then plainValue? text else some (.text (String.ofList text))
        define anchor (← ofOption value)
      | some .flowSequenceStart =>
        drop
        ofOption (collectionTag? "seq" tag)
        define anchor (.list (← flowItems true fuel))
      | some .flowMappingStart =>
        drop
        ofOption (collectionTag? "map" tag)
        define anchor (mapOf (← flowPairs true fuel))
      | some .sequenceStart =>
        if inBlock then
          drop
          ofOption (collectionTag? "seq" tag)
          define anchor (.list (← blockItems fuel))
        else fail
      | some .mappingStart =>
        if inBlock then
          drop
          ofOption (collectionTag? "map" tag)
          define anchor (mapOf (← blockPairs fuel))
        else fail
      | some .entry =>
        if flush then
          ofOption (collectionTag? "seq" tag)
          define anchor (.list (← flushItems fuel))
        else emptyNode anchor tag
      | _ => emptyNode anchor tag

-- A node of which only its anchor or its tag is written.
def emptyNode (anchor tag : Option Text) : Reading Tree := do
  match anchor, tag with
  | none, none => fail
  | _, some tag => define anchor (← ofOption (taggedValue? tag []))
  | _, none => define anchor .null

-- A node that may be left out in front of the given tokens.
def nodeBefore (inBlock flush : Bool) (ends : List Token) : (fuel : Nat) → Reading Tree
  | 0 => fail
  | fuel + 1 => do
    if ← atOneOf ends then return .null else node inBlock flush fuel

def blockItems : (fuel : Nat) → Reading (List Tree)
  | 0 => fail
  | fuel + 1 => do
    if ← takeToken .entry then
      let item ← nodeBefore true false [.entry, .blockEnd] fuel
      return item :: (← blockItems fuel)
    else
      expect .blockEnd
      return []

def flushItems : (fuel : Nat) → Reading (List Tree)
  | 0 => fail
  | fuel + 1 => do
    if ← takeToken .entry then
      let item ← nodeBefore true false [.entry, .key, .value, .blockEnd] fuel
      return item :: (← flushItems fuel)
    else return []

-- A key and its value. A merge key is a plain word.
def pairAfterKey (inBlock : Bool) (keyEnds valueEnds : List Token) :
    (fuel : Nat) → Reading Pair
  | 0 => fail
  | fuel + 1 => do
    match ← peek with
    | some (.scalar ['<', '<'] true) =>
      drop
      let value ← valueOfKey inBlock valueEnds fuel
      return .merge (← ofOption (lent? value))
    | some (.scalar ['='] true) =>
      drop
      return .entry (some "=") (← valueOfKey inBlock valueEnds fuel)
    | _ =>
      let key ← nodeBefore inBlock inBlock keyEnds fuel
      let value ← valueOfKey inBlock valueEnds fuel
      return .entry (← ofOption (keyOf? key)) value

def valueOfKey (inBlock : Bool) (ends : List Token) : (fuel : Nat) → Reading Tree
  | 0 => fail
  | fuel + 1 => do
    if ← takeToken .value then nodeBefore inBlock inBlock ends fuel else return .null

def blockPairs : (fuel : Nat) → Reading (List Pair)
  | 0 => fail
  | fuel + 1 => do
    if ← takeToken .key then
      let pair ← pairAfterKey true [.key, .value, .blockEnd] [.key, .value, .blockEnd] fuel
      return pair :: (← blockPairs fuel)
    else
      expect .blockEnd
      return []

def flowItems (first : Bool) : (fuel : Nat) → Reading (List Tree)
  | 0 => fail
  | fuel + 1 => do
    if ← takeToken .flowSequenceEnd then return []
    else
      if !first then expect .flowEntry
      if ← takeToken .flowSequenceEnd then return []
      else if ← takeToken .key then
        let pair ← pairAfterKey false [.value, .flowEntry, .flowSequenceEnd]
          [.flowEntry, .flowSequenceEnd] fuel
        return mapOf [pair] :: (← flowItems false fuel)
      else
        let item ← node false false fuel
        return item :: (← flowItems false fuel)

def flowPairs (first : Bool) : (fuel : Nat) → Reading (List Pair)
  | 0 => fail
  | fuel + 1 => do
    if ← takeToken .flowMappingEnd then return []
    else
      if !first then expect .flowEntry
      if ← takeToken .flowMappingEnd then return []
      else if ← takeToken .key then
        let pair ← pairAfterKey false [.value, .flowEntry, .flowMappingEnd]
          [.flowEntry, .flowMappingEnd] fuel
        return pair :: (← flowPairs false fuel)
      else
        let key ← node false false fuel
        let key ← ofOption (keyOf? key)
        return .entry key .null :: (← flowPairs false fuel)
end

def isDirective : Token → Bool
  | .directive _ _ => true
  | _ => false

-- Only the first version of the format is read.
def isUnknownVersion : Token → Bool
  | .directive name value => name == "YAML".toList && !"1.".toList.isPrefixOf value
  | _ => false

def documentEnds : List Token := [.documentStart, .documentEnd]

-- Nothing but the marks of its end may follow the document.
def document : Reading Tree := do
  let tokens := (← get).tokens
  let fuel := 4 * tokens.length + 4
  match tokens with
  | [] => return .null
  | first :: _ =>
    let tree ←
      if first = .documentStart ∨ isDirective first then do
        if (tokens.takeWhile isDirective).any isUnknownVersion then fail
        modify fun progress => { progress with tokens := progress.tokens.dropWhile isDirective }
        expect .documentStart
        let next ← peek
        if (next.map fun token => documentEnds.contains token || isDirective token).getD true then
          pure .null
        else node true false fuel
      else node true false fuel
    let rest := (← get).tokens.dropWhile (· = .documentEnd)
    if rest.isEmpty then return tree else fail

def read? (text : Text) : Option Tree :=
  match tokens? text with
  | some tokens => (document.run ⟨tokens, []⟩).map (·.1)
  | none => none

end UrlHarvest.Yaml
