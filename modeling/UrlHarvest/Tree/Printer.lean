import UrlHarvest.Text.Basic
import UrlHarvest.Tree.Basic

namespace UrlHarvest

private def hexDigits (n : Nat) : (width : Nat) → String
  | 0 => ""
  | width + 1 =>
    hexDigits (n / 16) width ++
      String.singleton (Char.ofNat (if n % 16 < 10 then 48 + n % 16 else 87 + n % 16))

-- Only quotes, backslashes and controls are escaped; five of the controls have a letter.
def escapedChar (c : Char) : String :=
  if c = '\x22' then "\\\"" else if c = '\\' then "\\\\"
  else if c = '\n' then "\\n" else if c = '\r' then "\\r" else if c = '\t' then "\\t"
  else if c = '\x08' then "\\b" else if c = '\x0c' then "\\f"
  else if c.toNat < 32 then "\\u" ++ hexDigits c.toNat 4
  else String.singleton c

def escapedText (text : String) : String :=
  "\"" ++ String.join (text.toList.map escapedChar) ++ "\""

-- A number with a point keeps all its places.
def Number.written : Number → String
  | whole value => toString value
  | decimal mantissa places =>
    let digits := Nat.repr mantissa.natAbs
    let padded := String.ofList (List.replicate (places + 1 - digits.length) '0') ++ digits
    let cut := padded.length - places
    let fraction := String.ofList (padded.toList.drop cut)
    (if mantissa < 0 then "-" else "") ++ String.ofList (padded.toList.take cut) ++ "." ++
      (if fraction = "" then "0" else fraction)
  | notFinite => "NaN"

-- What stands between two items and around all of them. Spread over lines, every level is indented
-- by two more blanks.
structure Layout where
  spread : Bool
  depth : Nat := 0

namespace Layout

def deeper (layout : Layout) : Layout :=
  { layout with depth := layout.depth + 1 }

def newline (layout : Layout) : String :=
  if layout.spread then "\n" ++ String.ofList (List.replicate (2 * layout.depth) ' ') else ""

def separator (layout : Layout) : String :=
  if layout.spread then "," ++ layout.newline else ", "

def around (layout : Layout) (opener closer : String) : List String → String
  | [] => opener ++ closer
  | items =>
    opener ++ layout.deeper.newline ++ layout.deeper.separator.intercalate items ++
      layout.newline ++ closer

end Layout

namespace Tree

mutual
def written (layout : Layout) : Tree → String
  | null | moment => "null"
  | bool value => if value then "true" else "false"
  | number value => value.written
  | text value => escapedText value
  | list items => layout.around "[" "]" (writtenItems layout.deeper items)
  | map entries => layout.around "\x7b" "\x7d" (writtenEntries layout.deeper entries)
termination_by structural tree => tree

def writtenItems (layout : Layout) : List Tree → List String
  | [] => []
  | item :: rest => written layout item :: writtenItems layout rest
termination_by structural items => items

def writtenEntries (layout : Layout) : List (String × Tree) → List String
  | [] => []
  | (key, value) :: rest =>
    (escapedText key ++ ": " ++ written layout value) :: writtenEntries layout rest
termination_by structural entries => entries
end

-- Every item on a line of its own.
def spread (tree : Tree) : String :=
  tree.written ⟨true, 0⟩

-- Everything on one line.
def inline (tree : Tree) : String :=
  tree.written ⟨false, 0⟩

end Tree

end UrlHarvest
