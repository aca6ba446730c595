import UrlHarvest.Text.LetterCase

namespace UrlHarvest

-- A run takes the longest piece of allowed code points, and matching never goes back on it. The
-- patterns of this library need no more: what follows a run in them begins with a code point
-- that the run does not allow.
inductive Piece
  | word (letters : Text)
  | one (allowed : Char → Bool)
  | run (allowed : Char → Bool) (least : Nat)
  | capture (group : Nat) (allowed : Char → Bool) (least : Nat)

-- The alternatives are tried in order. Groups are numbered from zero.
structure Pattern where
  groups : Nat
  alternatives : List (List Piece)

structure Match where
  start : Nat
  text : Text
  groups : List (Option Text)
deriving Repr, DecidableEq

def Match.stop (found : Match) : Nat :=
  found.start + found.text.length

-- The first group that took part, or the whole match where none did.
def Match.firstGroup (found : Match) : Text :=
  ((found.groups.filterMap id).head?).getD found.text

namespace Piece

-- How much the pieces take off the front of a text, and what the groups among them hold.
def take? : List Piece → Text → Option (Nat × List (Nat × Text))
  | [], _ => some (0, [])
  | word letters :: pieces, text => do
    let rest ← Text.dropWord? letters text
    let (length, groups) ← take? pieces rest
    some (letters.length + length, groups)
  | one allowed :: pieces, c :: rest =>
    if allowed c then do
      let (length, groups) ← take? pieces rest
      some (length + 1, groups)
    else none
  | one _ :: _, [] => none
  | run allowed least :: pieces, text =>
    let taken := text.takeWhile allowed
    if taken.length < least then none
    else do
      let (length, groups) ← take? pieces (text.dropWhile allowed)
      some (taken.length + length, groups)
  | capture group allowed least :: pieces, text =>
    let taken := text.takeWhile allowed
    if taken.length < least then none
    else do
      let (length, groups) ← take? pieces (text.dropWhile allowed)
      some (taken.length + length, (group, taken) :: groups)

end Piece

namespace Pattern

def firstMatch? (alternatives : List (List Piece)) (text : Text) :
    Option (Nat × List (Nat × Text)) :=
  alternatives.findSome? (Piece.take? · text)

-- The match that begins where the text does, if there is one.
def matchAt? (pattern : Pattern) (start : Nat) (text : Text) : Option Match :=
  (firstMatch? pattern.alternatives text).map fun (length, groups) =>
    ⟨start, text.take length, (List.range pattern.groups).map fun group => groups.lookup group⟩

-- Looks for matches from left to right. `skip` code points at the front belong to the match
-- found last; the matches found so far are kept in reverse.
def matchesFrom (pattern : Pattern) (start skip : Nat) (found : List Match) :
    Text → List Match
  | [] => found.reverse
  | c :: rest =>
    match skip with
    | skip + 1 => matchesFrom pattern (start + 1) skip found rest
    | 0 =>
      match pattern.matchAt? start (c :: rest) with
      | none => matchesFrom pattern (start + 1) 0 found rest
      | some m => matchesFrom pattern (start + 1) (m.text.length - 1) (m :: found) rest

-- All matches that do not overlap an earlier one.
def matchesIn (pattern : Pattern) (text : Text) : List Match :=
  pattern.matchesFrom 0 0 [] text

end Pattern

end UrlHarvest
