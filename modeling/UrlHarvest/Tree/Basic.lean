import UrlHarvest.Entries

namespace UrlHarvest

-- Numbers are kept as written: one with a point or an exponent is `mantissa / 10 ^ places` and
-- is told apart from a whole number of the same value.
inductive Number
  | whole (value : Int)
  | decimal (mantissa : Int) (places : Nat)
  | notFinite
deriving Repr, DecidableEq

-- The number `mantissa * 10 ^ exponent`. Beyond 400 places it is taken for infinite or for zero.
def Number.ofScientific (mantissa exponent : Int) : Number :=
  let places := (Nat.repr mantissa.natAbs).length + exponent
  if mantissa = 0 ∨ places < -400 then .decimal 0 0
  else if 400 < places then .notFinite
  else if 0 ≤ exponent then .decimal (mantissa * (Nat.pow 10 exponent.toNat : Nat)) 0
  else .decimal mantissa exponent.natAbs

-- A parsed document. Entries of a map keep the order in which they were first written.
inductive Tree
  | null
  | bool (value : Bool)
  | number (value : Number)
  | moment
  | text (value : String)
  | list (items : List Tree)
  | map (entries : List (String × Tree))
deriving Repr, Inhabited

namespace Tree

-- Of two entries with one key the later one counts, in the place of the first.
def ofEntries (entries : List (String × Tree)) : Tree :=
  .map (entries.foldl (fun known entry => Entries.put known entry.1 entry.2) [])

def underKey (path key : String) : String :=
  path ++ "." ++ key

def underIndex (path : String) (index : Nat) : String :=
  path ++ "[" ++ Nat.repr index ++ "]"

mutual
-- Every text in the tree with the path that leads to it, in document order. Keys follow a dot and
-- indexes stand in brackets; an index counts the items that hold no text as well.
def leaves (path : String) : Tree → List (String × String)
  | text value => [(path, value)]
  | list items => leavesOfItems path 0 items
  | map entries => leavesOfEntries path entries
  | null | bool _ | number _ | moment => []
termination_by structural tree => tree

def leavesOfItems (path : String) (index : Nat) : List Tree → List (String × String)
  | [] => []
  | item :: rest => leaves (underIndex path index) item ++ leavesOfItems path (index + 1) rest
termination_by structural items => items

def leavesOfEntries (path : String) : List (String × Tree) → List (String × String)
  | [] => []
  | (key, value) :: rest => leaves (underKey path key) value ++ leavesOfEntries path rest
termination_by structural entries => entries
end

mutual
-- How many lists and maps stand in one another.
def depth : Tree → Nat
  | list items => depthOfItems items + 1
  | map entries => depthOfEntries entries + 1
  | null | bool _ | number _ | moment | text _ => 0
termination_by structural tree => tree

def depthOfItems : List Tree → Nat
  | [] => 0
  | item :: rest => max (depth item) (depthOfItems rest)
termination_by structural items => items

def depthOfEntries : List (String × Tree) → Nat
  | [] => 0
  | (_, value) :: rest => max (depth value) (depthOfEntries rest)
termination_by structural entries => entries
end

-- The path at which a walk begins if nothing else is asked for.
def rootPath : String := "root"

def keys : Tree → List String
  | map entries => entries.map (·.1)
  | _ => []

end Tree

end UrlHarvest
