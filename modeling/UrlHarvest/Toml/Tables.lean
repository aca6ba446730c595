import UrlHarvest.Toml.Basic
import UrlHarvest.Tree.Basic

namespace UrlHarvest.Toml

abbrev Table := List (String × Tree)

-- Works on the table behind a path and makes the tables on the way that are missing. Of a list of
-- tables, where lists are opened at all, the last table is meant.
def within (opensLists : Bool) (change : Table → Except Cause Table) :
    (path : Key) → Table → Except Cause Table
  | [], entries => change entries
  | part :: path, entries =>
    match entries.lookup part with
    | none => do
      let inner ← within opensLists change path []
      return Entries.put entries part (.map inner)
    | some (.map inner) => do
      let inner ← within opensLists change path inner
      return Entries.put entries part (.map inner)
    | some (.list items) =>
      match opensLists, items.getLast? with
      | true, some (.map inner) => do
        let inner ← within opensLists change path inner
        return Entries.put entries part (.list (items.dropLast ++ [.map inner]))
      | _, _ => .error .overwritten
    | some _ => .error .overwritten

-- A key takes a value once.
def addNew (name : String) (value : Tree) (taken : Cause) (entries : Table) :
    Except Cause Table :=
  if (entries.lookup name).isSome then .error taken else .ok (Entries.put entries name value)

def appendTable (name : String) (entries : Table) : Except Cause Table :=
  match entries.lookup name with
  | none => .ok (Entries.put entries name (.list [.map []]))
  | some (.list items) => .ok (Entries.put entries name (.list (items ++ [.map []])))
  | some _ => .error .overwritten

def isNested : Tree → Bool
  | .list _ | .map _ => true
  | _ => false

def stem (key : Key) : String :=
  key.getLastD ""

-- Lists and inline tables are closed for good, with everything below them.
structure Frozen where
  keys : List Key := []

def Frozen.holds (frozen : Frozen) (key : Key) : Bool :=
  frozen.keys.any (·.isPrefixOf key)

def Frozen.mark (frozen : Frozen) (key : Key) (value : Tree) : Frozen :=
  if isNested value then ⟨key :: frozen.keys⟩ else frozen

-- A document as far as it is read. `declared` holds the tables that may not be declared again;
-- the tables that dotted keys made join them at the next header.
structure Tables where
  root : Table := []
  header : Key := []
  frozen : Frozen := {}
  declared : List Key := []
  pending : List Key := []

namespace Tables

def settle (tables : Tables) : Tables :=
  { tables with declared := tables.pending ++ tables.declared, pending := [] }

def openTable (tables : Tables) (key : Key) : Except Cause Tables :=
  if tables.declared.contains key || tables.frozen.holds key then .error (.declaredTwice key)
  else do
    let root ← within true .ok key tables.root
    return { tables with root, header := key, declared := key :: tables.declared }

-- A new table in a list begins anew: what was declared below the one before it is forgotten.
def openListItem (tables : Tables) (key : Key) : Except Cause Tables :=
  if tables.frozen.holds key then .error (.immutable key)
  else do
    let root ← within true (appendTable (stem key)) key.dropLast tables.root
    return { tables with
      root
      header := key
      frozen := ⟨tables.frozen.keys.filter (!key.isPrefixOf ·)⟩
      declared := key :: tables.declared.filter (!key.isPrefixOf ·) }

-- The tables that a dotted key goes through, from the header on.
def passed (header key : Key) : List Key :=
  (List.range (key.length - 1)).map fun index => header ++ key.take (index + 1)

def assign (tables : Tables) (key : Key) (value : Tree) : Except Cause Tables :=
  let through := passed tables.header key
  let parent := tables.header ++ key.dropLast
  match through.find? tables.declared.contains with
  | some again => .error (.redefined again)
  | none =>
    if tables.frozen.holds parent then .error (.immutable parent)
    else do
      let root ← within true (addNew (stem key) value .overwritten) parent tables.root
      return { tables with
        root
        frozen := tables.frozen.mark (tables.header ++ key) value
        pending := through ++ tables.pending }

end Tables

end UrlHarvest.Toml
