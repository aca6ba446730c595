import UrlHarvest.Reference
import UrlHarvest.Tree.Basic
import UrlHarvest.Url

namespace UrlHarvest

namespace Url

def ofReference (value context : String) (position : Option Position) : Url :=
  ofValue (trimmed value) position (some context)
    (some (Reference.kind value.toList).tag)

-- A record without a type, or with an empty one, is of no type that can be asked for.
def ofTypes (types : List String) (urls : List Url) : List Url :=
  urls.filter fun url =>
    match url.type with
    | some type => type != "" && types.contains type
    | none => false

end Url

namespace Tree

-- Every reference below a node, with its path as context.
def references (path : String) (tree : Tree) : List Url :=
  (tree.leaves path).filterMap fun (path, value) =>
    if Reference.holds value.toList then some (Url.ofReference value path none) else none

-- The references among the items themselves. The position counts the items as lines.
def referencesAmong (context : String) (items : List Tree) : List Url :=
  items.zipIdx.filterMap fun
    | (text value, index) =>
      if Reference.holds value.toList then
        some (Url.ofReference value (underIndex context index) (some ⟨index + 1, 1⟩))
      else none
    | _ => none

def isText : Tree → Bool
  | text _ => true
  | _ => false

-- The references in the entries of a map. Of a list only the texts are looked at, and they are
-- numbered among themselves.
def referencesOf (context : String) (entries : List (String × Tree)) : List Url :=
  entries.flatMap fun (key, value) =>
    match value with
    | text leaf =>
      if Reference.holds leaf.toList then [Url.ofReference leaf (underKey context key) none]
      else []
    | list items => referencesAmong (underKey context key) (items.filter isText)
    | map inner => references (underKey context key) (.map inner)
    | null | bool _ | number _ | moment => []

end Tree

end UrlHarvest
