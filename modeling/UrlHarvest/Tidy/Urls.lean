import UrlHarvest.Entries
import UrlHarvest.Tidy.Order
import UrlHarvest.Url

namespace UrlHarvest

inductive UrlOrder
  | value
  | scheme
  | host
  | length
  | type
deriving Repr, DecidableEq, Inhabited

namespace Url

-- A record without a type and one with an empty type are grouped together.
def typeName (url : Url) : String :=
  match url.type with
  | none => "unknown"
  | some "" => "unknown"
  | some type => type

-- The host of a record whose scheme has an authority, read off the value and not off the record.
def valueHost? (url : Url) : Option String :=
  if url.scheme.hasAuthority then hostOf url.value.toList else none

-- Letter case and blanks around them do not tell two values apart.
def comparedValue (url : Url) : String :=
  String.ofList (Text.lower (Text.trim url.value.toList))

end Url

namespace UrlOrder

def tag : UrlOrder → String
  | value => "value"
  | scheme => "scheme"
  | host => "host"
  | length => "length"
  | type => "type"

def all : List UrlOrder :=
  [value, scheme, host, length, type]

def ofTag? (text : String) : Option UrlOrder :=
  all.find? (·.tag == text)

theorem ofTag?_tag (order : UrlOrder) : ofTag? order.tag = some order := by
  cases order <;> decide

def le : UrlOrder → Url → Url → Bool
  | value, a, b => a.value ≤ b.value
  | scheme, a, b => Tidy.byKey (·.scheme.tag) Url.value a b
  | host, a, b => Tidy.byKey (fun url => url.valueHost?.getD url.value) Url.value a b
  | length, a, b => Tidy.byKey (·.value.length) Url.value a b
  | type, a, b => Tidy.byKey Url.typeName Url.value a b

end UrlOrder

namespace Tidy

def dedupeUrls (urls : List Url) : List Url :=
  keepFirst Url.comparedValue urls

-- Records with equal keys and equal values stay in order.
def sortUrls (order : UrlOrder) (urls : List Url) : List Url :=
  urls.mergeSort order.le

-- The records of each key, in order; the keys stand in order of first occurrence.
def groupBy (key : Url → String) (urls : List Url) : List (String × List Url) :=
  Entries.gather key [] (fun group url => group ++ [url]) urls

def bySchemeName (url : Url) : String :=
  url.scheme.tag

def invalidHost : String := "invalid"

-- Records whose scheme has no authority are grouped by their scheme.
def byHost (url : Url) : String :=
  if url.scheme.hasAuthority then url.valueHost?.getD invalidHost else url.scheme.tag

end Tidy

end UrlHarvest
