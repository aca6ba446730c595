import UrlHarvest.Tidy.Order
import UrlHarvest.Url

namespace UrlHarvest

-- The orders in which a file with one address in each line can be sorted.
inductive LineOrder
  | ascending
  | descending
  | domain
  | shortestFirst
  | longestFirst
deriving Repr, DecidableEq, Inhabited

namespace LineOrder

def tag : LineOrder → String
  | ascending => "asc"
  | descending => "desc"
  | domain => "domain"
  | shortestFirst => "length-asc"
  | longestFirst => "length-desc"

def all : List LineOrder :=
  [ascending, descending, domain, shortestFirst, longestFirst]

def ofTag? (text : String) : Option LineOrder :=
  all.find? (·.tag == text)

theorem ofTag?_tag (order : LineOrder) : ofTag? order.tag = some order := by
  cases order <;> decide

-- A line without a host stands for itself.
def domainOf (line : String) : String :=
  (hostOf line.toList).getD line

def le : LineOrder → String → String → Bool
  | ascending, a, b => a ≤ b
  | descending, a, b => b ≤ a
  | domain, a, b => Tidy.byKey domainOf id a b
  | shortestFirst, a, b => Tidy.byKey String.length id a b
  | longestFirst, a, b => Tidy.byKey (fun line => -(line.length : Int)) id a b

end LineOrder

namespace Tidy

-- The lines that are not blank, without the blanks around them.
def trimmedLines (lines : List String) : List String :=
  (lines.map trimmed).filter (· != "")

def dedupeLines (lines : List String) : List String :=
  keepFirst id (trimmedLines lines)

def sortLines (order : LineOrder) (lines : List String) : List String :=
  (trimmedLines lines).mergeSort order.le

end Tidy

end UrlHarvest
