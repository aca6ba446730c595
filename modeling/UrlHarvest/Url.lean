import UrlHarvest.Address.Basic
import UrlHarvest.Entries
import UrlHarvest.Scheme
import UrlHarvest.Text.Position
import UrlHarvest.Text.Space

namespace UrlHarvest

-- What an address says about where it leads. Only schemes with an authority name a host and a
-- path.
structure Components where
  scheme : Scheme
  host : Option String := none
  path : Option String := none
deriving Repr, DecidableEq

-- A found address and where it stands.
structure Url where
  value : String
  scheme : Scheme
  type : Option String := none
  host : Option String := none
  path : Option String := none
  position : Option Position := none
  context : Option String := none
deriving Repr, DecidableEq

namespace Components

-- Nothing is known of a text that cannot be taken apart as an address.
def of? (value : Text) : Option Components :=
  (Address.parse? value).map fun address =>
    let scheme := Scheme.ofAddress value
    if scheme.hasAuthority then
      ⟨scheme, address.host?.map String.ofList, some (String.ofList address.target)⟩
    else ⟨scheme, none, none⟩

end Components

-- A supported scheme with something to lead to: a host, a mailbox with an at sign, or more than
-- one code point.
def isValidUrl (value : Text) : Bool :=
  match Scheme.ofAddress value, Address.parse? value with
  | .unknown, _ => false
  | _, none => false
  | .mailto, some address => '@' ∈ address.path && 1 < address.path.length
  | .tel, some address => 1 < address.path.length
  | .file, some address => 1 < address.path.length
  | _, some address => address.host?.isSome

def hostOf (value : Text) : Option String :=
  (Components.of? value).bind (·.host)

namespace Url

inductive Fault
  | emptyValue
deriving Repr, DecidableEq

def Fault.message : Fault → String
  | .emptyValue => "Url value must not be empty"

def validated (url : Url) : Except Fault Url :=
  if url.value = "" then .error .emptyValue else .ok url

-- The record of a value, with everything that can be read off the value itself.
def ofValue (value : String) (position : Option Position) (context type : Option String) : Url :=
  let components := Components.of? value.toList
  { value
    scheme := Scheme.ofAddress value.toList
    type
    host := components.bind (·.host)
    path := components.bind (·.path)
    position
    context }

-- How many records each scheme has, by the value of the record, in order of first occurrence.
def schemeCounts (urls : List Url) : List (Scheme × Nat) :=
  Entries.gather (fun url => Scheme.ofAddress url.value.toList) 0 (fun count _ => count + 1) urls

end Url

end UrlHarvest
