import UrlHarvest.Text.Basic

namespace UrlHarvest.Address

open Text

-- A decimal byte without superfluous zeros.
def isOctet (digits : Text) : Bool :=
  !digits.isEmpty && digits.all isAsciiDigit && digits.length ≤ 3 &&
    (digits == ['0'] || digits.head? != some '0') && digitsValue digits ≤ 255

def isIpv4 (text : Text) : Bool :=
  let octets := splitAt '.' text
  octets.length == 4 && octets.all isOctet

def isHextet (digits : Text) : Bool :=
  !digits.isEmpty && digits.length ≤ 4 && digits.all isHexDigit

-- An IPv4 address at the end of an IPv6 address fills the place of two groups.
def withoutIpv4 (groups : List Text) : Option (List Text) :=
  match groups.getLast? with
  | some last =>
    if '.' ∈ last then
      if isIpv4 last then some (groups.dropLast ++ [['0'], ['0']]) else none
    else some groups
  | none => some groups

-- The groups on one side of the `::`. An empty group is allowed only where the `::` begins or
-- ends the address, so that nothing else stands on that side.
def sideOfGap (outer : Option Text) (groups : List Text) : Option (List Text) :=
  if outer = some [] then
    if groups.length = 1 then some [] else none
  else some groups

-- The positions of the empty groups, the first and the last group apart.
def gaps (groups : List Text) : List Nat :=
  (List.range groups.length).filter fun i =>
    0 < i && i + 1 < groups.length && groups[i]? == some []

def areIpv6Groups (groups : List Text) : Bool :=
  match gaps groups with
  | [] => groups.length == 8 && groups.all isHextet
  | [gap] =>
    match sideOfGap groups.head? (groups.take gap),
        sideOfGap groups.getLast? (groups.drop (gap + 1)) with
    | some high, some low => high.length + low.length ≤ 7 && (high ++ low).all isHextet
    | _, _ => false
  | _ => false

-- A zone follows a percent sign and holds no second one.
def isZone : Option Text → Bool
  | none => true
  | some zone => !zone.isEmpty && '%' ∉ zone

def isIpv6 (text : Text) : Bool :=
  let (address, zone) := cutAt '%' text
  let groups := splitAt ':' address
  isZone zone && 3 ≤ groups.length &&
    match withoutIpv4 groups with
    | some groups => groups.length ≤ 9 && areIpv6Groups groups
    | none => false

-- The form kept for address families to come: `v`, a version in hexadecimal, a dot and a rest.
def isFutureIp (text : Text) : Bool :=
  match text with
  | 'v' :: rest =>
    let version := rest.takeWhile isHexDigit
    match rest.dropWhile isHexDigit with
    | '.' :: _ :: _ => !version.isEmpty
    | _ => false
  | _ => false

-- What may stand between the brackets of a host.
def isBracketedHost (host : Text) : Bool :=
  if host.head? = some 'v' then isFutureIp host else isIpv6 host

end UrlHarvest.Address
