import UrlHarvest.Address.Ip
import UrlHarvest.Text.Lowercase
import UrlHarvest.Text.Ranges

namespace UrlHarvest

open Text

-- An address taken apart, without its scheme.
structure Address where
  authority : Text
  path : Text
  query : Text
  fragment : Text
deriving Repr, DecidableEq

namespace Address

-- Code points whose compatibility form holds one of the delimiters `/ ? # @ :`. In the place of
-- a host they could be mistaken for that delimiter.
def delimiterLookalikes : Array (Nat × Nat) := #[
  (0x2047, 0x2049), (0x2100, 0x2101), (0x2105, 0x2106), (0x2A74, 0x2A74), (0xFE13, 0xFE13),
  (0xFE16, 0xFE16), (0xFE55, 0xFE56), (0xFE5F, 0xFE5F), (0xFE6B, 0xFE6B), (0xFF03, 0xFF03),
  (0xFF0F, 0xFF0F), (0xFF1A, 0xFF1A), (0xFF1F, 0xFF20)]

-- Controls and spaces in front of an address do not belong to it.
def isLeadingJunk (c : Char) : Bool :=
  c.toNat ≤ 0x20

-- Tabs and line ends are taken out wherever they stand.
def isDropped (c : Char) : Bool :=
  c == '\t' || c == '\r' || c == '\n'

def cleaned (text : Text) : Text :=
  (text.dropWhile isLeadingJunk).filter (!isDropped ·)

def isSchemeChar (c : Char) : Bool :=
  isAsciiLetter c || isAsciiDigit c || c == '+' || c == '-' || c == '.'

-- Takes a well-formed scheme and its colon off the front.
def dropScheme (text : Text) : Text :=
  match cutAt ':' text with
  | (c :: name, some rest) => if isAsciiLetter c && name.all isSchemeChar then rest else text
  | _ => text

def endsAuthority (c : Char) : Bool :=
  c == '/' || c == '?' || c == '#'

-- The authority stands after two slashes; the second part is what follows it.
def cutAuthority : Text → Text × Text
  | '/' :: '/' :: rest => (rest.takeWhile (!endsAuthority ·), rest.dropWhile (!endsAuthority ·))
  | text => ([], text)

-- The host and the port as written, both possibly empty.
def hostAndPort (authority : Text) : Text × Text :=
  let info := afterLast '@' authority
  match cutAt '[' info with
  | (_, some bracketed) =>
    let (host, after) := cutAt ']' bracketed
    (host, (cutAt ':' (after.getD [])).2.getD [])
  | (_, none) =>
    let (host, port) := cutAt ':' info
    (host, port.getD [])

-- Nothing may stand between a user name and the bracket, nor between the bracket and the port.
def bracketsAreTight (authority : Text) : Bool :=
  match cutAt '[' (afterLast '@' authority) with
  | (before, some bracketed) =>
    before.isEmpty &&
      match (cutAt ']' bracketed).2 with
      | some (c :: _) => c == ':'
      | _ => true
  | (_, none) => true

def bracketsAreSound (authority : Text) : Bool :=
  if '[' ∈ authority ∨ ']' ∈ authority then
    '[' ∈ authority && ']' ∈ authority && bracketsAreTight authority &&
      isBracketedHost (hostAndPort authority).1
  else true

-- A port may be left out; a number of more than 4300 digits is not read at all.
def isPort (digits : Text) : Bool :=
  digits.isEmpty ||
    (digits.all isAsciiDigit && digits.length ≤ 4300 && digitsValue digits ≤ 65535)

def isAuthority (authority : Text) : Bool :=
  bracketsAreSound authority && !authority.any (inRanges delimiterLookalikes ·.toNat) &&
    isPort (hostAndPort authority).2

def parse? (text : Text) : Option Address :=
  let (authority, rest) := cutAuthority (dropScheme (cleaned text))
  let (rest, fragment) := cutAt '#' rest
  let (path, query) := cutAt '?' rest
  if isAuthority authority then some ⟨authority, path, query.getD [], fragment.getD []⟩ else none

-- The host in small letters. A zone, from the first percent sign on, keeps its case.
def host? (address : Address) : Option Text :=
  match (hostAndPort address.authority).1 with
  | [] => none
  | host =>
    match cutAt '%' host with
    | (name, some zone) => some (lower name ++ '%' :: zone)
    | (name, none) => some (lower name)

-- What is asked of the host: the path, and the query and the fragment where there are any.
def target (address : Address) : Text :=
  (if address.path.isEmpty then ['/'] else address.path) ++
    (if address.query.isEmpty then [] else '?' :: address.query) ++
    (if address.fragment.isEmpty then [] else '#' :: address.fragment)

end Address

end UrlHarvest
