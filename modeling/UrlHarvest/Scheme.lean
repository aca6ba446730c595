import UrlHarvest.Text.Lowercase

namespace UrlHarvest

inductive Scheme
  | http
  | https
  | ftp
  | file
  | mailto
  | tel
  | unknown
deriving Repr, DecidableEq, Inhabited

namespace Scheme

def tag : Scheme → String
  | http => "http"
  | https => "https"
  | ftp => "ftp"
  | file => "file"
  | mailto => "mailto"
  | tel => "tel"
  | unknown => "unknown"

def all : List Scheme :=
  [http, https, ftp, file, mailto, tel, unknown]

def ofTag? (text : String) : Option Scheme :=
  all.find? (·.tag == text)

theorem mem_all (scheme : Scheme) : scheme ∈ all := by
  cases scheme <;> decide

theorem ofTag?_tag (scheme : Scheme) : ofTag? scheme.tag = some scheme := by
  cases scheme <;> decide

-- Schemes whose addresses name a host.
def hasAuthority : Scheme → Bool
  | http | https | ftp => true
  | file | mailto | tel | unknown => false

-- How the address of each scheme begins. No mark begins another one.
def marks : List (Text × Scheme) := [
  ("https://".toList, https), ("http://".toList, http), ("ftp://".toList, ftp),
  ("file://".toList, file), ("mailto:".toList, mailto), ("tel:".toList, tel)]

-- Judged by the first eight code points alone, in small letters.
def ofAddress (address : Text) : Scheme :=
  let head := Text.lower (address.take 8)
  match marks.find? (·.1.isPrefixOf head) with
  | some (_, scheme) => scheme
  | none => unknown

end Scheme

end UrlHarvest
