import UrlHarvest.Text.Printable
import UrlHarvest.Text.Basic

namespace UrlHarvest.Text

private def hexDigit (n : Nat) : Char :=
  Char.ofNat (if n < 10 then 48 + n else 87 + n)

-- The last `width` hexadecimal digits.
private def hexPadded (n : Nat) : (width : Nat) → Text
  | 0 => []
  | width + 1 => hexPadded (n / 16) width ++ [hexDigit (n % 16)]

private def escaped (c : Char) : Text :=
  if c = '\t' then ['\\', 't']
  else if c = '\n' then ['\\', 'n']
  else if c = '\r' then ['\\', 'r']
  else if c.toNat < 0x100 then '\\' :: 'x' :: hexPadded c.toNat 2
  else if c.toNat < 0x10000 then '\\' :: 'u' :: hexPadded c.toNat 4
  else '\\' :: 'U' :: hexPadded c.toNat 8

-- A text between quotes as error messages show it. Double quotes are taken only when they save
-- an escape.
def quoted (text : Text) : Text :=
  let quote := if '\x27' ∈ text ∧ '\x22' ∉ text then '\x22' else '\x27'
  let shown := text.flatMap fun c =>
    if c = quote || c = '\\' then ['\\', c]
    else if isPrintable c then [c]
    else escaped c
  quote :: shown ++ [quote]

end UrlHarvest.Text

namespace UrlHarvest

def quotedString (text : String) : String :=
  String.ofList (Text.quoted text.toList)

-- A key path in a message: quoted parts between brackets, and a comma after a part that stands
-- alone.
def quotedTuple : List String → String
  | [part] => "(" ++ quotedString part ++ ",)"
  | parts => "(" ++ ", ".intercalate (parts.map quotedString) ++ ")"

end UrlHarvest
