import UrlHarvest.Text.Basic

namespace UrlHarvest.Text

-- White space as the patterns see it: the White_Space property.
def isSpace (c : Char) : Bool :=
  let n := c.toNat
  (9 ≤ n && n ≤ 13) || n == 0x20 || n == 0x85 || n == 0xA0 || n == 0x1680 ||
    (0x2000 ≤ n && n ≤ 0x200A) || n == 0x2028 || n == 0x2029 || n == 0x202F || n == 0x205F ||
    n == 0x3000

-- White space as trimming and splitting see it: the four information separators count as well.
def isBlank (c : Char) : Bool :=
  isSpace c || (0x1C ≤ c.toNat && c.toNat ≤ 0x1F)

def trimLeft (text : Text) : Text :=
  text.dropWhile isBlank

def trimRight (text : Text) : Text :=
  (text.reverse.dropWhile isBlank).reverse

def trim (text : Text) : Text :=
  trimRight (trimLeft text)

-- The first run of code points that are not blank.
def firstWord (text : Text) : Text :=
  (trimLeft text).takeWhile (!isBlank ·)

end UrlHarvest.Text

namespace UrlHarvest

def trimmed (text : String) : String :=
  String.ofList (Text.trim text.toList)

end UrlHarvest
