import UrlHarvest.Text.Utf8
import UrlHarvest.Tidy.Lines

namespace UrlHarvest.Tidy

-- A file with one address in each line.
def linesOf (bytes : List UInt8) : List String :=
  (Text.lines (Text.Utf8.decode bytes)).map String.ofList

-- The last line has no newline after it.
def joined (lines : List String) : String :=
  "\n".intercalate lines

def repeatedCount (lines : List String) : Nat :=
  (trimmedLines lines).length - (dedupeLines lines).length

end UrlHarvest.Tidy
