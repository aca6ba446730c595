import UrlHarvest.Text.Basic

namespace UrlHarvest

-- Lines and columns count from one. A caller may hand in any numbers, so they are not bounded.
structure Position where
  line : Int
  column : Int
deriving Repr, DecidableEq, Inhabited

namespace Text

-- Counts the newlines before the offset and measures from the last of them. An offset past the
-- end goes on in the last line.
def positionAt (text : Text) (offset : Nat) : Position :=
  let before := text.take offset
  let lineStart := before.length - (before.reverse.takeWhile (· != '\n')).length
  ⟨before.count '\n' + 1, offset - lineStart + 1⟩

-- The offset of a place, read off the lines: each line before it takes its length and the
-- newline after it.
def offsetAt (text : Text) (position : Position) : Int :=
  ((lines text).take (position.line - 1).toNat).foldr
    (fun line after => (line.length : Int) + 1 + after) 0 + (position.column - 1)

end Text

end UrlHarvest
