import UrlHarvest.Text.Basic
import UrlHarvest.Text.CaseTables
import UrlHarvest.Text.Ranges

namespace UrlHarvest.Text

-- The small letters of one code point, away from its neighbours. Only the dotted capital I has
-- two of them.
def lowerChar (c : Char) : Text :=
  if c.toNat < 128 then [c.toLower]
  else if c = 'İ' then ['i', '\u0307']
  else match capitalRuns.find? (·.holds c.toNat) with
    | some run => [Char.ofNat (c.toNat + run.shift).toNat]
    | none => [c]

def isCaseIgnorable (c : Char) : Bool :=
  inRanges caseIgnorableRanges c.toNat

def isCased (c : Char) : Bool :=
  inRanges casedRanges c.toNat

-- Whether the word goes on: the next code point that is not passed over has a case.
def startsCased (text : Text) : Bool :=
  match text.dropWhile isCaseIgnorable with
  | [] => false
  | c :: _ => isCased c

-- `inWord` tells whether the last code point that is not passed over has a case. A capital sigma
-- that ends a word has a small letter of its own.
def lowerFrom (inWord : Bool) : Text → Text
  | [] => []
  | c :: rest =>
    let small :=
      if c = 'Σ' then [if inWord && !startsCased rest then 'ς' else 'σ'] else lowerChar c
    small ++ lowerFrom (if isCaseIgnorable c then inWord else isCased c) rest

def lower (text : Text) : Text :=
  lowerFrom false text

end UrlHarvest.Text
