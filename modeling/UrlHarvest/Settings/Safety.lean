import UrlHarvest.Settings.Basic

namespace UrlHarvest

-- What a host is warned of before it goes on.
inductive Warning
  | largeContent (size limit : Nat)
  | longOutput (lines limit : Int)
  | manyDocuments (count limit : Int)
deriving Repr, DecidableEq

def Warning.message : Warning → String
  | largeContent size limit =>
    "File size (" ++ toString size ++ " bytes) exceeds safety threshold (" ++ toString limit ++
      " bytes)"
  | longOutput lines limit =>
    "Output has " ++ toString lines ++ " lines, above the large output threshold (" ++
      toString limit ++ " lines)"
  | manyDocuments count limit =>
    toString count ++ " documents requested, above the threshold of " ++ toString limit

namespace SafetySettings

-- The size of a content is the number of its code points.
def contentWarning? (settings : SafetySettings) (size : Nat) : Option Warning :=
  if settings.enabled ∧ settings.contentSize < size then
    some (.largeContent size settings.contentSize)
  else none

def outputWarning? (settings : SafetySettings) (lines : Int) : Option Warning :=
  if settings.enabled ∧ settings.outputLines < lines then
    some (.longOutput lines settings.outputLines)
  else none

def documentsWarning? (settings : SafetySettings) (count : Int) : Option Warning :=
  if settings.enabled ∧ settings.documents < count then
    some (.manyDocuments count settings.documents)
  else none

end SafetySettings

end UrlHarvest
