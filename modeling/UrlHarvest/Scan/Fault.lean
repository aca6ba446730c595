namespace UrlHarvest

-- What ends a scan without a result.
inductive ScanFault
  | longNumber (digits : Nat)
  | nestedTooDeep
  | danglingLine
  | failed (reason : String)
deriving Repr, DecidableEq

def ScanFault.message : ScanFault → String
  | longNumber digits =>
    "Exceeds the limit (4300 digits) for integer string conversion: value has " ++
      toString digits ++ " digits; use sys.set_int_max_str_digits() to increase the limit"
  | nestedTooDeep => "maximum recursion depth exceeded"
  | danglingLine => "'NoneType' object has no attribute 'append'"
  | failed reason => reason

-- Why a text is not read as a tree: it breaks the rules of its format, or its reader gives up.
-- Only a text of the first kind is scanned line by line instead.
inductive ReadFault
  | malformed (reason : String)
  | fatal (fault : ScanFault)
deriving Repr, DecidableEq

end UrlHarvest
