import UrlHarvest.Text.Basic

namespace UrlHarvest.Text

-- The numbers in a control sequence, and the marks between them.
def isControlArgument (c : Char) : Bool :=
  isAsciiDigit c || c == ';' || c == '?'

-- How much of the text is the control sequence that it begins with, by which a terminal is told
-- to change colours or to move its cursor.
def controlLength? : Text → Option Nat
  | '\x1b' :: '[' :: rest =>
    match rest.dropWhile isControlArgument with
    | letter :: _ =>
      if isAsciiLetter letter then some ((rest.takeWhile isControlArgument).length + 3) else none
    | [] => none
  | _ => none

-- `skip` code points at the front belong to a control sequence already seen.
def withoutControlsFrom (skip : Nat) : Text → Text
  | [] => []
  | c :: rest =>
    match skip with
    | skip + 1 => withoutControlsFrom skip rest
    | 0 =>
      match controlLength? (c :: rest) with
      | some length => withoutControlsFrom (length - 1) rest
      | none => c :: withoutControlsFrom 0 rest

end UrlHarvest.Text

namespace UrlHarvest

-- Control sequences are for terminals only.
def echoed (terminal : Bool) (text : String) : String :=
  if terminal then text else String.ofList (Text.withoutControlsFrom 0 text.toList)

end UrlHarvest
