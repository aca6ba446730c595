import UrlHarvest.Comments.Style
import UrlHarvest.Text.Position

namespace UrlHarvest

-- A place in a text: its line, what stands before it in that line, in reverse, and what follows.
structure Place where
  line : Nat
  before : Text
  rest : Text
deriving Repr, DecidableEq

namespace Place

def startOf (text : Text) : Place :=
  ⟨1, [], text⟩

def position (place : Place) : Position :=
  ⟨place.line, place.before.length + 1⟩

-- The place `count` code points further on, or the end of the text.
def skip : (count : Nat) → Place → Place
  | 0, place => place
  | _ + 1, ⟨line, before, []⟩ => ⟨line, before, []⟩
  | count + 1, ⟨line, before, c :: rest⟩ =>
    if c = '\n' then skip count ⟨line + 1, [], rest⟩ else skip count ⟨line, c :: before, rest⟩

theorem skip_zero (place : Place) : skip 0 place = place := rfl

end Place

-- Finds where values stand in the text that they were read from. The cursor moves forward with
-- the values found, so that a value which is written twice is found in both places.
structure Locator where
  text : Text
  comments : CommentStyle
  cursor : Place

namespace Locator

def ofText (text : Text) (comments : CommentStyle) : Locator :=
  ⟨text, comments, .startOf text⟩

-- The first occurrence of `value` outside of comment lines. `skip` code points at the front
-- belong to an occurrence that was passed over.
def findFrom (comments : CommentStyle) (value : Text) (skip line : Nat) (before : Text) :
    Text → Option Place
  | [] =>
    if skip = 0 ∧ value = [] ∧ !comments.commentsOut before.reverse then some ⟨line, before, []⟩
    else none
  | c :: rest =>
    let (nextLine, nextBefore) := if c = '\n' then (line + 1, []) else (line, c :: before)
    match skip with
    | skip + 1 => findFrom comments value skip nextLine nextBefore rest
    | 0 =>
      if value.isPrefixOf (c :: rest) then
        if comments.commentsOut before.reverse then
          findFrom comments value (value.length - 1) nextLine nextBefore rest
        else some ⟨line, before, c :: rest⟩
      else findFrom comments value 0 nextLine nextBefore rest

def find (locator : Locator) (value : Text) (start : Place) : Option Place :=
  findFrom locator.comments value 0 start.line start.before start.rest

-- A value that is not met after the cursor is looked for once more from the start, and then the
-- cursor stays where it is.
def locate (locator : Locator) (value : Text) : Option Position × Locator :=
  match locator.find value locator.cursor with
  | some place => (some place.position, { locator with cursor := place.skip value.length })
  | none => ((locator.find value (.startOf locator.text)).map Place.position, locator)

end Locator

end UrlHarvest
