import UrlHarvest.Comments.Style

namespace UrlHarvest

inductive RegionState
  | normal
  | inBlockComment
  | inFencedCode
deriving Repr, DecidableEq, Inhabited

def RegionState.tag : RegionState → String
  | normal => "normal"
  | inBlockComment => "in-block-comment"
  | inFencedCode => "in-fenced-code"

def RegionState.all : List RegionState :=
  [normal, inBlockComment, inFencedCode]

-- What is hidden of one line: spans from their first offset up to and without their second one,
-- or the whole line. The state is handed to the next line.
structure LineRegions where
  spans : List (Nat × Nat)
  state : RegionState
  wholeLine : Bool := false
deriving Repr, DecidableEq

def LineRegions.hides (regions : LineRegions) (offset : Nat) : Bool :=
  regions.wholeLine || regions.spans.any fun (start, stop) => start ≤ offset && offset < stop

namespace BlockMarks

-- Goes through a text one code point at a time. `skip` code points at the front belong to a mark
-- already seen, `start?` is where the open comment began, and the closed spans are kept in
-- reverse. A comment that is open at the end reaches to the end.
def spansFrom (marks : BlockMarks) (offset skip : Nat) (start? : Option Nat)
    (spans : List (Nat × Nat)) : Text → List (Nat × Nat) × Option Nat
  | [] =>
    match start? with
    | none => (spans.reverse, none)
    | some start => (((start, offset) :: spans).reverse, some start)
  | c :: rest =>
    match skip with
    | skip + 1 => spansFrom marks (offset + 1) skip start? spans rest
    | 0 =>
      match start? with
      | none =>
        if marks.opener.isPrefixOf (c :: rest) then
          spansFrom marks (offset + 1) (marks.opener.length - 1) (some offset) spans rest
        else spansFrom marks (offset + 1) 0 none spans rest
      | some start =>
        if marks.closer.isPrefixOf (c :: rest) then
          spansFrom marks (offset + 1) (marks.closer.length - 1) none
            ((start, offset + marks.closer.length) :: spans) rest
        else spansFrom marks (offset + 1) 0 start? spans rest

-- A comment carried in from the line before begins at offset zero.
def lineRegions (marks : BlockMarks) (state : RegionState) (line : Text) : LineRegions :=
  let carried := state = .inBlockComment
  match marks.spansFrom 0 0 (if carried then some 0 else none) [] line with
  | (spans, some _) => ⟨spans, .inBlockComment, false⟩
  | (spans, none) => ⟨spans, if carried then .normal else state, false⟩

end BlockMarks

namespace CommentStyle

-- Fenced code comes before line comments and those before block comments, so that nothing inside
-- fenced code opens a comment.
def advance (style : CommentStyle) (state : RegionState) (line : Text) : LineRegions :=
  if style.fences && state = .inFencedCode then
    ⟨[], if isFence line then .normal else state, true⟩
  else if style.fences && state = .normal && isFence line then ⟨[], .inFencedCode, true⟩
  else if state = .normal && style.commentsOut line then ⟨[], state, true⟩
  else
    match style.block with
    | some marks => marks.lineRegions state line
    | none => ⟨[], state, false⟩

-- Each line takes the state that the line before it left. The regions found are kept in reverse.
def regionsFrom (style : CommentStyle) (state : RegionState) (found : List LineRegions) :
    List Text → List LineRegions
  | [] => found.reverse
  | line :: rest =>
    let regions := style.advance state line
    regionsFrom style regions.state (regions :: found) rest

def regions (style : CommentStyle) (lines : List Text) : List LineRegions :=
  style.regionsFrom .normal [] lines

end CommentStyle

end UrlHarvest
