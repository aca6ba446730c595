import UrlHarvest.Toml.Document

namespace UrlHarvest.Toml

-- Somewhere in the text there are more digits in one stretch, underscores between them left out,
-- than a whole number may have.
def HasLongNumber (text : Text) : Prop :=
  ∃ stretch, stretch <:+: text ∧ (∀ c ∈ stretch, Text.isAsciiDigit c = true ∨ c = '_') ∧
    4300 < (significant stretch).length

theorem not_hasLongNumber_of_length_le (text : Text) (h : text.length ≤ 4300) :
    ¬ HasLongNumber text := by
  rintro ⟨stretch, hin, -, hlong⟩
  have hstretch : stretch.length ≤ text.length := hin.length_le
  have hsignificant : (significant stretch).length ≤ stretch.length := List.length_filter_le _ _
  omega

def isQuote (c : Char) : Bool :=
  c == '\x22' || c == '\x27'

-- The brackets, and what begins a string or a comment.
def marks : Text :=
  ['\x22', '\x27', '[', ']', '\x7b', '\x7d', '#']

def isPlain (c : Char) : Bool :=
  !marks.contains c

-- From a place on at which so many calls are open, more are open somewhere than there is room for.
-- What counts are the brackets outside of strings and comments.
inductive GoesTooDeep : (opened : Nat) → (rest : Text) → Prop
  | beyond {opened : Nat} {rest : Text} (h : callRoom < opened) : GoesTooDeep opened rest
  | openList {opened : Nat} {rest : Text} (h : GoesTooDeep (opened + 2) rest) :
      GoesTooDeep opened ('[' :: rest)
  | closeList {opened : Nat} {rest : Text} (h : GoesTooDeep opened rest) :
      GoesTooDeep (opened + 2) (']' :: rest)
  | openTable {opened : Nat} {rest : Text} (h : GoesTooDeep (opened + 3) rest) :
      GoesTooDeep opened ('\x7b' :: rest)
  | closeTable {opened : Nat} {rest : Text} (h : GoesTooDeep opened rest) :
      GoesTooDeep (opened + 3) ('\x7d' :: rest)
  | string {opened : Nat} {quote : Char} {body rest left : Text} (hquote : isQuote quote = true)
      (hread : anyString quote (quote :: rest) = .ok (body, left)) (h : GoesTooDeep opened left) :
      GoesTooDeep opened (quote :: rest)
  | comment {opened : Nat} {rest left : Text} (hread : skipComment ('#' :: rest) = .ok ((), left))
      (h : GoesTooDeep opened left) : GoesTooDeep opened ('#' :: rest)
  | other {opened : Nat} {c : Char} {rest : Text} (hc : isPlain c = true)
      (h : GoesTooDeep opened rest) : GoesTooDeep opened (c :: rest)

-- What a text has in which the reader stops at a fault.
def Fault.Shows (text : Text) : Fault → Prop
  | longNumber _ => HasLongNumber text
  | nestedTooDeep => GoesTooDeep 0 text
  | broken .. => True

namespace Reading

variable {α β : Type}

def EndsIn (text : Text) (after : Text → Prop) : Except Fault (α × Text) → Prop
  | .ok (_, left) => after left
  | .error fault => fault.Shows text

-- Wherever the reader begins as it should, it comes to a place as it should or stops at a fault
-- that the text shows.
def Keeps (text : Text) (before after : Text → Prop) (reading : Reading α) : Prop :=
  ∀ rest, before rest → EndsIn text after (reading rest)

section Combinators

variable {text : Text} {before between after : Text → Prop}

theorem EndsIn.imp {ending : Except Fault (α × Text)} (h : EndsIn text between ending)
    (hafter : ∀ left, between left → after left) : EndsIn text after ending := by
  cases ending with
  | ok read => exact hafter read.2 h
  | error fault => exact h

theorem Keeps.pure (value : α) : Keeps text before before (Pure.pure value : Reading α) :=
  fun _ hrest => hrest

theorem Keeps.fail (cause : Cause) : Keeps text before after (Reading.fail cause : Reading α) :=
  fun _ _ => trivial

theorem Keeps.bind {first : Reading α} {next : α → Reading β}
    (hfirst : Keeps text before between first)
    (hnext : ∀ value, Keeps text between after (next value)) :
    Keeps text before after (first >>= next) := by
  intro rest hrest
  have hends := hfirst rest hrest
  change EndsIn text after (first rest >>= fun read => next read.1 read.2)
  cases hread : first rest with
  | ok read =>
      rw [hread] at hends
      exact hnext read.1 read.2 hends
  | error fault =>
      rw [hread] at hends
      exact hends

theorem Keeps.from {other : Text → Prop} {reading : Reading α}
    (h : Keeps text before after reading) (hbefore : ∀ rest, other rest → before rest) :
    Keeps text other after reading :=
  fun rest hrest => h rest (hbefore rest hrest)

theorem Keeps.here {rest : Text} {reading : Reading α} (h : Keeps text before after reading)
    (hrest : before rest) : Keeps text (· = rest) after reading :=
  h.from fun _ heq => heq ▸ hrest

-- What is looked at is the text that is left.
theorem Keeps.get {next : Text → Reading β}
    (hnext : ∀ rest, before rest → Keeps text (· = rest) after (next rest)) :
    Keeps text before after (MonadState.get >>= next) :=
  fun rest hrest => hnext rest hrest rest rfl

theorem Keeps.set (after : Text → Prop) {left : Text} (hleft : after left) :
    Keeps text before after (MonadStateOf.set left : Reading PUnit) :=
  fun _ _ => hleft

theorem Keeps.modify {change : Text → Text} (h : ∀ rest, before rest → after (change rest)) :
    Keeps text before after (modify change : Reading PUnit) :=
  h

theorem Keeps.skipWhile {skips : Char → Bool}
    (h : ∀ rest, before rest → after (rest.dropWhile skips)) :
    Keeps text before after (Reading.skipWhile skips) :=
  .modify h

theorem Keeps.drop {count : Nat} (h : ∀ rest, before rest → after (rest.drop count)) :
    Keeps text before after (Reading.drop count) :=
  .modify h

theorem Keeps.takeWhile {takes : Char → Bool}
    (h : ∀ rest, before rest → after (rest.dropWhile takes)) :
    Keeps text before after (Reading.takeWhile takes) := by
  unfold Reading.takeWhile
  exact .get fun rest hrest => .bind (.set after (h rest hrest)) fun _ => .pure _

theorem Keeps.ite {c : Prop} [Decidable c] {one other : Reading α}
    (hone : Keeps text before after one) (hother : Keeps text before after other) :
    Keeps text before after (if c then one else other) := by
  split
  · exact hone
  · exact hother

theorem Keeps.startsWith {mark : Text} {next : Bool → Reading α}
    (hthere : Keeps text (fun rest => before rest ∧ mark <+: rest) after (next true))
    (hnot : Keeps text before after (next false)) :
    Keeps text before after (Reading.startsWith mark >>= next) := by
  intro rest hrest
  change EndsIn text after (next (mark.isPrefixOf rest) rest)
  cases hmark : mark.isPrefixOf rest with
  | true => exact hthere rest ⟨hrest, List.isPrefixOf_iff_prefix.mp hmark⟩
  | false => exact hnot rest hrest

end Combinators

section Strings

variable {text : Text}

theorem Keeps.takeLegal (isIllegal : Char → Bool) (count : Nat) :
    Keeps text (· <:+ text) (· <:+ text) (takeLegal isIllegal count) := by
  unfold Toml.takeLegal
  refine .get fun rest hrest => ?_
  extract_lets piece legal
  split
  · exact .bind (.set (· <:+ text) ((List.drop_suffix _ rest).trans hrest)) fun _ => .pure _
  · exact .bind (.set (· <:+ text) ((List.drop_suffix _ rest).trans hrest)) fun _ => .fail _

theorem Keeps.takeUntil (mark : Text) (isIllegal : Char → Bool) :
    Keeps text (· <:+ text) (· <:+ text) (takeUntil mark isIllegal) := by
  unfold Toml.takeUntil
  refine .get fun rest hrest => ?_
  split
  · exact .bind (.set (· <:+ text) List.nil_suffix) fun _ => .fail _
  · exact (Keeps.takeLegal isIllegal _).here hrest

theorem Keeps.dropWithin (count : Nat) :
    Keeps text (· <:+ text) (· <:+ text) (Reading.drop count) :=
  .drop fun rest hrest => (List.drop_suffix count rest).trans hrest

theorem Keeps.literalBody (multiline : Bool) :
    Keeps text (· <:+ text) (· <:+ text) (literalBody multiline) := by
  unfold Toml.literalBody
  exact .bind (.takeUntil _ _) fun _ => .bind (.dropWithin _) fun _ => .pure _

-- An escape has no numbers but those in base sixteen.
theorem broken_of_escape (multiline : Bool) (rest : Text) (fault : Fault)
    (h : escape multiline rest = .error fault) : ∃ cause at', fault = .broken cause at' := by
  unfold escape hexEscape lineJoin at h
  grind

theorem endsIn_basicFrom (multiline closed : Bool) (skip : Nat) (read rest : Text)
    (hrest : rest <:+ text) :
    EndsIn text (· <:+ text) (basicFrom multiline closed skip read rest) := by
  fun_induction basicFrom multiline closed skip read rest with
  | case1 => exact hrest
  | case2 => trivial
  | case3 closed read c rest skip ih => exact ih ((List.suffix_cons _ _).trans hrest)
  | case4 => exact hrest
  | case5 closed read c rest hopen hquote ih => exact ih ((List.suffix_cons _ _).trans hrest)
  | case6 closed read rest hopen fault hquote hescape =>
      obtain ⟨cause, at', rfl⟩ := broken_of_escape multiline _ fault hescape
      trivial
  | case7 closed read rest hopen plain length hquote hescape ih =>
      exact ih ((List.suffix_cons _ _).trans hrest)
  | case8 => trivial
  | case9 closed read c rest hopen hquote hescape hlegal ih =>
      exact ih ((List.suffix_cons _ _).trans hrest)

theorem Keeps.basicBody (multiline : Bool) :
    Keeps text (· <:+ text) (· <:+ text) (basicBody multiline) :=
  endsIn_basicFrom multiline false 0 []

theorem Keeps.spareQuotes (quote : Char) :
    Keeps text (· <:+ text) (· <:+ text) (spareQuotes quote) := by
  unfold Toml.spareQuotes
  refine .get fun rest hrest => .bind (.drop fun _ h => ?_) fun _ => .pure _
  exact (List.drop_suffix _ _).trans (h ▸ hrest)

theorem Keeps.multilineString (quote : Char) :
    Keeps text (· <:+ text) (· <:+ text) (multilineString quote) := by
  unfold Toml.multilineString
  have hspare (body : Text) : Keeps text (· <:+ text) (· <:+ text) (do
      return body ++ (← Toml.spareQuotes quote)) :=
    .bind (.spareQuotes quote) fun _ => .pure _
  have hbody := Keeps.ite (c := quote = '\x27')
    (.bind (.literalBody true) hspare) (.bind (.basicBody true) hspare)
  refine .bind (.dropWithin 3) fun _ => .startsWith ?_ hbody
  exact .bind ((Keeps.dropWithin 1).from fun _ h => h.1) fun _ => hbody

theorem Keeps.lineString (quote : Char) :
    Keeps text (· <:+ text) (· <:+ text) (lineString quote) := by
  unfold Toml.lineString
  exact .bind (.dropWithin 1) fun _ => .ite (.literalBody false) (.basicBody false)

theorem Keeps.anyString (quote : Char) :
    Keeps text (· <:+ text) (· <:+ text) (anyString quote) := by
  unfold Toml.anyString
  exact .startsWith ((Keeps.multilineString quote).from fun _ h => h.1) (.lineString quote)

theorem Keeps.commentWithin : Keeps text (· <:+ text) (· <:+ text) skipComment := by
  unfold Toml.skipComment
  refine .get fun rest hrest => ?_
  split
  · refine .bind (.set (· <:+ text) ((List.suffix_cons _ _).trans hrest)) fun _ => ?_
    exact .bind (.takeLegal _ _) fun _ => .pure _
  · exact (Keeps.pure ()).here hrest

end Strings

end Reading

end UrlHarvest.Toml
