import Mathlib.Data.List.TakeWhile
import UrlHarvest.Proofs.Toml.Reading

namespace UrlHarvest.Toml

theorem isPlain_of {p : Char → Bool} (hmarks : marks.all (!p ·) = true) {c : Char}
    (hc : p c = true) : isPlain c = true := by
  rw [isPlain, Bool.not_eq_true', ← Bool.not_eq_true, List.contains_iff_mem]
  intro hmark
  have hnot := List.all_eq_true.mp hmarks c hmark
  rw [hc] at hnot
  cases hnot

-- What is left of a text behind plain code points.
def PlainUpTo (text rest : Text) : Prop :=
  ∃ front, (∀ c ∈ front, isPlain c = true) ∧ front ++ rest = text

section PlainUpTo

variable {text between rest : Text}

theorem PlainUpTo.refl (text : Text) : PlainUpTo text text :=
  ⟨[], fun _ hc => absurd hc List.not_mem_nil, rfl⟩

theorem PlainUpTo.cons {c : Char} (hc : isPlain c = true) (text : Text) :
    PlainUpTo (c :: text) text :=
  ⟨[c], fun _ hmem => List.mem_singleton.mp hmem ▸ hc, rfl⟩

theorem PlainUpTo.trans (h : PlainUpTo text between) (hrest : PlainUpTo between rest) :
    PlainUpTo text rest := by
  obtain ⟨front, hfront, rfl⟩ := h
  obtain ⟨more, hmore, rfl⟩ := hrest
  refine ⟨front ++ more, fun c hc => ?_, List.append_assoc ..⟩
  exact (List.mem_append.mp hc).elim (hfront c) (hmore c)

theorem PlainUpTo.drop {count : Nat} (h : ∀ c ∈ text.take count, isPlain c = true) :
    PlainUpTo text (text.drop count) :=
  ⟨text.take count, h, List.take_append_drop count text⟩

theorem PlainUpTo.drop_front {front : Text} (hfront : front.all isPlain = true)
    (h : front <+: text) : PlainUpTo text (text.drop front.length) := by
  obtain ⟨rest, rfl⟩ := h
  exact ⟨front, List.all_eq_true.mp hfront, by rw [List.drop_left]⟩

theorem PlainUpTo.dropWhile {skips : Char → Bool} (hskips : marks.all (!skips ·) = true)
    (text : Text) : PlainUpTo text (text.dropWhile skips) := by
  refine ⟨text.takeWhile skips, fun c hc => ?_, List.takeWhile_append_dropWhile⟩
  exact isPlain_of hskips (List.mem_takeWhile_imp hc)

theorem PlainUpTo.isSuffix (h : PlainUpTo text rest) : rest <:+ text := by
  obtain ⟨front, -, rfl⟩ := h
  exact List.suffix_append front rest

theorem GoesTooDeep.of_plainUpTo {opened : Nat} (h : PlainUpTo text rest)
    (hdeep : GoesTooDeep opened rest) : GoesTooDeep opened text := by
  obtain ⟨front, hfront, rfl⟩ := h
  induction front with
  | nil => exact hdeep
  | cons c front ih =>
      obtain ⟨hc, hfront⟩ := List.forall_mem_cons.mp hfront
      exact .other hc (ih hfront)

end PlainUpTo

-- A bracket opens three calls at most, so a short text does not go deep.
theorem GoesTooDeep.lt {opened : Nat} {rest : Text} (h : GoesTooDeep opened rest) :
    callRoom < opened + 3 * rest.length := by
  induction h with
  | beyond h => omega
  | @string opened quote body rest left hquote hread h ih =>
      have hleft := Reading.Keeps.anyString quote (quote :: rest) List.suffix_rfl
      rw [hread] at hleft
      have hlength := List.IsSuffix.length_le hleft
      omega
  | @comment opened rest left hread h ih =>
      have hleft := Reading.Keeps.commentWithin ('#' :: rest) List.suffix_rfl
      rw [hread] at hleft
      have hlength := List.IsSuffix.length_le hleft
      omega
  | _ =>
      rw [List.length_cons]
      omega

-- A place in the text at which so many calls are open: what goes too deep from there on goes too
-- deep in the text.
structure At (text : Text) (opened : Nat) (rest : Text) : Prop where
  isSuffix : rest <:+ text
  goesTooDeep : GoesTooDeep opened rest → GoesTooDeep 0 text

section Places

variable {text rest left : Text} {opened : Nat}

theorem At.start (text : Text) : At text 0 text :=
  ⟨List.suffix_rfl, id⟩

theorem At.of_plainUpTo (h : At text opened rest) (hplain : PlainUpTo rest left) :
    At text opened left :=
  ⟨hplain.isSuffix.trans h.isSuffix, fun hdeep => h.goesTooDeep (hdeep.of_plainUpTo hplain)⟩

theorem At.behind {next : Nat} {front : Text} (h : At text opened (front ++ rest))
    (hfront : GoesTooDeep next rest → GoesTooDeep opened (front ++ rest)) : At text next rest :=
  ⟨(List.suffix_append front rest).trans h.isSuffix, fun hdeep => h.goesTooDeep (hfront hdeep)⟩

end Places

-- Behind a key there may stand a quote that begins no string, as in a key of three quotes, but
-- then the document is at fault there.
def BehindKey (text : Text) (opened : Nat) (rest : Text) : Prop :=
  At text opened rest ∨ rest <:+ text ∧ ∃ quote ∈ rest.head?, isQuote quote = true

section BehindKey

variable {text rest : Text} {opened : Nat}

theorem BehindKey.dropWhile_isBlank (h : BehindKey text opened rest) :
    BehindKey text opened (rest.dropWhile isBlank) := by
  rcases h with hat | ⟨hsuffix, quote, hhead, hquote⟩
  · exact .inl (hat.of_plainUpTo (.dropWhile (by decide) rest))
  · obtain ⟨more, rfl⟩ := List.head?_eq_some_iff.mp hhead
    have hblank : isBlank quote = false := by
      unfold isQuote at hquote
      unfold isBlank
      grind
    rw [List.dropWhile_cons_of_neg (by rw [hblank]; exact Bool.false_ne_true)]
    exact .inr ⟨hsuffix, quote, rfl, hquote⟩

theorem BehindKey.at_of_mark {c : Char} {mark : Text} (hc : isQuote c = false)
    (h : BehindKey text opened rest ∧ c :: mark <+: rest) : At text opened rest := by
  obtain ⟨hbehind, left, rfl⟩ := h
  rcases hbehind with hat | ⟨-, quote, hhead, hquote⟩
  · exact hat
  · obtain rfl := Option.some.inj hhead
    cases hc.symm.trans hquote

end BehindKey

namespace Reading

section Places

variable {α : Type} {text rest : Text} {opened next : Nat}

theorem EndsIn.at_of_within {reading : Reading α} (hat : At text opened rest)
    (hwithin : Keeps text (· <:+ text) (· <:+ text) reading)
    (hdeep : ∀ value left, reading rest = .ok (value, left) →
      GoesTooDeep next left → GoesTooDeep opened rest) :
    EndsIn text (At text next) (reading rest) := by
  have hends := hwithin rest hat.isSuffix
  cases hread : reading rest with
  | ok read =>
      rw [hread] at hends
      exact ⟨hends, fun h => hat.goesTooDeep (hdeep read.1 read.2 hread h)⟩
  | error fault =>
      rw [hread] at hends
      exact hends

theorem Keeps.dropMark {mark : Text}
    (hmark : ∀ rest, GoesTooDeep next rest → GoesTooDeep opened (mark ++ rest)) :
    Keeps text (fun rest => At text opened rest ∧ mark <+: rest) (At text next)
      (Reading.drop mark.length) := by
  rintro - ⟨hat, rest, rfl⟩
  change At text next ((mark ++ rest).drop mark.length)
  rw [List.drop_left]
  exact hat.behind (hmark rest)

theorem Keeps.expectMark {mark : Text} {cause : Cause}
    (hmark : ∀ rest, GoesTooDeep next rest → GoesTooDeep opened (mark ++ rest)) :
    Keeps text (At text opened) (At text next) (Reading.expect mark cause) :=
  .startsWith (.dropMark hmark) (.fail cause)

theorem Keeps.dropPlain {mark : Text} (hmark : mark.all isPlain = true) :
    Keeps text (fun rest => At text opened rest ∧ mark <+: rest) (At text opened)
      (Reading.drop mark.length) :=
  .dropMark fun _ h => h.of_plainUpTo ⟨mark, List.all_eq_true.mp hmark, rfl⟩

theorem Keeps.skipPlain {skips : Char → Bool} (hskips : marks.all (!skips ·) = true) :
    Keeps text (At text opened) (At text opened) (Reading.skipWhile skips) :=
  .skipWhile fun rest h => h.of_plainUpTo (.dropWhile hskips rest)

theorem Keeps.skipBlanks :
    Keeps text (At text opened) (At text opened) (Reading.skipWhile isBlank) :=
  .skipPlain (by decide)

theorem get_bind_apply (next : Text → Reading α) (rest : Text) :
    (get >>= next) rest = next rest rest := rfl

theorem skipComment_of_not (rest : Text) (h : ¬ ['#'] <+: rest) :
    Toml.skipComment rest = .ok ((), rest) := by
  rw [Toml.skipComment, get_bind_apply]
  split
  · exact absurd ⟨_, rfl⟩ h
  · rfl

theorem Keeps.skipComment : Keeps text (At text opened) (At text opened) skipComment := by
  intro rest hat
  by_cases hbegins : ['#'] <+: rest
  · obtain ⟨rest, rfl⟩ := hbegins
    exact .at_of_within hat .commentWithin fun _ left hread => .comment hread
  · rw [skipComment_of_not rest hbegins]
    exact hat

-- A string begins with its quote.
theorem Keeps.string {quote : Char} (hquote : isQuote quote = true) :
    Keeps text (fun rest => At text opened rest ∧ [quote] <+: rest) (At text opened)
      (Toml.anyString quote) := by
  rintro - ⟨hat, rest, rfl⟩
  exact .at_of_within hat (.anyString quote) fun body left hread => .string hquote hread

theorem lineString_of_three {quote : Char} (hquote : isQuote quote = true) (rest : Text) :
    Toml.lineString quote (quote :: quote :: quote :: rest) = .ok ([], quote :: rest) := by
  rcases Bool.or_eq_true_iff.mp hquote with h | h
  · obtain rfl := beq_iff_eq.mp h
    rfl
  · obtain rfl := beq_iff_eq.mp h
    rfl

theorem anyString_of_not_three {quote : Char} {rest : Text}
    (h : ¬ [quote, quote, quote] <+: rest) :
    Toml.anyString quote rest = Toml.lineString quote rest := by
  change (if [quote, quote, quote].isPrefixOf rest = true then _ else _ : Reading Text) rest = _
  rw [if_neg (mt List.isPrefixOf_iff_prefix.mp h)]

-- A quoted key stays in its line, so three quotes are an empty key and a quote behind it.
theorem Keeps.quotedKey {quote : Char} (hquote : isQuote quote = true) :
    Keeps text (fun rest => At text opened rest ∧ [quote] <+: rest) (BehindKey text opened)
      (Toml.lineString quote) := by
  rintro rest ⟨hat, hfirst⟩
  by_cases hthree : [quote, quote, quote] <+: rest
  · obtain ⟨left, rfl⟩ := hthree
    change EndsIn text _ (Toml.lineString quote (quote :: quote :: quote :: left))
    rw [lineString_of_three hquote]
    have hleft : quote :: left <:+ quote :: quote :: quote :: left :=
      (List.suffix_cons ..).trans (List.suffix_cons ..)
    exact .inr ⟨hleft.trans hat.isSuffix, quote, rfl, hquote⟩
  · rw [← anyString_of_not_three hthree]
    exact (Keeps.string hquote rest ⟨hat, hfirst⟩).imp fun _ => .inl

end Places

end Reading

end UrlHarvest.Toml
