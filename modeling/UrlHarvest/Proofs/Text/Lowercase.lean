import UrlHarvest.Text.LetterCase
import UrlHarvest.Text.Lowercase

namespace UrlHarvest.Text

theorem forall_ascii {P : Char → Prop} (h : ∀ i < 128, P (Char.ofNat i)) (c : Char)
    (hc : c.toNat < 128) : P c := by
  have hchar := h c.toNat hc
  rwa [Char.ofNat_toNat] at hchar

theorem foldLetter_of_ascii (c : Char) (hc : c.toNat < 128) : foldLetter c = c.toLower :=
  forall_ascii (P := fun c => foldLetter c = c.toLower) (by decide) c hc

-- The small letter of a capital outside ASCII is outside ASCII as well, but for the Kelvin sign.
theorem shifted_of_mem_capitalRuns (run : CapitalRun) (hrun : run ∈ capitalRuns) (n : Nat)
    (hn : run.holds n = true) :
    n = 8490 ∨ (n + run.shift).toNat.isValidChar ∧ 128 ≤ (n + run.shift).toNat := by
  have hall : ∀ run ∈ capitalRuns, run = ⟨8490, 8490, 1, -8383⟩ ∨ 128 ≤ run.first + run.shift ∧
      (run.last + run.shift < 0xD800 ∨
        0xDFFF < run.first + run.shift ∧ run.last + run.shift < 0x110000) := by decide +kernel
  simp only [CapitalRun.holds, Bool.and_eq_true, decide_eq_true_eq] at hn
  obtain ⟨⟨hfirst, hlast⟩, -⟩ := hn
  rcases hall run hrun with rfl | ⟨hlow, hvalid⟩
  · exact .inl (Nat.le_antisymm hlast hfirst)
  · right
    unfold Nat.isValidChar
    omega

theorem lowerChar_of_foreign (c : Char) (hc : 128 ≤ c.toNat) :
    c = '\u212A' ∨ lowerChar c = ['i', '\u0307'] ∨
      ∃ small, lowerChar c = [small] ∧ 128 ≤ small.toNat := by
  unfold lowerChar
  rw [if_neg (Nat.not_lt.mpr hc)]
  split
  · exact .inr (.inl rfl)
  · cases hfind : capitalRuns.find? (·.holds c.toNat) with
    | none => exact .inr (.inr ⟨c, rfl, hc⟩)
    | some run =>
        have hmem := List.mem_of_find?_eq_some hfind
        have hholds := List.find?_some hfind
        rcases shifted_of_mem_capitalRuns run hmem c.toNat hholds with
          hkelvin | ⟨hvalid, hforeign⟩
        · left
          rw [← Char.ofNat_toNat c, hkelvin]
        · refine .inr (.inr ⟨_, rfl, ?_⟩)
          rw [Char.ofNat, dif_pos hvalid]
          exact hforeign

-- A code point whose small letter in ASCII is the one that it is folded into. The long s and the
-- dotted capital I are folded into ASCII, but not read into it.
def IsPlain (c : Char) : Prop :=
  c.toNat < 128 ∨ c = '\u212A'

theorem lowerFrom_cons_of_isPlain (inWord : Bool) (c : Char) (rest : Text) (hc : IsPlain c) :
    ∃ after, lowerFrom inWord (c :: rest) = foldLetter c :: lowerFrom after rest := by
  have hsmall : c ≠ 'Σ' ∧ lowerChar c = [foldLetter c] := by
    rcases hc with hascii | rfl
    · refine ⟨?_, by rw [lowerChar, if_pos hascii, foldLetter_of_ascii c hascii]⟩
      rintro rfl
      exact absurd hascii (by decide)
    · exact ⟨by decide, by decide⟩
  exact ⟨_, by rw [lowerFrom, if_neg hsmall.1, hsmall.2, List.singleton_append]⟩

section Plain

variable {c : Char}

-- But for the Kelvin sign, what is folded into a code point is that code point or a letter.
theorem IsPlain.eq_or_letter (hc : IsPlain c) :
    foldLetter c = c ∨ isAsciiLetter c = true ∧ isAsciiLetter (foldLetter c) = true ∨
      foldLetter c = 'k' := by
  rcases hc with hascii | rfl
  · have h := forall_ascii (P := fun c => foldLetter c = c ∨
      isAsciiLetter c = true ∧ isAsciiLetter (foldLetter c) = true) (by decide) c hascii
    exact h.imp_right .inl
  · exact .inr (.inr (by decide))

theorem IsPlain.eq_of_foldLetter {mark : Char} (hc : IsPlain c) (hfold : foldLetter c = mark)
    (hmark : isAsciiLetter mark = false) : c = mark := by
  rcases hc.eq_or_letter with he | ⟨-, hletter⟩ | hk
  · exact he.symm.trans hfold
  · rw [hfold, hmark] at hletter
    cases hletter
  · rw [← hfold, hk] at hmark
    cases hmark

theorem IsPlain.isAsciiLetter_of_foldLetter (hc : IsPlain c)
    (hfold : isAsciiLetter (foldLetter c) = true) (hk : foldLetter c ≠ 'k') :
    isAsciiLetter c = true := by
  rcases hc.eq_or_letter with he | ⟨hletter, -⟩ | hkelvin
  · rwa [he] at hfold
  · exact hletter
  · exact absurd hkelvin hk

theorem eq_of_map_foldLetter {front word : Text} (hplain : ∀ c ∈ front, IsPlain c)
    (hfold : front.map foldLetter = word) (hword : word.any isAsciiLetter = false) :
    front = word := by
  have hmark : ∀ c ∈ front, isAsciiLetter (foldLetter c) = false := fun c hc =>
    Bool.eq_false_iff.mpr (List.any_eq_false.mp hword _ (hfold ▸ List.mem_map_of_mem hc))
  have hsame : front.map foldLetter = front.map id := List.map_congr_left fun c hc =>
    ((hplain c hc).eq_of_foldLetter rfl (hmark c hc)).symm
  rw [← hfold, hsame, List.map_id]

end Plain

-- A word of ASCII that can be told by its letters alone: behind the i of a dotted capital I
-- there is a sign more.
structure ReadsPlain (word : Text) : Prop where
  ascii : ∀ c ∈ word, c.toNat < 128
  no_dotted_end : word.getLast? ≠ some 'i'

theorem readsPlain_iff (word : Text) :
    ReadsPlain word ↔ word.all (·.toNat < 128) = true ∧ word.getLast? ≠ some 'i' := by
  simp only [List.all_eq_true, decide_eq_true_eq]
  exact ⟨fun h => ⟨h.ascii, h.no_dotted_end⟩, fun h => ⟨h.1, h.2⟩⟩

instance (word : Text) : Decidable (ReadsPlain word) :=
  decidable_of_iff' _ (readsPlain_iff word)

theorem ReadsPlain.tail {c : Char} {word : Text} (h : ReadsPlain (c :: word)) :
    ReadsPlain word := by
  refine ⟨fun d hd => h.ascii d (List.mem_cons_of_mem c hd), fun hlast => h.no_dotted_end ?_⟩
  rw [List.getLast?_cons, hlast, Option.getD_some]

-- The text begins with the letters of `word` in any letter case, and with plain ones only.
def BeginsPlainly (word text : Text) : Prop :=
  ∃ front rest, text = front ++ rest ∧ (∀ c ∈ front, IsPlain c) ∧ front.map foldLetter = word

theorem BeginsPlainly.of_ascii_front (front rest : Text)
    (hascii : ∀ c ∈ front, c.toNat < 128) :
    BeginsPlainly (front.map foldLetter) (front ++ rest) :=
  ⟨front, rest, rfl, fun c hc => .inl (hascii c hc), rfl⟩

theorem BeginsPlainly.take {word text : Text} (count : Nat) (hcount : word.length ≤ count)
    (h : BeginsPlainly word text) : BeginsPlainly word (text.take count) := by
  obtain ⟨front, rest, rfl, hplain, hfold⟩ := h
  have hlength : front.length ≤ count := by rwa [← hfold, List.length_map] at hcount
  refine ⟨front, rest.take (count - front.length), ?_, hplain, hfold⟩
  rw [List.take_append, List.take_of_length_le hlength]

theorem BeginsPlainly.extend {word part text : Text} (hpart : part <+: text)
    (h : BeginsPlainly word part) : BeginsPlainly word text := by
  obtain ⟨front, rest, rfl, hplain, hfold⟩ := h
  obtain ⟨more, rfl⟩ := hpart
  exact ⟨front, rest ++ more, List.append_assoc _ _ _, hplain, hfold⟩

theorem BeginsPlainly.prefix_lowerFrom {word text : Text} (inWord : Bool)
    (h : BeginsPlainly word text) : word <+: lowerFrom inWord text := by
  obtain ⟨front, rest, rfl, hplain, rfl⟩ := h
  induction front generalizing inWord with
  | nil => exact List.nil_prefix
  | cons c front ih =>
      obtain ⟨hc, hfront⟩ := List.forall_mem_cons.mp hplain
      obtain ⟨after, hlower⟩ := lowerFrom_cons_of_isPlain inWord c (front ++ rest) hc
      rw [List.cons_append, hlower, List.map_cons, List.cons_prefix_cons]
      exact ⟨rfl, ih after hfront⟩

-- A word of ASCII never begins the small letters of a text with a letter that is not plain.
theorem isPlain_of_prefix_lowerFrom (w c : Char) (word rest : Text) (inWord : Bool)
    (hword : ReadsPlain (w :: word)) (h : w :: word <+: lowerFrom inWord (c :: rest)) :
    IsPlain c := by
  apply Classical.byContradiction
  intro hc
  obtain ⟨hforeign, hkelvin⟩ := not_or.mp hc
  have hw := hword.ascii w List.mem_cons_self
  rw [lowerFrom] at h
  split at h
  · have hhead := (List.cons_prefix_cons.mp h).1
    split at hhead <;> exact absurd hw (hhead ▸ by decide)
  · rcases lowerChar_of_foreign c (Nat.le_of_not_lt hforeign) with
      rfl | hdotted | ⟨small, hsmall, hs⟩
    · exact hkelvin rfl
    · rw [hdotted] at h
      obtain ⟨rfl, hbehind⟩ := List.cons_prefix_cons.mp h
      cases word with
      | nil => exact hword.no_dotted_end rfl
      | cons d word =>
          obtain ⟨rfl, -⟩ := List.cons_prefix_cons.mp hbehind
          exact absurd (hword.ascii '\u0307' (by simp)) (by decide)
    · rw [hsmall] at h
      obtain ⟨rfl, -⟩ := List.cons_prefix_cons.mp h
      omega

-- So such a word is met in small letters exactly where the text itself begins with its letters:
-- neither what stands behind them nor what has been read before them has a say in it.
theorem prefix_lowerFrom_iff (word text : Text) (inWord : Bool) (hword : ReadsPlain word) :
    word <+: lowerFrom inWord text ↔ BeginsPlainly word text := by
  refine ⟨fun h => ?_, fun h => h.prefix_lowerFrom inWord⟩
  induction word generalizing text inWord with
  | nil => exact ⟨[], text, rfl, by simp, rfl⟩
  | cons w word ih =>
      cases text with
      | nil => exact absurd (List.prefix_nil.mp h) (by simp)
      | cons c rest =>
          have hc := isPlain_of_prefix_lowerFrom w c word rest inWord hword h
          obtain ⟨after, hlower⟩ := lowerFrom_cons_of_isPlain inWord c rest hc
          rw [hlower] at h
          obtain ⟨rfl, hbehind⟩ := List.cons_prefix_cons.mp h
          obtain ⟨front, more, rfl, hplain, rfl⟩ := ih rest after hword.tail hbehind
          exact ⟨c :: front, more, rfl, List.forall_mem_cons.mpr ⟨hc, hplain⟩, rfl⟩

theorem prefix_lower_iff (word text : Text) (hword : ReadsPlain word) :
    word <+: lower text ↔ BeginsPlainly word text :=
  prefix_lowerFrom_iff word text false hword

theorem lowerFrom_cons_ne_nil (inWord : Bool) (c : Char) (rest : Text) :
    lowerFrom inWord (c :: rest) ≠ [] := by
  have hsmall : lowerChar c ≠ [] := by
    unfold lowerChar
    repeat' split
    all_goals exact List.cons_ne_nil _ _
  rw [lowerFrom]
  split
  · exact List.cons_ne_nil _ _
  · exact List.append_ne_nil_of_left_ne_nil hsmall _

-- Nor is there more than one way to write a whole word of this kind, but for the case of letters.
theorem map_foldLetter_of_lowerFrom (word text : Text) (inWord : Bool) (hword : ReadsPlain word)
    (h : lowerFrom inWord text = word) :
    (∀ c ∈ text, IsPlain c) ∧ text.map foldLetter = word := by
  induction text generalizing word inWord with
  | nil => exact ⟨by simp, h⟩
  | cons c rest ih =>
      cases word with
      | nil => exact absurd h (lowerFrom_cons_ne_nil inWord c rest)
      | cons w word =>
          have hc := isPlain_of_prefix_lowerFrom w c word rest inWord hword (h ▸ List.prefix_rfl)
          obtain ⟨after, hlower⟩ := lowerFrom_cons_of_isPlain inWord c rest hc
          rw [hlower] at h
          obtain ⟨rfl, hbehind⟩ := List.cons.inj h
          obtain ⟨hplain, rfl⟩ := ih word after hword.tail hbehind
          exact ⟨List.forall_mem_cons.mpr ⟨hc, hplain⟩, rfl⟩

-- Capitals of plain letters are those of their small letters.
theorem capitals_of_isPlain (text : Text) (hplain : ∀ c ∈ text, IsPlain c)
    (hk : 'k' ∉ text.map foldLetter) :
    capitals text = (text.map foldLetter).map Char.toUpper := by
  rw [capitals, List.map_map]
  refine List.map_congr_left fun c hc => ?_
  rcases hplain c hc with hascii | rfl
  · exact forall_ascii (P := fun c => capitalLetter c = (foldLetter c).toUpper) (by decide) c hascii
  · exact absurd (List.mem_map_of_mem hc) hk

-- A foreign letter may be folded into a mark, but it is not read into one: a word that could be
-- read would have to end in front of it.
theorem not_beginsPlainly_of_foreign (word front rest : Text)
    (hapart : word <+: front.map foldLetter → word = front.map foldLetter)
    (hkelvin : 'k' ∉ front.map foldLetter) (hforeign : ∃ c ∈ front, 128 ≤ c.toNat) :
    ¬ BeginsPlainly word (front ++ rest) := by
  rintro ⟨other, more, he, hplain, rfl⟩
  obtain ⟨c, hc, hlarge⟩ := hforeign
  have hnot : ¬ IsPlain c := by
    rintro (hascii | rfl)
    · omega
    · exact hkelvin (List.mem_map_of_mem hc)
  have hother : other <+: front ++ rest := he ▸ List.prefix_append other more
  rcases List.prefix_or_prefix_of_prefix hother (List.prefix_append front rest) with hle | hle
  · have hlength := congrArg List.length (hapart (hle.map foldLetter))
    rw [List.length_map, List.length_map] at hlength
    obtain rfl := hle.eq_of_length hlength
    exact hnot (hplain c hc)
  · exact hnot (hplain c (hle.subset hc))

-- Marks that are read off the small letters of a text: none of them begins another.
structure ReadableMarks {α : Type} (marks : List (Text × α)) : Prop where
  plain : ∀ mark ∈ marks, ReadsPlain mark.1
  apart : ∀ mark ∈ marks, ∀ other ∈ marks, mark.1 <+: other.1 → mark = other

namespace ReadableMarks

variable {α : Type} {marks : List (Text × α)} (h : ReadableMarks marks) (text : Text)
include h

theorem isPrefixOf_iff (mark : Text × α) (hmark : mark ∈ marks) :
    mark.1.isPrefixOf (lower text) = true ↔ BeginsPlainly mark.1 text :=
  List.isPrefixOf_iff_prefix.trans (prefix_lower_iff mark.1 text (h.plain mark hmark))

-- As no mark begins another one, their order is of no account.
theorem find?_eq_some_iff (mark : Text × α) :
    marks.find? (·.1.isPrefixOf (lower text)) = some mark ↔
      mark ∈ marks ∧ BeginsPlainly mark.1 text := by
  constructor
  · intro hfind
    have hmark := List.mem_of_find?_eq_some hfind
    have hprefix := List.find?_some hfind
    exact ⟨hmark, (h.isPrefixOf_iff text mark hmark).mp hprefix⟩
  · rintro ⟨hmark, hbegins⟩
    have hprefix := (h.isPrefixOf_iff text mark hmark).mpr hbegins
    have hsome : (marks.find? (·.1.isPrefixOf (lower text))).isSome = true :=
      List.find?_isSome.mpr ⟨mark, hmark, hprefix⟩
    obtain ⟨other, hfind⟩ := Option.isSome_iff_exists.mp hsome
    have hother := List.mem_of_find?_eq_some hfind
    have hfound := List.find?_some hfind
    rcases List.prefix_or_prefix_of_prefix (List.isPrefixOf_iff_prefix.mp hfound)
      (List.isPrefixOf_iff_prefix.mp hprefix) with hle | hle
    · rw [hfind, h.apart other hother mark hmark hle]
    · rw [hfind, h.apart mark hmark other hother hle]

theorem find?_eq_none_iff :
    marks.find? (·.1.isPrefixOf (lower text)) = none ↔
      ∀ mark ∈ marks, ¬ BeginsPlainly mark.1 text := by
  rw [List.find?_eq_none]
  exact forall₂_congr fun mark hmark => not_congr (h.isPrefixOf_iff text mark hmark)

end ReadableMarks

end UrlHarvest.Text
