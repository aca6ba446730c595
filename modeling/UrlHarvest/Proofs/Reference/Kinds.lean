import Mathlib.Data.List.TakeWhile
import UrlHarvest.Proofs.Pattern.Schemes
import UrlHarvest.Reference

namespace UrlHarvest

open Text

namespace Reference

-- A text that begins with a mark of a scheme, but with a letter from outside ASCII in it.
def Disguised (text : Text) : Prop :=
  ∃ front rest, text = front ++ rest ∧ front.map foldLetter ∈ schemeMarks ∧
    ∃ c ∈ front, 128 ≤ c.toNat

section Domain

variable (c : Char)

theorem ascii_of_isLabelChar (h : isLabelChar c = true) : c.toNat < 128 := by
  simp only [isLabelChar, isLabelStart, isAsciiLetter, isAsciiDigit, Bool.or_eq_true,
    Bool.and_eq_true, decide_eq_true_eq, beq_iff_eq] at h
  rcases h with ((⟨-, h⟩ | ⟨-, h⟩) | ⟨-, h⟩) | rfl
  · exact Nat.lt_of_le_of_lt h (by decide)
  · exact Nat.lt_of_le_of_lt h (by decide)
  · exact Nat.lt_of_le_of_lt h (by decide)
  · decide

theorem isLabelChar_of_isLabelStart (h : isLabelStart c = true) : isLabelChar c = true := by
  rw [isLabelChar, h, Bool.true_or]

theorem isLabelStart_of_isAsciiLetter (h : isAsciiLetter c = true) : isLabelStart c = true := by
  rw [isLabelStart, h, Bool.true_or]

-- The letters and digits that a domain is made of stay such in small letters.
theorem foldLetter_of_isLabelChar (h : isLabelChar c = true) :
    isLabelChar (foldLetter c) = true ∧ isLabelStart (foldLetter c) = isLabelStart c ∧
      isAsciiLetter (foldLetter c) = isAsciiLetter c := by
  have hc := ascii_of_isLabelChar c h
  revert h
  exact forall_ascii (P := fun c => isLabelChar c = true → isLabelChar (foldLetter c) = true ∧
    isLabelStart (foldLetter c) = isLabelStart c ∧ isAsciiLetter (foldLetter c) = isAsciiLetter c)
    (by decide) c hc

end Domain

-- How a domain begins: a label, a dot and two letters.
structure DomainFront (c : Char) (label : Text) (a b : Char) : Prop where
  start : isLabelStart c = true
  label : ∀ d ∈ label, isLabelChar d = true
  first : isAsciiLetter a = true
  second : isAsciiLetter b = true

theorem startsWithDomain_iff (text : Text) :
    startsWithDomain text = true ↔
      ∃ c label a b rest, DomainFront c label a b ∧
        text = (c :: label ++ ['.', a, b]) ++ rest := by
  constructor
  · intro h
    cases text with
    | nil => cases h
    | cons c text =>
        rw [startsWithDomain, Bool.and_eq_true] at h
        obtain ⟨hstart, hend⟩ := h
        split at hend
        · rename_i a b rest hdrop
          obtain ⟨ha, hb⟩ := Bool.and_eq_true_iff.mp hend
          refine ⟨c, text.takeWhile isLabelChar, a, b, rest, ⟨hstart, ?_, ha, hb⟩, ?_⟩
          · exact fun d hd => List.mem_takeWhile_imp hd
          · have htext := List.takeWhile_append_dropWhile (p := isLabelChar) (l := text)
            rw [hdrop] at htext
            rw [List.append_assoc, List.cons_append]
            exact congrArg (c :: ·) htext.symm
        · cases hend
  · rintro ⟨c, label, a, b, rest, h, rfl⟩
    have hdrop :
        (label ++ '.' :: a :: b :: rest).dropWhile isLabelChar = '.' :: a :: b :: rest := by
      rw [List.dropWhile_append_of_pos h.label]
      rfl
    rw [List.append_assoc, List.cons_append, startsWithDomain]
    simp only [List.cons_append, List.nil_append, hdrop, h.start, h.first, h.second, Bool.and_self]

-- A domain is met in small letters as well.
theorem startsWithDomain_lower (text : Text) (h : startsWithDomain text = true) :
    startsWithDomain (lower text) = true := by
  obtain ⟨c, label, a, b, rest, hfront, rfl⟩ := (startsWithDomain_iff text).mp h
  have hc := isLabelChar_of_isLabelStart c hfront.start
  have ha := isLabelChar_of_isLabelStart a (isLabelStart_of_isAsciiLetter a hfront.first)
  have hb := isLabelChar_of_isLabelStart b (isLabelStart_of_isAsciiLetter b hfront.second)
  have hascii : ∀ d ∈ c :: label ++ ['.', a, b], d.toNat < 128 := by
    simp only [List.cons_append, List.forall_mem_cons, List.forall_mem_append]
    exact ⟨ascii_of_isLabelChar c hc, fun d hd => ascii_of_isLabelChar d (hfront.label d hd),
      by decide, ascii_of_isLabelChar a ha, ascii_of_isLabelChar b hb, by simp⟩
  obtain ⟨more, hmore⟩ :=
    (BeginsPlainly.of_ascii_front _ rest hascii).prefix_lowerFrom false
  refine (startsWithDomain_iff _).mpr
    ⟨foldLetter c, label.map foldLetter, foldLetter a, foldLetter b, more, ⟨?_, ?_, ?_, ?_⟩, ?_⟩
  · rw [(foldLetter_of_isLabelChar c hc).2.1, hfront.start]
  · exact List.forall_mem_map.mpr fun d hd =>
      (foldLetter_of_isLabelChar d (hfront.label d hd)).1
  · rw [(foldLetter_of_isLabelChar a ha).2.2, hfront.first]
  · rw [(foldLetter_of_isLabelChar b hb).2.2, hfront.second]
  · rw [lower, ← hmore]
    simp [show foldLetter '.' = '.' by decide]

-- What is read as the label of a domain stands in the text as such.
theorem exists_beginsPlainly_of_startsWithDomain_lower (text : Text)
    (h : startsWithDomain (lower text) = true) : ∃ label, BeginsPlainly (label ++ ['.']) text := by
  obtain ⟨c, label, a, b, rest, hfront, hlower⟩ := (startsWithDomain_iff _).mp h
  refine ⟨c :: label, (prefix_lower_iff _ text ⟨?_, ?_⟩).mp ⟨a :: b :: rest, ?_⟩⟩
  · simp only [List.cons_append, List.forall_mem_cons, List.forall_mem_append]
    exact ⟨ascii_of_isLabelChar c (isLabelChar_of_isLabelStart c hfront.start),
      fun d hd => ascii_of_isLabelChar d (hfront.label d hd), by decide, by simp⟩
  · rw [List.getLast?_concat]
    decide
  · rw [hlower]
    simp

theorem readable_kindMarks : ReadableMarks kindMarks :=
  ⟨by decide, by decide⟩

theorem ne_unknown_of_mem_kindMarks (mark : Text × Kind) (hmark : mark ∈ kindMarks) :
    mark.2 ≠ .unknown := by
  have hall : ∀ mark ∈ kindMarks, mark.2 ≠ .unknown := by decide
  exact hall mark hmark

-- The kind of a value that begins with a mark is the one that the mark stands for.
theorem kind_of_beginsPlainly (mark : Text × Kind) (hmark : mark ∈ kindMarks) (value : Text)
    (h : BeginsPlainly mark.1 (trim value)) : kind value = mark.2 := by
  have hfind := (readable_kindMarks.find?_eq_some_iff (trim value) mark).mpr ⟨hmark, h⟩
  simp only [kind, hfind]

theorem kind_ne_unknown_of_beginsPlainly (mark : Text × Kind) (hmark : mark ∈ kindMarks)
    (value : Text) (h : BeginsPlainly mark.1 (trim value)) : kind value ≠ .unknown := by
  rw [kind_of_beginsPlainly mark hmark value h]
  exact ne_unknown_of_mem_kindMarks mark hmark

-- Without a mark, only a domain is of a kind.
theorem kind_cases (value : Text) :
    (∃ mark ∈ kindMarks, BeginsPlainly mark.1 (trim value) ∧ kind value = mark.2) ∨
      kind value = if startsWithDomain (lower (trim value)) then .domain else .unknown := by
  by_cases hmark : ∃ mark ∈ kindMarks, BeginsPlainly mark.1 (trim value)
  · obtain ⟨mark, hmark, hbegins⟩ := hmark
    exact .inl ⟨mark, hmark, hbegins, kind_of_beginsPlainly mark hmark value hbegins⟩
  · have hfind := (readable_kindMarks.find?_eq_none_iff (trim value)).mpr
      fun mark hm hbegins => hmark ⟨mark, hm, hbegins⟩
    right
    simp only [kind, hfind]

theorem kind_ne_unknown_of_startsWithDomain (value : Text)
    (h : startsWithDomain (trim value) = true) : kind value ≠ .unknown := by
  rcases kind_cases value with ⟨mark, hmark, -, he⟩ | he
  · exact he ▸ ne_unknown_of_mem_kindMarks mark hmark
  · rw [he, if_pos (startsWithDomain_lower _ h)]
    decide

-- Every path begins with a mark of its own.
theorem exists_mark_of_startsWithPath (text : Text) (h : startsWithPath text = true) :
    ∃ mark ∈ kindMarks, BeginsPlainly mark.1 text := by
  unfold startsWithPath at h
  split at h
  · rename_i c rest
    exact ⟨("/".toList, .absolutePath), by decide, .of_ascii_front ['/'] _ (by simp)⟩
  · exact ⟨("./".toList, .relativePath), by decide, .of_ascii_front ['.', '/'] _ (by simp)⟩
  · exact ⟨("../".toList, .relativePath), by decide, .of_ascii_front ['.', '.', '/'] _ (by simp)⟩
  · cases h

-- Of what begins with a mark of a scheme, only the disguised is of no kind.
theorem disguised_of_kind_eq_unknown (mark rest value : Text) (hmark : mark ∈ schemeMarks)
    (hdrop : dropWord? mark (trim value) = some rest) (hkind : kind value = .unknown) :
    Disguised (trim value) := by
  obtain ⟨front, htext, hfold⟩ := (dropWord?_eq_some_iff mark _ rest).mp hdrop
  have hall : ∀ mark ∈ schemeMarks, mark ∈ kindMarks.map Prod.fst := by decide
  obtain ⟨entry, hentry, he⟩ := List.mem_map.mp (hall mark hmark)
  refine ⟨front, rest, htext, hfold ▸ hmark, ?_⟩
  by_contra hnone
  have hascii : ∀ c ∈ front, c.toNat < 128 :=
    fun c hc => Nat.lt_of_not_le fun hforeign => hnone ⟨c, hc, hforeign⟩
  have hbegins : BeginsPlainly entry.1 (trim value) := by
    rw [he, ← hfold, htext]
    exact .of_ascii_front front rest hascii
  exact kind_ne_unknown_of_beginsPlainly entry hentry value hbegins hkind

-- A disguised text begins in plain letters with no mark, and with no label in front of a dot.
theorem kind_of_disguised (value : Text) (h : Disguised (trim value)) : kind value = .unknown := by
  obtain ⟨front, rest, htext, hmark, hforeign⟩ := h
  have hmarks : ∀ mark ∈ schemeMarks, 'k' ∉ mark ∧ '.' ∉ mark ∧
      ∀ entry ∈ kindMarks, entry.1 <+: mark → entry.1 = mark := by decide
  obtain ⟨hkelvin, hdot, hapart⟩ := hmarks _ hmark
  have hword : ∀ word, (word <+: front.map foldLetter → word = front.map foldLetter) →
      ¬ BeginsPlainly word (trim value) := by
    intro word hapart
    rw [htext]
    exact not_beginsPlainly_of_foreign word front rest hapart hkelvin hforeign
  rcases kind_cases value with ⟨entry, hentry, hbegins, -⟩ | he
  · exact absurd hbegins (hword entry.1 (hapart entry hentry))
  · rw [he, if_neg]
    intro hdomain
    obtain ⟨label, hbegins⟩ := exists_beginsPlainly_of_startsWithDomain_lower _ hdomain
    refine hword _ (fun hle => ?_) hbegins
    exact absurd (hle.subset (by simp)) hdot

theorem kind_eq_unknown_iff (value : Text) (h : holds value = true) :
    kind value = .unknown ↔ Disguised (trim value) := by
  refine ⟨fun hkind => ?_, kind_of_disguised value⟩
  simp only [holds, Bool.or_eq_true, List.any_eq_true] at h
  rcases h with (⟨mark, hmark, hdrop⟩ | hpath) | hdomain
  · obtain ⟨rest, hdrop⟩ := Option.isSome_iff_exists.mp hdrop
    exact disguised_of_kind_eq_unknown mark rest value hmark hdrop hkind
  · obtain ⟨mark, hmark, hbegins⟩ := exists_mark_of_startsWithPath _ hpath
    exact absurd hkind (kind_ne_unknown_of_beginsPlainly mark hmark value hbegins)
  · exact absurd hkind (kind_ne_unknown_of_startsWithDomain value hdomain)

-- The scheme of the addresses of a kind.
def Kind.scheme : Kind → Scheme
  | https => .https
  | http => .http
  | ftp => .ftp
  | file => .file
  | mailto => .mailto
  | tel => .tel
  | ftps | data | relativePath | absolutePath | domain | unknown => .unknown

-- The two tables name the same marks for the schemes that both know.
theorem mem_kindMarks_of_mem_marks (mark : Text × Scheme) (hmark : mark ∈ Scheme.marks) :
    ∃ entry ∈ kindMarks, entry.1 = mark.1 ∧ entry.2.scheme = mark.2 := by
  have hall : ∀ mark ∈ Scheme.marks, ∃ entry ∈ kindMarks,
      entry.1 = mark.1 ∧ entry.2.scheme = mark.2 := by decide
  exact hall mark hmark

theorem mem_marks_of_mem_kindMarks (entry : Text × Kind) (hentry : entry ∈ kindMarks)
    (hscheme : entry.2.scheme ≠ .unknown) : (entry.1, entry.2.scheme) ∈ Scheme.marks := by
  have hall : ∀ entry ∈ kindMarks, entry.2.scheme ≠ .unknown →
      (entry.1, entry.2.scheme) ∈ Scheme.marks := by decide
  exact hall entry hentry hscheme

theorem scheme_kind_of_no_mark (value : Text)
    (h : ∀ mark ∈ Scheme.marks, ¬ BeginsPlainly mark.1 (trim value)) :
    (kind value).scheme = .unknown := by
  rcases kind_cases value with ⟨entry, hentry, hbegins, he⟩ | he
  · rw [he]
    by_contra hscheme
    exact h _ (mem_marks_of_mem_kindMarks entry hentry hscheme) hbegins
  · rw [he]
    split <;> rfl

-- However many letters are looked at, the kind and the scheme are told by the same marks.
theorem scheme_kind (value : Text) : (kind value).scheme = Scheme.ofAddress (trim value) := by
  by_cases hmark : ∃ mark ∈ Scheme.marks, BeginsPlainly mark.1 (trim value)
  · obtain ⟨mark, hmark, hbegins⟩ := hmark
    obtain ⟨entry, hentry, htext, hscheme⟩ := mem_kindMarks_of_mem_marks mark hmark
    rw [Scheme.ofAddress_of_beginsPlainly mark hmark _ hbegins,
      kind_of_beginsPlainly entry hentry value (htext ▸ hbegins), hscheme]
  · have hnone : ∀ mark ∈ Scheme.marks, ¬ BeginsPlainly mark.1 (trim value) :=
      fun mark hm hbegins => hmark ⟨mark, hm, hbegins⟩
    rw [Scheme.ofAddress_of_no_mark _ hnone, scheme_kind_of_no_mark value hnone]

-- A tag and a scheme that do not contradict each other.
def Agree (tag : String) (scheme : Scheme) : Prop :=
  (tag ∈ ["https", "http", "ftp", "file", "mailto", "tel"] ↔ scheme ≠ .unknown) ∧
    (scheme ≠ .unknown → tag = scheme.tag)

theorem agree_tag_scheme (kind : Kind) : Agree kind.tag kind.scheme := by
  unfold Agree
  cases kind <;> decide

theorem agree_kind (value : Text) : Agree (kind value).tag (Scheme.ofAddress (trim value)) := by
  rw [← scheme_kind]
  exact agree_tag_scheme (kind value)

end Reference

end UrlHarvest
