import UrlHarvest.Proofs.Toml.Nesting

namespace UrlHarvest.Toml

section Digits

variable (isDigit : Char → Bool)

theorem digit_or_underscore_of_mem_take_moreDigits (text : Text) (c : Char)
    (hc : c ∈ text.take (moreDigits isDigit text)) : isDigit c = true ∨ c = '_' := by
  fun_induction moreDigits isDigit text with
  | case1 digit rest hdigit ih =>
      rw [Nat.add_comm, List.take_succ_cons, List.take_succ_cons] at hc
      rcases List.mem_cons.mp hc with rfl | hc
      · exact .inr rfl
      · rcases List.mem_cons.mp hc with rfl | hc
        · exact .inl hdigit
        · exact ih hc
  | case2 => cases hc
  | case3 digit rest _ hdigit ih =>
      rw [Nat.add_comm, List.take_succ_cons] at hc
      rcases List.mem_cons.mp hc with rfl | hc
      · exact .inl hdigit
      · exact ih hc
  | case4 => cases hc
  | case5 => cases hc

theorem digit_or_underscore_of_mem_take_digitRun (text : Text) (c : Char)
    (hc : c ∈ text.take (digitRun isDigit text)) : isDigit c = true ∨ c = '_' := by
  cases text with
  | nil => cases hc
  | cons first rest =>
      rw [digitRun] at hc
      split at hc
      · rw [Nat.add_comm, List.take_succ_cons] at hc
        rcases List.mem_cons.mp hc with rfl | hc
        · exact .inl ‹_›
        · exact digit_or_underscore_of_mem_take_moreDigits isDigit rest c hc
      · cases hc

theorem digit_or_underscore_of_mem_take_wholeLength (text : Text) (c : Char)
    (hc : c ∈ text.take (wholeLength text)) : Text.isAsciiDigit c = true ∨ c = '_' := by
  unfold wholeLength at hc
  split at hc
  · obtain rfl := List.mem_singleton.mp hc
    exact .inl rfl
  · exact digit_or_underscore_of_mem_take_digitRun _ _ c hc

end Digits

theorem exists_whole_of_decimal? (text : Text) (number : Decimal)
    (h : decimal? text = some number) :
    ∃ stretch, stretch <:+: text ∧ (∀ c ∈ stretch, Text.isAsciiDigit c = true ∨ c = '_') ∧
      number.whole = significant stretch := by
  unfold decimal? at h
  extract_lets sign afterSign whole at h
  split at h
  · cases h
  · obtain rfl := Option.some.inj h
    refine ⟨afterSign.take whole, ?_, ?_, rfl⟩
    · exact (List.take_prefix whole afterSign).isInfix.trans (List.drop_suffix sign text).isInfix
    · exact digit_or_underscore_of_mem_take_wholeLength afterSign

-- Only a number in base ten can be too long, and nothing else is wrong with one.
theorem Decimal.eq_longNumber_of_read (number : Decimal) (fault : Fault)
    (h : number.read = .error fault) :
    4300 < number.whole.length ∧ fault = .longNumber number.whole.length := by
  unfold Decimal.read at h
  extract_lets signed at h
  split at h
  · split at h
    · rename_i hlong
      exact ⟨hlong, (Except.error.inj h).symm⟩
    · cases h
  · cases h

theorem Decimal.shows_of_read {text rest : Text} (hrest : rest <:+ text) (number : Decimal)
    (fault : Fault) (hnumber : decimal? rest = some number) (hread : number.read = .error fault) :
    fault.Shows text := by
  obtain ⟨stretch, hin, hdigits, hwhole⟩ := exists_whole_of_decimal? rest number hnumber
  obtain ⟨hlong, rfl⟩ := number.eq_longNumber_of_read fault hread
  exact ⟨stretch, hin.trans hrest.isInfix, hdigits, hwhole ▸ hlong⟩

section Numbers

theorem isPlain_of_isAsciiDigit {c : Char} (hc : Text.isAsciiDigit c = true) :
    isPlain c = true :=
  isPlain_of (by decide) hc

theorem isPlain_of_digit_or_underscore {isDigit : Char → Bool}
    (hdigit : marks.all (!isDigit ·) = true) {c : Char} (hc : isDigit c = true ∨ c = '_') :
    isPlain c = true := by
  rcases hc with hc | rfl
  · exact isPlain_of hdigit hc
  · decide

theorem PlainUpTo.drop_digitRun {isDigit : Char → Bool}
    (hdigit : marks.all (!isDigit ·) = true) (text : Text) :
    PlainUpTo text (text.drop (digitRun isDigit text)) :=
  .drop fun c hc => isPlain_of_digit_or_underscore hdigit
    (digit_or_underscore_of_mem_take_digitRun isDigit text c hc)

theorem PlainUpTo.drop_wholeLength (text : Text) : PlainUpTo text (text.drop (wholeLength text)) :=
  .drop fun c hc => isPlain_of_digit_or_underscore (by decide)
    (digit_or_underscore_of_mem_take_wholeLength text c hc)

theorem PlainUpTo.drop_signLength (text : Text) : PlainUpTo text (text.drop (signLength text)) := by
  unfold signLength
  split
  · rename_i hsign
    cases text with
    | nil => exact .refl []
    | cons c rest => exact .cons (isPlain_of (p := isSign) (by decide) hsign) rest
  · exact .refl text

theorem PlainUpTo.drop_fractionLength (text : Text) :
    PlainUpTo text (text.drop (fractionLength text)) := by
  unfold fractionLength
  split
  · rename_i rest
    split
    · exact .refl _
    · rw [Nat.add_comm, List.drop_succ_cons]
      exact (PlainUpTo.cons (by decide) rest).trans (.drop_digitRun (by decide) rest)
  · exact .refl _

theorem PlainUpTo.drop_exponentLength (text : Text) :
    PlainUpTo text (text.drop (exponentLength text)) := by
  unfold exponentLength
  split
  · rename_i c rest
    split
    · rename_i hletter
      have hc : isPlain c = true := by
        rcases hletter with rfl | rfl
        · decide
        · decide
      split
      · exact .refl _
      · rw [Nat.add_assoc, Nat.add_comm, List.drop_succ_cons, ← List.drop_drop]
        exact (PlainUpTo.cons hc rest).trans
          ((PlainUpTo.drop_signLength rest).trans (.drop_digitRun (by decide) _))
    · exact .refl _
  · exact .refl _

theorem isPlain_of_mem_basePrefixes (entry : Char × Nat × (Char → Bool))
    (h : entry ∈ basePrefixes) :
    isPlain entry.1 = true ∧ marks.all (!entry.2.2 ·) = true := by
  have hall : basePrefixes.all (fun entry =>
      isPlain entry.1 && marks.all (!entry.2.2 ·)) = true := by decide
  exact Bool.and_eq_true_iff.mp (List.all_eq_true.mp hall entry h)

theorem PlainUpTo.drop_basedInteger (text : Text) (number : Number) (length : Nat)
    (h : basedInteger? text = some (number, length)) : PlainUpTo text (text.drop length) := by
  unfold basedInteger? at h
  split at h
  · rename_i letter rest
    obtain ⟨⟨prefixed, base, isDigit⟩, hfound, hmade⟩ := Option.bind_eq_some_iff.mp h
    obtain ⟨hletter, hdigits⟩ := isPlain_of_mem_basePrefixes _ (List.mem_of_find?_eq_some hfound)
    obtain rfl : prefixed = letter :=
      beq_iff_eq.mp (List.find?_eq_some_iff_append.mp hfound).1
    dsimp only at hmade
    split at hmade
    · cases hmade
    · obtain rfl := (Prod.mk.inj (Option.some.inj hmade)).2
      rw [Nat.add_comm, List.drop_succ_cons, List.drop_succ_cons]
      exact (PlainUpTo.cons (by decide) _).trans <|
        (PlainUpTo.cons hletter rest).trans (.drop_digitRun hdigits rest)
  · cases h

theorem PlainUpTo.drop_decimal (text : Text) (number : Decimal)
    (h : decimal? text = some number) : PlainUpTo text (text.drop number.length) := by
  unfold decimal? at h
  extract_lets sign afterSign whole afterWhole fraction afterFraction exponent at h
  split at h
  · cases h
  · obtain rfl := Option.some.inj h
    dsimp only
    rw [← List.drop_drop, ← List.drop_drop, ← List.drop_drop]
    exact (PlainUpTo.drop_signLength text).trans <|
      (PlainUpTo.drop_wholeLength afterSign).trans <|
        (PlainUpTo.drop_fractionLength afterWhole).trans <| .drop_exponentLength afterFraction

theorem PlainUpTo.drop_word (text word : Text)
    (h : notFiniteWords.find? (·.isPrefixOf text) = some word) :
    PlainUpTo text (text.drop word.length) := by
  have hplain : notFiniteWords.all (·.all isPlain) = true := by decide
  exact .drop_front (List.all_eq_true.mp hplain word (List.mem_of_find?_eq_some h))
    (List.isPrefixOf_iff_prefix.mp (List.find?_eq_some_iff_append.mp h).1)

end Numbers

section Moments

variable {text rest : Text}

theorem PlainUpTo.of_twoDigits? (low high n : Nat) (h : twoDigits? low high text = some (n, rest)) :
    PlainUpTo text rest := by
  unfold twoDigits? at h
  split at h
  · rename_i a b left
    split at h
    · rename_i hdigits
      obtain ⟨ha, hb⟩ := Bool.and_eq_true_iff.mp hdigits
      extract_lets value at h
      split at h
      · obtain rfl := (Prod.mk.inj (Option.some.inj h)).2
        exact (PlainUpTo.cons (isPlain_of_isAsciiDigit ha) _).trans
          (.cons (isPlain_of_isAsciiDigit hb) left)
      · cases h
    · cases h
  · cases h

theorem PlainUpTo.of_char? {mark : Char} (hmark : isPlain mark = true)
    (h : char? mark text = some rest) : PlainUpTo text rest := by
  unfold char? at h
  split at h
  · rename_i c left
    split at h
    · obtain rfl := Option.some.inj h
      rename_i hc
      exact .cons (hc ▸ hmark) left
    · cases h
  · cases h

-- The places after the point of a second.
theorem PlainUpTo.of_places (h : (match text with
      | '.' :: left =>
        match left.takeWhile Text.isAsciiDigit with
        | [] => some text
        | digits => some (left.drop digits.length)
      | _ => some text) = some rest) : PlainUpTo text rest := by
  split at h
  · rename_i left
    have hdigits : (left.takeWhile Text.isAsciiDigit).all isPlain = true :=
      List.all_eq_true.mpr fun c hc => isPlain_of_isAsciiDigit (List.mem_takeWhile_imp hc)
    split at h
    · obtain rfl := Option.some.inj h
      exact .refl _
    · obtain rfl := Option.some.inj h
      exact (PlainUpTo.cons (by decide) left).trans
        (.drop_front hdigits (List.takeWhile_prefix _))
  · obtain rfl := Option.some.inj h
    exact .refl text

theorem PlainUpTo.of_afterTime? (h : afterTime? text = some rest) : PlainUpTo text rest := by
  simp only [afterTime?, Option.bind_eq_bind, Option.bind_eq_some_iff, Prod.exists] at h
  obtain ⟨hour, left, hhour, left₁, hcolon, minute, left₂, hminute, left₃, hcolon', second, left₄,
    hsecond, hplaces⟩ := h
  exact (PlainUpTo.of_twoDigits? 0 23 hour hhour).trans <|
    (PlainUpTo.of_char? (by decide) hcolon).trans <|
      (PlainUpTo.of_twoDigits? 0 59 minute hminute).trans <|
        (PlainUpTo.of_char? (by decide) hcolon').trans <|
          (PlainUpTo.of_twoDigits? 0 59 second hsecond).trans <| .of_places hplaces

theorem PlainUpTo.of_offset? (h : (do
      let (_, left) ← twoDigits? 0 23 text
      let left ← char? ':' left
      let (_, left) ← twoDigits? 0 59 left
      some left) = some rest) : PlainUpTo text rest := by
  simp only [Option.bind_eq_bind, Option.bind_eq_some_iff, Prod.exists] at h
  obtain ⟨hour, left, hhour, left₁, hcolon, minute, left₂, hminute, hleft⟩ := h
  obtain rfl := Option.some.inj hleft
  exact (PlainUpTo.of_twoDigits? 0 23 hour hhour).trans <|
    (PlainUpTo.of_char? (by decide) hcolon).trans <| .of_twoDigits? 0 59 minute hminute

theorem PlainUpTo.getD {left? : Option Text} (h : ∀ left, left? = some left → PlainUpTo text left) :
    PlainUpTo text (left?.getD text) := by
  cases left? with
  | none => exact .refl text
  | some left => exact h left rfl

theorem PlainUpTo.afterZone (text : Text) : PlainUpTo text (afterZone text) := by
  unfold Toml.afterZone
  split
  · rename_i c rest
    split
    · rename_i hletter
      rcases hletter with rfl | rfl
      · exact .cons (by decide) rest
      · exact .cons (by decide) rest
    · split
      · rename_i hsign
        have hc : PlainUpTo (c :: rest) rest :=
          .cons (isPlain_of (p := isSign) (by decide) hsign) rest
        exact .getD fun left hoffset => hc.trans (.of_offset? hoffset)
      · exact .refl _
  · exact .refl _

theorem PlainUpTo.afterTimeOfDate (text : Text) : PlainUpTo text (afterTimeOfDate text) := by
  unfold Toml.afterTimeOfDate
  split
  · rename_i c rest
    split
    · rename_i hletter
      have hc : isPlain c = true := by
        rcases hletter with rfl | rfl | rfl
        · decide
        · decide
        · decide
      split
      · rename_i left htime
        exact (PlainUpTo.cons hc rest).trans <|
          (PlainUpTo.of_afterTime? htime).trans (.afterZone left)
      · exact .refl _
    · exact .refl _
  · exact .refl _

theorem PlainUpTo.of_date? (date : Date) (h : date? text = some (date, rest)) :
    PlainUpTo text rest := by
  unfold date? at h
  extract_lets year at h
  split at h
  · cases h
  · rename_i hyear
    simp only [Option.bind_eq_bind, Option.bind_eq_some_iff, Prod.exists] at h
    obtain ⟨left, hdash, month, left₁, hmonth, left₂, hdash', day, left₃, hday, hleft⟩ := h
    obtain ⟨rfl, rfl⟩ := Prod.mk.inj (Option.some.inj hleft)
    have hdigits : ∀ c ∈ text.take 4, isPlain c = true := by
      rw [not_or, Decidable.not_not, Decidable.not_not] at hyear
      exact fun c hc => isPlain_of_isAsciiDigit (List.all_eq_true.mp hyear.2 c hc)
    exact (PlainUpTo.drop hdigits).trans <| (PlainUpTo.of_char? (by decide) hdash).trans <|
      (PlainUpTo.of_twoDigits? 1 12 month hmonth).trans <|
        (PlainUpTo.of_char? (by decide) hdash').trans <| .of_twoDigits? 1 31 day hday

end Moments

namespace Reading

section Scalars

variable {text : Text} {opened : Nat}

-- A reading that does not look at the text stops only where what it is made of does.
theorem Keeps.ofExcept {α : Type} {before : Text → Prop} {made : Except Fault α}
    (h : ∀ fault, made = .error fault → fault.Shows text) :
    Keeps text before before (liftM made : Reading α) := by
  cases made with
  | ok value => exact fun _ hrest => hrest
  | error fault => exact fun _ _ => h fault rfl

theorem Keeps.scalar : Keeps text (At text opened) (At text opened) scalar := by
  unfold Toml.scalar
  refine .get fun rest hat => ?_
  have hgoes {left : Text} (value : Tree) (hplain : PlainUpTo rest left) :
      Keeps text (· = rest) (At text opened) (do
        MonadStateOf.set left
        return value) :=
    .bind (.set _ (hat.of_plainUpTo hplain)) fun _ => .pure _
  have hdrops {count : Nat} (value : Tree) (hplain : PlainUpTo rest (rest.drop count)) :
      Keeps text (· = rest) (At text opened) (do
        Reading.drop count
        return value) :=
    .bind (.drop fun _ h => h ▸ hat.of_plainUpTo hplain) fun _ => .pure _
  split
  · rename_i hprefix
    exact hdrops _ (.drop_front (by decide) (List.isPrefixOf_iff_prefix.mp hprefix))
  split
  · rename_i hprefix
    exact hdrops _ (.drop_front (by decide) (List.isPrefixOf_iff_prefix.mp hprefix))
  split
  · rename_i date left hdate
    exact .ite (hgoes _ ((PlainUpTo.of_date? date hdate).trans (.afterTimeOfDate left))) (.fail _)
  split
  · rename_i left htime
    exact hgoes _ (.of_afterTime? htime)
  split
  · rename_i number length hnumber
    exact hdrops _ (.drop_basedInteger rest number length hnumber)
  split
  · rename_i number hnumber
    refine .bind (.ofExcept fun fault hread => ?_) fun value =>
      hdrops _ (.drop_decimal rest number hnumber)
    exact number.shows_of_read hat.isSuffix fault hnumber hread
  split
  · rename_i word hword
    exact hdrops _ (.drop_word rest word hword)
  · exact .fail _

end Scalars

end Reading

end UrlHarvest.Toml
