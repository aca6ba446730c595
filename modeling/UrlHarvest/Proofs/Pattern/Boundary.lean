import UrlHarvest.Pattern.Boundary
import UrlHarvest.Proofs.Pattern.Matches
import UrlHarvest.Proofs.Text.Lowercase

namespace UrlHarvest

namespace Text

-- A word is taken off the front of a text when the text begins with letters that fold into it.
theorem dropWord?_eq_some_iff (word text rest : Text) :
    dropWord? word text = some rest ↔
      ∃ front, text = front ++ rest ∧ front.map foldLetter = word := by
  induction word generalizing text with
  | nil => simp [dropWord?, eq_comm]
  | cons w word ih =>
      cases text with
      | nil => simp [dropWord?]
      | cons c text =>
          have hfront : (∃ front, c :: text = front ++ rest ∧ front.map foldLetter = w :: word) ↔
              foldLetter c = w ∧ ∃ front, text = front ++ rest ∧ front.map foldLetter = word := by
            constructor
            · rintro ⟨_ | ⟨d, front⟩, ht, hw⟩
              · simp at hw
              · rw [List.cons_append, List.cons.injEq] at ht
                rw [List.map_cons, List.cons.injEq] at hw
                exact ⟨ht.1 ▸ hw.1, front, ht.2, hw.2⟩
            · rintro ⟨rfl, front, rfl, rfl⟩
              exact ⟨c :: front, rfl, List.map_cons⟩
          rw [hfront, ← ih, dropWord?]
          split <;> simp_all

theorem ascii_of_toLower (c : Char) (hc : c.toLower.toNat < 128) : c.toNat < 128 := by
  unfold Char.toLower at hc
  split at hc
  · rename_i hcap
    have hle : c.toNat ≤ 90 := hcap.2
    omega
  · exact hc

-- Disregarding letter case in ASCII is a part of what the patterns do.
theorem dropWord?_of_toLower (word text : Text) (hword : ∀ w ∈ word, w.toNat < 128)
    (hlower : (text.take word.length).map Char.toLower = word) :
    dropWord? word text = some (text.drop word.length) := by
  rw [dropWord?_eq_some_iff]
  refine ⟨text.take word.length, (List.take_append_drop _ _).symm, ?_⟩
  rw [← hlower] at hword
  conv => rhs; rw [← hlower]
  apply List.map_congr_left
  intro c hc
  exact foldLetter_of_ascii c (ascii_of_toLower c (hword _ (List.mem_map_of_mem hc)))

end Text

open Text

theorem isBodyChar_capital (c : Char) (hlo : 65 ≤ c.toNat) (hhi : c.toNat ≤ 90) :
    isBodyChar c = true := by
  have hall : ∀ i : Fin 26, isBodyChar (Char.ofNat (65 + i)) = true := by decide
  have hc := hall ⟨c.toNat - 65, by omega⟩
  rwa [show 65 + (c.toNat - 65) = c.toNat by omega, Char.ofNat_toNat] at hc

theorem isBodyChar_of_foldLetter (c : Char) (hc : isBodyChar (foldLetter c) = true) :
    isBodyChar c = true := by
  unfold foldLetter at hc
  split at hc
  · rename_i hcap
    rw [Bool.and_eq_true, decide_eq_true_eq, decide_eq_true_eq] at hcap
    exact isBodyChar_capital c hcap.1 hcap.2
  · split at hc
    · rename_i h; subst h; decide
    · split at hc
      · rename_i h; subst h; decide
      · split at hc
        · rename_i h; subst h; decide
        · exact hc

namespace BoundaryRule

variable (rule : BoundaryRule)

-- An address of the rule begins here: one of its marks and something behind it.
def begins (text : Text) : Bool :=
  rule.marks.any fun mark => ((dropWord? mark text).bind List.head?).any isBodyChar

theorem isBodyChar_of_mem_marks (mark : Text) (hmark : mark ∈ rule.marks) (c : Char)
    (hc : c ∈ mark) : isBodyChar c = true := by
  have hall : rule.marks.all (fun mark => mark.all isBodyChar) = true := by
    cases rule <;> decide
  exact List.all_eq_true.mp (List.all_eq_true.mp hall mark hmark) c hc

theorem ascii_of_mem_marks (mark : Text) (hmark : mark ∈ rule.marks) (c : Char)
    (hc : c ∈ mark) : c.toNat < 128 := by
  have hall : rule.marks.all (fun mark => mark.all fun c => c.toNat < 128) = true := by
    cases rule <;> decide
  exact of_decide_eq_true (List.all_eq_true.mp (List.all_eq_true.mp hall mark hmark) c hc)

-- A mark is made of code points that an address goes on with.
theorem takeWhile_of_dropWord? (mark text rest : Text) (hmark : mark ∈ rule.marks)
    (hd : dropWord? mark text = some rest) :
    text.takeWhile isBodyChar = text.take mark.length ++ rest.takeWhile isBodyChar := by
  obtain ⟨front, rfl, hfront⟩ := (dropWord?_eq_some_iff mark text rest).mp hd
  have hbody : ∀ c ∈ front, isBodyChar c = true := by
    intro c hc
    apply isBodyChar_of_foldLetter
    exact rule.isBodyChar_of_mem_marks mark hmark _ (hfront ▸ List.mem_map_of_mem hc)
  have hlen : front.length = mark.length := by rw [← hfront, List.length_map]
  rw [List.takeWhile_append_of_pos hbody, ← hlen, List.take_left]

theorem take?_of_mark (mark text : Text) (hmark : mark ∈ rule.marks) :
    Piece.take? [.word mark, .run isBodyChar 1] text =
      if ((dropWord? mark text).bind List.head?).any isBodyChar then
        some ((text.takeWhile isBodyChar).length, [])
      else none := by
  cases hd : dropWord? mark text with
  | none => simp [Piece.take?, hd]
  | some rest =>
      have hlen := length_of_dropWord? hd
      rw [rule.takeWhile_of_dropWord? mark text rest hmark hd, List.length_append,
        List.length_take, Nat.min_eq_left (by omega)]
      cases rest with
      | nil => simp [Piece.take?, hd]
      | cons c rest => by_cases hc : isBodyChar c = true <;> simp [Piece.take?, hd, hc]

-- Whichever mark comes first, what is taken is the same.
theorem firstMatch?_of_marks (marks : List Text) (hmarks : ∀ mark ∈ marks, mark ∈ rule.marks)
    (text : Text) :
    Pattern.firstMatch? (marks.map fun mark => [.word mark, .run isBodyChar 1]) text =
      if marks.any (fun mark => ((dropWord? mark text).bind List.head?).any isBodyChar) then
        some ((text.takeWhile isBodyChar).length, [])
      else none := by
  induction marks with
  | nil => rfl
  | cons mark rest ih =>
      have hhead := rule.take?_of_mark mark text (hmarks mark List.mem_cons_self)
      have hrest := ih fun other ho => hmarks other (List.mem_cons_of_mem _ ho)
      simp only [Pattern.firstMatch?] at hrest ⊢
      rw [List.map_cons, List.findSome?_cons, hhead, hrest, List.any_cons]
      cases ((dropWord? mark text).bind List.head?).any isBodyChar <;> rfl

-- A match of the rule is the whole run of code points that begins with the mark.
theorem matchAt?_pattern (start : Nat) (text : Text) :
    rule.pattern.matchAt? start text =
      if rule.begins text then some ⟨start, text.takeWhile isBodyChar, []⟩ else none := by
  have hwhole : Pattern.firstMatch? rule.pattern.alternatives text =
      if rule.begins text then some ((text.takeWhile isBodyChar).length, []) else none :=
    rule.firstMatch?_of_marks rule.marks (fun _ h => h) text
  have hrun := List.prefix_iff_eq_take.mp (List.takeWhile_prefix isBodyChar : _ <+: text)
  rw [Pattern.matchAt?, hwhole]
  cases rule.begins text with
  | true =>
      simp only [ite_true, Option.map_some, ← hrun]
      rfl
  | false => rfl

@[simp] theorem begins_nil : rule.begins [] = false := by
  cases rule <;> rfl

theorem run_ne_nil_of_begins (text : Text) (hbegins : rule.begins text = true) :
    text.takeWhile isBodyChar ≠ [] := by
  obtain ⟨mark, hmark, hnext⟩ := List.any_eq_true.mp hbegins
  obtain ⟨c, hhead, hc⟩ := (Option.any_eq_true _ _).mp hnext
  obtain ⟨rest, hd, hrest⟩ := Option.bind_eq_some_iff.mp hhead
  obtain ⟨tail, rfl⟩ := List.head?_eq_some_iff.mp hrest
  rw [rule.takeWhile_of_dropWord? mark text _ hmark hd, List.takeWhile_cons_of_pos hc]
  simp

theorem begins_of_mark (mark text : Text) (hmark : mark ∈ rule.marks)
    (hlower : (text.take mark.length).map Char.toLower = mark) (c : Char)
    (hnext : text[mark.length]? = some c) (hc : isBodyChar c = true) :
    rule.begins text = true := by
  have hd := dropWord?_of_toLower mark text (rule.ascii_of_mem_marks mark hmark) hlower
  have hhead : (text.drop mark.length).head? = some c := by rw [List.head?_drop, hnext]
  refine List.any_eq_true.mpr ⟨mark, hmark, ?_⟩
  rw [hd, Option.bind_some, hhead, Option.any_some, hc]

private theorem getElem?_of_lt_takeWhile (p : Char → Bool) (text : Text) (i : Nat)
    (hi : i < (text.takeWhile p).length) : ∃ c, text[i]? = some c ∧ p c = true := by
  have hget := List.prefix_iff_getElem?.mp (List.takeWhile_prefix p) i hi
  have hall := List.all_eq_true.mp (List.all_takeWhile (p := p) (l := text))
  exact ⟨_, hget, hall _ (List.getElem_mem hi)⟩

-- No match reaches across a delimiter.
theorem stop_le_of_delimiter (text : Text) (found : Match)
    (hfound : found ∈ rule.pattern.matchesIn text) (place : Nat) (c : Char)
    (hc : text[place]? = some c) (hdelimiter : isBodyChar c = false)
    (hle : found.start ≤ place) : found.stop ≤ place := by
  obtain ⟨j, -, -, hstart, hat⟩ := rule.pattern.matchAt?_of_mem_matchesFrom 0 0 text found hfound
  rw [matchAt?_pattern] at hat
  split at hat
  · obtain rfl := Option.some.inj hat
    simp only [Match.stop] at hle ⊢
    apply Nat.le_of_not_lt
    intro hlt
    have hbody := getElem?_of_lt_takeWhile isBodyChar (text.drop j) (place - j) (by omega)
    rw [List.getElem?_drop, show j + (place - j) = place by omega, hc] at hbody
    obtain ⟨other, he, hb⟩ := hbody
    obtain rfl := Option.some.inj he
    exact absurd hb (by simp [hdelimiter])
  · cases hat

-- So an address behind a delimiter is always met at its beginning.
theorem mem_matchesIn_of_begins (text : Text) (i : Nat) (hbegins : rule.begins (text.drop i) = true)
    (hbefore : i = 0 ∨ ∃ c, text[i - 1]? = some c ∧ isBodyChar c = false) :
    ⟨i, (text.drop i).takeWhile isBodyChar, []⟩ ∈ rule.pattern.matchesIn text := by
  have hi : i < text.length := by
    apply Nat.lt_of_not_le
    intro hle
    rw [List.drop_eq_nil_of_le hle, begins_nil] at hbegins
    cases hbegins
  have hat : rule.pattern.matchAt? (0 + i) (text.drop i) =
      some ⟨i, (text.drop i).takeWhile isBodyChar, []⟩ := by
    rw [matchAt?_pattern, hbegins, if_pos rfl, Nat.zero_add]
  rcases rule.pattern.mem_matchesFrom_or_taken 0 0 text i hi (Nat.zero_le _) _ hat with
    h | ⟨other, ho, hlt, hstop⟩
  · exact h
  · obtain rfl | ⟨c, hc, hdelimiter⟩ := hbefore
    · omega
    · have hle := rule.stop_le_of_delimiter text other ho (i - 1) c hc hdelimiter (by omega)
      omega

end BoundaryRule

end UrlHarvest
