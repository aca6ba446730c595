import UrlHarvest.Proofs.Pattern.Boundary
import UrlHarvest.Proofs.Pattern.Shown

namespace UrlHarvest.BoundaryRule

open Text

variable (rule : BoundaryRule)

-- How an address is spelled: a mark of the rule in any letter case, and a body behind it.
structure Spells (front body : Text) : Prop where
  mark : front.map foldLetter ∈ rule.marks
  body_ne_nil : body ≠ []
  body_chars : ∀ c ∈ body, isBodyChar c = true

def StandsAt (text : Text) (place : Nat) : Prop :=
  ∃ front body, rule.Spells front body ∧ front ++ body <+: text.drop place

-- An address that goes as far as its body does.
structure IsToken (text : Text) (token : Match) : Prop where
  spelled : ∃ front body, token.text = front ++ body ∧ rule.Spells front body
  stands : token.text <+: text.drop token.start
  ends : ∀ c, text[token.stop]? = some c → isBodyChar c = false
  groups : token.groups = []

-- The greedy reading of a text: tokens that do not overlap, one at each place where an address
-- stands, unless the place is inside of another token.
structure Tokenises (text : Text) (found : List Match) : Prop where
  apart : found.Pairwise fun earlier later => earlier.stop ≤ later.start
  tokens : ∀ token ∈ found, rule.IsToken text token
  complete : ∀ place, rule.StandsAt text place →
    (∀ token ∈ found, ¬(token.start < place ∧ place < token.stop)) →
      ∃ token ∈ found, token.start = place

variable {rule} {text : Text}

theorem Spells.isBodyChar {front body : Text} (h : rule.Spells front body) :
    ∀ c ∈ front ++ body, isBodyChar c = true := by
  intro c hc
  rcases List.mem_append.mp hc with hfront | hbody
  · apply isBodyChar_of_foldLetter
    exact rule.isBodyChar_of_mem_marks _ h.mark _ (List.mem_map_of_mem hfront)
  · exact h.body_chars c hbody

theorem begins_iff_spells :
    rule.begins text = true ↔ ∃ front body, rule.Spells front body ∧ front ++ body <+: text := by
  rw [begins, List.any_eq_true]
  constructor
  · rintro ⟨mark, hmark, hnext⟩
    obtain ⟨c, hhead, hc⟩ := (Option.any_eq_true _ _).mp hnext
    obtain ⟨rest, hd, hrest⟩ := Option.bind_eq_some_iff.mp hhead
    obtain ⟨tail, rfl⟩ := List.head?_eq_some_iff.mp hrest
    obtain ⟨front, rfl, hfront⟩ := (dropWord?_eq_some_iff mark _ _).mp hd
    exact ⟨front, [c], ⟨hfront ▸ hmark, List.cons_ne_nil _ _, by simpa using hc⟩, tail, by simp⟩
  · rintro ⟨front, body, h, tail, rfl⟩
    obtain ⟨c, body, rfl⟩ := List.exists_cons_of_ne_nil h.body_ne_nil
    have hd : dropWord? (front.map foldLetter) (front ++ c :: body ++ tail) =
        some (c :: (body ++ tail)) :=
      (dropWord?_eq_some_iff _ _ _).mpr ⟨front, List.append_assoc _ _ _, rfl⟩
    refine ⟨_, h.mark, ?_⟩
    rw [hd, Option.bind_some, List.head?_cons, Option.any_some]
    exact h.body_chars c List.mem_cons_self

theorem standsAt_iff_begins (place : Nat) :
    rule.StandsAt text place ↔ rule.begins (text.drop place) = true :=
  begins_iff_spells.symm

private theorem takeWhile_of_run (p : Char → Bool) (run tail : Text)
    (hrun : ∀ c ∈ run, p c = true) (hend : ∀ c, tail[0]? = some c → p c = false) :
    (run ++ tail).takeWhile p = run := by
  rw [List.takeWhile_append_of_pos hrun]
  cases tail with
  | nil => simp
  | cons c tail => simp [hend c rfl]

-- A token is settled by the place where it starts.
theorem isToken_iff_matchAt? (token : Match) :
    rule.IsToken text token ↔
      rule.pattern.matchAt? token.start (text.drop token.start) = some token := by
  rw [matchAt?_pattern]
  constructor
  · intro h
    obtain ⟨front, body, htext, hspells⟩ := h.spelled
    obtain ⟨tail, htail⟩ := h.stands
    have hbegins : rule.begins (text.drop token.start) = true :=
      begins_iff_spells.mpr ⟨front, body, hspells, htext ▸ h.stands⟩
    have hrun : (text.drop token.start).takeWhile isBodyChar = token.text := by
      rw [← htail]
      refine takeWhile_of_run _ _ _ (htext ▸ hspells.isBodyChar) fun c hc => h.ends c ?_
      rw [Match.stop, ← List.getElem?_drop, ← htail, ← hc,
        List.getElem?_append_right (Nat.le_refl _), Nat.sub_self]
    rw [if_pos hbegins, hrun, ← h.groups]
  · intro h
    obtain ⟨hbegins, htoken⟩ := Option.ite_none_right_eq_some.mp h
    have htoken := Option.some.inj htoken
    have hrun : token.text = (text.drop token.start).takeWhile isBodyChar :=
      (congrArg Match.text htoken).symm
    obtain ⟨front, body, hspells, tail, htail⟩ := begins_iff_spells.mp hbegins
    have hfront : ∀ c ∈ front, isBodyChar c = true :=
      fun c hc => hspells.isBodyChar c (List.mem_append_left _ hc)
    obtain ⟨c, more, rfl⟩ := List.exists_cons_of_ne_nil hspells.body_ne_nil
    have hc : isBodyChar c = true := hspells.body_chars c List.mem_cons_self
    refine ⟨⟨front, c :: (more ++ tail).takeWhile isBodyChar, ?_, hspells.mark,
      List.cons_ne_nil _ _, ?_⟩, hrun ▸ List.takeWhile_prefix _, ?_,
      (congrArg Match.groups htoken).symm⟩
    · rw [hrun, ← htail, List.append_assoc, List.takeWhile_append_of_pos hfront, List.cons_append,
        List.takeWhile_cons_of_pos hc]
    · rintro d (_ | ⟨_, hd⟩)
      · exact hc
      · exact List.all_eq_true.mp List.all_takeWhile d hd
    · intro d hd
      rw [Match.stop, ← List.getElem?_drop, hrun, ← List.head?_drop, ← dropWhile_eq_drop] at hd
      have hhead := List.head?_dropWhile_not isBodyChar (text.drop token.start)
      rwa [hd] at hhead

theorem IsToken.length_pos {token : Match} (h : rule.IsToken text token) :
    0 < token.text.length := by
  obtain ⟨front, body, htext, hspells⟩ := h.spelled
  have hpos := List.length_pos_iff.mpr hspells.body_ne_nil
  rw [htext, List.length_append]
  omega

theorem IsToken.standsAt {token : Match} (h : rule.IsToken text token) :
    rule.StandsAt text token.start := by
  obtain ⟨front, body, htext, hspells⟩ := h.spelled
  exact ⟨front, body, hspells, htext ▸ h.stands⟩

theorem tokenises_matchesIn (rule : BoundaryRule) (text : Text) :
    rule.Tokenises text (rule.pattern.matchesIn text) where
  apart := (rule.pattern.pairwise_matchesFrom 0 0 text).imp And.right
  tokens token htoken :=
    (isToken_iff_matchAt? token).mpr (rule.pattern.matchAt?_of_mem_matchesIn text token htoken).2
  complete place hstands hfree := by
    rw [standsAt_iff_begins] at hstands
    have hplace : place < text.length := by
      apply Nat.lt_of_not_le
      intro hle
      rw [List.drop_eq_nil_of_le hle, begins_nil] at hstands
      cases hstands
    have hat := rule.matchAt?_pattern place (text.drop place)
    rw [if_pos hstands] at hat
    rcases rule.pattern.mem_matchesIn_or_taken text place hplace _ hat with h | ⟨other, ho, hin⟩
    · exact ⟨_, h, rfl⟩
    · exact absurd hin (hfree other ho)

variable {found others : List Match}

theorem Tokenises.pairwise (h : rule.Tokenises text found) :
    found.Pairwise fun earlier later =>
      earlier.start < later.start ∧ earlier.stop ≤ later.start := by
  refine h.apart.imp_of_mem fun hearlier _ hle => ⟨?_, hle⟩
  have hpos := (h.tokens _ hearlier).length_pos
  unfold Match.stop at hle
  omega

-- A token of one reading could be missing in another one only because an earlier token covers
-- its place there, and that one would be a token of the first reading as well.
theorem Tokenises.mem_of_mem (h : rule.Tokenises text found) (h' : rule.Tokenises text others)
    (token : Match) (htoken : token ∈ found)
    (hearlier : ∀ earlier ∈ others, earlier.start < token.start → earlier ∈ found) :
    token ∈ others := by
  have hgenuine := h.tokens token htoken
  obtain ⟨other, ho, hstart⟩ := h'.complete token.start hgenuine.standsAt fun earlier he hin => by
    have hle := Match.stop_le_start_of_pairwise h.pairwise earlier token
      (hearlier earlier he hin.1) htoken hin.1
    omega
  have hat := (isToken_iff_matchAt? other).mp (h'.tokens other ho)
  rw [hstart, (isToken_iff_matchAt? token).mp hgenuine, Option.some.injEq] at hat
  exact hat ▸ ho

theorem Tokenises.mem_iff (h : rule.Tokenises text found) (h' : rule.Tokenises text others)
    (token : Match) : token ∈ found ↔ token ∈ others := by
  -- Readings are compared from left to right, so the induction is on where a token starts.
  induction hstart : token.start using Nat.strongRecOn generalizing token with
  | ind start ih =>
      subst hstart
      exact ⟨fun ht => h.mem_of_mem h' token ht
          fun earlier he hlt => (ih earlier.start hlt earlier rfl).mpr he,
        fun ht => h'.mem_of_mem h token ht
          fun earlier he hlt => (ih earlier.start hlt earlier rfl).mp he⟩

-- There is only one greedy reading of a text.
theorem Tokenises.unique (h : rule.Tokenises text found) (h' : rule.Tokenises text others) :
    found = others :=
  Match.eq_of_mem_iff_of_pairwise (h.pairwise.imp And.left) (h'.pairwise.imp And.left)
    (h.mem_iff h')

theorem named_eq_ok_iff (names : List String) (rules : List BoundaryRule) :
    named names = .ok rules ↔ (∀ name ∈ names, ∃ rule, BoundaryRule.name rule = name) ∧
      rules = all.filter fun rule => rule.name ∈ names := by
  have hall : ∀ rule, rule ∈ all := by
    intro rule
    cases rule <;> decide
  have hknown : (names.eraseDups.filter fun name =>
      !(all.map BoundaryRule.name).contains name).isEmpty = true ↔
        ∀ name ∈ names, ∃ rule, BoundaryRule.name rule = name := by
    simp [List.isEmpty_iff, List.filter_eq_nil_iff, hall]
  rw [named]
  by_cases h : ∀ name ∈ names, ∃ rule, BoundaryRule.name rule = name
  · rw [if_pos (hknown.mpr h), Except.ok.injEq, and_iff_right h]
    simp only [List.contains_eq_mem]
    exact eq_comm
  · rw [if_neg (mt hknown.mp h)]
    exact iff_of_false (by simp) (mt And.left h)

-- The matches of each rule are the greedy reading of the text, which nothing else is. The rules
-- of some names give their matches in the order of the vocabulary.
theorem matches_are_greedy_readings (text : Text) :
    (∀ (rule : BoundaryRule) (found : List Match),
      rule.Tokenises text found ↔ found = rule.pattern.matchesIn text) ∧
    (∀ names : List String, (∃ rules, named names = .ok rules) ↔
      ∀ name ∈ names, ∃ rule, BoundaryRule.name rule = name) ∧
    ∀ (names : List String) (rules : List BoundaryRule) (reading : BoundaryRule → List Match),
      named names = .ok rules → (∀ rule : BoundaryRule, rule.Tokenises text (reading rule)) →
        matchesIn rules text =
          ([web, ftp, mailto, tel, file].filter fun rule => rule.name ∈ names).flatMap
            reading := by
  refine ⟨fun rule found => ⟨fun h => h.unique (rule.tokenises_matchesIn text), ?_⟩, ?_, ?_⟩
  · rintro rfl
    exact rule.tokenises_matchesIn text
  · intro names
    simp only [named_eq_ok_iff, exists_and_left, exists_eq, and_true]
  · intro names rules reading hrules hreading
    obtain ⟨-, rfl⟩ := (named_eq_ok_iff names rules).mp hrules
    have hmatches : ∀ rule : BoundaryRule, rule.pattern.matchesIn text = reading rule :=
      fun rule => (rule.tokenises_matchesIn text).unique (hreading rule)
    simp only [matchesIn, hmatches]
    rfl

-- A mark inside of a token begins no other one, and a mark with nothing behind it none at all.
-- The names may come in any order and more than once.
theorem matches_are_greedy_readings_of_names :
    let text := "ftp://b http:// HTTP://ahttps://c".toList
    let reading : BoundaryRule → List Match := fun
      | web => [⟨16, "HTTP://ahttps://c".toList, []⟩]
      | ftp => [⟨0, "ftp://b".toList, []⟩]
      | _ => []
    named ["ftp", "web", "ftp"] = .ok [web, ftp] ∧
    (∀ rule : BoundaryRule, rule.Tokenises text (reading rule)) ∧
    matchesIn [web, ftp] text = reading web ++ reading ftp := by
  intro text reading
  have hnamed : named ["ftp", "web", "ftp"] = .ok [web, ftp] := by decide
  have hreading (rule : BoundaryRule) : rule.Tokenises text (reading rule) := by
    refine ((matches_are_greedy_readings text).1 rule _).mpr ?_
    cases rule
    all_goals decide
  have hmatches := (matches_are_greedy_readings text).2.2 _ _ reading hnamed hreading
  exact ⟨hnamed, hreading, hmatches⟩

end UrlHarvest.BoundaryRule
