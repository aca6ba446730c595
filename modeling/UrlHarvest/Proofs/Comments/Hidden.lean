import UrlHarvest.Comments.Regions
import UrlHarvest.Proofs.Text.Lines

namespace UrlHarvest.BlockMarks

-- What one code point does to a scan of block comments: whether the scan is inside a comment
-- behind it, and how many code points are left of a mark that has been seen.
def step (marks : BlockMarks) (inside : Bool) (skip : Nat) (text : Text) : Bool × Nat :=
  match skip with
  | skip + 1 => (inside, skip)
  | 0 =>
    let mark := if inside then marks.closer else marks.opener
    if mark.isPrefixOf text then (!inside, mark.length - 1) else (inside, 0)

-- Which code points are hidden, one answer for each of them. Both marks of a comment are.
def hiddenFrom (marks : BlockMarks) (inside : Bool) (skip : Nat) : Text → List Bool
  | [] => []
  | c :: rest =>
    let next := marks.step inside skip (c :: rest)
    (0 < skip || inside || next.1) :: hiddenFrom marks next.1 next.2 rest

def endsInside (marks : BlockMarks) (inside : Bool) (skip : Nat) : Text → Bool
  | [] => inside
  | c :: rest =>
    let next := marks.step inside skip (c :: rest)
    endsInside marks next.1 next.2 rest

def within (spans : List (Nat × Nat)) (offset : Nat) : Bool :=
  spans.any fun (start, stop) => start ≤ offset && offset < stop

@[simp] theorem within_nil (offset : Nat) : within [] offset = false := rfl

theorem within_cons (start stop : Nat) (spans : List (Nat × Nat)) (offset : Nat) :
    within ((start, stop) :: spans) offset =
      ((decide (start ≤ offset) && decide (offset < stop)) || within spans offset) := rfl

@[simp] theorem within_reverse (spans : List (Nat × Nat)) (offset : Nat) :
    within spans.reverse offset = within spans offset := by
  simp [within]

variable (marks : BlockMarks)

theorem length_pos_opener : 0 < marks.opener.length :=
  List.length_pos_iff.mpr marks.opener_ne_nil

theorem length_pos_closer : 0 < marks.closer.length :=
  List.length_pos_iff.mpr marks.closer_ne_nil

-- The four things that a scan can meet: the rest of a mark, an opener, a closer, or neither.
theorem spansFrom_cons (offset skip : Nat) (start? : Option Nat) (spans : List (Nat × Nat))
    (c : Char) (rest : Text) :
    (∃ left, skip = left + 1 ∧ marks.step start?.isSome skip (c :: rest) = (start?.isSome, left) ∧
      marks.spansFrom offset skip start? spans (c :: rest) =
        marks.spansFrom (offset + 1) left start? spans rest) ∨
    (skip = 0 ∧ start? = none ∧
      marks.step false 0 (c :: rest) = (true, marks.opener.length - 1) ∧
      marks.spansFrom offset skip start? spans (c :: rest) =
        marks.spansFrom (offset + 1) (marks.opener.length - 1) (some offset) spans rest) ∨
    (∃ start, skip = 0 ∧ start? = some start ∧
      marks.step true 0 (c :: rest) = (false, marks.closer.length - 1) ∧
      marks.spansFrom offset skip start? spans (c :: rest) =
        marks.spansFrom (offset + 1) (marks.closer.length - 1) none
          ((start, offset + marks.closer.length) :: spans) rest) ∨
    (skip = 0 ∧ marks.step start?.isSome 0 (c :: rest) = (start?.isSome, 0) ∧
      marks.spansFrom offset skip start? spans (c :: rest) =
        marks.spansFrom (offset + 1) 0 start? spans rest) := by
  cases skip with
  | succ left => exact .inl ⟨left, rfl, rfl, rfl⟩
  | zero =>
      cases start? with
      | none =>
          by_cases hp : marks.opener.isPrefixOf (c :: rest)
          · exact .inr (.inl ⟨rfl, rfl, by simp [step, hp], by simp [spansFrom, hp]⟩)
          · exact .inr (.inr (.inr ⟨rfl, by simp [step, hp], by simp [spansFrom, hp]⟩))
      | some start =>
          by_cases hp : marks.closer.isPrefixOf (c :: rest)
          · exact .inr (.inr (.inl ⟨start, rfl, rfl, by simp [step, hp], by simp [spansFrom, hp]⟩))
          · exact .inr (.inr (.inr ⟨rfl, by simp [step, hp], by simp [spansFrom, hp]⟩))

theorem isSome_spansFrom (offset skip : Nat) (start? : Option Nat) (spans : List (Nat × Nat))
    (text : Text) :
    (marks.spansFrom offset skip start? spans text).2.isSome =
      marks.endsInside start?.isSome skip text := by
  induction text generalizing offset skip start? spans with
  | nil => cases start? <;> rfl
  | cons c rest ih =>
      rcases marks.spansFrom_cons offset skip start? spans c rest with
        ⟨left, rfl, hs, he⟩ | ⟨rfl, rfl, hs, he⟩ | ⟨start, rfl, rfl, hs, he⟩ | ⟨rfl, hs, he⟩
      all_goals
        rw [he, ih]
        simp [endsInside, hs]

-- Before the place that the scan has reached, a later step hides nothing but what belongs to the
-- comment that is open there.
theorem within_spansFrom_of_lt (offset skip : Nat) (start? : Option Nat)
    (spans : List (Nat × Nat)) (text : Text) (place : Nat) (hp : place < offset) :
    within (marks.spansFrom offset skip start? spans text).1 place =
      (within spans place || start?.any (· ≤ place)) := by
  induction text generalizing offset skip start? spans with
  | nil =>
      cases start? with
      | none => simp [spansFrom]
      | some start => simp [spansFrom, within, hp, Bool.or_comm]
  | cons c rest ih =>
      have hnext : place < offset + 1 := by omega
      rcases marks.spansFrom_cons offset skip start? spans c rest with
        ⟨left, -, -, he⟩ | ⟨-, rfl, -, he⟩ | ⟨start, -, rfl, -, he⟩ | ⟨-, -, he⟩
      · rw [he, ih _ _ _ _ hnext]
      · rw [he, ih _ _ _ _ hnext]
        simp [show ¬offset ≤ place by omega]
      · rw [he, ih _ _ _ _ hnext, within_cons]
        simp [show place < offset + marks.closer.length by omega, Bool.or_comm]
      · rw [he, ih _ _ _ _ hnext]

theorem length_hiddenFrom (inside : Bool) (skip : Nat) (text : Text) :
    (marks.hiddenFrom inside skip text).length = text.length := by
  induction text generalizing inside skip with
  | nil => rfl
  | cons c rest ih => simp [hiddenFrom, ih]

theorem hiddenFrom_of_lt_skip (inside : Bool) (skip : Nat) (text : Text) (i : Nat)
    (hi : i < text.length) (hs : i < skip) :
    (marks.hiddenFrom inside skip text)[i]?.getD false = true := by
  induction text generalizing inside skip i with
  | nil => simp at hi
  | cons c rest ih =>
      obtain ⟨left, rfl⟩ : ∃ left, skip = left + 1 := ⟨skip - 1, by omega⟩
      cases i with
      | zero => simp [hiddenFrom]
      | succ i =>
          simp only [List.length_cons] at hi
          simpa [hiddenFrom, step] using ih inside left i (by omega) (by omega)

private theorem within_spansFrom_head (offset skip : Nat) (start? : Option Nat)
    (spans : List (Nat × Nat)) (c : Char) (rest : Text)
    (hstart : ∀ start ∈ start?, start ≤ offset)
    (hskip : start? = none → 0 < skip → within spans offset = true) :
    within (marks.spansFrom offset skip start? spans (c :: rest)).1 offset =
      (within spans offset ||
        (marks.hiddenFrom start?.isSome skip (c :: rest))[0]?.getD false) := by
  have hlt : offset < offset + 1 := Nat.lt_succ_self offset
  rcases marks.spansFrom_cons offset skip start? spans c rest with
    ⟨left, rfl, hs, he⟩ | ⟨rfl, rfl, hs, he⟩ | ⟨start, rfl, rfl, hs, he⟩ | ⟨rfl, hs, he⟩
  · rw [he, within_spansFrom_of_lt _ _ _ _ _ _ _ hlt]
    cases start? with
    | none => simp [hiddenFrom, hskip rfl (Nat.succ_pos left)]
    | some start => simp [hiddenFrom, hstart start rfl]
  · rw [he, within_spansFrom_of_lt _ _ _ _ _ _ _ hlt]
    simp [hiddenFrom, hs]
  · rw [he, within_spansFrom_of_lt _ _ _ _ _ _ _ hlt, within_cons]
    simp [hiddenFrom, marks.length_pos_closer, hstart start rfl]
  · rw [he, within_spansFrom_of_lt _ _ _ _ _ _ _ hlt]
    cases start? with
    | none => simp_all [hiddenFrom]
    | some start => simp [hiddenFrom, hstart start rfl]

-- The spans hide what the scan hides code point by code point. `hskip` says that the rest of a
-- closer lies in the span that it has ended.
theorem within_spansFrom (offset skip : Nat) (start? : Option Nat) (spans : List (Nat × Nat))
    (text : Text) (i : Nat) (hi : i < text.length) (hstart : ∀ start ∈ start?, start ≤ offset)
    (hskip : start? = none → ∀ j < skip, within spans (offset + j) = true) :
    within (marks.spansFrom offset skip start? spans text).1 (offset + i) =
      (within spans (offset + i) ||
        (marks.hiddenFrom start?.isSome skip text)[i]?.getD false) := by
  induction text generalizing offset skip start? spans i with
  | nil => simp at hi
  | cons c rest ih =>
      cases i with
      | zero =>
          exact within_spansFrom_head marks offset skip start? spans c rest hstart
            (fun hn hpos => hskip hn 0 hpos)
      | succ i =>
          have hi' : i < rest.length := by simpa using hi
          have hmove : offset + (i + 1) = offset + 1 + i := by omega
          rcases marks.spansFrom_cons offset skip start? spans c rest with
            ⟨left, rfl, hs, he⟩ | ⟨rfl, rfl, hs, he⟩ | ⟨start, rfl, rfl, hs, he⟩ | ⟨rfl, hs, he⟩
          · rw [he, hmove, ih _ _ _ _ _ hi' (fun start h => Nat.le_succ_of_le (hstart start h))]
            · simp [hiddenFrom, hs]
            · intro hn j hj
              have := hskip hn (j + 1) (by omega)
              rwa [show offset + (j + 1) = offset + 1 + j by omega] at this
          · rw [he, hmove, ih _ _ _ _ _ hi' (by simp) (by simp)]
            simp [hiddenFrom, hs]
          · have hle := hstart start rfl
            rw [he, hmove, ih _ _ _ _ _ hi' (by simp)]
            · simp only [hiddenFrom, hs, Option.isSome_some, List.getElem?_cons_succ,
                Option.isSome_none]
              -- The new span reaches as far as the rest of the closer, which is hidden anyway.
              by_cases hj : i < marks.closer.length - 1
              · simp only [hiddenFrom_of_lt_skip marks false _ rest i hi' hj, Bool.or_true]
              · simp [within_cons, show ¬offset + 1 + i < offset + marks.closer.length by omega]
            · intro _ j hj
              simp [within_cons, show start ≤ offset + 1 + j by omega,
                show offset + 1 + j < offset + marks.closer.length by omega]
          · rw [he, hmove, ih _ _ _ _ _ hi' (fun start h => Nat.le_succ_of_le (hstart start h))
              (by simp)]
            simp [hiddenFrom, hs]

theorem step_snd_le (inside : Bool) (skip : Nat) (c : Char) (line : Text)
    (hs : skip ≤ line.length + 1) : (marks.step inside skip (c :: line)).2 ≤ line.length := by
  cases skip with
  | succ left => simpa [step] using hs
  | zero =>
      simp only [step]
      generalize (if inside = true then marks.closer else marks.opener) = mark
      split
      · rename_i hp
        have hlen := (List.isPrefixOf_iff_prefix.mp hp).length_le
        simp only [List.length_cons] at hlen
        omega
      · exact Nat.zero_le _

section Stops

variable {stop : Char} (hopener : stop ∉ marks.opener) (hcloser : stop ∉ marks.closer)

include hopener hcloser

theorem step_append_cons (inside : Bool) (skip : Nat) (line rest : Text) :
    marks.step inside skip (line ++ stop :: rest) = marks.step inside skip line := by
  cases skip with
  | succ left => rfl
  | zero =>
      have hmark : stop ∉ if inside then marks.closer else marks.opener := by
        cases inside <;> assumption
      simp only [step, Text.isPrefixOf_append_cons _ line rest hmark]

theorem step_cons (inside : Bool) (rest : Text) :
    marks.step inside 0 (stop :: rest) = (inside, 0) := by
  have hs := marks.step_append_cons hopener hcloser inside 0 [] rest
  rw [List.nil_append] at hs
  rw [hs]
  cases inside <;> simp [step, marks.opener_ne_nil, marks.closer_ne_nil]

-- A code point that is in neither mark, as a newline is, ends no comment and begins none: the
-- text behind it is scanned from the state in which the line has left the scan.
theorem hiddenFrom_append_cons (inside : Bool) (skip : Nat) (line rest : Text)
    (hs : skip ≤ line.length) :
    marks.hiddenFrom inside skip (line ++ stop :: rest) =
      marks.hiddenFrom inside skip line ++ marks.endsInside inside skip line ::
        marks.hiddenFrom (marks.endsInside inside skip line) 0 rest := by
  induction line generalizing inside skip with
  | nil =>
      obtain rfl : skip = 0 := by simpa using hs
      simp [hiddenFrom, endsInside, marks.step_cons hopener hcloser]
  | cons c line ih =>
      have hstep := marks.step_append_cons hopener hcloser inside skip (c :: line) rest
      rw [List.cons_append] at hstep
      have hnext := ih (marks.step inside skip (c :: line)).1
        (marks.step inside skip (c :: line)).2 (marks.step_snd_le inside skip c line hs)
      simp only [List.cons_append, hiddenFrom, endsInside, hstep, hnext]

theorem endsInside_append_cons (inside : Bool) (skip : Nat) (line rest : Text)
    (hs : skip ≤ line.length) :
    marks.endsInside inside skip (line ++ stop :: rest) =
      marks.endsInside (marks.endsInside inside skip line) 0 rest := by
  induction line generalizing inside skip with
  | nil =>
      obtain rfl : skip = 0 := by simpa using hs
      simp [endsInside, marks.step_cons hopener hcloser]
  | cons c line ih =>
      have hstep := marks.step_append_cons hopener hcloser inside skip (c :: line) rest
      rw [List.cons_append] at hstep
      simp only [List.cons_append, endsInside, hstep]
      exact ih _ _ (marks.step_snd_le inside skip c line hs)

end Stops

end UrlHarvest.BlockMarks
