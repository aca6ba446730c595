import UrlHarvest.Proofs.Comments.Hidden

namespace UrlHarvest

namespace BlockMarks

variable (marks : BlockMarks)

-- Where a span may begin: at an opener, or at the front of a line into which a comment is carried.
def OpensAt (line : Text) (place : Nat) : Prop :=
  place = 0 ∨ marks.opener <+: line.drop place

-- Where one may end: right behind a closer, or at the end of the line where a comment stays open.
def ClosesAt (line : Text) (place : Nat) : Prop :=
  place = line.length ∨ marks.closer <:+ line.take place

variable {marks}

-- Only a mark takes a scan into a comment or out of it.
theorem prefix_of_step (inside : Bool) (text : Text) (left : Nat)
    (hs : marks.step inside 0 text = (!inside, left)) :
    (if inside then marks.closer else marks.opener) <+: text := by
  by_cases hp : (if inside then marks.closer else marks.opener).isPrefixOf text = true
  · exact List.isPrefixOf_iff_prefix.mp hp
  · simp [step, hp] at hs

theorem opensAt_of_mem_spansFrom (line text : Text) (offset skip : Nat) (start? : Option Nat)
    (spans : List (Nat × Nat)) (htext : text = line.drop offset)
    (hstart : ∀ start ∈ start?, marks.OpensAt line start)
    (hspans : ∀ span ∈ spans, marks.OpensAt line span.1) :
    ∀ span ∈ (marks.spansFrom offset skip start? spans text).1, marks.OpensAt line span.1 := by
  induction text generalizing offset skip start? spans with
  | nil =>
      cases start? with
      | none => simpa [spansFrom] using hspans
      | some start =>
          intro span hspan
          simp only [spansFrom, List.mem_reverse, List.mem_cons] at hspan
          rcases hspan with rfl | hspan
          · exact hstart start rfl
          · exact hspans span hspan
  | cons c rest ih =>
      have hrest : rest = line.drop (offset + 1) := by
        rw [← List.drop_drop, ← htext, List.drop_one, List.tail_cons]
      rcases marks.spansFrom_cons offset skip start? spans c rest with
        ⟨left, -, -, he⟩ | ⟨-, -, hs, he⟩ | ⟨start, -, rfl, -, he⟩ | ⟨-, -, he⟩
      · rw [he]
        exact ih _ _ _ _ hrest hstart hspans
      · rw [he]
        refine ih _ _ _ _ hrest ?_ hspans
        rintro start ⟨rfl⟩
        right
        rw [← htext]
        exact prefix_of_step false _ _ hs
      · rw [he]
        refine ih _ _ _ _ hrest (by simp) ?_
        intro span hspan
        rcases List.mem_cons.mp hspan with rfl | hspan
        · exact hstart start rfl
        · exact hspans span hspan
      · rw [he]
        exact ih _ _ _ _ hrest hstart hspans

theorem closesAt_of_mem_spansFrom (line text : Text) (offset skip : Nat) (start? : Option Nat)
    (spans : List (Nat × Nat)) (htext : text = line.drop offset) (hoffset : offset ≤ line.length)
    (hspans : ∀ span ∈ spans, marks.ClosesAt line span.2) :
    ∀ span ∈ (marks.spansFrom offset skip start? spans text).1, marks.ClosesAt line span.2 := by
  induction text generalizing offset skip start? spans with
  | nil =>
      cases start? with
      | none => simpa [spansFrom] using hspans
      | some start =>
          intro span hspan
          simp only [spansFrom, List.mem_reverse, List.mem_cons] at hspan
          rcases hspan with rfl | hspan
          · have hend := List.drop_eq_nil_iff.mp htext.symm
            exact .inl (Nat.le_antisymm hoffset hend)
          · exact hspans span hspan
  | cons c rest ih =>
      have hrest : rest = line.drop (offset + 1) := by
        rw [← List.drop_drop, ← htext, List.drop_one, List.tail_cons]
      have hnext : offset + 1 ≤ line.length := by
        have hlen := congrArg List.length htext
        rw [List.length_cons, List.length_drop] at hlen
        omega
      rcases marks.spansFrom_cons offset skip start? spans c rest with
        ⟨left, -, -, he⟩ | ⟨-, -, -, he⟩ | ⟨start, -, -, hs, he⟩ | ⟨-, -, he⟩
      · rw [he]
        exact ih _ _ _ _ hrest hnext hspans
      · rw [he]
        exact ih _ _ _ _ hrest hnext hspans
      · rw [he]
        refine ih _ _ _ _ hrest hnext ?_
        intro span hspan
        rcases List.mem_cons.mp hspan with rfl | hspan
        · right
          obtain ⟨tail, htail⟩ : marks.closer <+: c :: rest := prefix_of_step true _ _ hs
          rw [List.take_add, ← htext, ← htail, List.take_left]
          exact List.suffix_append _ _
        · exact hspans span hspan
      · rw [he]
        exact ih _ _ _ _ hrest hnext hspans

theorem mem_spansFrom_of_mem_lineRegions (state : RegionState) (line : Text) (span : Nat × Nat)
    (hspan : span ∈ (marks.lineRegions state line).spans) :
    span ∈ (marks.spansFrom 0 0 (if state = .inBlockComment then some 0 else none) [] line).1 := by
  simp only [lineRegions] at hspan
  split at hspan <;> simp_all

theorem opensAt_of_mem_lineRegions (state : RegionState) (line : Text) (span : Nat × Nat)
    (hspan : span ∈ (marks.lineRegions state line).spans) : marks.OpensAt line span.1 := by
  refine opensAt_of_mem_spansFrom line line 0 0 _ [] rfl ?_ (by simp) span
    (mem_spansFrom_of_mem_lineRegions state line span hspan)
  intro start hstart
  split at hstart
  · exact .inl (Option.some.inj hstart).symm
  · cases hstart

theorem closesAt_of_mem_lineRegions (state : RegionState) (line : Text) (span : Nat × Nat)
    (hspan : span ∈ (marks.lineRegions state line).spans) : marks.ClosesAt line span.2 :=
  closesAt_of_mem_spansFrom line line 0 0 _ [] rfl (Nat.zero_le _) (by simp) span
    (mem_spansFrom_of_mem_lineRegions state line span hspan)

end BlockMarks

namespace CommentStyle

variable (style : CommentStyle)

-- Only block comments make spans.
theorem mem_lineRegions_of_mem_advance (state : RegionState) (line : Text) (span : Nat × Nat)
    (hspan : span ∈ (style.advance state line).spans) :
    ∃ marks ∈ style.block, span ∈ (marks.lineRegions state line).spans := by
  unfold advance at hspan
  split at hspan
  · cases hspan
  · split at hspan
    · cases hspan
    · split at hspan
      · cases hspan
      · split at hspan
        · rename_i marks hblock
          exact ⟨marks, hblock, hspan⟩
        · cases hspan

theorem opensAt_of_mem_advance (state : RegionState) (line : Text) (span : Nat × Nat)
    (hspan : span ∈ (style.advance state line).spans) :
    ∃ marks ∈ style.block, marks.OpensAt line span.1 := by
  obtain ⟨marks, hmarks, hline⟩ := style.mem_lineRegions_of_mem_advance state line span hspan
  exact ⟨marks, hmarks, BlockMarks.opensAt_of_mem_lineRegions state line span hline⟩

theorem closesAt_of_mem_advance (state : RegionState) (line : Text) (span : Nat × Nat)
    (hspan : span ∈ (style.advance state line).spans) :
    ∃ marks ∈ style.block, marks.ClosesAt line span.2 := by
  obtain ⟨marks, hmarks, hline⟩ := style.mem_lineRegions_of_mem_advance state line span hspan
  exact ⟨marks, hmarks, BlockMarks.closesAt_of_mem_lineRegions state line span hline⟩

end CommentStyle

end UrlHarvest
