import UrlHarvest.Proofs.Comments.WholeText
import UrlHarvest.Proofs.Text.Padding

namespace UrlHarvest

open Text

theorem isFence_around (padding : Padding) (line : Text) :
    isFence (padding.around line) = isFence line := by
  rw [isFence, isFence, trim_around]

-- What is hidden of a line, and the same of that line when it stands `count` places further on.
structure LineRegions.MovedBy (count length : Nat) (regions moved : LineRegions) : Prop where
  state : moved.state = regions.state
  wholeLine : moved.wholeLine = regions.wholeLine
  hides : ∀ offset < length, moved.hides (count + offset) = regions.hides offset

namespace BlockMarks

variable (marks : BlockMarks) (hopener : ∀ c ∈ pads, c ∉ marks.opener)
  (hcloser : ∀ c ∈ pads, c ∉ marks.closer)

include hopener hcloser

theorem hiddenFrom_append_front (inside : Bool) (front text : Text) (hfront : front ⊆ pads) :
    marks.hiddenFrom inside 0 (front ++ text) =
      List.replicate front.length inside ++ marks.hiddenFrom inside 0 text := by
  induction front with
  | nil => rfl
  | cons c front ih =>
      have hc := hfront List.mem_cons_self
      have hrest := ih fun d hd => hfront (List.mem_cons_of_mem c hd)
      have hcut := marks.hiddenFrom_append_cons (hopener c hc) (hcloser c hc) inside 0 []
        (front ++ text) (Nat.zero_le _)
      rw [List.nil_append] at hcut
      rw [List.cons_append, hcut, endsInside, hrest]
      rfl

theorem endsInside_append_front (inside : Bool) (front text : Text) (hfront : front ⊆ pads) :
    marks.endsInside inside 0 (front ++ text) = marks.endsInside inside 0 text := by
  induction front with
  | nil => rfl
  | cons c front ih =>
      have hc := hfront List.mem_cons_self
      have hcut := marks.endsInside_append_cons (hopener c hc) (hcloser c hc) inside 0 []
        (front ++ text) (Nat.zero_le _)
      rw [List.nil_append] at hcut
      rw [List.cons_append, hcut, endsInside, ih fun d hd => hfront (List.mem_cons_of_mem c hd)]

theorem hiddenFrom_prefix_append_back (inside : Bool) (line back : Text) (hback : back ⊆ pads) :
    marks.hiddenFrom inside 0 line <+: marks.hiddenFrom inside 0 (line ++ back) := by
  cases back with
  | nil => simp
  | cons c back =>
      have hc := hback List.mem_cons_self
      rw [marks.hiddenFrom_append_cons (hopener c hc) (hcloser c hc) inside 0 line back
        (Nat.zero_le _)]
      exact List.prefix_append _ _

theorem endsInside_append_back (inside : Bool) (line back : Text) (hback : back ⊆ pads) :
    marks.endsInside inside 0 (line ++ back) = marks.endsInside inside 0 line := by
  cases back with
  | nil => rw [List.append_nil]
  | cons c back =>
      have hc := hback List.mem_cons_self
      have hrest := marks.endsInside_append_front hopener hcloser
        (marks.endsInside inside 0 line) back [] fun d hd => hback (List.mem_cons_of_mem c hd)
      rw [List.append_nil] at hrest
      rw [marks.endsInside_append_cons (hopener c hc) (hcloser c hc) inside 0 line back
        (Nat.zero_le _), hrest, endsInside]

theorem lineRegions_around (state : RegionState) (padding : Padding) (line : Text) :
    (marks.lineRegions state line).MovedBy padding.front.length line.length
      (marks.lineRegions state (padding.around line)) := by
  have hends : ∀ inside, marks.endsInside inside 0 (padding.around line) =
      marks.endsInside inside 0 line := by
    intro inside
    rw [Padding.around, marks.endsInside_append_front hopener hcloser _ _ _ padding.front_subset,
      marks.endsInside_append_back hopener hcloser _ _ _ padding.back_subset]
  refine ⟨?_, ?_, ?_⟩
  · rw [lineRegions_eq, lineRegions_eq, hends]
  · rw [lineRegions_eq, lineRegions_eq]
  · intro offset hoffset
    have hplace : padding.front.length + offset < (padding.around line).length := by
      simp only [Padding.around, List.length_append]
      omega
    have hprefix := marks.hiddenFrom_prefix_append_back hopener hcloser
      (state = .inBlockComment) line padding.back padding.back_subset
    rw [hides_lineRegions _ _ _ _ hplace, hides_lineRegions _ _ _ _ hoffset, Padding.around,
      marks.hiddenFrom_append_front hopener hcloser _ _ _ padding.front_subset,
      List.getElem?_append_right (by simp), List.length_replicate, Nat.add_sub_cancel_left,
      List.prefix_iff_getElem?.mp hprefix offset (by rwa [length_hiddenFrom]),
      List.getElem?_eq_getElem]

end BlockMarks

namespace CommentStyle

-- Everything that a format marks its comments with.
def marks (style : CommentStyle) : List Text :=
  style.linePrefixes ++ style.block.toList.flatMap fun block => [block.opener, block.closer]

variable (style : CommentStyle) (hmarks : ∀ mark ∈ style.marks, padless mark = true)

include hmarks

theorem commentsOut_around (padding : Padding) (line : Text) :
    style.commentsOut (padding.around line) = style.commentsOut line := by
  rw [commentsOut, commentsOut, Bool.eq_iff_iff, List.any_eq_true, List.any_eq_true]
  refine exists_congr fun mark => and_congr_right fun hmark => ?_
  rw [isPrefixOf_trimLeft_around mark (hmarks mark (List.mem_append_left _ hmark)) padding line]

-- A line is hidden as it is when something is put around it, and it leaves the same state behind.
theorem advance_around (state : RegionState) (padding : Padding) (line : Text) :
    (style.advance state line).MovedBy padding.front.length line.length
      (style.advance state (padding.around line)) := by
  have hcomment := style.commentsOut_around hmarks padding line
  simp only [advance, isFence_around, hcomment]
  split
  · exact ⟨rfl, rfl, fun _ _ => rfl⟩
  · split
    · exact ⟨rfl, rfl, fun _ _ => rfl⟩
    · split
      · exact ⟨rfl, rfl, fun _ _ => rfl⟩
      · split
        · rename_i block hblock
          apply block.lineRegions_around
          · exact notMem_of_padless _ (hmarks _ (by simp [marks, hblock]))
          · exact notMem_of_padless _ (hmarks _ (by simp [marks, hblock]))
        · exact ⟨rfl, rfl, fun _ _ => rfl⟩

end CommentStyle

end UrlHarvest
