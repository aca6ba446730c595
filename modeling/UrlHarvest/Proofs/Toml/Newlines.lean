import UrlHarvest.Proofs.Toml.Reading

namespace UrlHarvest.Toml

-- A carriage return gives way to the newline behind it.
def joinNewline (read : Text) (c : Char) : Text :=
  match c, read with
  | '\n', '\r' :: before => '\n' :: before
  | c, read => c :: read

theorem unifyNewlines_eq (text : Text) :
    unifyNewlines text = (text.foldl joinNewline []).reverse := rfl

-- What is read and what stands there, both the last code point first: within a line they are the
-- same.
structure OnlyJoins (read back : Text) : Prop where
  starts : ∀ stretch, '\n' ∉ stretch → stretch <+: read → stretch <+: back
  inside : ∀ stretch, '\n' ∉ stretch → stretch <:+: read → stretch <:+: back

theorem eq_nil_of_newline (stretch before : Text) (h : '\n' ∉ stretch)
    (hstarts : stretch <+: '\n' :: before) : stretch = [] := by
  rcases List.prefix_cons_iff.mp hstarts with hnil | ⟨more, rfl, -⟩
  · exact hnil
  · exact absurd List.mem_cons_self h

theorem OnlyJoins.step {read back : Text} (h : OnlyJoins read back) (c : Char) :
    OnlyJoins (joinNewline read c) (c :: back) := by
  unfold joinNewline
  split
  · rename_i before
    refine ⟨fun stretch hline hstarts => ?_, fun stretch hline hin => ?_⟩
    · rw [eq_nil_of_newline stretch before hline hstarts]
      exact List.nil_prefix
    · rcases List.infix_cons_iff.mp hin with hstarts | hin
      · rw [eq_nil_of_newline stretch before hline hstarts]
        exact List.nil_infix
      · exact List.infix_cons (h.inside stretch hline (List.infix_cons hin))
  · have hstarts : ∀ stretch, '\n' ∉ stretch → stretch <+: c :: read → stretch <+: c :: back := by
      intro stretch hline hstarts
      rcases List.prefix_cons_iff.mp hstarts with rfl | ⟨more, rfl, hmore⟩
      · exact List.nil_prefix
      · have hline := fun hmem => hline (List.mem_cons_of_mem c hmem)
        exact List.cons_prefix_cons.mpr ⟨rfl, h.starts more hline hmore⟩
    refine ⟨hstarts, fun stretch hline hin => ?_⟩
    rcases List.infix_cons_iff.mp hin with hbegins | hin
    · exact (hstarts stretch hline hbegins).isInfix
    · exact List.infix_cons (h.inside stretch hline hin)

theorem OnlyJoins.run {read back : Text} (h : OnlyJoins read back) (text : Text) :
    OnlyJoins (text.foldl joinNewline read) (text.reverse ++ back) := by
  induction text generalizing read back with
  | nil => exact h
  | cons c rest ih =>
      rw [List.foldl_cons, List.reverse_cons, List.append_assoc]
      exact ih (h.step c)

theorem infix_of_unifyNewlines (stretch text : Text) (hline : '\n' ∉ stretch)
    (h : stretch <:+: unifyNewlines text) : stretch <:+: text := by
  have hempty : OnlyJoins [] [] := ⟨fun _ _ h => h, fun _ _ h => h⟩
  have hjoins := hempty.run text
  rw [List.append_nil] at hjoins
  rw [unifyNewlines_eq, ← List.reverse_infix, List.reverse_reverse] at h
  have hback := hjoins.inside stretch.reverse (fun hmem => hline (List.mem_reverse.mp hmem)) h
  exact List.reverse_infix.mp hback

theorem HasLongNumber.of_unifyNewlines (text : Text) (h : HasLongNumber (unifyNewlines text)) :
    HasLongNumber text := by
  obtain ⟨stretch, hin, hdigits, hlong⟩ := h
  refine ⟨stretch, infix_of_unifyNewlines stretch text (fun hmem => ?_) hin, hdigits, hlong⟩
  rcases hdigits '\n' hmem with hdigit | hunderscore
  · cases hdigit
  · cases hunderscore

theorem joinNewline_of_not {read : Text} {c : Char} (h : ¬ (c = '\n' ∧ '\r' ∈ read.head?)) :
    joinNewline read c = c :: read := by
  unfold joinNewline
  split
  · exact absurd ⟨rfl, rfl⟩ h
  · rfl

theorem foldl_joinNewline_append (text read before : Text) (hbefore : '\r' ∉ before.head?) :
    text.foldl joinNewline (read ++ before) = text.foldl joinNewline read ++ before := by
  induction text generalizing read with
  | nil => rfl
  | cons c rest ih =>
      have hstep : joinNewline (read ++ before) c = joinNewline read c ++ before := by
        by_cases hjoins : c = '\n' ∧ '\r' ∈ read.head?
        · obtain ⟨rfl, hhead⟩ := hjoins
          obtain ⟨more, rfl⟩ := List.head?_eq_some_iff.mp hhead
          rfl
        · rw [joinNewline_of_not hjoins, joinNewline_of_not]
          · rfl
          · cases read with
            | nil => exact fun h => hbefore h.2
            | cons first read => exact hjoins
      rw [List.foldl_cons, List.foldl_cons, hstep, ih]

theorem foldl_joinNewline_of_line (line read : Text) (hline : '\n' ∉ line) :
    line.foldl joinNewline read = line.reverse ++ read := by
  induction line generalizing read with
  | nil => rfl
  | cons c line ih =>
      obtain ⟨hc, hline⟩ := not_or.mp (mt List.mem_cons.mpr hline)
      rw [List.foldl_cons, joinNewline_of_not fun h => hc h.1.symm, ih _ hline, List.reverse_cons,
        List.append_assoc, List.singleton_append]

theorem unifyNewlines_append (front rest : Text) (hline : '\n' ∉ front) (hreturn : '\r' ∉ front) :
    unifyNewlines (front ++ rest) = front ++ unifyNewlines rest := by
  have hbefore : '\r' ∉ front.reverse.head? := fun hhead =>
    hreturn (List.mem_reverse.mp (List.mem_of_head? hhead))
  have hrest := foldl_joinNewline_append rest [] front.reverse hbefore
  rw [unifyNewlines_eq, List.foldl_append, foldl_joinNewline_of_line front [] hline,
    List.append_nil, ← List.nil_append front.reverse, hrest, List.reverse_append,
    List.reverse_reverse, unifyNewlines_eq]

theorem length_foldl_joinNewline_le (text read : Text) :
    (text.foldl joinNewline read).length ≤ read.length + text.length := by
  induction text generalizing read with
  | nil => exact Nat.le_refl _
  | cons c rest ih =>
      have hstep : (joinNewline read c).length ≤ read.length + 1 := by
        unfold joinNewline
        split
        · exact Nat.le_succ _
        · exact Nat.le_refl _
      rw [List.foldl_cons, List.length_cons]
      have hrest := ih (joinNewline read c)
      omega

theorem length_unifyNewlines_le (text : Text) : (unifyNewlines text).length ≤ text.length := by
  rw [unifyNewlines_eq, List.length_reverse, ← Nat.zero_add text.length]
  exact length_foldl_joinNewline_le text []

end UrlHarvest.Toml
