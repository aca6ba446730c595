import UrlHarvest.Text.Control

namespace UrlHarvest.Text

theorem controlLength?_escape (rest : Text) :
    controlLength? ('\x1b' :: '[' :: rest) =
      match rest.dropWhile isControlArgument with
      | letter :: _ =>
        if isAsciiLetter letter then some ((rest.takeWhile isControlArgument).length + 3) else none
      | [] => none := rfl

theorem controlLength?_of_ne (c d : Char) (rest : Text) (h : ¬(c = '\x1b' ∧ d = '[')) :
    controlLength? (c :: d :: rest) = none := by
  rw [controlLength?]
  rintro behind ⟨⟩
  exact h ⟨rfl, rfl⟩

theorem arguments_append_newline (front rest : Text) :
    (front ++ '\n' :: rest).takeWhile isControlArgument = front.takeWhile isControlArgument ∧
      (front ++ '\n' :: rest).dropWhile isControlArgument =
        front.dropWhile isControlArgument ++ '\n' :: rest := by
  induction front with
  | nil => exact ⟨rfl, rfl⟩
  | cons c front ih =>
      rw [List.cons_append, List.takeWhile_cons, List.takeWhile_cons, List.dropWhile_cons,
        List.dropWhile_cons, ih.1, ih.2]
      cases isControlArgument c <;> exact ⟨rfl, rfl⟩

-- A newline stands in no control sequence, so none reaches across it.
theorem controlLength?_append_newline (line rest : Text) :
    controlLength? (line ++ '\n' :: rest) = controlLength? line := by
  match line with
  | [] => rfl
  | [c] => simp [controlLength?]
  | c :: d :: more =>
      by_cases hmark : c = '\x1b' ∧ d = '['
      · obtain ⟨rfl, rfl⟩ := hmark
        rw [List.cons_append, List.cons_append, controlLength?_escape, controlLength?_escape,
          (arguments_append_newline more rest).1, (arguments_append_newline more rest).2]
        cases more.dropWhile isControlArgument <;> rfl
      · rw [List.cons_append, List.cons_append, controlLength?_of_ne c d _ hmark,
          controlLength?_of_ne c d _ hmark]

theorem controlLength?_le (text : Text) (length : Nat) (h : controlLength? text = some length) :
    length ≤ text.length := by
  simp only [controlLength?] at h
  split at h
  · next behind =>
      split at h
      · next letter more hmore =>
          split at h
          · cases h
            have hsplit : behind.takeWhile isControlArgument ++ letter :: more = behind :=
              hmore ▸ List.takeWhile_append_dropWhile
            have hlength := congrArg List.length hsplit
            simp only [List.length_append, List.length_cons] at hlength ⊢
            omega
          · cases h
      · cases h
  · cases h

theorem withoutControlsFrom_append_newline (skip : Nat) (line rest : Text)
    (hskip : skip ≤ line.length) :
    withoutControlsFrom skip (line ++ '\n' :: rest) =
      withoutControlsFrom skip line ++ '\n' :: withoutControlsFrom 0 rest := by
  induction line generalizing skip with
  | nil =>
      have hzero : skip = 0 := Nat.le_zero.mp hskip
      subst skip
      rfl
  | cons c line ih =>
      cases skip with
      | succ skip => exact ih skip (Nat.le_of_succ_le_succ hskip)
      | zero =>
          have hcontrol := controlLength?_append_newline (c :: line) rest
          rw [List.cons_append] at hcontrol
          rw [List.cons_append, withoutControlsFrom, withoutControlsFrom, hcontrol]
          cases hfound : controlLength? (c :: line) with
          | none => exact congrArg (c :: ·) (ih 0 (Nat.zero_le _))
          | some length =>
              have hle := controlLength?_le (c :: line) length hfound
              rw [List.length_cons] at hle
              exact ih (length - 1) (by omega)

end UrlHarvest.Text

namespace UrlHarvest

-- A text that is made of whole lines.
def Ended (text : String) : Prop :=
  text = "" ∨ ∃ front, text = front ++ "\n"

theorem ended_join (lines : List String) : Ended (String.join (lines.map (· ++ "\n"))) := by
  induction lines with
  | nil => exact .inl rfl
  | cons line rest ih =>
      rw [List.map_cons, String.join_cons]
      rcases ih with hnone | ⟨front, hfront⟩
      · exact .inr ⟨line, by rw [hnone, String.append_empty]⟩
      · exact .inr ⟨line ++ "\n" ++ front, by simp only [hfront, String.append_assoc]⟩

variable (terminal : Bool)

@[simp] theorem echoed_empty : echoed terminal "" = "" := by
  cases terminal <;> rfl

theorem echoed_append (front back : String) (hfront : Ended front) :
    echoed terminal (front ++ back) = echoed terminal front ++ echoed terminal back := by
  rcases hfront with rfl | ⟨line, rfl⟩
  · rw [echoed_empty, String.empty_append, String.empty_append]
  · cases terminal with
    | true => rfl
    | false =>
        have hline (rest : List Char) := Text.withoutControlsFrom_append_newline 0 line.toList rest
          (Nat.zero_le _)
        have hnewline : "\n".toList = ['\n'] := rfl
        apply String.toList_injective
        simp only [echoed, Bool.false_eq_true, if_false, String.toList_append, String.toList_ofList]
        rw [hnewline, List.append_assoc, List.singleton_append, hline, hline, List.append_assoc]
        rfl

theorem echoed_join (texts : List String) (htexts : ∀ text ∈ texts, Ended text) :
    echoed terminal (String.join texts) = String.join (texts.map (echoed terminal)) := by
  induction texts with
  | nil => exact echoed_empty terminal
  | cons text rest ih =>
      obtain ⟨htext, hrest⟩ := List.forall_mem_cons.mp htexts
      rw [String.join_cons, echoed_append terminal text _ htext, ih hrest, List.map_cons,
        String.join_cons]

end UrlHarvest
