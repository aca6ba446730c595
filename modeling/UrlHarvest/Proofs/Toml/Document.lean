import UrlHarvest.Proofs.Toml.Newlines
import UrlHarvest.Proofs.Toml.Scalar

namespace UrlHarvest.Toml

namespace Reading

section Keys

variable {text : Text} {opened next : Nat}

theorem prefix_of_head? {c : Char} {rest : Text} (h : rest.head? = some c) : [c] <+: rest := by
  obtain ⟨left, rfl⟩ := List.head?_eq_some_iff.mp h
  exact ⟨left, rfl⟩

theorem isQuote_of_isKeyStart {c : Char} (hbare : isBareKeyChar c ≠ true)
    (hstart : isKeyStart c = true) : isQuote c = true := by
  unfold isKeyStart at hstart
  unfold isQuote
  grind

theorem Keeps.keyPart : Keeps text (At text opened) (BehindKey text opened) keyPart := by
  unfold Toml.keyPart
  refine .get fun rest hat => ?_
  have hblanks (part : Text) : Keeps text (BehindKey text opened) (BehindKey text opened) (do
      Reading.skipWhile isBlank
      return String.ofList part) :=
    .bind (.skipWhile fun _ h => h.dropWhile_isBlank) fun _ => .pure _
  extract_lets
  split
  · rename_i c hhead
    split
    · refine .bind (.takeWhile fun _ h => ?_) hblanks
      exact .inl ((h ▸ hat).of_plainUpTo (.dropWhile (by decide) _))
    split
    · rename_i hbare hstart
      refine .bind ((Keeps.quotedKey (isQuote_of_isKeyStart hbare hstart)).here ?_) hblanks
      exact ⟨hat, prefix_of_head? hhead⟩
    · exact .bind (.fail _) hblanks
  · exact .bind (.fail _) hblanks

-- What goes on behind a key goes on with no quote.
theorem Keeps.dropBehindKey {c : Char} {mark : Text} (hc : isQuote c = false)
    (hmark : ∀ rest, GoesTooDeep next rest → GoesTooDeep opened (c :: mark ++ rest)) :
    Keeps text (fun rest => BehindKey text opened rest ∧ c :: mark <+: rest) (At text next)
      (Reading.drop (c :: mark).length) :=
  (Keeps.dropMark hmark).from fun _ h => ⟨BehindKey.at_of_mark hc h, h.2⟩

theorem Keeps.expectBehindKey {c : Char} {mark : Text} {cause : Cause} (hc : isQuote c = false)
    (hmark : ∀ rest, GoesTooDeep next rest → GoesTooDeep opened (c :: mark ++ rest)) :
    Keeps text (BehindKey text opened) (At text next) (Reading.expect (c :: mark) cause) :=
  .startsWith (.dropBehindKey hc hmark) (.fail cause)

theorem Keeps.moreKeyParts (fuel : Nat) :
    Keeps text (BehindKey text opened) (BehindKey text opened) (moreKeyParts fuel) := by
  induction fuel with
  | zero => exact .pure []
  | succ fuel ih =>
      rw [Toml.moreKeyParts]
      refine .startsWith ?_ (.pure [])
      refine .bind (.dropBehindKey rfl fun _ => .other rfl) fun _ => .bind .skipBlanks fun _ => ?_
      exact .bind .keyPart fun _ => .bind ih fun _ => .pure _

theorem Keeps.key : Keeps text (At text opened) (BehindKey text opened) key := by
  unfold Toml.key
  refine .bind .keyPart fun _ => .get fun rest hrest => ?_
  exact .bind ((Keeps.moreKeyParts _).here hrest) fun _ => .pure _

theorem Keeps.expectEquals {cause : Cause} :
    Keeps text (BehindKey text opened) (At text opened) (Reading.expect ['='] cause) :=
  .expectBehindKey rfl fun _ => .other rfl

end Keys

section Values

variable {text : Text} {opened : Nat}

theorem Keeps.skipBetweenItems (fuel : Nat) :
    Keeps text (At text opened) (At text opened) (skipBetweenItems fuel) := by
  induction fuel with
  | zero => exact .pure ()
  | succ fuel ih =>
      rw [Toml.skipBetweenItems]
      refine .bind (.skipPlain (by decide)) fun _ => .startsWith ?_ (.pure ())
      exact (Keeps.bind .skipComment fun _ => ih).from fun _ h => h.1

theorem Keeps.skipItemSpace : Keeps text (At text opened) (At text opened) skipItemSpace :=
  .get fun _ hat => (Keeps.skipBetweenItems _).here hat

-- Where there is no room left, the brackets before have gone too deep.
theorem Keeps.enter : Keeps text (At text opened) (At text opened) (enter opened) := by
  intro rest hat
  unfold Toml.enter
  split
  · rename_i hbeyond
    exact hat.goesTooDeep (.beyond hbeyond)
  · exact hat

theorem Keeps.lift {α : Type} {before : Text → Prop} (made : Except Cause α) :
    Keeps text before before (lift made) := by
  cases made with
  | ok value => exact .pure value
  | error cause => exact .fail cause

theorem Keeps.items_succ (fuel : Nat) (read : List Tree)
    (hvalue : Keeps text (At text (opened + 2)) (At text (opened + 2)) (value fuel (opened + 2)))
    (hitems : ∀ read, Keeps text (At text (opened + 2)) (At text opened)
      (items fuel (opened + 2) read)) :
    Keeps text (At text (opened + 2)) (At text opened) (items (fuel + 1) (opened + 2) read) := by
  rw [Toml.items]
  refine .startsWith (.bind (.dropMark fun _ => .closeList) fun _ => .pure _) ?_
  refine .bind hvalue fun item => .bind .skipItemSpace fun _ => .startsWith ?_ ?_
  · refine .bind (.dropPlain (by decide)) fun _ => .bind .skipItemSpace fun _ => hitems _
  · exact .bind (.expectMark fun _ => .closeList) fun _ => .pure _

theorem Keeps.inlineEntries_succ (fuel : Nat) (read : Table) (frozen : Frozen)
    (hvalue : Keeps text (At text (opened + 3)) (At text (opened + 3)) (value fuel (opened + 3)))
    (hentries : ∀ read frozen, Keeps text (At text (opened + 3)) (At text opened)
      (inlineEntries fuel (opened + 3) read frozen)) :
    Keeps text (At text (opened + 3)) (At text opened)
      (inlineEntries (fuel + 1) (opened + 3) read frozen) := by
  rw [Toml.inlineEntries]
  refine .bind .key fun path => .bind .expectEquals fun _ => .bind .skipBlanks fun _ => ?_
  refine .bind hvalue fun item => .bind (.lift _) fun read => .bind .skipBlanks fun _ => ?_
  refine .startsWith ?_ ?_
  · exact .bind (.dropPlain (by decide)) fun _ => .bind .skipBlanks fun _ => hentries _ _
  · exact .bind (.expectMark fun _ => .closeTable) fun _ => .pure _

-- Values, lists and inline tables read one another with less fuel, so they keep count together.
theorem Keeps.nested (fuel : Nat) (opened : Nat) :
    Keeps text (At text opened) (At text opened) (value fuel opened) ∧
      (∀ read, Keeps text (At text (opened + 2)) (At text opened)
        (items fuel (opened + 2) read)) ∧
      ∀ read frozen, Keeps text (At text (opened + 3)) (At text opened)
        (inlineEntries fuel (opened + 3) read frozen) := by
  induction fuel generalizing opened with
  | zero => exact ⟨.fail _, fun _ => .fail _, fun _ _ => .fail _⟩
  | succ fuel ih =>
      obtain ⟨-, hitems, hentries⟩ := ih opened
      refine ⟨?_, fun read => ?_, fun read frozen => ?_⟩
      · rw [Toml.value]
        refine .get fun rest hat => ?_
        have hbegins {c : Char} (hhead : rest.head? = some c) :
            At text opened rest ∧ [c] <+: rest :=
          ⟨hat, prefix_of_head? hhead⟩
        split
        · rename_i hhead
          exact .bind ((Keeps.string (by decide)).here (hbegins hhead)) fun _ => .pure _
        · rename_i hhead
          exact .bind ((Keeps.string (by decide)).here (hbegins hhead)) fun _ => .pure _
        · rename_i hhead
          refine .bind ((Keeps.dropMark fun _ => .openList).here (hbegins hhead)) fun _ => ?_
          exact .bind .enter fun _ => .bind .skipItemSpace fun _ => hitems _
        · rename_i hhead
          refine .bind ((Keeps.dropMark fun _ => .openTable).here (hbegins hhead)) fun _ => ?_
          refine .bind .enter fun _ => .bind .skipBlanks fun _ => .startsWith ?_ (hentries _ _)
          exact .bind (.dropMark fun _ => .closeTable) fun _ => .pure _
        · exact Keeps.scalar.here hat
      · exact .items_succ fuel read (ih (opened + 2)).1 hitems
      · exact .inlineEntries_succ fuel read frozen (ih (opened + 3)).1 hentries

end Values

section Statements

variable {text : Text} (tables : Tables)

theorem Keeps.assignment : Keeps text (At text 0) (At text 0) (assignment tables) := by
  unfold Toml.assignment
  refine .bind .key fun path => .bind .expectEquals fun _ => .bind .skipBlanks fun _ => ?_
  refine .get fun rest hat => .bind ((Keeps.nested _ 0).1.here hat) fun item => ?_
  exact .lift _

-- The brackets of a header count like any others, but nothing opens in them.
theorem Keeps.header :
    Keeps text (fun rest => At text 0 rest ∧ ['['] <+: rest) (At text 0) (header tables) := by
  unfold Toml.header
  refine .startsWith ?_ ?_
  · have hopens : Keeps text (fun rest => At text 0 rest ∧ ['[', '['] <+: rest) (At text 4)
        (Reading.drop 2) :=
      .dropMark fun _ h => .openList (.openList h)
    have hcloses : Keeps text (BehindKey text 4) (At text 0)
        (Reading.expect [']', ']'] .unclosedArrayHeader) :=
      .expectBehindKey rfl fun _ h => .closeList (.closeList h)
    refine .bind (hopens.from fun _ h => ⟨h.1.1, h.2⟩) fun _ => .bind .skipBlanks fun _ => ?_
    exact .bind .key fun path => .bind (.lift _) fun _ => .bind hcloses fun _ => .pure _
  · have hcloses : Keeps text (BehindKey text 2) (At text 0)
        (Reading.expect [']'] .unclosedTableHeader) :=
      .expectBehindKey rfl fun _ => .closeList
    refine .bind (.dropMark fun _ => .openList) fun _ => .bind .skipBlanks fun _ => ?_
    exact .bind .key fun path => .bind (.lift _) fun _ => .bind hcloses fun _ => .pure _

theorem Keeps.statement (c : Char) :
    Keeps text (fun rest => At text 0 rest ∧ [c] <+: rest) (At text 0) (statement tables c) := by
  unfold Toml.statement
  have hcomment (tables : Tables) : Keeps text (At text 0) (At text 0) (do
      Reading.skipWhile isBlank
      Toml.skipComment
      return tables) :=
    .bind .skipBlanks fun _ => .bind .skipComment fun _ => .pure _
  split
  · exact .bind ((Keeps.assignment tables).from fun _ h => h.1) hcomment
  split
  · rename_i hc
    exact .bind ((Keeps.header tables).from fun _ h => hc ▸ h) hcomment
  split
  · exact .bind ((Keeps.pure tables).from fun _ h => h.1) hcomment
  · exact .bind (.fail _) hcomment

theorem Keeps.statements (fuel : Nat) :
    Keeps text (At text 0) (At text 0) (statements fuel tables) := by
  induction fuel generalizing tables with
  | zero => exact .pure tables
  | succ fuel ih =>
      rw [Toml.statements]
      have hline : Keeps text (fun rest => At text 0 rest ∧ ['\n'] <+: rest) (At text 0)
          (Reading.drop 1) :=
        .dropPlain (by decide)
      refine .bind .skipBlanks fun _ => .get fun rest hat => ?_
      extract_lets
      split
      · exact (Keeps.pure tables).here hat
      · rename_i c hhead
        have hstatement := (Keeps.statement tables c).here ⟨hat, prefix_of_head? hhead⟩
        refine .ite (.bind ((Keeps.pure tables).here hat) fun tables => .get fun rest hat => ?_)
          (.bind hstatement fun tables => .get fun rest hat => ?_)
        -- The end of the line is the same for both.
        all_goals
          split
          · exact (Keeps.pure tables).here hat
          · rename_i c hhead
            split
            · rename_i hc
              have hbegins := prefix_of_head? (hc ▸ hhead)
              exact .bind (hline.here ⟨hat, hbegins⟩) fun _ => ih tables
            · exact .fail _

end Statements

end Reading

-- What keeps a document from being given up: its numbers are short, and neither its brackets nor
-- the tables that its keys make stand too deep in one another.
structure Fits (text : Text) : Prop where
  numbers : ¬ HasLongNumber text
  brackets : ¬ GoesTooDeep 0 (unifyNewlines text)
  tables : ∀ tree, parse text = .ok tree → tree.depth ≤ callRoom

theorem Fits.of_short {text : Text} (hlength : text.length ≤ 300)
    (htables : ∀ tree, parse text = .ok tree → tree.depth ≤ callRoom) : Fits text where
  numbers := not_hasLongNumber_of_length_le text (by omega)
  brackets := fun hdeep => by
    have hlt := hdeep.lt
    have hle := length_unifyNewlines_le text
    unfold callRoom at hlt
    omega
  tables := htables

-- So it is read, or it breaks a rule.
theorem Fits.not_fatal {text : Text} (h : Fits text) (fault : ScanFault) :
    read text ≠ .error (.fatal fault) := by
  intro hread
  have hends := Reading.Keeps.statements {} ((unifyNewlines text).length + 1) (unifyNewlines text)
    (.start _)
  unfold read at hread
  split at hread
  · rename_i tree hparse
    rw [if_neg (Nat.not_lt.mpr (h.tables tree hparse))] at hread
    cases hread
  · rename_i stopped hparse
    obtain rfl := Except.error.inj hread
    unfold parse at hparse
    extract_lets unified at hparse
    split at hparse
    · cases hparse
    · rename_i stopped hstopped
      rw [hstopped] at hends
      cases stopped with
      | longNumber digits => exact h.numbers (.of_unifyNewlines text hends)
      | nestedTooDeep => exact h.brackets hends
      | broken cause at' => cases hparse

section OpenLists

-- The value and its items take one step each.
theorem value_openList_eq_error {fuel opened : Nat} {rest : Text} {fault : Fault}
    (hroom : opened + 2 ≤ callRoom) (h : value fuel (opened + 2) ('[' :: rest) = .error fault) :
    value (fuel + 2) opened ('[' :: '[' :: rest) = .error fault := by
  change (enter (opened + 2) ('[' :: rest) >>= _) = _
  rw [enter, if_neg (Nat.not_lt.mpr hroom)]
  change (value fuel (opened + 2) ('[' :: rest) >>= _) = _
  rw [h]
  rfl

theorem value_openList_beyond {fuel opened : Nat} {rest : Text} (h : callRoom < opened + 2) :
    value (fuel + 1) opened ('[' :: rest) = .error .nestedTooDeep := by
  change (enter (opened + 2) rest >>= _) = _
  rw [enter, if_pos h]
  rfl

theorem value_openLists (count : Nat) {fuel opened : Nat} {rest : Text}
    (hroom : opened ≤ callRoom) (hdeep : callRoom < opened + 2 * count) (hfuel : 2 * count ≤ fuel) :
    value fuel opened (List.replicate count '[' ++ rest) = .error .nestedTooDeep := by
  induction count generalizing fuel opened with
  | zero => omega
  | succ count ih =>
      obtain ⟨fuel, rfl⟩ := Nat.exists_eq_add_of_le' (show 2 ≤ fuel by omega)
      by_cases hbeyond : callRoom < opened + 2
      · exact value_openList_beyond hbeyond
      · cases count with
        | zero => exact absurd hdeep hbeyond
        | succ count =>
            have hmore : value fuel (opened + 2) (List.replicate (count + 1) '[' ++ rest) =
                .error .nestedTooDeep :=
              ih (by omega) (by omega) (by omega)
            exact value_openList_eq_error (Nat.not_lt.mp hbeyond) hmore

theorem assignment_openLists (count : Nat) (rest : Text) (h : callRoom < 2 * count) :
    assignment {} ("a = ".toList ++ (List.replicate count '[' ++ rest)) =
      .error .nestedTooDeep := by
  obtain ⟨count, rfl⟩ := Nat.exists_eq_add_of_le' (show 1 ≤ count by omega)
  have hvalue : value (2 * (List.replicate (count + 1) '[' ++ rest).length + 2) 0
      (List.replicate (count + 1) '[' ++ rest) = .error .nestedTooDeep := by
    refine value_openLists (count + 1) (Nat.zero_le callRoom) (by omega) ?_
    rw [List.length_append, List.length_replicate]
    omega
  change (value (2 * (List.replicate (count + 1) '[' ++ rest).length + 2) 0
      (List.replicate (count + 1) '[' ++ rest) >>= _) = _
  rw [hvalue]
  rfl

theorem statements_openLists (fuel count : Nat) (rest : Text) (h : callRoom < 2 * count) :
    statements (fuel + 1) {} ("a = ".toList ++ (List.replicate count '[' ++ rest)) =
      .error .nestedTooDeep := by
  change (assignment {} ("a = ".toList ++ (List.replicate count '[' ++ rest)) >>= _ >>= _) = _
  rw [assignment_openLists count rest h]
  rfl

-- Lists that open one in another are given up, whatever follows on them.
theorem read_openLists (count : Nat) (rest : Text) (h : callRoom < 2 * count) :
    read ("a = ".toList ++ (List.replicate count '[' ++ rest)) =
      .error (.fatal .nestedTooDeep) := by
  have hfree (c : Char) (hc : c ∉ "a = ".toList) (hbracket : c ≠ '[') :
      c ∉ "a = ".toList ++ List.replicate count '[' := fun hmem =>
    (List.mem_append.mp hmem).elim hc fun h => hbracket (List.eq_of_mem_replicate h)
  have hunified : unifyNewlines ("a = ".toList ++ (List.replicate count '[' ++ rest)) =
      "a = ".toList ++ (List.replicate count '[' ++ unifyNewlines rest) := by
    rw [← List.append_assoc, unifyNewlines_append _ _ (hfree '\n' (by decide) (by decide))
      (hfree '\r' (by decide) (by decide)), List.append_assoc]
  unfold read parse
  rw [hunified]
  dsimp only
  rw [statements_openLists _ count _ h]
  rfl

end OpenLists

end UrlHarvest.Toml
