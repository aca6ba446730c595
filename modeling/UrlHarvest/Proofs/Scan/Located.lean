import UrlHarvest.Proofs.Pattern.Tokens
import UrlHarvest.Proofs.Scan.Locator
import UrlHarvest.Proofs.Scan.Structured

namespace UrlHarvest

open Text Tidy

-- No address goes on behind an offset.
def Text.EndsAt (text : Text) (offset : Nat) : Prop :=
  text[offset]?.any isBodyChar = false

instance (text : Text) (offset : Nat) : Decidable (Text.EndsAt text offset) :=
  inferInstanceAs (Decidable (_ = _))

namespace Tree

theorem newline_notMem_of_mem_addressesIn (leaf value : Text) (h : value ∈ addressesIn leaf) :
    '\n' ∉ value := by
  intro hnewline
  rw [addressesIn] at h
  split at h
  · rename_i hwhole
    rw [List.mem_singleton.mp h] at hnewline
    exact absurd (List.any_eq_false.mp hwhole.2.1 '\n' hnewline) (by decide)
  · obtain ⟨rule, -, hmatch⟩ := List.mem_flatMap.mp h
    obtain ⟨found, hfound, rfl⟩ := List.mem_map.mp hmatch
    obtain ⟨front, body, htext, hspells⟩ :=
      ((rule.tokenises_matchesIn leaf).tokens found hfound).spelled
    rw [htext] at hnewline
    exact absurd (hspells.isBodyChar '\n' hnewline) (by decide)

theorem newline_notMem_of_mem_addresses (tree : Tree) (item : String × String)
    (h : item ∈ tree.addresses) : '\n' ∉ item.1.toList := by
  obtain ⟨⟨path, leaf⟩, -, hitem⟩ := List.mem_flatMap.mp h
  obtain ⟨value, hvalue, rfl⟩ := List.mem_map.mp hitem
  rw [String.toList_ofList]
  exact newline_notMem_of_mem_addressesIn leaf.toList value hvalue

end Tree

namespace Locator

variable (text : Text) (comments : CommentStyle)

-- An offset is passed once a value was found that ends behind it.
def Passed (records : List Url) (offset : Nat) : Prop :=
  ∃ record ∈ records, ∃ place, record.position = some (positionAt text place) ∧
    offset < place + record.value.toList.length

-- Where a value may be found after the records before it: at an occurrence outside of comment lines
-- in front of which none is left out. It comes behind all that was found before, unless there is
-- nothing to find any more; then it is the first one of all.
structure Due (earlier : List Url) (value : Text) (place : Nat) : Prop where
  live : Live text comments value place
  none_left_out : ∀ o < place, Live text comments value o → Passed text earlier o
  onward_or_first :
    (∀ record ∈ earlier, ∀ o ≤ text.length,
      record.position = some (positionAt text o) → o < place) ∨
      ∀ o, Live text comments value o → place ≤ o ∧ Passed text earlier o

-- A record without a position has a value that is nowhere outside of comment lines.
def WellPlaced (earlier : List Url) (record : Url) : Prop :=
  (record.position = none ∧ ∀ o, ¬Live text comments record.value.toList o) ∨
    ∃ place, record.position = some (positionAt text place) ∧
      Due text comments earlier record.value.toList place

-- What the records so far say about the cursor: all that is in front of it is passed, and each
-- place that was found is there.
structure Covers (earlier : List Url) (cursor : Nat) : Prop where
  inside : cursor ≤ text.length
  passed : ∀ o < cursor, Passed text earlier o
  found : ∀ record ∈ earlier, ∀ o ≤ text.length,
    record.position = some (positionAt text o) → o < cursor

variable {text comments} {earlier : List Url} {record : Url} {cursor : Nat}
  {answer : Option Position × Locator}

theorem Passed.append {offset : Nat} (h : Passed text earlier offset) (later : List Url) :
    Passed text (earlier ++ later) offset := by
  obtain ⟨record, hrecord, hpassed⟩ := h
  exact ⟨record, List.mem_append_left later hrecord, hpassed⟩

-- The cursor goes on behind one more record, or it stays where it is.
theorem Covers.append {next : Nat} (h : Covers text earlier cursor) (hle : cursor ≤ next)
    (hinside : next ≤ text.length)
    (hpassed : ∀ o, cursor ≤ o → o < next → Passed text [record] o)
    (hfound : ∀ o ≤ text.length, record.position = some (positionAt text o) → o < next) :
    Covers text (earlier ++ [record]) next := by
  refine ⟨hinside, fun o ho => ?_, fun other hother o ho hposition => ?_⟩
  · rcases lt_or_ge o cursor with hbefore | hbehind
    · exact (h.passed o hbefore).append [record]
    · obtain ⟨other, hother, hend⟩ := hpassed o hbehind ho
      exact ⟨other, List.mem_append_right earlier hother, hend⟩
  · rcases List.mem_append.mp hother with hother | hother
    · exact (h.found other hother o ho hposition).trans_le hle
    · rw [List.mem_singleton.mp hother] at hposition
      exact hfound o ho hposition

theorem Covers.stay (h : Covers text earlier cursor)
    (hfound : ∀ o ≤ text.length, record.position = some (positionAt text o) → o < cursor) :
    Covers text (earlier ++ [record]) cursor :=
  h.append le_rfl h.inside (fun _ hle ho => absurd hle (not_le.mpr ho)) hfound

theorem Finds.wellPlaced (h : Finds text comments record.value.toList cursor answer)
    (hanswer : record.position = answer.1) (hcovers : Covers text earlier cursor) :
    WellPlaced text comments earlier record := by
  cases h with
  | ahead place hfirst =>
      obtain ⟨⟨hle, hlive⟩, hleast⟩ := hfirst
      refine .inr ⟨place, hanswer, hlive, fun o ho holive => hcovers.passed o ?_, .inl ?_⟩
      · exact not_le.mp fun hle => not_le.mpr ho (hleast ⟨hle, holive⟩)
      · intro other hother o ho hposition
        exact (hcovers.found other hother o ho hposition).trans_le hle
  | behind place hnone hfirst =>
      obtain ⟨hlive, hleast⟩ := hfirst
      refine .inr ⟨place, hanswer, hlive, fun o ho holive => ?_, .inr fun o holive => ?_⟩
      · exact absurd (hleast holive) (not_le.mpr ho)
      · have hbefore : o < cursor := not_le.mp fun hle => hnone o hle holive
        exact ⟨hleast holive, hcovers.passed o hbefore⟩
  | nowhere habsent => exact .inl ⟨hanswer, habsent⟩

-- One answer: the cursor covers the record that is made of it as well.
theorem Finds.covers (h : Finds text comments record.value.toList cursor answer)
    (hanswer : record.position = answer.1) (hvalue : record.value.toList ≠ [])
    (hcovers : Covers text earlier cursor) :
    ∃ next, answer.2 = cursorAt text comments next ∧ Covers text (earlier ++ [record]) next := by
  have hsame : ∀ place ≤ text.length, record.position = some (positionAt text place) →
      ∀ o ≤ text.length, record.position = some (positionAt text o) → o = place := by
    intro place hplace hposition o ho hother
    exact positionAt_injective text ho hplace (Option.some.inj (hother.symm.trans hposition))
  cases h with
  | ahead place hfirst =>
      obtain ⟨⟨hle, hlive⟩, -⟩ := hfirst
      have hend := hlive.add_length_le hvalue
      have hpos := List.length_pos_iff.mpr hvalue
      refine ⟨place + record.value.toList.length, rfl,
        hcovers.append (by omega) hend (fun o _ ho => ?_) fun o ho hposition => ?_⟩
      · exact ⟨record, List.mem_cons_self, place, hanswer, ho⟩
      · rw [hsame place (by omega) hanswer o ho hposition]
        omega
  | behind place hnone hfirst =>
      have hend := hfirst.1.add_length_le hvalue
      refine ⟨cursor, rfl, hcovers.stay fun o ho hposition => ?_⟩
      rw [hsame place (by omega) hanswer o ho hposition]
      exact not_le.mp fun hle => hnone place hle hfirst.1
  | nowhere habsent =>
      refine ⟨cursor, rfl, hcovers.stay fun o ho hposition => ?_⟩
      rw [hanswer] at hposition
      cases hposition

-- A whole run of answers.
theorem wellPlaced_of_answers (records : List Url)
    (hvalues : ∀ record ∈ records, record.value.toList ≠ [] ∧ '\n' ∉ record.value.toList)
    (hcovers : Covers text earlier cursor)
    (hanswers : records.map Url.position = (cursorAt text comments cursor).answers
      (records.map fun record => record.value.toList)) (front back : List Url)
    (hsplit : records = front ++ record :: back) :
    WellPlaced text comments (earlier ++ front) record := by
  induction records generalizing earlier cursor front with
  | nil => cases front <;> cases hsplit
  | cons first records ih =>
      obtain ⟨⟨hvalue, hline⟩, hrest⟩ := List.forall_mem_cons.mp hvalues
      simp only [List.map_cons, answers, List.cons.injEq] at hanswers
      obtain ⟨hposition, hanswers⟩ := hanswers
      have hfinds := finds_locate text comments _ hvalue hline cursor hcovers.inside
      obtain ⟨next, hmoved, hnext⟩ := hfinds.covers hposition hvalue hcovers
      rw [hmoved] at hanswers
      cases front with
      | nil =>
          obtain ⟨rfl, -⟩ := List.cons.inj hsplit
          rw [List.append_nil]
          exact hfinds.wellPlaced hposition hcovers
      | cons other front =>
          obtain ⟨rfl, htail⟩ := List.cons.inj hsplit
          have hrun := ih hrest hnext hanswers front htail
          rwa [List.append_assoc, List.singleton_append] at hrun

end Locator

namespace StructuredScanner

open Locator

variable {scanner : StructuredScanner}

theorem exists_address (tree : Tree) (records : List Url)
    (hpairs : records.map (fun url => (url.value, url.context)) =
      (firsts Prod.fst tree.addresses).map fun item => (item.1, some item.2)) :
    ∀ record ∈ records, ∃ item ∈ tree.addresses, item.1 = record.value := by
  intro record hrecord
  have hpair := List.mem_map_of_mem (f := fun url : Url => (url.value, url.context)) hrecord
  rw [hpairs] at hpair
  obtain ⟨item, hitem, heq⟩ := List.mem_map.mp hpair
  exact ⟨item, mem_of_mem_firsts Prod.fst item _ hitem, (Prod.mk.inj heq).1⟩

theorem sightings_of_read (hrefuses : ∀ leaf, scanner.refuses leaf = none) (text : Text)
    (tree : Tree) (hread : scanner.read text = .ok tree) :
    ∃ after, scanner.scan text {} = .ok after ∧
      after.urls.toList.map (fun url => (url.value, url.position)) =
        ((firsts Prod.fst tree.addresses).map Prod.fst).zip
          ((ofText text scanner.comments).answers
            ((firsts Prod.fst tree.addresses).map fun item => item.1.toList)) := by
  obtain ⟨after, hscan, -, hpairs, hanswers⟩ := scanner.scan_of_read hrefuses text tree hread
  have hvalues := congrArg (List.map fun pair => pair.1) hpairs
  have htexts := congrArg (List.map fun pair => pair.1.toList) hpairs
  simp only [List.map_map, Function.comp_def] at hvalues htexts
  rw [htexts] at hanswers
  refine ⟨after, hscan, ?_⟩
  rw [← List.zip_map', hvalues, hanswers]

-- A position that a scan reports for a value of the tree is one where the text has the value,
-- outside of comment lines. Whether an address goes on behind it is not looked at: none does where
-- each occurrence that is due is a whole address.
theorem positions_point_at_values (hscanner : scanner = toml ∨ scanner = ini) (text : Text)
    (tree : Tree) (hread : scanner.read text = .ok tree) :
    ∃ after, scanner.scan text {} = .ok after ∧
      ∀ earlier record later, after.urls.toList = earlier ++ record :: later →
        WellPlaced text scanner.comments earlier record ∧
        ((∀ o, Due text scanner.comments earlier record.value.toList o →
            text.EndsAt (o + record.value.toList.length)) →
          ∀ position, record.position = some position →
            ∃ place, position = positionAt text place ∧
              record.value.toList <+: text.drop place ∧
              text.EndsAt (place + record.value.toList.length)) := by
  have hrefuses : ∀ leaf, scanner.refuses leaf = none := by
    rcases hscanner with rfl | rfl <;> exact fun _ => rfl
  obtain ⟨after, hscan, -, hpairs, hanswers⟩ := scanner.scan_of_read hrefuses text tree hread
  have hvalues : ∀ record ∈ after.urls.toList,
      record.value.toList ≠ [] ∧ '\n' ∉ record.value.toList := by
    intro record hrecord
    obtain ⟨item, hitem, hvalue⟩ := exists_address tree after.urls.toList hpairs record hrecord
    rw [← hvalue]
    exact ⟨mt String.toList_eq_nil_iff.mp (tree.ne_empty_of_mem_addresses item hitem),
      tree.newline_notMem_of_mem_addresses item hitem⟩
  have hstart : Covers text [] 0 :=
    ⟨Nat.zero_le _, fun o ho => absurd ho (Nat.not_lt_zero o), fun _ hmem => nomatch hmem⟩
  refine ⟨after, hscan, fun earlier record later hsplit => ?_⟩
  have hplaced :=
    wellPlaced_of_answers after.urls.toList hvalues hstart hanswers earlier later hsplit
  rw [List.nil_append] at hplaced
  refine ⟨hplaced, fun hends position hposition => ?_⟩
  obtain ⟨hnone, -⟩ | ⟨place, hplace, hdue⟩ := hplaced
  · rw [hposition] at hnone
    cases hnone
  · obtain rfl := Option.some.inj (hposition.symm.trans hplace)
    exact ⟨place, rfl, hdue.live.1, hends place hdue⟩

theorem positions_point_at_values_repeated :
    let text : Text := "a = 'tel:12'\nb = ['tel:12', 'tel:34']".toList
    ∃ after, toml.scan text {} = .ok after ∧
      after.urls.toList.map (fun url => (url.value, url.position)) =
        [("tel:12", some ⟨1, 6⟩), ("tel:34", some ⟨2, 17⟩)] ∧
      ∀ earlier record later, after.urls.toList = earlier ++ record :: later →
        WellPlaced text toml.comments earlier record ∧
        ∀ position, record.position = some position →
          ∃ place, position = positionAt text place ∧
            record.value.toList <+: text.drop place ∧
            text.EndsAt (place + record.value.toList.length) := by
  intro text
  let tree := Tree.map [("a", .text "tel:12"), ("b", .list [.text "tel:12", .text "tel:34"])]
  have hread : toml.read "a = 'tel:12'\nb = ['tel:12', 'tel:34']".toList = .ok tree := rfl
  obtain ⟨after, hscan, hsightings⟩ := sightings_of_read (fun _ => rfl) text tree hread
  obtain ⟨other, hother, hplaced⟩ := positions_point_at_values (.inl rfl) text tree hread
  obtain rfl := Except.ok.inj (hscan.symm.trans hother)
  have hlist : after.urls.toList.map (fun url => (url.value, url.position)) =
      [("tel:12", some ⟨1, 6⟩), ("tel:34", some ⟨2, 17⟩)] := hsightings.trans (by decide)
  refine ⟨after, hscan, hlist, fun earlier record later hsplit => ?_⟩
  obtain ⟨hwell, hends⟩ := hplaced earlier record later hsplit
  refine ⟨hwell, hends fun o hdue => ?_⟩
  have hvalue : record.value.toList ∈ ["tel:12".toList, "tel:34".toList] := by
    have hmem := List.mem_map_of_mem (f := fun url : Url => (url.value, url.position))
      (hsplit ▸ List.mem_append_right earlier (List.mem_cons_self (l := later)))
    rw [hlist] at hmem
    exact List.mem_map_of_mem (f := fun pair => pair.1.toList) hmem
  have hwhole : ∀ value ∈ ["tel:12".toList, "tel:34".toList], value ≠ [] ∧
      ∀ o < text.length, value <+: text.drop o → text.EndsAt (o + value.length) := by
    decide
  obtain ⟨hne, hwhole⟩ := hwhole _ hvalue
  have hend := hdue.live.add_length_le hne
  have hpos := List.length_pos_iff.mpr hne
  exact hwhole o (by omega) hdue.live.1

-- A value that is repeated is known already and does not move the cursor, so the next one is found
-- inside the repetition.
theorem position_inside_longer_value :
    let text : Text := "a = 'tel:12'\nb = 'tel:12'\nc = 'tel:1'".toList
    ∃ tree after record, toml.read text = .ok tree ∧ toml.scan text {} = .ok after ∧
      record ∈ after.urls.toList ∧ record.position ≠ none ∧
      ∀ place ≤ text.length, record.position = some (positionAt text place) →
        ¬text.EndsAt (place + record.value.toList.length) := by
  intro text
  let tree := Tree.map [("a", .text "tel:12"), ("b", .text "tel:12"), ("c", .text "tel:1")]
  have hread : toml.read "a = 'tel:12'\nb = 'tel:12'\nc = 'tel:1'".toList = .ok tree := rfl
  obtain ⟨after, hscan, hsightings⟩ := sightings_of_read (fun _ => rfl) text tree hread
  have hlist : after.urls.toList.map (fun url => (url.value, url.position)) =
      [("tel:12", some (positionAt text 5)), ("tel:1", some (positionAt text 18))] :=
    hsightings.trans (by decide)
  have hmem : ("tel:1", some (positionAt text 18)) ∈
      after.urls.toList.map fun url => (url.value, url.position) := by
    rw [hlist]
    exact List.mem_cons_of_mem _ List.mem_cons_self
  obtain ⟨record, hrecord, hsame⟩ := List.mem_map.mp hmem
  obtain ⟨hvalue, hposition⟩ := Prod.mk.inj hsame
  refine ⟨tree, after, record, hread, hscan, hrecord, by simp [hposition], ?_⟩
  intro place hplace hother hends
  obtain rfl : 18 = place := positionAt_injective text (by decide) hplace
    (Option.some.inj (hposition.symm.trans hother))
  rw [hvalue] at hends
  exact absurd hends (by decide)

end StructuredScanner

end UrlHarvest
