import Mathlib.Order.Bounds.Defs
import UrlHarvest.Comments.Regions
import UrlHarvest.Proofs.Text.Find
import UrlHarvest.Proofs.Text.Position
import UrlHarvest.Scan.Locator

namespace UrlHarvest

open Text

namespace CommentStyle

variable (style : CommentStyle)

-- What begins a comment goes on as one.
theorem commentsOut_append (front back : Text) (h : style.commentsOut front = true) :
    style.commentsOut (front ++ back) = true := by
  simp only [commentsOut, List.any_eq_true, List.isPrefixOf_iff_prefix] at h ⊢
  obtain ⟨mark, hmark, hstarts⟩ := h
  refine ⟨mark, hmark, ?_⟩
  rw [trimLeft, List.dropWhile_append]
  split
  · rename_i hblank
    rw [List.isEmpty_iff] at hblank
    rw [trimLeft, hblank, List.prefix_nil] at hstarts
    rw [hstarts]
    exact List.nil_prefix
  · exact hstarts.trans (List.prefix_append _ _)

theorem trimLeft_append_cons (front rest : Text) (c : Char) (hc : isBlank c = false) :
    trimLeft (front ++ c :: rest) = trimLeft front ++ c :: rest := by
  rw [trimLeft, List.dropWhile_append]
  split
  · rename_i hblank
    rw [List.isEmpty_iff] at hblank
    rw [trimLeft, hblank, List.dropWhile_cons_of_neg (by simp [hc]), List.nil_append]
  · rfl

-- A code point that is in no mark makes no comment of what stands in front of it.
theorem commentsOut_append_cons (front rest : Text) (c : Char) (hc : isBlank c = false)
    (hmarks : ∀ mark ∈ style.linePrefixes, c ∉ mark) (h : style.commentsOut front = false) :
    style.commentsOut (front ++ c :: rest) = false := by
  simp only [commentsOut, List.any_eq_false, List.isPrefixOf_iff_prefix] at h ⊢
  intro mark hmark hstarts
  rw [trimLeft_append_cons front rest c hc] at hstarts
  exact h mark hmark (prefix_of_notMem mark _ rest c hstarts (hmarks mark hmark))

end CommentStyle

namespace Place

-- The place that many code points behind the front of a text.
def inText (text : Text) (offset : Nat) : Place :=
  (startOf text).skip offset

theorem skip_skip (first second : Nat) (place : Place) :
    (place.skip first).skip second = place.skip (first + second) := by
  induction first generalizing place with
  | zero => rw [skip_zero, Nat.zero_add]
  | succ first ih =>
      obtain ⟨line, before, rest⟩ := place
      rw [Nat.add_right_comm]
      cases rest with
      | nil =>
          have hend : ∀ count, skip count ⟨line, before, []⟩ = ⟨line, before, []⟩ := by
            intro count
            cases count <;> rfl
          simp only [hend]
      | cons c rest =>
          simp only [skip]
          split <;> exact ih _

theorem skip_eq (count : Nat) (place : Place) (hbefore : '\n' ∉ place.before) :
    place.skip count = ⟨place.line + (place.rest.take count).count '\n',
      ((place.rest.take count).reverse ++ place.before).takeWhile (· != '\n'),
      place.rest.drop count⟩ := by
  have hself : ∀ before : Text, '\n' ∉ before → before.takeWhile (· != '\n') = before :=
    fun before h => List.takeWhile_eq_self_iff.mpr (bne_of_notMem h)
  induction count generalizing place with
  | zero =>
      rw [skip_zero, List.take_zero, List.count_nil, List.reverse_nil, List.nil_append,
        hself _ hbefore, List.drop_zero, Nat.add_zero]
  | succ count ih =>
      obtain ⟨line, before, rest⟩ := place
      cases rest with
      | nil =>
          rw [skip, List.take_nil, List.count_nil, List.reverse_nil, List.nil_append,
            hself _ hbefore, List.drop_nil, Nat.add_zero]
      | cons c rest =>
          rw [skip]
          split
          · rename_i hc
            rw [ih _ List.not_mem_nil, hc]
            simp only [List.take_succ_cons, List.count_cons_self, List.reverse_cons,
              List.append_assoc, List.singleton_append, takeWhile_append_newline,
              List.append_nil, List.drop_succ_cons, Place.mk.injEq, and_true]
            omega
          · rename_i hc
            rw [ih _ (by simp [hbefore, Ne.symm hc])]
            simp only [List.take_succ_cons, List.count_cons_of_ne hc, List.reverse_cons,
              List.append_assoc, List.singleton_append, List.drop_succ_cons]

theorem inText_eq (text : Text) (offset : Nat) :
    inText text offset =
      ⟨(text.take offset).count '\n' + 1, (lineBefore text offset).reverse, text.drop offset⟩ := by
  rw [inText, skip_eq offset _ List.not_mem_nil, lineBefore, afterLast, List.reverse_reverse,
    startOf, List.append_nil, Nat.add_comm]

@[simp]
theorem rest_inText (text : Text) (offset : Nat) :
    (inText text offset).rest = text.drop offset := by
  rw [inText_eq]

@[simp]
theorem reverse_before_inText (text : Text) (offset : Nat) :
    (inText text offset).before.reverse = lineBefore text offset := by
  rw [inText_eq, List.reverse_reverse]

theorem skip_inText (text : Text) (offset count : Nat) :
    (inText text offset).skip count = inText text (offset + count) :=
  skip_skip offset count (startOf text)

theorem position_inText (text : Text) (offset : Nat) (ho : offset ≤ text.length) :
    (inText text offset).position = positionAt text offset := by
  rw [inText_eq, position, positionAt_eq text offset ho, List.length_reverse]
  push_cast
  rfl

theorem inText_injective (text : Text) {first second : Nat} (hfirst : first ≤ text.length)
    (hsecond : second ≤ text.length) (h : inText text first = inText text second) :
    first = second := by
  have hlen := congrArg (fun place => place.rest.length) h
  simp only [inText_eq, List.length_drop] at hlen
  omega

end Place

namespace Locator

-- An occurrence that is not in a comment line.
def Live (text : Text) (comments : CommentStyle) (value : Text) (offset : Nat) : Prop :=
  value <+: text.drop offset ∧ comments.commentsOut (lineBefore text offset) = false

-- A locator that has come that far in its text.
def cursorAt (text : Text) (comments : CommentStyle) (cursor : Nat) : Locator :=
  ⟨text, comments, .inText text cursor⟩

def afterAll (locator : Locator) (values : List Text) : Locator :=
  values.foldl (fun locator value => (locator.locate value).2) locator

def findIn (comments : CommentStyle) (value : Text) (skip : Nat) (place : Place) : Option Place :=
  findFrom comments value skip place.line place.before place.rest

variable (text : Text) (comments : CommentStyle) (value : Text)

theorem findIn_nil (skip : Nat) (place : Place) (h : place.rest = []) :
    findIn comments value skip place =
      if skip = 0 ∧ value = [] ∧ !comments.commentsOut place.before.reverse then some place
      else none := by
  obtain ⟨line, before, rest⟩ := place
  obtain rfl : rest = [] := h
  rfl

theorem findIn_succ (skip : Nat) (place : Place) (h : place.rest ≠ []) :
    findIn comments value (skip + 1) place = findIn comments value skip (place.skip 1) := by
  obtain ⟨line, before, rest⟩ := place
  obtain ⟨c, rest, rfl⟩ := List.exists_cons_of_ne_nil h
  by_cases hc : c = '\n' <;> simp only [findIn, findFrom, Place.skip, hc, ite_true, ite_false]

theorem findIn_zero (place : Place) (h : place.rest ≠ []) :
    findIn comments value 0 place =
      if value <+: place.rest then
        if comments.commentsOut place.before.reverse then
          findIn comments value (value.length - 1) (place.skip 1)
        else some place
      else findIn comments value 0 (place.skip 1) := by
  obtain ⟨line, before, rest⟩ := place
  obtain ⟨c, rest, rfl⟩ := List.exists_cons_of_ne_nil h
  by_cases hc : c = '\n' <;>
    simp only [findIn, findFrom, Place.skip, List.isPrefixOf_iff_prefix, hc, ite_true, ite_false]

-- Where the search stops there is a live occurrence.
theorem live_of_findIn (skip offset : Nat) (place : Place) (ho : offset ≤ text.length)
    (h : findIn comments value skip (.inText text offset) = some place) :
    ∃ found, offset ≤ found ∧ found ≤ text.length ∧ Live text comments value found ∧
      place = .inText text found := by
  generalize hleft : text.length - offset = left
  induction left generalizing skip offset with
  | zero =>
      have hend : text.drop offset = [] := List.drop_eq_nil_of_le (by omega)
      rw [findIn_nil _ _ _ _ (by rw [Place.rest_inText, hend])] at h
      split at h
      · rename_i hfound
        obtain ⟨-, rfl, hlive⟩ := hfound
        rw [Place.reverse_before_inText, Bool.not_eq_true'] at hlive
        exact ⟨offset, le_rfl, ho, ⟨List.nil_prefix, hlive⟩, (Option.some.inj h).symm⟩
      · cases h
  | succ left ih =>
      have hrest : (Place.inText text offset).rest ≠ [] := by
        rw [Place.rest_inText, Ne, List.drop_eq_nil_iff]
        omega
      have hlater : ∀ skip, findIn comments value skip (.inText text (offset + 1)) = some place →
          ∃ found, offset ≤ found ∧ found ≤ text.length ∧ Live text comments value found ∧
            place = .inText text found := by
        intro skip h
        obtain ⟨found, hle, hfound⟩ := ih skip (offset + 1) (by omega) h (by omega)
        exact ⟨found, by omega, hfound⟩
      cases skip with
      | succ skip =>
          rw [findIn_succ _ _ _ _ hrest, Place.skip_inText] at h
          exact hlater skip h
      | zero =>
          rw [findIn_zero _ _ _ hrest, Place.rest_inText, Place.reverse_before_inText,
            Place.skip_inText] at h
          split_ifs at h with hstands hcomment
          · exact hlater _ h
          · rw [Bool.not_eq_true] at hcomment
            exact ⟨offset, le_rfl, ho, ⟨hstands, hcomment⟩, (Option.some.inj h).symm⟩
          · exact hlater _ h

-- What the search jumps over is not live: an occurrence of a value without a newline that begins
-- inside one in a comment line is in the same line.
theorem not_live_of_overlap (hline : '\n' ∉ value) (offset inner : Nat)
    (hstands : value <+: text.drop offset)
    (hcomment : comments.commentsOut (lineBefore text offset) = true)
    (hinner : inner ≤ value.length) : ¬Live text comments value (offset + inner) := by
  rintro ⟨-, hlive⟩
  have hrun : value.take inner <+: text.drop offset := (List.take_prefix _ _).trans hstands
  have hbefore := lineBefore_add text (value.take inner) offset hrun
    fun h => hline (List.mem_of_mem_take h)
  rw [List.length_take, Nat.min_eq_left hinner] at hbefore
  rw [hbefore, comments.commentsOut_append _ _ hcomment] at hlive
  cases hlive

-- No live occurrence is passed over.
theorem findIn_of_live (hvalue : value ≠ []) (hline : '\n' ∉ value) (skip offset live : Nat)
    (hlive : Live text comments value live) (hskip : offset + skip ≤ live) :
    ∃ found ≤ live, found ≤ text.length ∧
      findIn comments value skip (.inText text offset) = some (.inText text found) := by
  have hlength : live < text.length := by
    by_contra hover
    rw [Live, List.drop_eq_nil_of_le (by omega), List.prefix_nil] at hlive
    exact hvalue hlive.1
  generalize hleft : live - offset = left
  induction left generalizing skip offset with
  | zero =>
      obtain rfl : offset = live := by omega
      obtain rfl : skip = 0 := by omega
      refine ⟨offset, le_rfl, hlength.le, ?_⟩
      rw [findIn_zero _ _ _ (by simpa using hlength), Place.rest_inText,
        Place.reverse_before_inText, if_pos hlive.1, hlive.2]
      rfl
  | succ left ih =>
      have hrest : (Place.inText text offset).rest ≠ [] := by
        rw [Place.rest_inText, Ne, List.drop_eq_nil_iff]
        omega
      cases skip with
      | succ skip =>
          rw [findIn_succ _ _ _ _ hrest, Place.skip_inText]
          exact ih skip (offset + 1) (by omega) (by omega)
      | zero =>
          rw [findIn_zero _ _ _ hrest, Place.rest_inText, Place.reverse_before_inText,
            Place.skip_inText]
          split_ifs with hstands hcomment
          · refine ih _ (offset + 1) ?_ (by omega)
            by_contra hover
            refine not_live_of_overlap text comments value hline offset (live - offset) hstands
              hcomment (by omega) ?_
            rwa [Nat.add_sub_cancel' (by omega)]
          · exact ⟨offset, by omega, by omega, rfl⟩
          · exact ih 0 (offset + 1) (by omega) (by omega)

theorem findIn_spec (hvalue : value ≠ []) (hline : '\n' ∉ value) (offset : Nat)
    (ho : offset ≤ text.length) :
    (∃ found ≤ text.length, IsLeast {o | offset ≤ o ∧ Live text comments value o} found ∧
        findIn comments value 0 (.inText text offset) = some (.inText text found)) ∨
      ((∀ o, offset ≤ o → ¬Live text comments value o) ∧
        findIn comments value 0 (.inText text offset) = none) := by
  cases hfind : findIn comments value 0 (.inText text offset) with
  | none =>
      refine .inr ⟨fun o hle hlive => ?_, rfl⟩
      obtain ⟨found, -, -, hfound⟩ :=
        findIn_of_live text comments value hvalue hline 0 offset o hlive hle
      rw [hfind] at hfound
      cases hfound
  | some place =>
      obtain ⟨found, hle, hlength, hlive, rfl⟩ :=
        live_of_findIn text comments value 0 offset place ho hfind
      refine .inl ⟨found, hlength, ⟨⟨hle, hlive⟩, ?_⟩, rfl⟩
      rintro o ⟨hle, hlive⟩
      obtain ⟨first, hfirst, hwithin, heq⟩ :=
        findIn_of_live text comments value hvalue hline 0 offset o hlive hle
      rw [hfind, Option.some.injEq] at heq
      rwa [Place.inText_injective text hlength hwithin heq]

-- What a locator answers that has come to `cursor`, and where it stands afterwards.
inductive Finds (cursor : Nat) : Option Position × Locator → Prop
  | ahead (place : Nat) (first : IsLeast {o | cursor ≤ o ∧ Live text comments value o} place) :
      Finds cursor (some (positionAt text place), cursorAt text comments (place + value.length))
  | behind (place : Nat) (passed : ∀ o, cursor ≤ o → ¬Live text comments value o)
      (first : IsLeast {o | Live text comments value o} place) :
      Finds cursor (some (positionAt text place), cursorAt text comments cursor)
  | nowhere (absent : ∀ o, ¬Live text comments value o) :
      Finds cursor (none, cursorAt text comments cursor)

theorem locate_cursorAt (cursor : Nat) :
    (cursorAt text comments cursor).locate value =
      match findIn comments value 0 (.inText text cursor) with
      | some place => (some place.position, ⟨text, comments, place.skip value.length⟩)
      | none =>
        ((findIn comments value 0 (.inText text 0)).map Place.position,
          cursorAt text comments cursor) :=
  rfl

theorem finds_locate (hvalue : value ≠ []) (hline : '\n' ∉ value) (cursor : Nat)
    (hcursor : cursor ≤ text.length) :
    Finds text comments value cursor ((cursorAt text comments cursor).locate value) := by
  rw [locate_cursorAt]
  obtain ⟨place, hplace, hfirst, hfind⟩ | ⟨hpassed, hfind⟩ :=
    findIn_spec text comments value hvalue hline cursor hcursor
  · simp only [hfind, Place.skip_inText, Place.position_inText text place hplace]
    exact .ahead place hfirst
  · simp only [hfind]
    obtain ⟨place, hplace, hfirst, hagain⟩ | ⟨habsent, hagain⟩ :=
      findIn_spec text comments value hvalue hline 0 (Nat.zero_le _)
    · simp only [hagain, Option.map_some, Place.position_inText text place hplace]
      simp only [Nat.zero_le, true_and] at hfirst
      exact .behind place hpassed hfirst
    · simp only [hagain, Option.map_none]
      exact .nowhere fun o => habsent o (Nat.zero_le o)

-- Any value at all, also an empty one or one with a newline, leaves the cursor in the text.
theorem exists_cursor_locate (cursor : Nat) (hcursor : cursor ≤ text.length) :
    ∃ next ≤ text.length,
      ((cursorAt text comments cursor).locate value).2 = cursorAt text comments next := by
  rw [locate_cursorAt]
  cases hfind : findIn comments value 0 (.inText text cursor) with
  | none => exact ⟨cursor, hcursor, rfl⟩
  | some place =>
      obtain ⟨found, -, hfound, ⟨hstands, -⟩, rfl⟩ :=
        live_of_findIn text comments value 0 cursor place hcursor hfind
      have hlength := hstands.length_le
      rw [List.length_drop] at hlength
      refine ⟨found + value.length, by omega, ?_⟩
      simp only [Place.skip_inText]
      rfl

theorem exists_cursor_afterAll (earlier : List Text) :
    ∃ cursor ≤ text.length,
      (ofText text comments).afterAll earlier = cursorAt text comments cursor := by
  suffices h : ∀ start ≤ text.length, ∃ cursor ≤ text.length,
      (cursorAt text comments start).afterAll earlier = cursorAt text comments cursor from
    h 0 (Nat.zero_le _)
  induction earlier with
  | nil => exact fun start hstart => ⟨start, hstart, rfl⟩
  | cons value earlier ih =>
      intro start hstart
      obtain ⟨next, hnext, hlocate⟩ := exists_cursor_locate text comments value start hstart
      rw [afterAll, List.foldl_cons, hlocate]
      exact ih next hnext

variable {text comments value}

theorem Finds.exists_live {cursor : Nat} {answer : Option Position × Locator}
    (h : Finds text comments value cursor answer) :
    ∀ position ∈ answer.1, ∃ place, position = positionAt text place ∧
      Live text comments value place := by
  cases h with
  | ahead place hfirst =>
      rintro _ ⟨⟩
      exact ⟨place, rfl, hfirst.1.2⟩
  | behind place hpassed hfirst =>
      rintro _ ⟨⟩
      exact ⟨place, rfl, hfirst.1⟩
  | nowhere habsent => exact fun position hposition => nomatch hposition

theorem Live.add_length_le {place : Nat} (hvalue : value ≠ [])
    (h : Live text comments value place) : place + value.length ≤ text.length := by
  have hlength := h.1.length_le
  have hpos := List.length_pos_iff.mpr hvalue
  rw [List.length_drop] at hlength
  omega

-- The line of a live occurrence begins no comment either, unless with the value itself.
theorem Live.exists_line {place : Nat} {c : Char} {rest : Text}
    (h : Live text comments (c :: rest) place) (hnewline : c ≠ '\n') (hc : isBlank c = false)
    (hmarks : ∀ mark ∈ comments.linePrefixes, c ∉ mark) :
    ∃ line, (lines text)[((positionAt text place).line - 1).toNat]? = some line ∧
      comments.commentsOut line = false := by
  have hplace := h.add_length_le (List.cons_ne_nil c rest)
  have hle : place ≤ text.length := by omega
  obtain ⟨⟨after, hafter⟩, hlive⟩ := h
  refine ⟨_, ?_, comments.commentsOut_append_cons (lineBefore text place)
    ((rest ++ after).takeWhile (· != '\n')) c hc hmarks hlive⟩
  rw [positionAt_eq text place hle, Int.add_sub_cancel, Int.toNat_natCast,
    getElem?_lines_count text place hle, ← hafter, List.cons_append,
    List.takeWhile_cons_of_pos (by simpa using hnewline)]

-- A locator answers with the first occurrence ahead of it that no comment line hides, or else with
-- the first one of all. An occurrence that begins with no part of a comment mark is in none of the
-- lines that the line scan leaves out either.
theorem locate_finds_first_live (text : Text) (prefixes earlier : List Text) (value : Text)
    (hvalue : value ≠ []) (hline : '\n' ∉ value) :
    let comments : CommentStyle := { linePrefixes := prefixes }
    let locator := (ofText text comments).afterAll earlier
    (∃ cursor ≤ text.length, locator = cursorAt text comments cursor ∧
      Finds text comments value cursor (locator.locate value)) ∧
    ∀ c ∈ value.head?, isBlank c = false → (∀ mark ∈ prefixes, c ∉ mark) →
      ∀ position ∈ (locator.locate value).1,
        ∃ row, (lines text)[(position.line - 1).toNat]? = some row ∧
          (comments.advance .normal row).wholeLine = false := by
  intro comments locator
  obtain ⟨cursor, hcursor, hlocator⟩ := exists_cursor_afterAll text comments earlier
  have hfinds : Finds text comments value cursor (locator.locate value) := by
    rw [show locator = _ from hlocator]
    exact finds_locate text comments value hvalue hline cursor hcursor
  refine ⟨⟨cursor, hcursor, hlocator, hfinds⟩, ?_⟩
  intro c hhead hc hmarks position hposition
  obtain ⟨rest, rfl⟩ : ∃ rest, value = c :: rest := List.head?_eq_some_iff.mp hhead
  obtain ⟨place, rfl, hlive⟩ := hfinds.exists_live position hposition
  have hnewline : c ≠ '\n' := by
    rintro rfl
    exact hline List.mem_cons_self
  obtain ⟨row, hrow, hcomment⟩ := hlive.exists_line hnewline hc hmarks
  refine ⟨row, hrow, ?_⟩
  simp [CommentStyle.advance, comments, hcomment]

theorem locate_finds_first_live_repeated :
    let text := "# tel:1\ntel:1tel:1".toList
    let value := "tel:1".toList
    let comments : CommentStyle := { linePrefixes := ["#".toList] }
    let locator := (ofText text comments).afterAll [value]
    (value ≠ [] ∧ '\n' ∉ value) ∧
    (∃ cursor ≤ text.length, locator = cursorAt text comments cursor ∧
      Finds text comments value cursor (locator.locate value)) ∧
    (locator.locate value).1 = some ⟨2, 6⟩ ∧
    (∀ position ∈ (locator.locate value).1,
      ∃ row, (lines text)[(position.line - 1).toNat]? = some row ∧
        (comments.advance .normal row).wholeLine = false) := by
  intro text value comments locator
  have hvalue : value ≠ [] ∧ '\n' ∉ value := by decide
  obtain ⟨hfinds, hrows⟩ :=
    locate_finds_first_live text ["#".toList] [value] value hvalue.1 hvalue.2
  exact ⟨hvalue, hfinds, by decide, hrows 't' rfl (by decide) (by decide)⟩

end Locator

end UrlHarvest
