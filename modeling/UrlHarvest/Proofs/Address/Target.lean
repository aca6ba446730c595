import UrlHarvest.Proofs.Pattern.Schemes
import UrlHarvest.Proofs.Reference.Kinds
import UrlHarvest.Proofs.Text.Cut
import UrlHarvest.Url

namespace UrlHarvest

open Text

namespace Address

theorem ascii_of_isAsciiLetter {c : Char} (h : isAsciiLetter c = true) : c.toNat < 128 :=
  Reference.ascii_of_isLabelChar c
    (Reference.isLabelChar_of_isLabelStart c (Reference.isLabelStart_of_isAsciiLetter c h))

theorem not_junk_of_isAsciiLetter {c : Char} (h : isAsciiLetter c = true) :
    isLeadingJunk c = false ∧ isDropped c = false ∧ c ≠ ':' ∧ isSchemeChar c = true := by
  have hc := ascii_of_isAsciiLetter h
  revert h
  exact forall_ascii (P := fun c => isAsciiLetter c = true → isLeadingJunk c = false ∧
    isDropped c = false ∧ c ≠ ':' ∧ isSchemeChar c = true) (by decide) c hc

-- Letters in front of a colon are a scheme.
theorem dropScheme_letters (letters rest : Text) (hne : letters ≠ [])
    (hletters : ∀ c ∈ letters, isAsciiLetter c = true) :
    dropScheme (letters ++ ':' :: rest) = rest := by
  have hcolon : ':' ∉ letters := fun h => (not_junk_of_isAsciiLetter (hletters _ h)).2.2.1 rfl
  rw [dropScheme, cutAt_append_cons ':' letters rest hcolon]
  cases letters with
  | nil => exact absurd rfl hne
  | cons c name =>
      obtain ⟨hc, hname⟩ := List.forall_mem_cons.mp hletters
      have hall : name.all isSchemeChar = true :=
        List.all_eq_true.mpr fun d hd => (not_junk_of_isAsciiLetter (hname d hd)).2.2.2
      simp only [hc, hall, Bool.and_self, if_true]

-- Nothing is lost in front of an address that begins with a letter.
theorem cleaned_letters (letters rest : Text) (hne : letters ≠ [])
    (hletters : ∀ c ∈ letters, isAsciiLetter c = true) :
    cleaned (letters ++ rest) = letters ++ rest.filter (!isDropped ·) := by
  have hkept : letters.filter (!isDropped ·) = letters :=
    List.filter_eq_self.mpr fun c hc => by
      rw [(not_junk_of_isAsciiLetter (hletters c hc)).2.1, Bool.not_false]
  cases letters with
  | nil => exact absurd rfl hne
  | cons c name =>
      have hc := (not_junk_of_isAsciiLetter (hletters c List.mem_cons_self)).1
      rw [cleaned, List.cons_append, List.dropWhile_cons_of_neg (by simp [hc]), ← List.cons_append,
        List.filter_append, hkept]

end Address

namespace Scheme

-- The schemes whose addresses name a host are written with two slashes.
theorem exists_letters_of_hasAuthority (value : Text) (h : (ofAddress value).hasAuthority = true) :
    ∃ letters rest, letters ≠ [] ∧ (∀ c ∈ letters, isAsciiLetter c = true) ∧
      value = letters ++ ':' :: '/' :: '/' :: rest := by
  have hmark : ∃ mark ∈ marks, BeginsPlainly mark.1 value := by
    by_contra hnone
    rw [ofAddress_of_no_mark value fun mark hmark hbegins => hnone ⟨mark, hmark, hbegins⟩] at h
    cases h
  obtain ⟨mark, hmem, hbegins⟩ := hmark
  rw [ofAddress_of_beginsPlainly mark hmem value hbegins] at h
  have hshape : ∀ mark ∈ marks, mark.2.hasAuthority = true →
      (cutAt ':' mark.1).1 ≠ [] ∧
      (cutAt ':' mark.1).1.all (fun c => isAsciiLetter c && c != 'k') = true ∧
      mark.1 = (cutAt ':' mark.1).1 ++ "://".toList := by decide
  obtain ⟨hne, hname, he⟩ := hshape mark hmem h
  obtain ⟨front, rest, rfl, hplain, hfold⟩ := hbegins
  rw [he] at hfold
  obtain ⟨letters, slashes, rfl, hletters, hslashes⟩ := List.map_eq_append_iff.mp hfold
  obtain ⟨hfront, hbehind⟩ := List.forall_mem_append.mp hplain
  obtain rfl := eq_of_map_foldLetter hbehind hslashes (by decide)
  rw [← hletters] at hne hname
  refine ⟨letters, rest, by simpa using hne, fun c hc => ?_, by simp⟩
  have hletter := List.all_eq_true.mp hname _ (List.mem_map_of_mem hc)
  rw [Bool.and_eq_true, bne_iff_ne] at hletter
  exact (hfront c hc).isAsciiLetter_of_foldLetter hletter.1 hletter.2

end Scheme

namespace Address

-- Where the authority begins in an address with letters in front of it, and where it ends.
theorem cutAuthority_letters (letters rest : Text) (hne : letters ≠ [])
    (hletters : ∀ c ∈ letters, isAsciiLetter c = true) :
    cutAuthority (dropScheme (cleaned (letters ++ ':' :: '/' :: '/' :: rest))) =
      ((rest.filter (!isDropped ·)).takeWhile (!endsAuthority ·),
        (rest.filter (!isDropped ·)).dropWhile (!endsAuthority ·)) := by
  rw [cleaned_letters letters _ hne hletters]
  have hmarks : (':' :: '/' :: '/' :: rest).filter (!isDropped ·) =
      ':' :: '/' :: '/' :: rest.filter (!isDropped ·) := rfl
  rw [hmarks, dropScheme_letters letters _ hne hletters]
  rfl

-- What stands behind an authority, taken apart.
def behind (authority rest : Text) : Address :=
  ⟨authority, (cutAt '?' (cutAt '#' rest).1).1, (cutAt '?' (cutAt '#' rest).1).2.getD [],
    (cutAt '#' rest).2.getD []⟩

theorem parse?_eq_some_iff (value authority rest : Text) (address : Address)
    (hrest : cutAuthority (dropScheme (cleaned value)) = (authority, rest)) :
    parse? value = some address ↔
      isAuthority authority = true ∧ behind authority rest = address := by
  simp only [parse?, hrest, Option.ite_none_right_eq_some, Option.some.injEq, behind]

-- Each part of an address ends in front of the mark of the next one, and nothing that is dropped
-- is in it. A path begins with a slash, or is left out.
structure IsCut (address : Address) : Prop where
  path : '#' ∉ address.path ∧ '?' ∉ address.path
  query : '#' ∉ address.query
  kept : ∀ c ∈ address.target, isDropped c = false
  rooted : address.path = [] ∨ address.path.head? = some '/'

theorem mem_target (address : Address) (c : Char) (hc : c ∈ address.target) :
    c ∈ "/?#".toList ∨ c ∈ address.path ∨ c ∈ address.query ∨ c ∈ address.fragment := by
  simp only [target, List.mem_append] at hc
  rcases hc with (hc | hc) | hc
  · split at hc
    · exact .inl (List.mem_of_mem_head? (List.mem_singleton.mp hc ▸ rfl))
    · exact .inr (.inl hc)
  · split at hc
    · cases hc
    · rcases List.mem_cons.mp hc with rfl | hc
      · exact .inl (by decide)
      · exact .inr (.inr (.inl hc))
  · split at hc
    · cases hc
    · rcases List.mem_cons.mp hc with rfl | hc
      · exact .inl (by decide)
      · exact .inr (.inr (.inr hc))

theorem isCut_behind (authority rest : Text) (hkept : ∀ c ∈ rest, isDropped c = false)
    (hhead : ∀ c ∈ rest.head?, endsAuthority c = true) : (behind authority rest).IsCut := by
  have hfront := cutAt_prefix '#' rest
  have hpath := cutAt_prefix '?' (cutAt '#' rest).1
  have hquery := cutAt_suffix '?' (cutAt '#' rest).1
  have hhash := notMem_cutAt '#' rest
  have hmark := notMem_cutAt '?' (cutAt '#' rest).1
  refine ⟨⟨fun h => hhash (hpath.subset h), hmark⟩, fun h => hhash (hquery.subset h),
    fun c hc => ?_, ?_⟩
  · rcases mem_target _ c hc with hc | hc | hc | hc
    · have hmarks : "/?#".toList.any isDropped = false := by decide
      exact Bool.eq_false_iff.mpr (List.any_eq_false.mp hmarks c hc)
    · exact hkept c (hfront.subset (hpath.subset hc))
    · exact hkept c (hfront.subset (hquery.subset hc))
    · exact hkept c ((cutAt_suffix '#' rest).subset hc)
  · cases hwhole : (cutAt '?' (cutAt '#' rest).1).1 with
    | nil => exact .inl hwhole
    | cons c path =>
        right
        rw [hwhole] at hpath hmark
        obtain ⟨more, he⟩ := hpath.trans hfront
        have hc : endsAuthority c = true := hhead c (he ▸ rfl)
        have hne : c ≠ '#' := fun h => hhash (hpath.subset (h ▸ List.mem_cons_self))
        have hne' : c ≠ '?' := fun h => hmark (h ▸ List.mem_cons_self)
        simp only [endsAuthority, Bool.or_eq_true, beq_iff_eq] at hc
        rw [behind, hwhole, List.head?_cons, (hc.resolve_right hne).resolve_right hne']

theorem isCut_of_parse? (value : Text) (address : Address)
    (hauthority : (Scheme.ofAddress value).hasAuthority = true)
    (h : parse? value = some address) : address.IsCut := by
  obtain ⟨letters, rest, hne, hletters, rfl⟩ :=
    Scheme.exists_letters_of_hasAuthority value hauthority
  have hcut := cutAuthority_letters letters rest hne hletters
  obtain ⟨-, rfl⟩ := (parse?_eq_some_iff _ _ _ _ hcut).mp h
  refine isCut_behind _ _ (fun c hc => ?_) (fun c hc => ?_)
  · have hmem := (List.dropWhile_suffix _).subset hc
    simpa using (List.mem_filter.mp hmem).2
  · have hhead := List.head?_dropWhile_not (!endsAuthority ·) (rest.filter (!isDropped ·))
    rw [Option.mem_def.mp hc] at hhead
    simpa using hhead

namespace IsCut

variable {address : Address} (h : address.IsCut)
include h

theorem head?_target : address.target.head? = some '/' := by
  rw [target]
  rcases h.rooted with hpath | hpath
  · simp [hpath]
  · have hne : address.path ≠ [] := by
      intro he
      rw [he] at hpath
      cases hpath
    simp [hne, hpath]

-- A target is split where it was put together.
theorem behind_target (authority : Text) :
    behind authority address.target =
      ⟨authority, if address.path.isEmpty then ['/'] else address.path, address.query,
        address.fragment⟩ := by
  have hpath : '?' ∉ (if address.path.isEmpty then ['/'] else address.path) := by
    split
    · decide
    · exact h.path.2
  have hfront : '#' ∉ (if address.path.isEmpty then ['/'] else address.path) ++
      (if address.query.isEmpty then [] else '?' :: address.query) := by
    refine fun hmem => (List.mem_append.mp hmem).elim ?_ ?_
    · split
      · decide
      · exact h.path.1
    · split
      · exact List.not_mem_nil
      · exact fun hquery => h.query ((List.mem_cons.mp hquery).resolve_left (by decide))
  obtain ⟨hcut, hfragment⟩ := cutAt_append_marked '#' _ address.fragment hfront
  obtain ⟨hroot, hquery⟩ := cutAt_append_marked '?' _ address.query hpath
  rw [behind, target, hcut, hfragment, hroot, hquery]

theorem target_behind_target (authority : Text) :
    (behind authority address.target).target = address.target := by
  rw [h.behind_target]
  by_cases hpath : address.path = [] <;> simp [target, hpath]

-- The target behind another authority is split off again.
theorem parse?_target :
    parse? ("https://x".toList ++ address.target) = some (behind ['x'] address.target) := by
  have hkept : ('x' :: address.target).filter (!isDropped ·) = 'x' :: address.target :=
    List.filter_eq_self.mpr (List.forall_mem_cons.mpr
      ⟨rfl, fun c hc => by rw [h.kept c hc, Bool.not_false]⟩)
  have hcut := cutAuthority_letters "https".toList ('x' :: address.target) (by decide)
    (List.all_eq_true.mp (by decide))
  obtain ⟨rest, hrest⟩ := List.head?_eq_some_iff.mp h.head?_target
  have hsplit : cutAuthority (dropScheme (cleaned ("https://x".toList ++ address.target))) =
      (['x'], address.target) := by
    rw [hkept] at hcut
    refine hcut.trans ?_
    rw [hrest]
    rfl
  exact (parse?_eq_some_iff _ _ _ _ hsplit).mpr ⟨by decide +kernel, rfl⟩

theorem components_target :
    Components.of? ("https://x".toList ++ address.target) =
      some ⟨.https, some "x", some (String.ofList address.target)⟩ := by
  have hscheme : Scheme.ofAddress ("https://x".toList ++ address.target) = .https :=
    Scheme.ofAddress_of_beginsPlainly ("https://".toList, .https) (by decide) _
      (.of_ascii_front "https://".toList ('x' :: address.target)
        (Scheme.readable_marks.plain ("https://".toList, .https) (by decide)).ascii)
  have hhost : (behind ['x'] address.target).host? = some ['x'] := by
    rw [h.behind_target]
    rfl
  rw [Components.of?, h.parse?_target, Option.map_some, hscheme, hhost, h.target_behind_target]
  rfl

end IsCut

end Address

namespace Components

-- The path of an address of a scheme with hosts begins with a slash, and behind another host it is
-- read again as it stands. Such an address is valid exactly if it names a host, and its record has
-- the same host and path.
theorem path_is_split_to_itself (value : String) (components : Components)
    (hscheme : Scheme.ofAddress value.toList ∈ [Scheme.http, .https, .ftp])
    (h : Components.of? value.toList = some components) :
    (∃ path : String, components.path = some path ∧ path.toList.head? = some '/' ∧
      Components.of? ("https://x" ++ path).toList = some ⟨.https, some "x", some path⟩) ∧
    (isValidUrl value.toList = true ↔ components.host.isSome = true) ∧
    ∀ position context type,
      (Url.ofValue value position context type).host = components.host ∧
        (Url.ofValue value position context type).path = components.path := by
  have hauthority : (Scheme.ofAddress value.toList).hasAuthority = true := by
    revert hscheme
    cases Scheme.ofAddress value.toList <;> decide
  obtain ⟨address, hparse, he⟩ := Option.map_eq_some_iff.mp h
  simp only [hauthority, if_true] at he
  subst he
  have hcut := Address.isCut_of_parse? value.toList address hauthority hparse
  refine ⟨⟨String.ofList address.target, rfl, ?_, ?_⟩, ?_, fun position context type => ?_⟩
  · rw [String.toList_ofList]
    exact hcut.head?_target
  · rw [String.toList_append, @String.toList_ofList address.target]
    exact hcut.components_target
  · have hvalid : isValidUrl value.toList = address.host?.isSome := by
      rw [isValidUrl, hparse]
      revert hscheme
      cases Scheme.ofAddress value.toList <;> simp
    rw [hvalid, Option.isSome_map]
  · rw [Url.ofValue, h]
    exact ⟨rfl, rfl⟩

-- No path is written here, the query holds a slash, and the fragment a tab and a question mark.
theorem path_is_split_to_itself_without_slash :
    let value := "HtTp://u@Ex.com:8080?q=/a#\tf?g"
    let path := "/?q=/a#f?g"
    Scheme.ofAddress value.toList ∈ [Scheme.http, .https, .ftp] ∧
    Components.of? value.toList = some ⟨.http, some "ex.com", some path⟩ ∧
    Components.of? ("https://x" ++ path).toList = some ⟨.https, some "x", some path⟩ ∧
    isValidUrl value.toList = true := by
  intro value path
  have hscheme : Scheme.ofAddress value.toList ∈ [Scheme.http, .https, .ftp] := by decide
  have hsplit : Components.of? value.toList = some ⟨.http, some "ex.com", some path⟩ := by
    decide +kernel
  obtain ⟨⟨other, hpath, -, hfixed⟩, hvalid, -⟩ :=
    path_is_split_to_itself value _ hscheme hsplit
  cases hpath
  exact ⟨hscheme, hsplit, hfixed, hvalid.mpr rfl⟩

end Components

end UrlHarvest
