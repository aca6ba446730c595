import Mathlib.Data.List.Induction
import UrlHarvest.Proofs.Entries
import UrlHarvest.Proofs.Scan.Registry
import UrlHarvest.Scan.RegistryStep

namespace UrlHarvest

-- What happens to one format.
inductive Change
  | entered (format : FileFormat) (scanner : Scanner)
  | left (format : FileFormat)

namespace Change

def format : Change → FileFormat
  | entered format _ => format
  | left format => format

-- The scanner that entered for the format last and has not left since.
def Holds (history : List Change) (format : FileFormat) (scanner : Scanner) : Prop :=
  ∃ before after, history = before ++ entered format scanner :: after ∧
    ∀ change ∈ after, change.format ≠ format

-- The change by which a format came in to stay: there was no scanner for it before, and it has
-- never been left without one since.
structure CameIn (history : List Change) (format : FileFormat) (i : Nat) : Prop where
  entered : ∃ scanner, history[i]? = some (.entered format scanner)
  absent : ∀ scanner, ¬ Holds (history.take i) format scanner
  stays : ∀ j > i, history[j]? ≠ some (.left format)

def apply (known : List (FileFormat × Scanner)) : Change → List (FileFormat × Scanner)
  | entered format scanner => Entries.put known format scanner
  | left format => Entries.erase known format

def replay (known : List (FileFormat × Scanner)) (history : List Change) :
    List (FileFormat × Scanner) :=
  history.foldl apply known

variable {history : List Change} {change : Change} {format : FileFormat} {scanner : Scanner}
  {known : List (FileFormat × Scanner)} {i j : Nat}

theorem replay_append (front back : List Change) :
    replay known (front ++ back) = replay (replay known front) back :=
  List.foldl_append

theorem not_holds_nil : ¬ Holds [] format scanner := by
  rintro ⟨before, after, he, -⟩
  simp at he

-- One change more decides for its own format and for no other.
theorem holds_concat_iff :
    Holds (history ++ [change]) format scanner ↔
      change = entered format scanner ∨
        change.format ≠ format ∧ Holds history format scanner := by
  constructor
  · rintro ⟨before, after, he, hafter⟩
    rcases List.eq_nil_or_concat after with rfl | ⟨middle, last, rfl⟩
    · exact .inl (List.append_inj_right' he rfl |> List.cons.inj |>.1)
    · rw [List.concat_eq_append, ← List.cons_append, ← List.append_assoc] at he
      obtain ⟨hfront, hlast⟩ := List.append_inj' he rfl
      obtain rfl := (List.cons.inj hlast).1
      refine .inr ⟨hafter change (by simp), before, middle, hfront, ?_⟩
      intro other hother
      exact hafter other (by simp [hother])
  · rintro (rfl | ⟨hne, before, after, rfl, hafter⟩)
    · exact ⟨history, [], rfl, by simp⟩
    · refine ⟨before, after ++ [change], by simp, ?_⟩
      intro other hother
      rcases List.mem_append.mp hother with hother | hother
      · exact hafter other hother
      · exact List.mem_singleton.mp hother ▸ hne

theorem lookup_apply (change : Change) :
    (apply known change).lookup format =
      match change with
      | entered other scanner => if format = other then some scanner else known.lookup format
      | left other => if format = other then none else known.lookup format := by
  cases change with
  | entered other scanner => simp [apply, Entries.lookup_put]
  | left other => simp [apply, Entries.lookup_erase]

theorem lookup_replay_iff :
    (replay [] history).lookup format = some scanner ↔ Holds history format scanner := by
  induction history using List.reverseRecOn with
  | nil => simp [replay, not_holds_nil]
  | append_singleton front change ih =>
      rw [replay_append, holds_concat_iff, ← ih]
      change (apply _ change).lookup format = some scanner ↔ _
      rw [lookup_apply]
      cases change with
      | entered other found =>
          by_cases ho : format = other
          · subst ho
            simp [Change.format, eq_comm]
          · simp [Change.format, ho, Ne.symm ho]
      | left other =>
          by_cases ho : format = other
          · simp [Change.format, ho]
          · simp [Change.format, ho, Ne.symm ho]

theorem CameIn.lt_length (h : CameIn history format i) : i < history.length := by
  obtain ⟨scanner, he⟩ := h.entered
  exact (List.getElem?_eq_some_iff.mp he).1

theorem CameIn.take (h : CameIn history format i) (n : Nat) (hn : i < n) :
    CameIn (history.take n) format i where
  entered := by
    rw [List.getElem?_take_of_lt hn]
    exact h.entered
  absent := by
    rw [List.take_take, Nat.min_eq_left (Nat.le_of_lt hn)]
    exact h.absent
  stays := by
    intro j hj
    by_cases hjn : j < n
    · rw [List.getElem?_take_of_lt hjn]
      exact h.stays j hj
    · rw [List.getElem?_take_eq_none (Nat.le_of_not_lt hjn)]
      simp

theorem CameIn.concat (h : CameIn history format i) (hstays : change ≠ .left format) :
    CameIn (history ++ [change]) format i where
  entered := by
    rw [List.getElem?_append_left h.lt_length]
    exact h.entered
  absent := by
    rw [List.take_append_of_le_length (Nat.le_of_lt h.lt_length)]
    exact h.absent
  stays := by
    intro j hj
    rw [List.getElem?_append]
    split
    · exact h.stays j hj
    · intro hleft
      have hmem := List.mem_of_getElem? hleft
      exact hstays (List.mem_singleton.mp hmem).symm

-- A format for which there was no scanner comes in last.
theorem cameIn_concat_entered (habsent : ∀ scanner, ¬ Holds history format scanner) :
    CameIn (history ++ [.entered format scanner]) format history.length where
  entered := ⟨scanner, by simp⟩
  absent := by simpa using habsent
  stays := by
    intro j hj
    rw [List.getElem?_eq_none (by simp; omega)]
    simp

theorem CameIn.exists_holds (h : CameIn history format i) :
    ∃ scanner, Holds history format scanner := by
  induction history using List.reverseRecOn with
  | nil => exact absurd h.lt_length (Nat.not_lt_zero i)
  | append_singleton front change ih =>
      have hle : i ≤ front.length := by
        have hlt := h.lt_length
        rw [List.length_append, List.length_singleton] at hlt
        omega
      by_cases hlast : i = front.length
      · obtain ⟨scanner, he⟩ := h.entered
        obtain rfl : change = .entered format scanner := by simpa [hlast] using he
        exact ⟨scanner, holds_concat_iff.mpr (.inl rfl)⟩
      · have hi : i < front.length := by omega
        have hfront := h.take front.length hi
        rw [List.take_left] at hfront
        obtain ⟨scanner, hholds⟩ := ih hfront
        by_cases hne : change.format = format
        · cases change with
          | entered other found =>
              obtain rfl : other = format := hne
              exact ⟨found, holds_concat_iff.mpr (.inl rfl)⟩
          | left other =>
              obtain rfl : other = format := hne
              exact absurd (by simp) (h.stays front.length hi)
        · exact ⟨scanner, holds_concat_iff.mpr (.inr ⟨hne, hholds⟩)⟩

theorem CameIn.unique (hi : CameIn history format i) (hj : CameIn history format j) : i = j := by
  rcases Nat.lt_trichotomy i j with hlt | he | hgt
  · obtain ⟨scanner, hholds⟩ := (hi.take j hlt).exists_holds
    exact absurd hholds (hj.absent scanner)
  · exact he
  · obtain ⟨scanner, hholds⟩ := (hj.take i hgt).exists_holds
    exact absurd hholds (hi.absent scanner)

-- Of two formats the one before the other came in before it.
def Before (history : List Change) (format other : FileFormat) : Prop :=
  ∃ i j, CameIn history format i ∧ CameIn history other j ∧ i < j

theorem Before.ne {other : FileFormat} (h : Before history format other) : format ≠ other := by
  rintro rfl
  obtain ⟨i, j, hi, hj, hlt⟩ := h
  exact Nat.ne_of_lt hlt (hi.unique hj)

theorem mem_keys_replay_iff :
    format ∈ Entries.keys (replay [] history) ↔ ∃ scanner, Holds history format scanner := by
  rw [Entries.mem_keys_iff]
  simp only [lookup_replay_iff]

theorem exists_cameIn_of_mem_keys (h : format ∈ Entries.keys (replay [] history)) :
    ∃ i, CameIn history format i := by
  induction history using List.reverseRecOn with
  | nil => simp [replay, Entries.keys] at h
  | append_singleton front change ih =>
      by_cases hfront : format ∈ Entries.keys (replay [] front)
      · obtain ⟨i, hi⟩ := ih hfront
        refine ⟨i, hi.concat ?_⟩
        rintro rfl
        obtain ⟨scanner, hholds⟩ := mem_keys_replay_iff.mp h
        rcases holds_concat_iff.mp hholds with he | ⟨hne, -⟩
        · cases he
        · exact hne rfl
      · have habsent := not_exists.mp (mt mem_keys_replay_iff.mpr hfront)
        obtain ⟨scanner, hholds⟩ := mem_keys_replay_iff.mp h
        rcases holds_concat_iff.mp hholds with rfl | ⟨-, hbefore⟩
        · exact ⟨_, cameIn_concat_entered habsent⟩
        · exact absurd hbefore (habsent scanner)

-- What a change does to the order: a format that is known keeps its place, one that is new goes
-- last, and one that is left without a scanner goes.
theorem keys_apply_cases (known : List (FileFormat × Scanner)) (change : Change) :
    (∃ format scanner, change = entered format scanner ∧ format ∈ Entries.keys known ∧
      Entries.keys (apply known change) = Entries.keys known) ∨
    (∃ format scanner, change = entered format scanner ∧ format ∉ Entries.keys known ∧
      Entries.keys (apply known change) = Entries.keys known ++ [format]) ∨
    (∃ format, change = left format ∧
      Entries.keys (apply known change) = (Entries.keys known).filter (!· == format)) := by
  cases change with
  | entered format scanner =>
      by_cases h : format ∈ Entries.keys known
      · exact .inl ⟨format, scanner, rfl, h, Entries.keys_put_of_mem known format scanner h⟩
      · exact .inr (.inl
          ⟨format, scanner, rfl, h, Entries.keys_put_of_notMem known format scanner h⟩)
  | left format => exact .inr (.inr ⟨format, rfl, Entries.keys_erase known format⟩)

theorem Before.concat {other : FileFormat} (h : Before history format other)
    (hformat : change ≠ .left format) (hother : change ≠ .left other) :
    Before (history ++ [change]) format other := by
  obtain ⟨i, j, hi, hj, hlt⟩ := h
  exact ⟨i, j, hi.concat hformat, hj.concat hother, hlt⟩

theorem pairwise_before_replay (history : List Change) :
    (Entries.keys (replay [] history)).Pairwise (Before history) := by
  induction history using List.reverseRecOn with
  | nil => exact .nil
  | append_singleton front change ih =>
      rw [replay_append]
      change (Entries.keys (apply (replay [] front) change)).Pairwise _
      rcases keys_apply_cases (replay [] front) change with
        ⟨name, scanner, rfl, -, hkeys⟩ | ⟨name, scanner, rfl, hnew, hkeys⟩ |
          ⟨name, rfl, hkeys⟩
      · rw [hkeys]
        exact ih.imp fun h => h.concat (by simp) (by simp)
      · rw [hkeys, List.pairwise_append]
        refine ⟨ih.imp fun h => h.concat (by simp) (by simp), List.pairwise_singleton _ _, ?_⟩
        intro format hformat other hother
        obtain rfl := List.mem_singleton.mp hother
        obtain ⟨i, hi⟩ := exists_cameIn_of_mem_keys hformat
        have habsent := not_exists.mp (mt mem_keys_replay_iff.mpr hnew)
        exact ⟨i, front.length, hi.concat (by simp), cameIn_concat_entered habsent, hi.lt_length⟩
      · rw [hkeys]
        refine (ih.filter _).imp_of_mem ?_
        intro format other hformat hother h
        have hne : ∀ kept ∈ (Entries.keys (replay [] front)).filter (!· == name),
            (.left name : Change) ≠ .left kept := by
          intro kept hkept he
          have hkept := (List.mem_filter.mp hkept).2
          simp [(Change.left.inj he).symm] at hkept
        exact h.concat (hne format hformat) (hne other hother)

end Change

namespace Registry

open Change

variable (registry : Registry)

-- A scanner enters for its formats one by one.
def entries (scanner : Scanner) : List Change :=
  scanner.formats.map fun format => .entered format scanner

-- What comes of registering scanners up to the first that is refused.
def loaded (registry : Registry) : List Scanner → List Change
  | [] => []
  | scanner :: rest =>
    match registry.register scanner false with
    | .ok next => entries scanner ++ next.loaded rest
    | .error _ => []

-- What a step does to the formats. A step that fails does nothing to them, except that what was
-- loaded before a fault has entered.
def changes (registry : Registry) : RegistryStep → List Change
  | .register scanner override =>
    match registry.register scanner override with
    | .ok _ => entries scanner
    | .error _ => []
  | .unregister request => (request.resolve?.map Change.left).toList
  | .clear => FileFormat.all.map .left
  | .loadBuiltin => registry.loaded Scanner.builtin
  | .makeExtractor => if registry.scanners.isEmpty then registry.loaded Scanner.builtin else []

def history (registry : Registry) : List RegistryStep → List Change
  | [] => []
  | step :: rest => registry.changes step ++ (registry.perform step).1.history rest

theorem scanners_register (scanner : Scanner) (override : Bool) (next : Registry)
    (h : registry.register scanner override = .ok next) :
    next.scanners = replay registry.scanners (entries scanner) := by
  unfold register at h
  split at h
  · cases h
  · obtain rfl := Except.ok.inj h
    rw [replay, entries, List.foldl_map]
    rfl

theorem scanners_registerAll (scanners : List Scanner) :
    (registry.registerAll scanners).1.scanners =
      replay registry.scanners (registry.loaded scanners) := by
  induction scanners generalizing registry with
  | nil => rfl
  | cons scanner rest ih =>
      rw [registerAll, loaded]
      cases hregister : registry.register scanner false with
      | error fault => rfl
      | ok next =>
          rw [replay_append, ← registry.scanners_register scanner false next hregister]
          exact ih next

-- Every format has left once all of them have.
theorem replay_left (known : List (FileFormat × Scanner)) (formats : List FileFormat) :
    replay known (formats.map .left) = known.filter fun entry => !formats.contains entry.1 := by
  induction formats generalizing known with
  | nil => exact (List.filter_eq_self.mpr fun _ _ => rfl).symm
  | cons format rest ih =>
      rw [List.map_cons]
      change replay (Entries.erase known format) (rest.map .left) = _
      rw [ih, Entries.erase, List.filter_filter]
      simp only [List.contains_cons, Bool.not_or, Bool.and_comm]

theorem scanners_perform (step : RegistryStep) :
    (registry.perform step).1.scanners = replay registry.scanners (registry.changes step) := by
  cases step with
  | register scanner override =>
      rw [perform, changes]
      cases hregister : registry.register scanner override with
      | error fault => rfl
      | ok next => exact registry.scanners_register scanner override next hregister
  | unregister request =>
      rw [perform, changes]
      cases request with
      | exact format => rfl
      | byTag text =>
          rw [unregister, FormatRequest.resolve?]
          cases FileFormat.ofTag? text <;> rfl
  | clear =>
      rw [perform, changes, replay_left]
      exact (List.filter_eq_nil_iff.mpr fun entry _ => by simp [FileFormat.mem_all]).symm
  | loadBuiltin => exact registry.scanners_registerAll Scanner.builtin
  | makeExtractor =>
      rw [perform, changes, filled]
      split
      · exact registry.scanners_registerAll Scanner.builtin
      · rfl

theorem scanners_performAll (steps : List RegistryStep) :
    (registry.performAll steps).scanners = replay registry.scanners (registry.history steps) := by
  induction steps generalizing registry with
  | nil => rfl
  | cons step rest ih =>
      rw [history, replay_append, ← scanners_perform, ← ih]
      rfl

-- What can be read off a registry is what its history says.
structure Follows (registry : Registry) (history : List Change) : Prop where
  found : ∀ request scanner, registry.get request = .ok scanner ↔
    ∃ format, request.resolve? = some format ∧ Holds history format scanner
  missing : ∀ request,
    (¬ ∃ format scanner, request.resolve? = some format ∧ Holds history format scanner) →
      registry.get request = .error (.noScanner request)
  known : ∀ format, format ∈ registry.formats ↔ ∃ i, CameIn history format i
  nodup : registry.formats.Nodup
  order : registry.formats.Pairwise (Before history)

-- What a single step does to a registry, and what it never does.
structure Steady (registry : Registry) : Prop where
  refused : ∀ scanner override,
    (registry.perform (.register scanner override)).2.isSome = true ↔
      override = false ∧ ∃ format ∈ scanner.formats, format ∈ registry.formats
  unchanged : ∀ scanner override, (registry.perform (.register scanner override)).2.isSome = true →
    (registry.perform (.register scanner override)).1 = registry
  notRemoved : ∀ request, (registry.perform (.unregister request)).2.isSome = true →
    (registry.perform (.unregister request)).1 = registry
  notReplaced : ∀ scanner format held, registry.scannerOf? format = some held →
    (registry.perform (.register scanner false)).1.scannerOf? format = some held
  inPlace : ∀ scanner, (∀ format ∈ scanner.formats, format ∈ registry.formats) →
    (registry.perform (.register scanner true)).1.formats = registry.formats
  filledOnce : registry.formats ≠ [] → (registry.perform .makeExtractor).1 = registry
  filled : registry.formats = [] → ∀ format,
    format ∈ (registry.perform .makeExtractor).1.formats ↔ format ≠ .unknown

theorem get_eq_ok_iff (request : FormatRequest) (scanner : Scanner) :
    registry.get request = .ok scanner ↔
      ∃ format, request.resolve? = some format ∧ registry.scannerOf? format = some scanner := by
  rw [get, ← Option.bind_eq_some_iff]
  cases request.resolve?.bind registry.scannerOf? <;> simp

theorem follows_of_scanners_eq (history : List Change)
    (h : registry.scanners = replay [] history) : registry.Follows history := by
  have hfound : ∀ request scanner, registry.get request = .ok scanner ↔
      ∃ format, request.resolve? = some format ∧ Holds history format scanner := by
    intro request scanner
    simp only [get_eq_ok_iff, scannerOf?, h, lookup_replay_iff]
  have hformats : registry.formats = Entries.keys (replay [] history) := by
    rw [formats, h]
    rfl
  have horder : registry.formats.Pairwise (Before history) :=
    hformats ▸ pairwise_before_replay history
  refine ⟨hfound, ?_, ?_, horder.imp fun hbefore => hbefore.ne, horder⟩
  · intro request hnone
    cases hget : registry.get request with
    | ok scanner =>
        obtain ⟨format, hformat⟩ := (hfound request scanner).mp hget
        exact absurd ⟨format, scanner, hformat⟩ hnone
    | error fault =>
        rw [get] at hget
        split at hget
        · cases hget
        · exact hget.symm
  · intro format
    rw [hformats]
    exact ⟨exists_cameIn_of_mem_keys, fun ⟨i, hi⟩ => mem_keys_replay_iff.mpr hi.exists_holds⟩

section Steady

variable (scanner : Scanner) (override : Bool)

theorem register_cases :
    (∃ fault, registry.register scanner override = .error fault ∧ override = false ∧
      ∃ format ∈ scanner.formats, format ∈ registry.formats) ∨
    (∃ next, registry.register scanner override = .ok next ∧
      (override = false → ∀ format ∈ scanner.formats, format ∉ registry.formats)) := by
  rw [register]
  cases hfind : scanner.formats.find?
      fun format => !override && registry.formats.contains format with
  | some format =>
      have hmem := List.mem_of_find?_eq_some hfind
      have htaken := List.find?_some hfind
      simp only [Bool.and_eq_true, Bool.not_eq_true', List.contains_iff_mem] at htaken
      exact .inl ⟨_, rfl, htaken.1, format, hmem, htaken.2⟩
  | none =>
      refine .inr ⟨_, rfl, ?_⟩
      rintro rfl format hformat htaken
      have hfree := List.find?_eq_none.mp hfind format hformat
      simp [htaken] at hfree

theorem formats_register (next : Registry) (h : registry.register scanner override = .ok next)
    (hknown : ∀ format ∈ scanner.formats, format ∈ registry.formats) :
    next.formats = registry.formats := by
  unfold register at h
  split at h
  · cases h
  · obtain rfl := Except.ok.inj h
    exact Entries.keys_foldl_put scanner scanner.formats registry.scanners hknown

theorem steady : registry.Steady where
  refused := by
    intro scanner override
    rw [perform]
    rcases registry.register_cases scanner override with
      ⟨fault, he, hoverride, hformat⟩ | ⟨next, he, hfree⟩
    · rw [he]
      exact ⟨fun _ => ⟨hoverride, hformat⟩, fun _ => rfl⟩
    · rw [he]
      refine ⟨fun hsome => by simp at hsome, ?_⟩
      rintro ⟨hoverride, format, hmem, hheld⟩
      exact absurd hheld (hfree hoverride format hmem)
  unchanged := by
    intro scanner override
    rw [perform]
    cases registry.register scanner override <;> simp
  notRemoved := by
    intro request
    rw [perform]
    cases registry.unregister request <;> simp
  notReplaced := by
    intro scanner format held hheld
    rw [perform]
    rcases registry.register_cases scanner false with ⟨fault, he, -⟩ | ⟨next, he, hfree⟩
    · rw [he]
      exact hheld
    · rw [he]
      have hmem : format ∈ registry.formats := (Entries.mem_keys_iff _ _).mpr ⟨held, hheld⟩
      have hother : scanner.formats.contains format = false := by
        rw [List.contains_eq_mem]
        exact decide_eq_false fun hformat => hfree rfl format hformat hmem
      change next.scannerOf? format = some held
      rw [registry.scannerOf?_register scanner format false next he, hother]
      exact hheld
  inPlace := by
    intro scanner hknown
    rw [perform]
    rcases registry.register_cases scanner true with ⟨fault, -, hoverride, -⟩ | ⟨next, he, -⟩
    · cases hoverride
    · rw [he]
      exact registry.formats_register scanner true next he hknown
  filledOnce := by
    intro hne
    have hfull : registry.scanners.isEmpty = false := by
      cases hs : registry.scanners with
      | nil => simp [formats, hs] at hne
      | cons entry rest => rfl
    rw [perform, Registry.filled, hfull, if_neg Bool.false_ne_true]
  filled := by
    intro hempty format
    obtain ⟨scanners⟩ := registry
    obtain rfl : scanners = [] := List.map_eq_nil_iff.mp hempty
    cases format <;> decide

end Steady

-- After any steps on an empty registry: each format has the scanner that was registered for it
-- last, unless it has been removed since; the formats stand in the order in which they came in to
-- stay; and no single step replaces, moves or fills anything that it should not.
theorem follows_history (steps : List RegistryStep) :
    let registry := empty.performAll steps
    registry.Follows (empty.history steps) ∧ registry.Steady := by
  intro registry
  exact ⟨registry.follows_of_scanners_eq _ (empty.scanners_performAll steps), registry.steady⟩

end Registry

end UrlHarvest
