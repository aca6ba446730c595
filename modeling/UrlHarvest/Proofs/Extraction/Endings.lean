import UrlHarvest.Extraction

namespace UrlHarvest

-- There are no addresses, and one problem tells why.
def ExtractionResult.FailsWith (result : ExtractionResult) (format : FileFormat)
    (recovery : Recovery) : Prop :=
  result.success = false ∧ result.format = format ∧ result.urls = [] ∧
    ∃ problem, result.problems = [problem] ∧ problem.recovery = recovery

-- Nothing is said about the document, and nothing has gone wrong either.
def ExtractionResult.calledOff (format : FileFormat) : ExtractionResult :=
  ⟨false, format, [], []⟩

namespace Extraction

-- What is found in a document by the scanner of its format, or by the Markdown one where the
-- format has none. Nothing is found where there is neither and where the scan fails.
def scanned? (registry : Registry) (content : String) (format : FileFormat) :
    Option ScanContext :=
  ((registry.scannerOf? format).or (registry.scannerOf? .markdown)).bind fun scanner =>
    (scanner.scan content.toList {}).toOption

inductive Ending
  | neverBegun
  | tooLarge
  | calledOff (format : FileFormat)
  | unscanned (format : FileFormat)
  | scanned (format : FileFormat) (context : ScanContext)

-- Where an extraction ends, read off its input alone.
inductive EndsIn (registry : Registry) (limits : Limits) (cancelled : Cancellation)
    (content tag : String) : Ending → Prop
  | neverBegun (hfirst : cancelled 0 = true) :
      EndsIn registry limits cancelled content tag .neverBegun
  | tooLarge (hfirst : cancelled 0 = false) (hsize : limits.contentSize < content.length) :
      EndsIn registry limits cancelled content tag .tooLarge
  | calledOff (hfirst : cancelled 0 = false) (hsize : content.length ≤ limits.contentSize)
      (hsecond : cancelled 1 = true) :
      EndsIn registry limits cancelled content tag (.calledOff (.resolve tag))
  | unscanned (hfirst : cancelled 0 = false) (hsize : content.length ≤ limits.contentSize)
      (hsecond : cancelled 1 = false) (hscan : scanned? registry content (.resolve tag) = none) :
      EndsIn registry limits cancelled content tag (.unscanned (.resolve tag))
  | scanned (hfirst : cancelled 0 = false) (hsize : content.length ≤ limits.contentSize)
      (hsecond : cancelled 1 = false) (context : ScanContext)
      (hscan : scanned? registry content (.resolve tag) = some context) :
      EndsIn registry limits cancelled content tag (.scanned (.resolve tag) context)

-- What a host sees of an ending.
def Ending.Shows (limit : Int) (extraction : Extraction) : Ending → Prop
  | neverBegun => extraction.result = .calledOff .unknown ∧ extraction.questions = 1
  | tooLarge => extraction.result.FailsWith .unknown .truncate ∧ extraction.questions = 1
  | calledOff format => extraction.result = .calledOff format ∧ extraction.questions = 2
  | unscanned format => extraction.result.FailsWith format .skip ∧ extraction.questions = 2
  | scanned format context =>
    extraction.result.format = format ∧
    extraction.result.urls = cutTo limit context.urls.toList ∧
    (∃ cut : List Problem, extraction.result.problems = context.problems.toList ++ cut ∧
      cut.length ≤ 1 ∧ ∀ problem ∈ cut, problem.recovery = .truncate) ∧
    (extraction.result.success = true ↔ context.problems.toList = []) ∧
    extraction.questions = 2

theorem failsWith_failed (format : FileFormat) (problem : Problem) :
    (failed format problem).FailsWith format problem.recovery :=
  ⟨rfl, rfl, rfl, problem, rfl, rfl⟩

-- A ceiling that is not reached cuts nothing off.
theorem cutTo_of_length_le (limit : Int) (urls : List Url) (h : urls.length ≤ limit) :
    cutTo limit urls = urls := by
  rw [cutTo, if_pos (by omega), List.take_of_length_le (by omega)]

-- Only the addresses behind the ceiling go, and one problem more tells how many there were.
def cutAt (limit : Int) (full : ExtractionResult) : ExtractionResult :=
  { full with
    urls := cutTo limit full.urls
    problems := full.problems ++
      if limit < full.urls.length then [.tooManyUrls full.urls.length limit] else [] }

-- What a scan comes to where there is no ceiling.
def uncut (format : FileFormat) (context : ScanContext) : ExtractionResult :=
  ⟨context.problems.toList.isEmpty, format, context.urls.toList, context.problems.toList⟩

theorem resultOf_eq (limit : Int) (format : FileFormat) (context : ScanContext) :
    resultOf limit format context = cutAt limit (uncut format context) := by
  unfold resultOf cutAt uncut
  by_cases h : limit < context.urls.toList.length
  · simp only [h, ite_true]
  · simp only [h, ite_false, List.append_nil, cutTo_of_length_le limit _ (Int.not_lt.mp h)]

theorem exists_problems_cutAt (limit : Int) (full : ExtractionResult) :
    ∃ cut : List Problem, (cutAt limit full).problems = full.problems ++ cut ∧
      cut.length ≤ 1 ∧ ∀ problem ∈ cut, problem.recovery = .truncate := by
  refine ⟨_, rfl, ?_⟩
  split
  · refine ⟨Nat.le_refl _, fun problem hproblem => ?_⟩
    obtain rfl := List.mem_singleton.mp hproblem
    rfl
  · exact ⟨Nat.zero_le _, fun problem hproblem => by cases hproblem⟩

theorem shows_cutAt (limit : Int) (format : FileFormat) (context : ScanContext)
    (scanner : Option String) :
    (Ending.scanned format context).Shows limit
      { result := cutAt limit (uncut format context), questions := 2, scanner } :=
  ⟨rfl, rfl, exists_problems_cutAt limit (uncut format context), List.isEmpty_iff, rfl⟩

theorem scannerFor_eq (registry : Registry) (format : FileFormat) :
    scannerFor registry format =
      match (registry.scannerOf? format).or (registry.scannerOf? .markdown) with
      | some scanner => .ok scanner
      | none => .error (.noScanner (.exact .markdown)) := by
  unfold scannerFor
  cases registry.scannerOf? format with
  | some scanner => rfl
  | none => rfl

section Scan

variable (registry : Registry) (content : String) (format : FileFormat)

-- Why there is no result has nothing to do with the limits.
theorem scanWith_of_none (h : scanned? registry content format = none) :
    ∃ reason, ∀ limits, (scanWith registry limits content format).1 =
      failed format (.scanFailed format reason) := by
  rw [scanned?] at h
  cases hfor : (registry.scannerOf? format).or (registry.scannerOf? .markdown) with
  | none =>
      refine ⟨(Registry.Fault.noScanner (.exact .markdown)).message, fun limits => ?_⟩
      rw [scanWith, scannerFor_eq, hfor]
  | some scanner =>
      rw [hfor, Option.bind_some] at h
      cases hscan : scanner.scan content.toList {} with
      | error fault =>
          refine ⟨fault.message, fun limits => ?_⟩
          rw [scanWith, scannerFor_eq, hfor]
          simp only [hscan]
      | ok context =>
          rw [hscan] at h
          cases h

theorem scanWith_of_some (limits : Limits) (context : ScanContext)
    (h : scanned? registry content format = some context) :
    (scanWith registry limits content format).1 = resultOf limits.urlCount format context := by
  obtain ⟨scanner, hfor, hscan⟩ := Option.bind_eq_some_iff.mp h
  rw [scanWith, scannerFor_eq, hfor]
  cases hs : scanner.scan content.toList {} with
  | error fault =>
      rw [hs] at hscan
      cases hscan
  | ok found =>
      rw [hs] at hscan
      obtain rfl := Option.some.inj hscan
      simp only [hs]

end Scan

section Run

variable (registry : Registry) (limits : Limits) (cancelled : Cancellation) (content tag : String)

-- The two answers and the size decide how far an extraction comes.
theorem run_eq :
    run registry limits cancelled content tag =
      if cancelled 0 then { result := .calledOff .unknown, questions := 1 }
      else if limits.contentSize < content.length then
        { result := failed .unknown (.tooLarge content.length limits.contentSize)
          questions := 1 }
      else if cancelled 1 then { result := .calledOff (.resolve tag), questions := 2 }
      else
        { result := (scanWith registry limits content (.resolve tag)).1
          questions := 2
          scanner := (scanWith registry limits content (.resolve tag)).2 } := by
  have hask : ∀ question, (ask cancelled).run question =
      (pure (cancelled question, question + 1) : Id _) := fun _ => rfl
  simp only [run, outcome, StateT.run_bind, hask, pure_bind]
  by_cases hfirst : cancelled 0 = true
  · rw [if_pos hfirst, if_pos hfirst]
    rfl
  · by_cases hsize : limits.contentSize < content.length
    · rw [if_neg hfirst, if_neg hfirst, if_pos hsize, if_pos hsize]
      rfl
    · rw [if_neg hfirst, if_neg hfirst, if_neg hsize, if_neg hsize, StateT.run_bind, hask,
        pure_bind]
      by_cases hsecond : cancelled 1 = true
      · rw [if_pos hsecond, if_pos hsecond]
        rfl
      · rw [if_neg hsecond, if_neg hsecond]
        rfl

theorem questions_run :
    (run registry limits cancelled content tag).questions =
      if cancelled 0 = true ∨ limits.contentSize < content.length then 1 else 2 := by
  rw [run_eq]
  by_cases hfirst : cancelled 0 = true
  · rw [if_pos hfirst, if_pos (.inl hfirst)]
  · by_cases hsize : limits.contentSize < content.length
    · rw [if_neg hfirst, if_pos hsize, if_pos (.inr hsize)]
    · rw [if_neg hfirst, if_neg hsize, if_neg (not_or.mpr ⟨hfirst, hsize⟩)]
      split <;> rfl

-- An answer that the host was not asked for has no part in the extraction.
theorem run_eq_of_agree (other : Cancellation)
    (hagree : ∀ question < (run registry limits cancelled content tag).questions,
      other question = cancelled question) :
    run registry limits other content tag = run registry limits cancelled content tag := by
  rw [questions_run] at hagree
  by_cases hstops : cancelled 0 = true ∨ limits.contentSize < content.length
  · rw [if_pos hstops] at hagree
    rw [run_eq, run_eq, hagree 0 Nat.one_pos]
    rcases hstops with hfirst | hsize
    · rw [if_pos hfirst, if_pos hfirst]
    · simp only [if_pos hsize]
  · rw [if_neg hstops] at hagree
    rw [run_eq, run_eq, hagree 0 Nat.two_pos, hagree 1 Nat.one_lt_two]

theorem exists_endsIn : ∃ ending, EndsIn registry limits cancelled content tag ending := by
  cases hfirst : cancelled 0 with
  | true => exact ⟨_, .neverBegun hfirst⟩
  | false =>
      by_cases hsize : limits.contentSize < content.length
      · exact ⟨_, .tooLarge hfirst hsize⟩
      · have hsize := Int.not_lt.mp hsize
        cases hsecond : cancelled 1 with
        | true => exact ⟨_, .calledOff hfirst hsize hsecond⟩
        | false =>
            cases hscan : scanned? registry content (.resolve tag) with
            | none => exact ⟨_, .unscanned hfirst hsize hsecond hscan⟩
            | some context => exact ⟨_, .scanned hfirst hsize hsecond context hscan⟩

variable {registry limits cancelled content tag}

theorem EndsIn.unique {ending other : Ending}
    (h : EndsIn registry limits cancelled content tag ending)
    (h' : EndsIn registry limits cancelled content tag other) : other = ending := by
  cases h <;> cases h' <;> grind

theorem EndsIn.shows {ending : Ending} (h : EndsIn registry limits cancelled content tag ending) :
    ending.Shows limits.urlCount (run registry limits cancelled content tag) := by
  rw [run_eq]
  cases h with
  | neverBegun hfirst =>
      rw [if_pos hfirst]
      exact ⟨rfl, rfl⟩
  | tooLarge hfirst hsize =>
      rw [if_neg (Bool.eq_false_iff.mp hfirst), if_pos hsize]
      exact ⟨failsWith_failed _ _, rfl⟩
  | calledOff hfirst hsize hsecond =>
      rw [if_neg (Bool.eq_false_iff.mp hfirst), if_neg (Int.not_lt.mpr hsize), if_pos hsecond]
      exact ⟨rfl, rfl⟩
  | unscanned hfirst hsize hsecond hscan =>
      rw [if_neg (Bool.eq_false_iff.mp hfirst), if_neg (Int.not_lt.mpr hsize),
        if_neg (Bool.eq_false_iff.mp hsecond)]
      obtain ⟨reason, hfailed⟩ := scanWith_of_none registry content _ hscan
      rw [hfailed]
      exact ⟨failsWith_failed _ _, rfl⟩
  | scanned hfirst hsize hsecond context hscan =>
      rw [if_neg (Bool.eq_false_iff.mp hfirst), if_neg (Int.not_lt.mpr hsize),
        if_neg (Bool.eq_false_iff.mp hsecond)]
      rw [scanWith_of_some registry content _ limits context hscan, resultOf_eq]
      exact shows_cutAt _ _ _ _

end Run

-- Every extraction has a result, and where it ends says what the result is. The host is asked
-- once up to the check of the size and twice beyond it: what it would answer to further
-- questions makes no difference.
theorem ends_in_exactly_one_way (registry : Registry) (limits : Limits)
    (cancelled : Cancellation) (content tag : String) :
    let extraction := run registry limits cancelled content tag
    (∃ ending, EndsIn registry limits cancelled content tag ending ∧
      ending.Shows limits.urlCount extraction ∧
      ∀ other, EndsIn registry limits cancelled content tag other → other = ending) ∧
    ∀ later : Cancellation,
      run registry limits
        (fun question =>
          if question < extraction.questions then cancelled question else later question)
        content tag = extraction := by
  intro extraction
  obtain ⟨ending, hends⟩ := exists_endsIn registry limits cancelled content tag
  refine ⟨⟨ending, hends, hends.shows, fun other hother => hends.unique hother⟩, ?_⟩
  intro later
  exact run_eq_of_agree registry limits cancelled content tag _ fun question hasked => if_pos hasked

end Extraction

end UrlHarvest
