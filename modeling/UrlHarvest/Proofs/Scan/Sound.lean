import UrlHarvest.Proofs.Scan.Context
import UrlHarvest.Scan.Step

namespace UrlHarvest

-- A record that says of its value what can be read off the value, and nothing of a host or a path
-- where the value cannot be taken apart.
structure Url.Faithful (url : Url) : Prop where
  nonempty : url.value ≠ ""
  scheme : url.scheme = Scheme.ofAddress url.value.toList
  host : url.host = (Components.of? url.value.toList).bind Components.host
  path : url.path = (Components.of? url.value.toList).bind Components.path

theorem Finding.faithful_of_url? (finding : Finding) (url : Url) (h : finding.url? = some url) :
    url.Faithful := by
  cases finding with
  | problem problem => cases h
  | url value position snippet type =>
      obtain ⟨hvalue, hmade⟩ := Option.ite_none_left_eq_some.mp h
      obtain rfl := Option.some.inj hmade
      exact ⟨hvalue, rfl, rfl, rfl⟩

namespace ScanContext

-- The index holds the values of the records and nothing else, and no value is recorded twice.
structure Sound (context : ScanContext) : Prop where
  seen : ∀ value, context.seen.contains value = true ↔
    value ∈ context.urls.toList.map Url.value
  nodup : (context.urls.toList.map Url.value).Nodup
  faithful : ∀ url ∈ context.urls.toList, url.Faithful

theorem sound_empty : Sound {} :=
  ⟨fun value => by simp, List.nodup_nil, fun url hurl => by simp at hurl⟩

variable {before middle after : ScanContext}

theorem Sound.take (h : before.Sound) (finding : Finding) : (before.take finding).Sound := by
  rcases before.take_cases finding with
    ⟨problem, -, -, he⟩ | ⟨-, -, he⟩ | ⟨url, -, -, -, he⟩ | ⟨url, hu, -, hs, he⟩
  · rw [he]
    exact ⟨h.seen, h.nodup, h.faithful⟩
  · rwa [he]
  · rwa [he]
  · have hnew : url.value ∉ before.urls.toList.map Url.value := by
      rw [← h.seen, hs]
      exact Bool.false_ne_true
    rw [he]
    refine ⟨fun value => ?_, ?_, fun other hother => ?_⟩
    · rw [Std.HashSet.contains_insert, Bool.or_eq_true, h.seen, beq_iff_eq, Array.toList_push,
        List.map_append, List.mem_append, List.map_singleton, List.mem_singleton, or_comm,
        eq_comm]
    · rw [Array.toList_push, List.map_append, List.map_singleton, List.nodup_append]
      refine ⟨h.nodup, List.nodup_cons.mpr ⟨List.not_mem_nil, List.nodup_nil⟩, ?_⟩
      intro value hvalue last hlast he
      rw [List.mem_singleton] at hlast
      exact hnew (hlast ▸ he ▸ hvalue)
    · rw [Array.toList_push, List.mem_append, List.mem_singleton] at hother
      rcases hother with hother | rfl
      · exact h.faithful other hother
      · exact finding.faithful_of_url? other hu

-- Nothing is done to a context but that findings are taken up, one after the other.
def Extends (after before : ScanContext) : Prop :=
  ∃ findings, after = before.takeAll findings

theorem Extends.refl (context : ScanContext) : context.Extends context :=
  ⟨[], rfl⟩

theorem Extends.trans (h : after.Extends middle) (h' : middle.Extends before) :
    after.Extends before := by
  obtain ⟨later, rfl⟩ := h
  obtain ⟨earlier, rfl⟩ := h'
  exact ⟨earlier ++ later, (List.foldl_append ..).symm⟩

theorem extends_take (context : ScanContext) (finding : Finding) :
    (context.take finding).Extends context :=
  ⟨[finding], rfl⟩

theorem extends_foldl {σ α : Type} (step : σ → α → σ) (held : σ → ScanContext)
    (hstep : ∀ state item, (held (step state item)).Extends (held state)) (items : List α)
    (state : σ) : (held (items.foldl step state)).Extends (held state) := by
  induction items generalizing state with
  | nil => exact .refl _
  | cons item rest ih => exact (ih (step state item)).trans (hstep state item)

theorem Extends.sound (h : after.Extends before) (hsound : before.Sound) : after.Sound := by
  obtain ⟨findings, rfl⟩ := h
  induction findings generalizing before with
  | nil => exact hsound
  | cons finding rest ih => exact ih (hsound.take finding)

theorem Extends.urls_prefix (h : after.Extends before) :
    before.urls.toList <+: after.urls.toList := by
  obtain ⟨findings, rfl⟩ := h
  exact ⟨_, (before.toList_urls_takeAll findings).symm⟩

theorem Extends.problems_prefix (h : after.Extends before) :
    before.problems.toList <+: after.problems.toList := by
  obtain ⟨findings, rfl⟩ := h
  exact ⟨_, (before.toList_problems_takeAll findings).symm⟩

end ScanContext

namespace StructuredScanner

variable (scanner : StructuredScanner)

theorem extends_takeCandidate (path : String) (state : Locator × ScanContext) (value : Text) :
    (takeCandidate path state value).2.Extends state.2 := by
  rw [takeCandidate]
  split
  · exact ⟨[.url (String.ofList value) (state.1.locate value).1 (some path) none], rfl⟩
  · exact .refl _

theorem extends_takeLeaf (state : Locator × ScanContext) (leaf : String × String) :
    (scanner.takeLeaf state leaf).2.Extends state.2 := by
  rw [takeLeaf]
  split
  · exact ⟨[.problem _], rfl⟩
  · exact ScanContext.extends_foldl _ Prod.snd (extends_takeCandidate leaf.1) _ state

end StructuredScanner

theorem Scanner.extends_scan (scanner : Scanner) (text : Text) (before after : ScanContext)
    (h : scanner.scan text before = .ok after) : after.Extends before := by
  cases scanner with
  | failing name formats reason => cases h
  | line scanner =>
      cases h
      exact ⟨scanner.findings text, rfl⟩
  | structured scanner =>
      rw [scan, StructuredScanner.scan] at h
      split at h
      · cases h
        exact ScanContext.extends_foldl _ Prod.snd scanner.extends_takeLeaf _ _
      · cases h
        exact .trans ⟨scanner.lineByLine.findings text, rfl⟩ (before.extends_take (.problem _))
      · cases h

namespace ScanContext

theorem extends_perform (context : ScanContext) (step : ContextStep) :
    (context.perform step).2.Extends context := by
  cases step with
  | scan scanner text =>
      rw [perform]
      split
      · exact scanner.extends_scan text context _ ‹_›
      · exact .refl context
  | add value position snippet type => exact context.extends_take (.url ..)
  | addMatch value line lineIndex columnIndex => exact context.extends_take (.inLine ..)
  | record message severity recovery position => exact context.extends_take (.problem _)

-- A match is added as any value is, at its place and with the trimmed line.
theorem perform_addMatch (context : ScanContext) (value line : String)
    (lineIndex columnIndex : Int) :
    context.perform (.addMatch value line lineIndex columnIndex) =
      context.perform (.add value (some ⟨lineIndex + 1, columnIndex + 1⟩) (some (trimmed line))
        none) := by
  simp only [perform, addMatch, Finding.inLine, take, String.ofList_toList]

theorem perform_add (context : ScanContext) (value : String) (position : Option Position)
    (snippet type : Option String) :
    context.perform (.add value position snippet type) =
      if value ≠ "" ∧ context.seen.contains value = false then
        (.added true, { context with
          seen := context.seen.insert value
          urls := context.urls.push (Url.ofValue value position snippet type) })
      else (.added false, context) := by
  have hnew : context.isNew value = true ↔ value ≠ "" ∧ context.seen.contains value = false := by
    rw [isNew, Bool.and_eq_true, bne_iff_ne, Bool.not_eq_true']
  rw [perform, add]
  by_cases h : context.isNew value = true
  · rw [if_pos h, if_pos (hnew.mp h), h]
  · rw [if_neg h, if_neg (mt hnew.mpr h), Bool.eq_false_iff.mpr h]

-- After any steps on an empty context and one step more, the context is sound and nothing that
-- was recorded before has gone or changed. A value is added if it is one and has not been seen,
-- and so is a match.
theorem sound_after_steps (steps : List ContextStep) (step : ContextStep) :
    let before := performAll {} steps
    let after := (before.perform step).2
    after.Sound ∧
    before.urls.toList <+: after.urls.toList ∧
    before.problems.toList <+: after.problems.toList ∧
    (∀ (value : String) (position : Option Position) (snippet type : Option String),
      before.perform (.add value position snippet type) =
        if value ≠ "" ∧ before.seen.contains value = false then
          (.added true, { before with
            seen := before.seen.insert value
            urls := before.urls.push (Url.ofValue value position snippet type) })
        else (.added false, before)) ∧
    ∀ (value line : String) (lineIndex columnIndex : Int),
      before.perform (.addMatch value line lineIndex columnIndex) =
        before.perform (.add value (some ⟨lineIndex + 1, columnIndex + 1⟩)
          (some (trimmed line)) none) := by
  intro before after
  have hbefore : before.Extends {} := extends_foldl _ id extends_perform steps {}
  have hafter : after.Extends before := before.extends_perform step
  exact ⟨(hafter.trans hbefore).sound sound_empty, hafter.urls_prefix, hafter.problems_prefix,
    before.perform_add, before.perform_addMatch⟩

end ScanContext

end UrlHarvest
