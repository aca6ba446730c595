import UrlHarvest.Proofs.Entries
import UrlHarvest.Tidy.Urls

namespace UrlHarvest.Tidy

/-! Groups -/

section Groups

variable (key : Url → String) (urls : List Url)

-- A list in groups, each under the name that its records have.
structure Grouped (groups : List (String × List Url)) : Prop where
  names : ListsOnce (urls.map key) (groups.map Prod.fst)
  members : ∀ group ∈ groups, group.2 = urls.filter (key · == group.1)
  nonempty : ∀ group ∈ groups, group.2 ≠ []
  partitioned : (groups.flatMap Prod.snd).Perm urls

theorem groupBy_eq_graph :
    groupBy key urls =
      Entries.graph (firsts id (urls.map key)) fun name => urls.filter (key · == name) := by
  rw [groupBy, Entries.gather_eq_totals, Entries.totals]
  congr 1
  funext name
  rw [Entries.total, List.foldl_append_eq_append, List.nil_append, ← List.flatMap_def]
  exact List.flatMap_singleton' _

-- The records with the name of the first one make up its group, and the rest of the list is
-- grouped as if it stood alone.
theorem flatMap_filter_firsts_perm :
    ((firsts key urls).flatMap fun first => urls.filter (key · == key first)).Perm urls := by
  induction urls using induction_on_firsts key with
  | nil => exact .nil
  | cons url rest ih =>
      have hrest : ((firsts key (rest.filter fun other => !(key other == key url))).flatMap
          fun first => (url :: rest).filter (key · == key first)) =
            (firsts key (rest.filter fun other => !(key other == key url))).flatMap fun first =>
              (rest.filter fun other => !(key other == key url)).filter (key · == key first) := by
        apply List.flatMap_congr
        intro first hfirst
        have hmem := mem_of_mem_firsts key first _ hfirst
        have hne : key first ≠ key url := by simpa using (List.mem_filter.mp hmem).2
        rw [List.filter_cons_of_neg (by simpa using Ne.symm hne), List.filter_filter]
        apply List.filter_congr
        intro other _
        by_cases he : key other = key first
        · simp [he, hne]
        · simp [he]
      rw [firsts_cons, List.flatMap_cons, hrest, List.filter_cons_of_pos (by simp)]
      exact ((ih.append_left _).trans (List.filter_append_perm _ rest)).cons url

theorem grouped_groupBy : Grouped key urls (groupBy key urls) where
  names := by
    have hnames : (groupBy key urls).map Prod.fst = firsts id (urls.map key) := by
      rw [groupBy_eq_graph, Entries.graph, List.map_map]
      exact List.map_id _
    rw [hnames]
    exact listsOnce_firsts _
  members := by
    rw [groupBy_eq_graph]
    intro group hgroup
    obtain ⟨name, -, rfl⟩ := List.mem_map.mp hgroup
    rfl
  nonempty := by
    rw [groupBy_eq_graph]
    intro group hgroup
    obtain ⟨name, hname, rfl⟩ := List.mem_map.mp hgroup
    obtain ⟨url, hurl, hkey⟩ := List.mem_map.mp (mem_of_mem_firsts id name _ hname)
    exact List.ne_nil_of_mem (List.mem_filter.mpr ⟨hurl, beq_iff_eq.mpr hkey⟩)
  partitioned := by
    have hfirsts : firsts id (urls.map key) = (firsts key urls).map key :=
      firsts_map_of_key key id key (fun _ => rfl) urls
    rw [groupBy_eq_graph, Entries.graph, hfirsts, List.map_map, List.flatMap_map]
    exact flatMap_filter_firsts_perm key urls

variable {key urls}

theorem Grouped.key_eq {groups : List (String × List Url)} (h : Grouped key urls groups)
    (group : String × List Url) (url : Url) (hgroup : group ∈ groups) (hurl : url ∈ group.2) :
    url ∈ urls ∧ key url = group.1 := by
  rw [h.members group hgroup] at hurl
  simpa using hurl

end Groups

end UrlHarvest.Tidy

namespace UrlHarvest

theorem Scheme.tag_injective : Function.Injective Scheme.tag := by
  intro a b h
  have hsame := congrArg Scheme.ofTag? h
  rw [Scheme.ofTag?_tag, Scheme.ofTag?_tag] at hsame
  exact Option.some.inj hsame

namespace Url

-- A record that was made of its value, so that its scheme, host and path are those of the value.
def MadeOfValue (url : Url) : Prop :=
  ∃ value position context type, ofValue value position context type = url

variable {url : Url}

theorem MadeOfValue.scheme_eq (h : url.MadeOfValue) :
    url.scheme = Scheme.ofAddress url.value.toList := by
  obtain ⟨value, position, context, type, rfl⟩ := h
  rfl

theorem MadeOfValue.host_eq (h : url.MadeOfValue) : url.host = hostOf url.value.toList := by
  obtain ⟨value, position, context, type, rfl⟩ := h
  rfl

theorem MadeOfValue.byHost_eq (h : url.MadeOfValue) :
    Tidy.byHost url =
      if url.scheme ∈ [.http, .https, .ftp] then url.host.getD Tidy.invalidHost
      else url.scheme.tag := by
  rw [Tidy.byHost, valueHost?, h.host_eq]
  cases url.scheme <;> simp [Scheme.hasAuthority]

theorem schemeCounts_eq (urls : List Url) :
    schemeCounts urls =
      Entries.graph (Tidy.firsts id (urls.map fun url => Scheme.ofAddress url.value.toList))
        fun scheme => (urls.filter (Scheme.ofAddress ·.value.toList == scheme)).length := by
  rw [schemeCounts, Entries.gather_eq_totals, Entries.totals]
  congr 1
  funext scheme
  rw [Entries.total, List.foldl_add_const]
  simp

end Url

namespace Tidy

-- The schemes that are counted are read off the values, and the ones that are grouped by stand in
-- the records.
theorem sizes_groupBy_bySchemeName (urls : List Url) (hmade : ∀ url ∈ urls, url.MadeOfValue) :
    (groupBy bySchemeName urls).map (fun group => (group.1, group.2.length)) =
      (Url.schemeCounts urls).map fun (scheme, count) => (scheme.tag, count) := by
  have hnames : urls.map bySchemeName =
      (urls.map fun url => Scheme.ofAddress url.value.toList).map Scheme.tag := by
    rw [List.map_map]
    apply List.map_congr_left
    intro url hurl
    exact congrArg Scheme.tag (hmade url hurl).scheme_eq
  have hmembers (scheme : Scheme) :
      urls.filter (bySchemeName · == scheme.tag) =
        urls.filter (Scheme.ofAddress ·.value.toList == scheme) := by
    apply List.filter_congr
    intro url hurl
    rw [bySchemeName, (hmade url hurl).scheme_eq, Bool.eq_iff_iff, beq_iff_eq, beq_iff_eq]
    exact Scheme.tag_injective.eq_iff
  rw [groupBy_eq_graph, Url.schemeCounts_eq, hnames,
    firsts_map_of_injective Scheme.tag Scheme.tag_injective]
  simp only [Entries.graph, List.map_map]
  apply List.map_congr_left
  intro scheme _
  simp only [Function.comp_apply, hmembers]

-- Each record stands in the one group of its name. The groups of records that were made of their
-- values are as large as the counts of their schemes say, and tell the hosts that stand in the
-- records.
theorem groups_partition_records (urls : List Url) :
    (∀ key : Url → String, Grouped key urls (groupBy key urls)) ∧
      ((∀ url ∈ urls, url.MadeOfValue) →
        (groupBy bySchemeName urls).map (fun group => (group.1, group.2.length)) =
          (Url.schemeCounts urls).map (fun (scheme, count) => (scheme.tag, count)) ∧
        ∀ group ∈ groupBy byHost urls, ∀ url ∈ group.2,
          group.1 =
            if url.scheme ∈ [.http, .https, .ftp] then url.host.getD invalidHost
            else url.scheme.tag) := by
  refine ⟨fun key => grouped_groupBy key urls, fun hmade => ?_⟩
  refine ⟨sizes_groupBy_bySchemeName urls hmade, fun group hgroup url hurl => ?_⟩
  obtain ⟨hmem, hname⟩ := (grouped_groupBy byHost urls).key_eq group url hgroup hurl
  rw [← hname]
  exact (hmade url hmem).byHost_eq

-- A repeated host, a value without one, one that cannot be taken apart, and a scheme without hosts.
def mixedValues : List Url :=
  ["http://a/x", "tel:1", "HTTP://A", "http://", "ftp://["].map (Url.ofValue · none none none)

theorem groups_partition_records_of_mixed_values :
    (∀ url ∈ mixedValues, url.MadeOfValue) ∧
      (groupBy bySchemeName mixedValues).map (fun group => (group.1, group.2.length)) =
        [("http", 3), ("tel", 1), ("ftp", 1)] ∧
      ∀ group ∈ groupBy byHost mixedValues, ∀ url ∈ group.2,
        group.1 =
          if url.scheme ∈ [.http, .https, .ftp] then url.host.getD invalidHost
          else url.scheme.tag := by
  have hmade : ∀ url ∈ mixedValues, url.MadeOfValue := by
    intro url hurl
    obtain ⟨value, -, rfl⟩ := List.mem_map.mp hurl
    exact ⟨value, none, none, none, rfl⟩
  have hcounts : (Url.schemeCounts mixedValues).map
      (fun (scheme, count) => (scheme.tag, count)) = [("http", 3), ("tel", 1), ("ftp", 1)] := by
    decide
  obtain ⟨hsizes, hhosts⟩ := (groups_partition_records mixedValues).2 hmade
  exact ⟨hmade, hsizes.trans hcounts, hhosts⟩

/-! Repetitions -/

theorem dedupeUrls_eq_firsts (urls : List Url) :
    dedupeUrls urls = firsts Url.comparedValue urls :=
  keepFirst_eq_firsts Url.comparedValue urls

-- Kept are the records in front of which no record has the same value, apart from letter case and
-- blanks around it. It makes no difference which parts of a list were freed of repetitions before.
theorem dedupeUrls_keeps_newcomers (urls more : List Url) :
    dedupeUrls urls = newcomers Url.comparedValue urls ∧
      dedupeUrls (dedupeUrls urls ++ dedupeUrls more) = dedupeUrls (urls ++ more) ∧
      dedupeUrls (dedupeUrls urls) = dedupeUrls urls := by
  simp only [dedupeUrls_eq_firsts]
  exact ⟨firsts_eq_newcomers _ _, firsts_append_firsts _ _ _, firsts_firsts _ _⟩

end Tidy

end UrlHarvest
