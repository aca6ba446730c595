import UrlHarvest.Scan.Registry

namespace UrlHarvest.Registry

variable (registry : Registry) (scanner : Scanner) (format : FileFormat)

-- A format that is written for one scanner has that scanner, and the others have theirs.
theorem lookup_foldl_put (formats : List FileFormat) (known : List (FileFormat × Scanner)) :
    (formats.foldl (fun known format => Entries.put known format scanner) known).lookup format =
      if formats.contains format then some scanner else known.lookup format := by
  induction formats generalizing known with
  | nil => rfl
  | cons first rest ih =>
      rw [List.foldl_cons, ih, Entries.lookup_put, List.contains_cons]
      cases format == first <;> cases rest.contains format <;> rfl

theorem scannerOf?_register (override : Bool) (next : Registry)
    (h : registry.register scanner override = .ok next) :
    next.scannerOf? format =
      if scanner.formats.contains format then some scanner else registry.scannerOf? format := by
  unfold register at h
  split at h
  · cases h
  · obtain rfl := Except.ok.inj h
    exact lookup_foldl_put scanner format scanner.formats registry.scanners

-- Registering scanners brings in those scanners and no others.
theorem mem_or_scannerOf?_of_registerAll (scanners : List Scanner)
    (h : (registry.registerAll scanners).1.scannerOf? format = some scanner) :
    scanner ∈ scanners ∨ registry.scannerOf? format = some scanner := by
  induction scanners generalizing registry with
  | nil => exact .inr h
  | cons first rest ih =>
      rw [registerAll] at h
      cases hregister : registry.register first false with
      | error fault =>
          rw [hregister] at h
          exact .inr h
      | ok next =>
          rw [hregister] at h
          rcases ih next h with hmem | hnext
          · exact .inl (List.mem_cons_of_mem first hmem)
          · rw [scannerOf?_register registry first format false next hregister] at hnext
            split at hnext
            · obtain rfl := Option.some.inj hnext
              exact .inl List.mem_cons_self
            · exact .inr hnext

theorem mem_builtin_of_scannerOf? (h : builtin.scannerOf? format = some scanner) :
    scanner ∈ Scanner.builtin := by
  rcases mem_or_scannerOf?_of_registerAll empty scanner format Scanner.builtin h with hmem | hnone
  · exact hmem
  · cases hnone

end UrlHarvest.Registry
