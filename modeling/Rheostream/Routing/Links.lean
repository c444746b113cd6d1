import Rheostream.Routing.WebTier

/-!
# Links and the surfaces that they name

The two implementations of the links agree, and a request for a link is answered by the surface of
the link wherever no other surface claims it.
-/

namespace Rheostream.Routing

variable {settings : RoutingSettings} {manifests : List ModuleManifest} {config : RoutingConfig}
  {name path : Text} {spec : SurfaceConfig}

/-! ### Module surfaces -/

/-- A set of manifests that passes the check has each surface once. -/
theorem nodup_of_check {claimed : List Text} (hcheck : checkWebSurfaces claimed manifests = true) :
    ((moduleSurfaces manifests).map Prod.fst).Nodup ∧
      ∀ surface ∈ (moduleSurfaces manifests).map Prod.fst, surface ∉ claimed := by
  induction manifests generalizing claimed with
  | nil => simp [moduleSurfaces]
  | cons manifest rest ih =>
    unfold checkWebSurfaces at hcheck
    cases hweb : manifest.web with
    | none =>
      rw [hweb] at hcheck
      simpa [moduleSurfaces, hweb] using ih hcheck
    | some web =>
      simp only [hweb] at hcheck
      by_cases hclaimed : web.surface ∈ claimed
      · simp [hclaimed] at hcheck
      · rw [if_neg hclaimed] at hcheck
        obtain ⟨hnodup, hfree⟩ := ih hcheck
        have hcons : (moduleSurfaces (manifest :: rest)).map Prod.fst =
            web.surface :: (moduleSurfaces rest).map Prod.fst := by
          simp [moduleSurfaces, hweb]
        rw [hcons]
        constructor
        · refine List.nodup_cons.mpr ⟨fun hmem => ?_, hnodup⟩
          exact hfree _ hmem List.mem_cons_self
        · intro surface hmem
          obtain rfl | hmem := List.mem_cons.mp hmem
          · exact hclaimed
          · exact fun hin => hfree surface hmem (List.mem_cons_of_mem _ hin)

theorem nodup_modules (hbuilt : routingConfig settings manifests = some config) :
    (config.surfaces.modules.map Prod.fst).Nodup := by
  obtain ⟨hcheck, hsettings⟩ := Option.ite_none_right_eq_some.mp hbuilt
  obtain ⟨-, hsettings⟩ := Option.ite_none_right_eq_some.mp hsettings
  obtain ⟨hosts, -, rfl⟩ := Option.map_eq_some_iff.mp hsettings
  exact (nodup_of_check hcheck).1

section Entries

variable {α β : Type} {entries : List (Text × α)}

theorem lookup_map (f : α → β) (entries : List (Text × α)) (name : Text) :
    (entries.map fun m => (m.1, f m.2)).lookup name = (entries.lookup name).map f := by
  induction entries with
  | nil => rfl
  | cons m rest ih =>
    rw [List.map_cons, List.lookup_cons, List.lookup_cons, ih]
    cases name == m.1 <;> rfl

theorem lookup_eq_some_iff {v : α} (hnodup : (entries.map Prod.fst).Nodup) :
    entries.lookup name = some v ↔ (name, v) ∈ entries := by
  induction entries with
  | nil => simp
  | cons m rest ih =>
    obtain ⟨hnew, hrest⟩ := List.nodup_cons.mp hnodup
    rw [List.lookup_cons]
    by_cases hname : name = m.1
    · subst hname
      have hfree : (m.1, v) ∉ rest := fun hmem => hnew (List.mem_map.mpr ⟨_, hmem, rfl⟩)
      simp [Prod.ext_iff, hfree, eq_comm]
    · have hne : (name == m.1) = false := by simpa using hname
      simp [hne, ih hrest, Prod.ext_iff, hname]

/-- The order of the entries does not matter to a lookup. -/
theorem lookup_of_perm {entries' : List (Text × α)} (hperm : entries.Perm entries')
    (hnodup : (entries.map Prod.fst).Nodup) : entries.lookup name = entries'.lookup name := by
  apply Option.ext
  intro v
  rw [lookup_eq_some_iff hnodup, lookup_eq_some_iff ((hperm.map Prod.fst).nodup_iff.mp hnodup),
    hperm.mem_iff]

theorem objectEntries_perm : (Web.objectEntries entries).Perm entries := by
  refine ((List.perm_insertionSort _ _).append_right _).trans ?_
  exact List.filter_append_perm _ _

end Entries

/-- The module surfaces of the web tier. -/
theorem mem_dump_modules {m : Text × Web.SurfaceConfig} : m ∈ (Web.dump config).modules ↔
    ∃ spec, (m.1, spec) ∈ config.surfaces.modules ∧ m.2 = Web.dumpSurface spec := by
  rw [Web.dump, objectEntries_perm.mem_iff, List.mem_map]
  constructor
  · rintro ⟨⟨name, spec⟩, hmem, rfl⟩
    exact ⟨spec, hmem, rfl⟩
  · rintro ⟨spec, hmem, hspec⟩
    exact ⟨(m.1, spec), hmem, by rw [← hspec]⟩

/-! ### Two implementations -/

theorem lookup_modules (hnodup : (config.surfaces.modules.map Prod.fst).Nodup) (name : Text) :
    (Web.dump config).modules.lookup name =
      (config.surfaces.modules.lookup name).map Web.dumpSurface := by
  have hkeys : ((config.surfaces.modules.map fun m => (m.1, Web.dumpSurface m.2)).map
      Prod.fst).Nodup := by
    rw [List.map_map]
    exact hnodup
  have horder : (Web.dump config).modules.lookup name =
      (config.surfaces.modules.map fun m => (m.1, Web.dumpSurface m.2)).lookup name :=
    (lookup_of_perm objectEntries_perm.symm hkeys).symm
  rw [horder, lookup_map]

theorem surfaceFor_dump (hnodup : (config.surfaces.modules.map Prod.fst).Nodup)
    (hname : name ∉ Web.inheritedNames) :
    Web.surfaceFor (Web.dump config) name = (config.surfaces.get name).map Web.dumpSurface := by
  have hnamed : (Web.dump config).named.lookup name =
      (config.surfaces.named.lookup name).map Web.dumpSurface := 
        lookup_map Web.dumpSurface config.surfaces.named name
  have hplain : ¬ Web.inheritedNames.contains name = true := by simpa using hname
  unfold Web.surfaceFor Surfaces.get
  rw [if_neg hplain, lookup_modules hnodup, hnamed]
  cases config.surfaces.named.lookup name <;> rfl

/-- The two implementations give one URL, or refuse both. -/
theorem urlFor_dump (hnodup : (config.surfaces.modules.map Prod.fst).Nodup)
    (hname : name ∉ Web.inheritedNames) :
    Web.urlFor (Web.dump config) name path = urlFor config name path := by
  unfold Web.urlFor urlFor
  rw [surfaceFor_dump hnodup hname]
  cases config.surfaces.get name with
  | none => rfl
  | some spec =>
    have hrefused : ((Web.dumpSurface spec).external = some true ∨
        (Web.dumpSurface spec).reserved = some true) ↔ (spec.external || spec.reserved) = true := by
      simp [Web.dumpSurface]
    have hfixed : (Web.dumpSurface spec).fixedPath = some true ↔ spec.fixedPath = true := by
      simp [Web.dumpSurface]
    simp only [Option.map_some, hrefused, hfixed]
    rfl

theorem mem_applicationHosts {host : Text} :
    host ∈ Web.applicationHosts (Web.dump config) ↔ host ∈ applicationHosts config := by
  unfold Web.applicationHosts applicationHosts
  have hmode : (Web.dump config).mode = config.mode := rfl
  rw [hmode]
  cases config.mode with
  | path => rfl
  | subdomain =>
    simp only [List.mem_dedup, List.map_append, List.mem_append, List.map_map, List.mem_map,
      Function.comp_apply]
    refine or_congr ?_ ⟨?_, ?_⟩
    · simp [Web.dump, Web.dumpSurface, Web.hostText]
    · rintro ⟨m, hmem, hhost⟩
      obtain ⟨spec, hmem', hspec⟩ := mem_dump_modules.mp hmem
      rw [hspec] at hhost
      exact ⟨(m.1, spec), hmem', hhost⟩
    · rintro ⟨m, hmem, hhost⟩
      exact ⟨(m.1, Web.dumpSurface m.2), mem_dump_modules.mpr ⟨m.2, hmem, rfl⟩, hhost⟩

end Rheostream.Routing
