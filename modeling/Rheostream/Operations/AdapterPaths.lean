import Rheostream.Operations.Adapters

/-!
# Adapter paths are there when they are needed

Registration keeps the graph of every operation free of cycles, though it only walks on from the
new edge's head. What the startup check accepts, `adapt` walks to the end, over the same edges.
-/

namespace Rheostream.Adapters

variable {Adapter : Type} {call : Adapter → Json → Option Json}
  {table table' : Registered Adapter} {operationName kind : String}
  {fromVersion toVersion current rounds : ℕ} {visited : List ℕ}

theorem next_eq_some {version : ℕ} : table.next operationName current = some version ↔
    ∃ adapter, table.lookup (operationName, current) = some (version, adapter) := by
  simp [Registered.next]

/-- The versions that some adapter takes a value from. -/
def Registered.versions (table : Registered Adapter) : List ℕ :=
  table.entries.map fun e => e.1.2

theorem mem_versions {edge : ℕ × Adapter}
    (h : table.lookup (operationName, current) = some edge) : current ∈ table.versions := by
  have hmem := AList.mem_lookup_iff.mp h
  exact List.mem_map.mpr ⟨_, hmem, rfl⟩

theorem length_versions (table : Registered Adapter) :
    table.versions.length = table.entries.length :=
  List.length_map _

/-! ### Registration -/

/-- No version leads back to itself. -/
def Acyclic (table : Registered Adapter) : Prop :=
  ∀ operationName version,
    ¬Relation.TransGen (Edge (table.next operationName)) version version

/-- What an accepted registration does to the table. -/
theorem register_ok [DecidableEq Adapter] {adapter : Adapter}
    (h : register table operationName fromVersion toVersion adapter = .ok table') :
    table' = table ∨
      table' = table.insert (operationName, fromVersion) (toVersion, adapter) ∧
        ¬Relation.ReflTransGen (Edge (table.next operationName)) toVersion fromVersion := by
  unfold register at h
  split_ifs at h with hblank hsame
  cases hexisting : table.lookup (operationName, fromVersion) with
  | some existing =>
    rw [hexisting] at h
    dsimp only at h
    split_ifs at h
    cases h
    exact Or.inl rfl
  | none =>
    rw [hexisting] at h
    dsimp only at h
    split at h
    · rename_i version hstuck
      cases h
      refine Or.inr ⟨rfl, fun hreach => ?_⟩
      exact not_visited_of_stuck hstuck hreach List.mem_cons_self
    · cases h

theorem Acyclic.register [DecidableEq Adapter] {adapter : Adapter} (hacyclic : Acyclic table)
    (h : register table operationName fromVersion toVersion adapter = .ok table') :
    Acyclic table' := by
  rcases register_ok h with rfl | ⟨rfl, hapart⟩
  · exact hacyclic
  · intro name
    by_cases hname : name = operationName
    · subst hname
      refine acyclic_of_new_edge (fun v w hedge => ?_) (hacyclic name) hapart
      obtain ⟨adapter', hlookup⟩ := next_eq_some.mp hedge
      rw [Table.lookup_insert] at hlookup
      split_ifs at hlookup with hkey
      · cases hlookup
        exact Or.inr ⟨congrArg Prod.snd hkey, rfl⟩
      · exact Or.inl (next_eq_some.mpr ⟨adapter', hlookup⟩)
    · intro version hcycle
      refine hacyclic name version (Relation.TransGen.mono ?_ _ _ hcycle)
      intro v w hedge
      obtain ⟨adapter', hlookup⟩ := next_eq_some.mp hedge
      rw [Table.lookup_insert, if_neg (fun hkey => hname (congrArg Prod.fst hkey))] at hlookup
      exact next_eq_some.mpr ⟨adapter', hlookup⟩

/-! ### The paths of values -/

/-- The adapters on the way from one version to another, each with the version it takes a value
to. -/
inductive AdapterRoute (table : Registered Adapter) (operationName : String) :
    ℕ → List (ℕ × Adapter) → ℕ → Prop
  | nil (version : ℕ) : AdapterRoute table operationName version [] version
  | cons {version last : ℕ} {edge : ℕ × Adapter} {rest : List (ℕ × Adapter)} :
      table.lookup (operationName, version) = some edge →
      AdapterRoute table operationName edge.1 rest last →
      AdapterRoute table operationName version (edge :: rest) last

/-- The adapters of a route, one after the other. -/
def applyAdapters (call : Adapter → Json → Option Json) :
    ℕ → List (ℕ × Adapter) → Json → Except String Json
  | _, [], adapted => .ok adapted
  | current, (nextVersion, adapter) :: rest, adapted =>
    match call adapter adapted with
    | none => .error ("adapter from " ++ toString current ++ " to " ++ toString nextVersion ++
        " failed")
    | some value =>
      match jsonObject value "adapted keyed value" with
      | .error detail => .error detail
      | .ok value => applyAdapters call nextVersion rest value

/-- What an adapter of the route gives is at fault: nothing, or no object. -/
def OwnFault (call : Adapter → Json → Option Json) (path : List (ℕ × Adapter)) : Prop :=
  ∃ edge ∈ path, ∃ input, ∀ value, call edge.2 input = some value → ∀ members, value ≠ .obj members

theorem ownFault_of_error {path : List (ℕ × Adapter)} {value : Json} {detail : String}
    (h : applyAdapters call current path value = .error detail) : OwnFault call path := by
  induction path generalizing current value with
  | nil => cases h
  | cons edge rest ih =>
    obtain ⟨nextVersion, adapter⟩ := edge
    unfold applyAdapters at h
    cases hcall : call adapter value with
    | none =>
      refine ⟨(nextVersion, adapter), List.mem_cons_self, value, ?_⟩
      simp [hcall]
    | some output =>
      rw [hcall] at h
      dsimp only at h
      cases hobject : jsonObject output "adapted keyed value" with
      | error reason =>
        refine ⟨(nextVersion, adapter), List.mem_cons_self, value, fun found hfound members => ?_⟩
        rw [hcall] at hfound
        cases hfound
        rintro rfl
        cases hobject
      | ok object =>
        rw [hobject] at h
        obtain ⟨edge, hedge, hfault⟩ := ih h
        exact ⟨edge, List.mem_cons_of_mem _ hedge, hfault⟩

theorem lookup_calls (table : Registered Adapter) (key : String × ℕ) :
    (table.calls call).lookup key = (table.lookup key).map fun edge => (edge.1, call edge.2) :=
  Table.lookup_mapRows _ _ _

theorem length_calls (table : Registered Adapter) :
    (table.calls call).entries.length = table.entries.length :=
  List.length_map _

/-- Where the check arrives, the adapters are applied all the way. -/
theorem route_of_walk (call : Adapter → Json → Option Json) {fuel : ℕ} (hfuel : rounds ≤ fuel + 1)
    (h : walk (table.next operationName) (· = toVersion) rounds current visited =
      some .arrived) :
    ∃ path, AdapterRoute table operationName current path toVersion ∧ ∀ value,
      adaptFrom (table.calls call) operationName toVersion fuel current visited value =
        applyAdapters call current path value := by
  induction rounds generalizing fuel current visited with
  | zero => cases h
  | succ rounds ih =>
    unfold walk at h
    split_ifs at h with hstop hmem
    · have hcurrent : current = toVersion := by simpa using hstop
      subst hcurrent
      refine ⟨[], .nil current, fun value => ?_⟩
      rw [adaptFrom.eq_def]
      exact if_pos rfl
    · cases h
    · have hne : current ≠ toVersion := by simpa using hstop
      cases hnext : table.next operationName current with
      | none =>
        rw [hnext] at h
        cases h
      | some version =>
        rw [hnext] at h
        obtain ⟨adapter, hlookup⟩ := next_eq_some.mp hnext
        cases fuel with
        | zero =>
          obtain rfl : rounds = 0 := by omega
          cases h
        | succ fuel =>
          have hless : rounds ≤ fuel + 1 := by omega
          obtain ⟨path, hroute, hpath⟩ := ih hless h
          refine ⟨(version, adapter) :: path, .cons hlookup hroute, fun value => ?_⟩
          rw [adaptFrom.eq_def]
          dsimp only
          rw [if_neg hne, if_neg (by simpa using hmem), lookup_calls, hlookup]
          dsimp only [Option.map_some, applyAdapters]
          cases call adapter value with
          | none => rfl
          | some output =>
            dsimp only
            cases jsonObject output "adapted keyed value" with
            | error detail => rfl
            | ok object => exact hpath object

/-- A value goes from one version to the other, over one route, unless an adapter fails. -/
def Adapts (call : Adapter → Json → Option Json) (table : Registered Adapter)
    (operationName : String) (fromVersion toVersion : ℕ) : Prop :=
  ∃ path, AdapterRoute table operationName fromVersion path toVersion ∧
    ∀ value, adapt (table.calls call) operationName value fromVersion toVersion =
        applyAdapters call fromVersion path value ∧
      ∀ detail, adapt (table.calls call) operationName value fromVersion toVersion =
        .error detail → OwnFault call path

theorem adapts_of_requirePath
    (h : requirePath table operationName fromVersion toVersion kind = .ok ()) :
    Adapts call table operationName fromVersion toVersion := by
  unfold requirePath at h
  split at h
  · rename_i harrived
    have hfuel : table.entries.length + 1 ≤ (table.calls call).entries.length + 1 := by
      rw [length_calls]
    obtain ⟨path, hroute, hpath⟩ := route_of_walk call hfuel harrived
    refine ⟨path, hroute, fun value => ⟨hpath value, fun detail herror => ?_⟩⟩
    have hrun := hpath value
    rw [adapt] at herror
    rw [herror] at hrun
    exact ownFault_of_error hrun.symm
  · cases h
  · cases h
  · cases h

/-- The loop of `adapt` ends, and the rounds it is given do not decide its result. -/
theorem adaptLoop_ends {value : Json} (hnodup : visited.Nodup)
    (hvisited : ∀ v ∈ visited, v ∈ table.versions)
    (hrounds : rounds + visited.length = table.entries.length + 1) :
    adaptLoop call table operationName toVersion rounds current visited value =
      some (adaptFrom (table.calls call) operationName toVersion (rounds - 1) current visited
        value) := by
  induction rounds generalizing current visited value with
  | zero =>
    have hlength := visited_length_le hnodup hvisited
    rw [length_versions] at hlength
    omega
  | succ rounds ih =>
    rw [adaptLoop, adaptFrom.eq_def, Nat.add_sub_cancel]
    dsimp only
    rw [lookup_calls]
    split_ifs with hstop hmem
    · rfl
    · rfl
    · cases hlookup : table.lookup (operationName, current) with
      | none => rfl
      | some edge =>
        obtain ⟨version, adapter⟩ := edge
        have hnew : (current :: visited).Nodup :=
          List.nodup_cons.mpr ⟨by simpa using hmem, hnodup⟩
        have hin : ∀ v ∈ current :: visited, v ∈ table.versions := by
          intro v hv
          rcases List.mem_cons.mp hv with rfl | hold
          · exact mem_versions hlookup
          · exact hvisited v hold
        cases rounds with
        | zero =>
          have hlength := visited_length_le hnew hin
          rw [length_versions, List.length_cons] at hlength
          omega
        | succ rounds =>
          dsimp only [Option.map_some]
          cases call adapter value with
          | none => rfl
          | some output =>
            dsimp only
            cases jsonObject output "adapted keyed value" with
            | error detail => rfl
            | ok object =>
              refine ih hnew hin ?_
              rw [List.length_cons]
              omega

/-! ### The startup check -/

variable {spec : String → Option KeyedSpec}

/-- What a checked table of one kind satisfies, for each of the given keys. -/
theorem validateTable_ok {version : KeyedSpec → ℕ} {keys : List (String × ℕ)}
    (h : validateTable spec version kind table keys = .ok ()) {key : String × ℕ} (hkey : key ∈ keys)
    :
    ∃ keyed, spec key.1 = some keyed ∧ table.lookup (key.1, version keyed) = none ∧
      requirePath table key.1 key.2 (version keyed) kind = .ok () := by
  induction keys with
  | nil => cases hkey
  | cons first rest ih =>
    obtain ⟨name, origin⟩ := first
    unfold validateTable at h
    cases hspec : spec name with
    | none =>
      rw [hspec] at h
      cases h
    | some keyed =>
      rw [hspec] at h
      dsimp only at h
      split_ifs at h with hpast
      split at h
      · cases h
      · rename_i hpath
        rcases List.mem_cons.mp hkey with rfl | hrest
        · exact ⟨keyed, hspec, by simpa using hpast, hpath⟩
        · exact ih h hrest

theorem mem_sortedKeys {key : String × ℕ} {edge : ℕ × Adapter}
    (h : table.lookup key = some edge) : key ∈ sortedKeys table := by
  refine (sortedBy_perm _ _).mem_iff.mpr (List.mem_map.mpr ⟨_, AList.mem_lookup_iff.mp h, rfl⟩)

/-- Every adapter of a table leads to the current version of its operation, and none leads on from
there. -/
def Complete (spec : String → Option KeyedSpec) (version : KeyedSpec → ℕ)
    (table : Registered Adapter) : Prop :=
  ∀ operationName fromVersion edge, table.lookup (operationName, fromVersion) = some edge →
    ∃ keyed, spec operationName = some keyed ∧
      table.lookup (operationName, version keyed) = none ∧
      ∀ call, Adapts call table operationName fromVersion (version keyed)

theorem complete_of_validateTable {version : KeyedSpec → ℕ}
    (h : validateTable spec version kind table (sortedKeys table) = .ok ()) :
    Complete spec version table := by
  intro name origin edge hlookup
  obtain ⟨keyed, hspec, hend, hpath⟩ := validateTable_ok h (mem_sortedKeys hlookup)
  exact ⟨keyed, hspec, hend, fun call => adapts_of_requirePath hpath⟩

variable {s : Registry Adapter}

theorem validateGraphs_ok (h : validateGraphs spec s = .ok ()) :
    Complete spec (·.requestSchemaVersion) s.request ∧
      Complete spec (·.resultSchemaVersion) s.result := by
  unfold validateGraphs at h
  split at h
  · cases h
  · rename_i hrequest
    exact ⟨complete_of_validateTable hrequest, complete_of_validateTable h⟩

theorem forM_ok {α : Type} {f : α → Except String Unit} {l : List α} (h : l.forM f = .ok ())
    {a : α} (ha : a ∈ l) : f a = .ok () := by
  induction l with
  | nil => cases ha
  | cons b l ih =>
    change (f b >>= fun _ => l.forM f) = .ok () at h
    cases hb : f b with
    | error detail =>
      rw [hb] at h
      cases h
    | ok done =>
      rw [hb] at h
      rcases List.mem_cons.mp ha with rfl | hrest
      · exact hb
      · exact ih h hrest

/-- The retained row of a keyed operation is adapted to its current versions. -/
def Readable (keyed : KeyedSpec) (s : Registry Adapter) (row : RetainedVersions) : Prop :=
  ∀ call, Adapts call s.request row.operationName row.requestVersion keyed.requestSchemaVersion ∧
    ∀ version, row.resultVersion = some version →
      Adapts call s.result row.operationName version keyed.resultSchemaVersion

theorem checkRetained_ok {lookup : String → Option (Option KeyedSpec)} {row : RetainedVersions}
    (h : checkRetained lookup s row = .ok ()) {keyed : KeyedSpec}
    (hkeyed : lookup row.operationName = some (some keyed)) : Readable keyed s row := by
  unfold checkRetained at h
  rw [hkeyed] at h
  dsimp only at h
  split at h
  · cases h
  · rename_i hrequest
    refine fun call => ⟨adapts_of_requirePath hrequest, fun version hversion => ?_⟩
    rw [hversion] at h
    exact adapts_of_requirePath h

/-! ### The law -/

/-- What holds of the adapters in a reachable registry. -/
structure AdapterLaw [DecidableEq Adapter] (s : Registry Adapter) : Prop where
  unique : ∀ table ∈ [s.request, s.result], ∀ operationName v w w',
    Edge (table.next operationName) v w → Edge (table.next operationName) v w' → w = w'
  acyclic : Acyclic s.request ∧ Acyclic s.result
  refused : ∀ operationName fromVersion toVersion adapter detail,
    (register s.request operationName fromVersion toVersion adapter = .error detail →
      registryStep s (.registerRequest operationName fromVersion toVersion adapter) = some s) ∧
    (register s.result operationName fromVersion toVersion adapter = .error detail →
      registryStep s (.registerResult operationName fromVersion toVersion adapter) = some s)
  /-- What a required path is there for is adapted, whatever adapters do. -/
  required : ∀ table ∈ [s.request, s.result], ∀ operationName fromVersion toVersion kind,
    requirePath table operationName fromVersion toVersion kind = .ok () →
    ∀ call, Adapts call table operationName fromVersion toVersion
  /-- What the startup check accepts is adapted: every registered version, and every retained
  one. -/
  startup : ∀ lookup retained, checkKeyedReplayCompatibility lookup s retained = .ok () →
    Complete (fun name => (lookup name).join) (·.requestSchemaVersion) s.request ∧
    Complete (fun name => (lookup name).join) (·.resultSchemaVersion) s.result ∧
    ∀ row ∈ retained, ∀ keyed, lookup row.operationName = some (some keyed) →
      Readable keyed s row
  terminates : ∀ table ∈ [s.request, s.result], ∀ call operationName fromVersion toVersion value,
    adaptLoop call table operationName toVersion (table.entries.length + 1) fromVersion [] value =
      some (adapt (table.calls call) operationName value fromVersion toVersion)

theorem acyclic_of_reachable [DecidableEq Adapter] (hs : (registry Adapter).Reachable s) :
    Acyclic s.request ∧ Acyclic s.result := by
  refine hs.invariant (I := fun s => Acyclic s.request ∧ Acyclic s.result) ?_ ?_
  · rintro _ rfl
    have hempty : Acyclic (∅ : Registered Adapter) := by
      intro name version hcycle
      obtain ⟨w, hedge, -⟩ := Relation.TransGen.head'_iff.mp hcycle
      obtain ⟨adapter, hlookup⟩ := next_eq_some.mp hedge
      simp at hlookup
    exact ⟨hempty, hempty⟩
  · intro s a t _ hacyclic h
    cases a with
    | registerRequest operationName fromVersion toVersion adapter =>
      simp only [registry, registryStep] at h
      split at h
      · cases h
        exact hacyclic
      · rename_i table htable
        cases h
        exact ⟨hacyclic.1.register htable, hacyclic.2⟩
    | registerResult operationName fromVersion toVersion adapter =>
      simp only [registry, registryStep] at h
      split at h
      · cases h
        exact hacyclic
      · rename_i table htable
        cases h
        exact ⟨hacyclic.1, hacyclic.2.register htable⟩

/-- The adapter law holds in every reachable registry. -/
theorem adapter_law [DecidableEq Adapter] (s : Registry Adapter)
    (hs : (registry Adapter).Reachable s) : AdapterLaw s where
  unique table _ operationName v w w' hw hw' := Option.some.inj (hw.symm.trans hw')
  acyclic := acyclic_of_reachable hs
  refused operationName fromVersion toVersion adapter detail := by
    constructor
    · intro hrefused
      simp only [registryStep, hrefused]
    · intro hrefused
      simp only [registryStep, hrefused]
  required table _ operationName fromVersion toVersion kind hpath call :=
    adapts_of_requirePath hpath
  startup lookup retained h := by
    unfold checkKeyedReplayCompatibility at h
    split at h
    · cases h
    · rename_i hgraphs
      obtain ⟨hrequest, hresult⟩ := validateGraphs_ok hgraphs
      refine ⟨hrequest, hresult, fun row hrow keyed hkeyed => ?_⟩
      exact checkRetained_ok (forM_ok h (List.mem_dedup.mpr hrow)) hkeyed
  terminates table _ call operationName fromVersion toVersion value := by
    refine adaptLoop_ends List.nodup_nil (by simp) ?_ |>.trans ?_
    · simp
    · rw [adapt, length_calls, Nat.add_sub_cancel]

section Sample

/-- Two hops to the current version, registered from the far end. -/
def sampleActions : List (RegistryAction String) :=
  [.registerRequest "leads.capture" 2 3 "rename", .registerRequest "leads.capture" 1 2 "split",
    .registerRequest "leads.capture" 3 1 "back"]

def sampleRegistry : Registry String := ((registry String).run ⟨∅, ∅⟩ sampleActions).getD ⟨∅, ∅⟩

def sampleSpec : KeyedSpec := ⟨3, 1⟩

/-- A retained version two hops behind is compatible. -/
theorem adapter_law_hops :
    sampleRegistry.request.lookup ("leads.capture", 3) = none ∧
      checkKeyedReplayCompatibility (fun _ => some (some sampleSpec)) sampleRegistry
        [⟨"leads.capture", 1, none⟩] = .ok () ∧ AdapterLaw sampleRegistry := by
  have hrun : (registry String).run ⟨∅, ∅⟩ sampleActions = some sampleRegistry := rfl
  exact ⟨rfl, rfl, adapter_law sampleRegistry (Machine.reachable_of_run rfl hrun)⟩

end Sample

end Rheostream.Adapters
