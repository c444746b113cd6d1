import Rheostream.Storage.EnginePool

/-!
# An engine in use stays

Both retirement rules ask `busy` before they drop an engine, and only cached engines become busy
when connections are taken of cached engines only. A connection taken later, of an engine that was
handed out without a pin and retired since, is outside of what the pool can see.
-/

namespace Rheostream.EnginePool

variable {config : PoolConfig} {s t u : PoolState} {name : String} {engine : Engine}

/-! ### The invariant -/

/-- What every reachable state satisfies. -/
structure Sound (s : PoolState) : Prop where
  names : (s.engines.map Prod.fst).Nodup
  keys : ∀ name, (s.cachedUnder name).isSome = (s.lastUsed.lookup name).isSome
  created : ∀ e ∈ s.engines, s.database.lookup e.2 = some e.1
  inUse : ∀ engine, s.busy engine = true → ∃ name, (name, engine) ∈ s.engines
  /-- What has left the cache never comes back into it. -/
  gone : ∀ engine ∈ s.retired ++ s.disposed, (s.database.lookup engine).isSome = true ∧
    ∀ name, (name, engine) ∉ s.engines

theorem mem_of_cachedUnder (h : s.cachedUnder name = some engine) : (name, engine) ∈ s.engines :=
  Table.mem_of_rowOf h

theorem Sound.cachedUnder (hs : Sound s) (h : (name, engine) ∈ s.engines) :
    s.cachedUnder name = some engine := by
  obtain ⟨found, hfound⟩ := Option.isSome_iff_exists.mp (Table.isSome_rowOf h)
  have hmem := Table.mem_of_rowOf hfound
  have heq := List.inj_on_of_nodup_map hs.names hmem h rfl
  have hsame : found = engine := congrArg Prod.snd heq
  rw [← hsame]
  exact hfound

theorem isSome_cachedUnder : (s.cachedUnder name).isSome = true ↔ ∃ e ∈ s.engines, e.1 = name := by
  constructor
  · intro h
    obtain ⟨engine, hengine⟩ := Option.isSome_iff_exists.mp h
    exact ⟨_, mem_of_cachedUnder hengine, rfl⟩
  · rintro ⟨⟨_, engine⟩, hmem, rfl⟩
    exact Table.isSome_rowOf hmem

theorem holds_iff : s.holds engine = true ↔ ∃ name, (name, engine) ∈ s.engines := by
  simp [PoolState.holds]

/-- An engine is cached under one name. -/
theorem Sound.name_unique (hs : Sound s) {name' : String} (h : (name, engine) ∈ s.engines)
    (h' : (name', engine) ∈ s.engines) : name = name' := by
  have hname := hs.created _ h
  have hname' := hs.created _ h'
  rw [hname] at hname'
  exact Option.some.inj hname'

/-! ### Retiring what is not in use -/

/-- `t` is `s` without some engines that are not in use. -/
structure Trimmed (s t : PoolState) : Prop where
  pins : t.pins = s.pins
  checkedOut : t.checkedOut = s.checkedOut
  database : t.database = s.database
  disposed : t.disposed = s.disposed
  cached : t.engines.Sublist s.engines
  keeps : ∀ e ∈ s.engines, s.busy e.2 = true → e ∈ t.engines
  sound : Sound s → Sound t

theorem Trimmed.busy (h : Trimmed s t) (engine : Engine) : t.busy engine = s.busy engine := by
  simp only [PoolState.busy, h.pins, h.checkedOut]

theorem Trimmed.refl (s : PoolState) : Trimmed s s :=
  ⟨rfl, rfl, rfl, rfl, List.Sublist.refl _, fun _ h _ => h, id⟩

theorem Trimmed.trans (h : Trimmed s t) (h' : Trimmed t u) : Trimmed s u where
  pins := h'.pins.trans h.pins
  checkedOut := h'.checkedOut.trans h.checkedOut
  database := h'.database.trans h.database
  disposed := h'.disposed.trans h.disposed
  cached := h'.cached.trans h.cached
  keeps e he hbusy := h'.keeps e (h.keeps e he hbusy) (by rw [h.busy, hbusy])
  sound hs := h'.sound (h.sound hs)

theorem mem_drop {e : String × Engine} :
    e ∈ (s.drop name engine).engines ↔ e ∈ s.engines ∧ e.1 ≠ name := by
  simp [PoolState.drop]

theorem Sound.drop (hs : Sound s) (hmem : (name, engine) ∈ s.engines)
    (hidle : s.busy engine = false) : Sound (s.drop name engine) where
  names := hs.names.sublist (List.filter_sublist.map _)
  keys name' := by
    rw [Bool.eq_iff_iff, isSome_cachedUnder]
    have hkeys := hs.keys name'
    rw [Bool.eq_iff_iff, isSome_cachedUnder] at hkeys
    by_cases hname : name' = name
    · subst hname
      simp [PoolState.drop]
    · have herase : (s.drop name engine).lastUsed.lookup name' = s.lastUsed.lookup name' :=
        AList.lookup_erase_ne hname
      rw [herase, ← hkeys]
      constructor
      · rintro ⟨e, he, rfl⟩
        exact ⟨e, (mem_drop.mp he).1, rfl⟩
      · rintro ⟨e, he, rfl⟩
        exact ⟨e, mem_drop.mpr ⟨he, hname⟩, rfl⟩
  created e he := hs.created e (mem_drop.mp he).1
  inUse engine' hbusy := by
    obtain ⟨name', hmem'⟩ := hs.inUse engine' hbusy
    refine ⟨name', mem_drop.mpr ⟨hmem', ?_⟩⟩
    rintro rfl
    have hsame : engine' = engine :=
      Option.some.inj ((hs.cachedUnder hmem').symm.trans (hs.cachedUnder hmem))
    have hbusy' : s.busy engine' = true := hbusy
    rw [hsame, hidle] at hbusy'
    cases hbusy'
  gone engine' hgone := by
    have hcases : engine' ∈ s.retired ++ s.disposed ∨ engine' = engine := by
      simp only [PoolState.drop, List.mem_append, List.mem_singleton] at hgone ⊢
      tauto
    rcases hcases with hold | rfl
    · obtain ⟨hmade, hout⟩ := hs.gone engine' hold
      exact ⟨hmade, fun name' hin => hout name' (mem_drop.mp hin).1⟩
    · refine ⟨?_, fun name' hin => ?_⟩
      · have hmade := hs.created _ hmem
        exact Option.isSome_iff_exists.mpr ⟨name, hmade⟩
      · obtain ⟨hin', hne⟩ := mem_drop.mp hin
        exact hne (hs.name_unique hin' hmem)

theorem Trimmed.drop (hs : Sound s) (hmem : (name, engine) ∈ s.engines)
    (hidle : s.busy engine = false) : Trimmed s (s.drop name engine) where
  pins := rfl
  checkedOut := rfl
  database := rfl
  disposed := rfl
  cached := List.filter_sublist
  keeps e he hbusy := by
    refine mem_drop.mpr ⟨he, ?_⟩
    rintro rfl
    have hsame : e.2 = engine :=
      Option.some.inj ((hs.cachedUnder he).symm.trans (hs.cachedUnder hmem))
    rw [hsame, hidle] at hbusy
    cases hbusy
  sound _ := hs.drop hmem hidle

theorem Trimmed.expireOne (hs : Sound s) (name : String) : Trimmed s (s.expireOne name) := by
  unfold PoolState.expireOne
  split
  · rename_i hnone
    refine ⟨rfl, rfl, rfl, rfl, List.Sublist.refl _, fun _ h _ => h, fun _ => ?_⟩
    refine ⟨hs.names, fun name' => ?_, hs.created, hs.inUse, hs.gone⟩
    have hkeys : (s.cachedUnder name').isSome = (s.lastUsed.lookup name').isSome := hs.keys name'
    change (s.cachedUnder name').isSome = ((s.lastUsed.erase name).lookup name').isSome
    by_cases hname : name' = name
    · subst hname
      rw [hnone, AList.lookup_erase]
      rfl
    · have herase : (s.lastUsed.erase name).lookup name' = s.lastUsed.lookup name' :=
        AList.lookup_erase_ne hname
      rw [herase, hkeys]
  · rename_i engine hengine
    split
    · exact Trimmed.refl s
    · rename_i hidle
      exact Trimmed.drop hs (mem_of_cachedUnder hengine) (by simpa using hidle)

theorem Trimmed.expireIdle (hs : Sound s) (now : ℤ) : Trimmed s (s.expireIdle config now) := by
  unfold PoolState.expireIdle
  generalize s.stale config now = names
  induction names generalizing s with
  | nil => exact Trimmed.refl s
  | cons name names ih =>
    have hone := Trimmed.expireOne hs name
    exact hone.trans (ih (hone.sound hs))

/-- What the rounds of an eviction leave: they stop at the cap, or where all the rest is in
use. -/
theorem evictRounds_trimmed (config : PoolConfig) (hs : Sound s) (protect : String) (rounds : ℕ) :
    Trimmed s (PoolState.evictRounds config protect rounds s) ∧
      (∀ e ∈ s.engines, e.1 = protect →
        e ∈ (PoolState.evictRounds config protect rounds s).engines) ∧
      (s.engines.length ≤ rounds →
        (PoolState.evictRounds config protect rounds s).engines.length ≤ config.cacheSize ∨
        ∀ e ∈ (PoolState.evictRounds config protect rounds s).engines,
          e.1 ≠ protect → s.busy e.2 = true) := by
  induction rounds generalizing s with
  | zero =>
    refine ⟨Trimmed.refl s, fun e he _ => he, fun hlength => Or.inl ?_⟩
    exact le_trans hlength (Nat.zero_le _)
  | succ rounds ih =>
    unfold PoolState.evictRounds
    split_ifs with hcap
    · exact ⟨Trimmed.refl s, fun e he _ => he, fun _ => Or.inl hcap⟩
    · cases hvictim : s.engines.find? fun e => e.1 ≠ protect && !s.busy e.2 with
      | none =>
        refine ⟨Trimmed.refl s, fun e he _ => he, fun _ => Or.inr fun e he hother => ?_⟩
        have hkept := List.find?_eq_none.mp hvictim e he
        simpa [hother] using hkept
      | some victim =>
        obtain ⟨name, engine⟩ := victim
        have hmem : (name, engine) ∈ s.engines := List.mem_of_find?_eq_some hvictim
        have hchosen := List.find?_some hvictim
        simp only [Bool.and_eq_true, decide_eq_true_eq, Bool.not_eq_true'] at hchosen
        obtain ⟨hother, hidle⟩ := hchosen
        have hdrop := Trimmed.drop hs hmem hidle
        obtain ⟨htrim, hprotect, hend⟩ := ih (hs.drop hmem hidle)
        refine ⟨hdrop.trans htrim, fun e he hname => ?_, fun hlength => ?_⟩
        · refine hprotect e (mem_drop.mpr ⟨he, ?_⟩) hname
          rw [hname]
          exact Ne.symm hother
        · have hless : (s.drop name engine).engines.length < s.engines.length := by
            refine List.length_filter_lt_length_iff_exists.mpr ⟨_, hmem, by simp⟩
          rcases hend (by omega) with hcapped | hrest
          · exact Or.inl hcapped
          · refine Or.inr fun e he hname => ?_
            have hbusy := hrest e he hname
            rwa [hdrop.busy] at hbusy

/-! ### The operations -/

/-- The engine of a name is handed out. -/
theorem Sound.handOut (hs : Sound s) {fresh : Engine} {now : ℤ}
    (hfresh : s.database.lookup fresh = none) : Sound (s.handOut name fresh now).1 := by
  have hlast : ∀ name' : String, ((s.lastUsed.insert name now).lookup name').isSome =
      (decide (name' = name) || (s.lastUsed.lookup name').isSome) := by
    intro name'
    rw [Table.lookup_insert]
    split_ifs with h <;> simp [h]
  unfold PoolState.handOut
  cases hcached : s.cachedUnder name with
  | some engine =>
    have hmem := mem_of_cachedUnder hcached
    have hsame : ∀ e, e ∈ s.engines.filter (fun e => e.1 ≠ name) ++ [(name, engine)] ↔
        e ∈ s.engines := by
      intro e
      simp only [List.mem_append, List.mem_filter, decide_eq_true_eq, List.mem_singleton]
      constructor
      · rintro (⟨he, -⟩ | rfl)
        · exact he
        · exact hmem
      · intro he
        by_cases hname : e.1 = name
        · right
          exact List.inj_on_of_nodup_map hs.names he hmem hname
        · exact Or.inl ⟨he, hname⟩
    refine ⟨?_, fun name' => ?_, fun e he => hs.created e ((hsame e).mp he),
      fun engine' hbusy => ?_, fun engine' hgone => ?_⟩
    · rw [List.map_append, List.nodup_append]
      refine ⟨hs.names.sublist (List.filter_sublist.map _), by simp, ?_⟩
      rintro _ hleft _ hright rfl
      obtain ⟨e, he, heq⟩ := List.mem_map.mp hleft
      simp only [List.map_cons, List.map_nil, List.mem_singleton] at hright
      have hne := (List.mem_filter.mp he).2
      simp only [decide_eq_true_eq] at hne
      exact hne (heq.trans hright)
    · have hkeys := hs.keys name'
      rw [hlast, ← hkeys, Bool.eq_iff_iff, isSome_cachedUnder, Bool.or_eq_true,
        isSome_cachedUnder, decide_eq_true_eq]
      constructor
      · rintro ⟨e, he, hname⟩
        exact Or.inr ⟨e, (hsame e).mp he, hname⟩
      · rintro (rfl | ⟨e, he, hname⟩)
        · exact ⟨_, (hsame _).mpr hmem, rfl⟩
        · exact ⟨e, (hsame e).mpr he, hname⟩
    · obtain ⟨name', hin⟩ := hs.inUse engine' hbusy
      exact ⟨name', (hsame _).mpr hin⟩
    · obtain ⟨hmade, hout⟩ := hs.gone engine' hgone
      exact ⟨hmade, fun name' hin => hout name' ((hsame _).mp hin)⟩
  | none =>
    have habsent : ∀ e ∈ s.engines, e.1 ≠ name := by
      intro e he hname
      have hsome := isSome_cachedUnder.mpr ⟨e, he, hname⟩
      rw [hcached] at hsome
      cases hsome
    have hother : ∀ e ∈ s.engines, e.2 ≠ fresh := by
      intro e he heq
      have hmade := hs.created e he
      rw [heq, hfresh] at hmade
      cases hmade
    refine ⟨?_, fun name' => ?_, fun e he => ?_, fun engine' hbusy => ?_, fun engine' hgone => ?_⟩
    · rw [List.map_append, List.nodup_append]
      refine ⟨hs.names, by simp, ?_⟩
      rintro _ hleft _ hright rfl
      obtain ⟨e, he, heq⟩ := List.mem_map.mp hleft
      simp only [List.map_cons, List.map_nil, List.mem_singleton] at hright
      exact habsent e he (heq.trans hright)
    · have hkeys := hs.keys name'
      rw [hlast, ← hkeys, Bool.eq_iff_iff, isSome_cachedUnder, Bool.or_eq_true,
        isSome_cachedUnder, decide_eq_true_eq]
      simp only [List.mem_append, List.mem_singleton]
      constructor
      · rintro ⟨e, he | rfl, hname⟩
        · exact Or.inr ⟨e, he, hname⟩
        · exact Or.inl hname.symm
      · rintro (rfl | ⟨e, he, hname⟩)
        · exact ⟨_, Or.inr rfl, rfl⟩
        · exact ⟨e, Or.inl he, hname⟩
    · rw [Table.lookup_insert]
      rcases List.mem_append.mp he with hold | hnew
      · rw [if_neg (hother e hold)]
        exact hs.created e hold
      · obtain rfl := List.mem_singleton.mp hnew
        exact if_pos rfl
    · obtain ⟨name', hin⟩ := hs.inUse engine' hbusy
      exact ⟨name', List.mem_append_left _ hin⟩
    · obtain ⟨hmade, hout⟩ := hs.gone engine' hgone
      have hne : engine' ≠ fresh := by
        rintro rfl
        rw [hfresh] at hmade
        cases hmade
      refine ⟨?_, fun name' hin => ?_⟩
      · rw [Table.lookup_insert, if_neg hne]
        exact hmade
      · rcases List.mem_append.mp hin with hold | hnew
        · exact hout name' hold
        · have heq := List.mem_singleton.mp hnew
          exact hne (congrArg Prod.snd heq)

theorem handOut_cached (fresh : Engine) (now : ℤ) :
    (name, (s.handOut name fresh now).2) ∈ (s.handOut name fresh now).1.engines := by
  unfold PoolState.handOut
  split <;> simp

theorem handOut_busy (fresh : Engine) (now : ℤ) (engine : Engine) :
    (s.handOut name fresh now).1.busy engine = s.busy engine := by
  unfold PoolState.handOut
  split <;> rfl

theorem handOut_keeps (hs : Sound s) (name : String) (fresh : Engine) (now : ℤ)
    {e : String × Engine} (he : e ∈ s.engines) : e ∈ (s.handOut name fresh now).1.engines := by
  unfold PoolState.handOut
  split
  · rename_i engine hengine
    by_cases hname : e.1 = name
    · have heq : e = (name, engine) :=
        List.inj_on_of_nodup_map hs.names he (mem_of_cachedUnder hengine) hname
      simp [heq]
    · simp [he, hname]
  · simp [he]

theorem handOut_disposed (fresh : Engine) (now : ℤ) :
    (s.handOut name fresh now).1.disposed = s.disposed := by
  unfold PoolState.handOut
  split <;> rfl

/-- More pins on an engine that is cached, or fewer on any. -/
theorem Sound.setPins (hs : Sound s) {count : ℕ} (h : ∃ name, (name, engine) ∈ s.engines) :
    Sound { s with pins := s.pins.insert engine count } := by
  refine ⟨hs.names, hs.keys, hs.created, fun engine' hbusy => ?_, hs.gone⟩
  by_cases hsame : engine' = engine
  · rw [hsame]
    exact h
  · refine hs.inUse engine' ?_
    simpa [PoolState.busy, Table.lookup_insert, hsame] using hbusy

theorem Sound.setCheckedOut (hs : Sound s) {count : ℕ} (h : ∃ name, (name, engine) ∈ s.engines) :
    Sound { s with checkedOut := s.checkedOut.insert engine count } := by
  refine ⟨hs.names, hs.keys, hs.created, fun engine' hbusy => ?_, hs.gone⟩
  by_cases hsame : engine' = engine
  · rw [hsame]
    exact h
  · refine hs.inUse engine' ?_
    simpa [PoolState.busy, Table.lookup_insert, hsame] using hbusy

/-- An engine that has a pin or a connection out, by its counts. -/
theorem busy_of_pins (h : 0 < (s.pins.lookup engine).getD 0) : s.busy engine = true := by
  simp [PoolState.busy, h]

theorem busy_of_checkedOut (h : 0 < (s.checkedOut.lookup engine).getD 0) :
    s.busy engine = true := by
  simp [PoolState.busy, h]

theorem Sound.unpin (hs : Sound s) (h : 0 < (s.pins.lookup engine).getD 0) :
    Sound (s.unpin engine) := by
  have hcached := hs.inUse engine (busy_of_pins h)
  unfold PoolState.unpin
  dsimp only
  split_ifs
  · refine ⟨hs.names, hs.keys, hs.created, fun engine' hbusy => ?_, hs.gone⟩
    by_cases hsame : engine' = engine
    · rw [hsame]
      exact hcached
    · refine hs.inUse engine' ?_
      simpa [PoolState.busy, AList.lookup_erase_ne hsame] using hbusy
  · exact hs.setPins hcached

theorem Sound.dispose (hs : Sound s) (h : engine ∈ s.retired) : Sound (s.dispose engine) := by
  refine ⟨hs.names, hs.keys, hs.created, hs.inUse, fun engine' hgone => hs.gone engine' ?_⟩
  rcases List.mem_append.mp hgone with hretired | hdisposed
  · exact List.mem_append_left _ (List.mem_of_mem_erase hretired)
  · rcases List.mem_append.mp hdisposed with hold | hnew
    · exact List.mem_append_right _ hold
    · rw [List.mem_singleton.mp hnew]
      exact List.mem_append_left _ h

/-- What a hand-out leaves: the engine of the name is cached, the others are at the cap or in use,
and nothing that was in use is gone. -/
structure HandedOut (config : PoolConfig) (s t : PoolState) (name : String) (engine : Engine) :
    Prop where
  sound : Sound t
  cached : (name, engine) ∈ t.engines
  disposed : t.disposed = s.disposed
  keeps : ∀ e ∈ s.engines, s.busy e.2 = true → e ∈ t.engines
  capped : t.engines.length ≤ config.cacheSize ∨ ∀ e ∈ t.engines, e.1 ≠ name → t.busy e.2 = true

theorem handedOut_trimmed (config : PoolConfig) (hs : Sound s) (name : String) (now : ℤ)
    {fresh : Engine} (hfresh : s.database.lookup fresh = none) :
    HandedOut config s
      (((s.expireIdle config now).handOut name fresh now).1.evictUnusedOverCap config name) name
      ((s.expireIdle config now).handOut name fresh now).2 := by
  have hexpire : Trimmed s (s.expireIdle config now) := Trimmed.expireIdle hs now
  have hexpired : Sound (s.expireIdle config now) := hexpire.sound hs
  have hfresh' : (s.expireIdle config now).database.lookup fresh = none := by
    rw [hexpire.database, hfresh]
  have hhanded : Sound ((s.expireIdle config now).handOut name fresh now).1 :=
    hexpired.handOut hfresh'
  obtain ⟨htrim, hprotect, hend⟩ := evictRounds_trimmed config hhanded name
    ((s.expireIdle config now).handOut name fresh now).1.engines.length
  refine ⟨htrim.sound hhanded, hprotect _ (handOut_cached fresh now) rfl, ?_, fun e he hbusy => ?_,
    ?_⟩
  · exact htrim.disposed.trans ((handOut_disposed fresh now).trans hexpire.disposed)
  · have hkept := handOut_keeps hexpired name fresh now (hexpire.keeps e he hbusy)
    refine htrim.keeps e hkept ?_
    rw [handOut_busy, hexpire.busy, hbusy]
  · rcases hend le_rfl with hcapped | hrest
    · exact Or.inl hcapped
    · refine Or.inr fun e he hother => ?_
      have hbusy := htrim.busy e.2
      rw [hrest e he hother] at hbusy
      exact hbusy

theorem HandedOut.addPin (h : HandedOut config s t name engine) :
    HandedOut config s (t.addPin engine) name engine where
  sound := h.sound.setPins ⟨name, h.cached⟩
  cached := h.cached
  disposed := h.disposed
  keeps := h.keeps
  capped := by
    rcases h.capped with hcapped | hrest
    · exact Or.inl hcapped
    · refine Or.inr fun e he hother => ?_
      have hne : e.2 ≠ engine := by
        intro heq
        have hin : (e.1, engine) ∈ t.engines := by
          rw [← heq]
          exact he
        exact hother (h.sound.name_unique hin h.cached)
      have hsame : (t.addPin engine).busy e.2 = t.busy e.2 := by
        have hpins : (t.addPin engine).pins.lookup e.2 = t.pins.lookup e.2 :=
          AList.lookup_insert_ne hne
        simp only [PoolState.busy, hpins]
        rfl
      rw [hsame, hrest e he hother]

/-- What `engine_for` answers. -/
theorem engineFor_ok (hs : Sound s) {pin : Bool} {now : ℤ} {fresh : Engine}
    (hfresh : s.database.lookup fresh = none)
    (h : s.engineFor config name pin now fresh = .ok (t, engine)) :
    HandedOut config s t name engine := by
  have htrimmed := handedOut_trimmed config hs name now hfresh
  unfold PoolState.engineFor at h
  split at h
  · cases h
  · cases pin with
    | false =>
      cases h
      exact htrimmed
    | true =>
      cases h
      exact htrimmed.addPin

/-! ### The law -/

/-- The pool where unpins are matched and connections are taken of cached engines. -/
def inUsePool (config : PoolConfig) : Machine PoolState PoolAction :=
  (enginePool config).restrict fun s a => StillCached s a = true

/-- What one step does: it keeps the invariant, and what is in use stays cached. -/
theorem step_cases (hs : Sound s) {a : PoolAction} (hok : StillCached s a = true)
    (h : poolStep config s a = some t) :
    Sound t ∧ ∀ e ∈ s.engines, s.busy e.2 = true → e ∈ t.engines := by
  cases a with
  | engineFor name pin now fresh =>
    simp only [poolStep] at h
    split_ifs at h with hfresh
    have hnone : s.database.lookup fresh = none := by simpa using hfresh
    split at h
    · cases h
      exact ⟨hs, fun e he _ => he⟩
    · rename_i answer hanswer
      cases h
      have hout := engineFor_ok hs hnone hanswer
      exact ⟨hout.sound, hout.keeps⟩
  | pin engine =>
    simp only [poolStep, PoolState.pin] at h
    split at h
    · cases h
      exact ⟨hs, fun e he _ => he⟩
    · rename_i t' hpin
      cases h
      split_ifs at hpin with hheld
      cases hpin
      have hcached := holds_iff.mp (by simpa using hheld)
      exact ⟨hs.setPins hcached, fun e he _ => he⟩
  | unpin engine =>
    cases h
    have hpos : 0 < (s.pins.lookup engine).getD 0 := by simpa [StillCached] using hok
    refine ⟨hs.unpin hpos, fun e he _ => ?_⟩
    unfold PoolState.unpin
    dsimp only
    split_ifs
    · exact he
    · exact he
  | checkOut engine =>
    simp only [poolStep] at h
    split_ifs at h
    cases h
    have hcached := holds_iff.mp (by simpa [StillCached] using hok)
    exact ⟨hs.setCheckedOut hcached, fun e he _ => he⟩
  | giveBack engine =>
    simp only [poolStep] at h
    split_ifs at h with hout
    cases h
    have hcached := hs.inUse engine (busy_of_checkedOut hout)
    exact ⟨hs.setCheckedOut hcached, fun e he _ => he⟩
  | closeIdle now =>
    cases h
    have hexpire : Trimmed s (s.closeIdle config now) := Trimmed.expireIdle hs now
    exact ⟨hexpire.sound hs, hexpire.keeps⟩
  | dispose engine =>
    simp only [poolStep] at h
    split_ifs at h with hretired
    cases h
    exact ⟨hs.dispose hretired, fun e he _ => he⟩

theorem sound_of_reachable (hs : (inUsePool config).Reachable s) : Sound s := by
  refine hs.invariant (I := Sound) ?_ ?_
  · rintro _ rfl
    refine ⟨?_, ?_, ?_, ?_, ?_⟩ <;> simp [PoolState.cachedUnder, Table.rowOf, PoolState.busy]
  · intro s a t _ hs h
    obtain ⟨hok, hstep⟩ := Machine.restrict_step.mp h
    exact (step_cases hs hok hstep).1

/-- What holds of the pool in a reachable state. -/
structure EngineLaw (config : PoolConfig) (s : PoolState) : Prop where
  /-- An engine in use is cached under its database, and neither dropped nor disposed. -/
  cached : ∀ engine, s.busy engine = true → ∃ name, s.database.lookup engine = some name ∧
    s.cachedUnder name = some engine ∧ engine ∉ s.retired ++ s.disposed
  /-- No step drops it. -/
  kept : ∀ name engine a t, s.cachedUnder name = some engine → s.busy engine = true →
    (inUsePool config).step s a = some t →
    t.cachedUnder name = some engine ∧ engine ∉ t.retired ++ t.disposed
  /-- One engine for each database name has connections out. -/
  one_engine : ∀ engine engine' name, s.database.lookup engine = some name →
    s.database.lookup engine' = some name → 0 < (s.checkedOut.lookup engine).getD 0 →
    0 < (s.checkedOut.lookup engine').getD 0 → engine = engine'
  keys : ∀ name, (s.cachedUnder name).isSome = (s.lastUsed.lookup name).isSome
  /-- What is handed out is cached, and the cache is over the cap only by engines in use. -/
  handed : ∀ name pin now fresh t engine, s.database.lookup fresh = none →
    s.engineFor config name pin now fresh = .ok (t, engine) →
    t.cachedUnder name = some engine ∧
      (config.cacheSize < t.engines.length → ∀ name' other, t.cachedUnder name' = some other →
        name' ≠ name → t.busy other = true)

/-- In every reachable pool an engine in use is cached, and neither dropped nor disposed of. -/
theorem engine_law (config : PoolConfig) (s : PoolState) (hs : (inUsePool config).Reachable s) :
    EngineLaw config s where
  cached engine hbusy := by
    have hsound := sound_of_reachable hs
    obtain ⟨name, hmem⟩ := hsound.inUse engine hbusy
    exact ⟨name, hsound.created _ hmem, hsound.cachedUnder hmem,
      fun hgone => (hsound.gone engine hgone).2 name hmem⟩
  kept name engine a t hcached hbusy hstep := by
    have ht := sound_of_reachable (hs.step hstep)
    obtain ⟨hok, hbase⟩ := Machine.restrict_step.mp hstep
    have hkept := (step_cases (sound_of_reachable hs) hok hbase).2 _ (mem_of_cachedUnder hcached)
      hbusy
    exact ⟨ht.cachedUnder hkept, fun hgone => (ht.gone engine hgone).2 name hkept⟩
  one_engine engine engine' name hname hname' hout hout' := by
    have hsound := sound_of_reachable hs
    obtain ⟨found, hmem⟩ := hsound.inUse engine (busy_of_checkedOut hout)
    obtain ⟨found', hmem'⟩ := hsound.inUse engine' (busy_of_checkedOut hout')
    have hfound : found = name := Option.some.inj ((hsound.created _ hmem).symm.trans hname)
    have hfound' : found' = name := Option.some.inj ((hsound.created _ hmem').symm.trans hname')
    subst hfound hfound'
    exact Option.some.inj ((hsound.cachedUnder hmem).symm.trans (hsound.cachedUnder hmem'))
  keys := (sound_of_reachable hs).keys
  handed name pin now fresh t engine hfresh hanswer := by
    have hout := engineFor_ok (sound_of_reachable hs) hfresh hanswer
    refine ⟨hout.sound.cachedUnder hout.cached, fun hover name' other hcached hne => ?_⟩
    rcases hout.capped with hcapped | hrest
    · omega
    · exact hrest (name', other) (mem_of_cachedUnder hcached) hne

section Sample

def sampleConfig : PoolConfig := ⟨1, 2, 30, by decide, by decide, by decide⟩

def noEngines : PoolState := ⟨[], ∅, ∅, ∅, ∅, [], []⟩

/-- A pinned engine outlasts the idle window and the cap. -/
def pinnedRun : List PoolAction :=
  [.engineFor "ws_a" true 0 1, .engineFor "ws_b" false 90 2, .checkOut 1]

/-- An engine handed out without a pin is retired before its connection is taken. -/
def unpinnedRun : List PoolAction :=
  [.engineFor "ws_a" false 0 1, .closeIdle 90, .dispose 1, .checkOut 1,
    .engineFor "ws_a" false 91 2, .checkOut 2]

def pinned : PoolState := ((inUsePool sampleConfig).run noEngines pinnedRun).getD noEngines

/-- A pinned engine stays cached beside a second one. -/
theorem engine_law_pinned :
    pinned.engines = [("ws_a", 1), ("ws_b", 2)] ∧ EngineLaw sampleConfig pinned := by
  have hrun : (inUsePool sampleConfig).run noEngines pinnedRun = some pinned := rfl
  exact ⟨rfl, engine_law sampleConfig pinned (Machine.reachable_of_run rfl hrun)⟩

/-- Two engines of one database have connections out, and one of them is disposed. -/
theorem unpinned_retired :
    ∃ s, ((enginePool sampleConfig).restrict fun s a => Matched s a = true).run noEngines
        unpinnedRun = some s ∧
      s.database.lookup 1 = some "ws_a" ∧ s.database.lookup 2 = some "ws_a" ∧
      s.checkedOut.lookup 1 = some 1 ∧ s.checkedOut.lookup 2 = some 1 ∧ s.disposed = [1] ∧
      s.engines = [("ws_a", 2)] :=
  ⟨_, rfl, rfl, rfl, rfl, rfl, rfl, rfl⟩

end Sample

end Rheostream.EnginePool
