import Rheostream.Recallatron.EligibilityLaws
import Rheostream.Recallatron.MemoryWrites

/-!
# What is written rests on what is there

Whatever a request has decided to be eligible is stored and admitted. So a memory that is written
links to other records, to memories that can be read, and to what these are linked to.
-/

namespace Rheostream.Recallatron

open Handler

/-! ### What a request has decided -/

section Decisions

/-- What a request has decided to be eligible is stored and admitted. -/
def Honest (w : MemoryStore) (q : MemoryRequest) (st : RequestState) : Prop :=
  ∀ id mode row heads, st.decisions.lookup (id, mode) = some (.eligible row heads) →
    ∃ m, w.memories.lookup id = some m ∧ q.admits mode m = true

variable {w : MemoryStore} {q : MemoryRequest} {mode : ReadMode} {id : Uuid} {st : RequestState}
  {visit : Uuid → RequestState → Decision × RequestState}

theorem honest_fresh : Honest w q .fresh := by
  intro id mode row heads hlookup
  simp [RequestState.fresh] at hlookup

theorem Honest.charge (h : Honest w q st) (reference : RefText) :
    Honest w q (q.charge st reference).2 := by
  intro id mode row heads hlookup
  rw [charge_decisions] at hlookup
  exact h id mode row heads hlookup

theorem readLink_honest (hvisit : ∀ b s, Honest w q s → Honest w q (visit b s).2)
    (link : MemoryLinkRow) (h : Honest w q st) : Honest w q (readLink w q visit link st).2 := by
  unfold readLink
  split_ifs
  · exact h
  split
  · exact h
  next r hparse =>
  split_ifs
  · have hnext := hvisit r.id st h
    split
    · next state t heq => rwa [heq] at hnext
    · next row heads t heq => rwa [heq] at hnext
  · have hnext := h.charge link.ref
    split
    · next t heq => rwa [heq] at hnext
    · next t heq => rwa [heq] at hnext

theorem readLinks_honest (hvisit : ∀ b s, Honest w q s → Honest w q (visit b s).2)
    (links : List MemoryLinkRow) (h : Honest w q st) :
    Honest w q (readLinks w q visit links st).2 := by
  induction links generalizing st with
  | nil => exact h
  | cons link rest ih =>
    have hfirst := readLink_honest hvisit link h
    unfold readLinks
    split
    · next state t heq => rwa [heq] at hfirst
    next head t heq =>
    rw [heq] at hfirst
    have hrest := ih hfirst
    split
    · next state u hlater => rwa [hlater] at hrest
    · next heads u hlater => rwa [hlater] at hrest

/-- An answer that a memory is eligible is about a stored memory that is admitted. -/
def HonestAnswer (w : MemoryStore) (q : MemoryRequest) (mode : ReadMode) (id : Uuid)
    (d : Decision) : Prop :=
  ∀ row heads, d = .eligible row heads → ∃ m, w.memories.lookup id = some m ∧
    q.admits mode m = true

theorem honestAnswer_denied {state : String} : HonestAnswer w q mode id (.denied state) := by
  intro row heads hd
  cases hd

theorem decideMemory_honest (mode : ReadMode)
    (hvisit : ∀ b s, Honest w q s → Honest w q (visit b s).2) (id : Uuid)
    (h : Honest w q st) : Honest w q (decideMemory w q mode visit id st).2 ∧
      HonestAnswer w q mode id (decideMemory w q mode visit id st).1 := by
  unfold decideMemory
  split_ifs
  · split
    · exact ⟨h, honestAnswer_denied⟩
    next m hm =>
    split_ifs with hadmits
    · have hlinks := readLinks_honest hvisit m.links h
      split
      · next state t heq =>
        rw [heq] at hlinks
        exact ⟨hlinks, honestAnswer_denied⟩
      · next heads t heq =>
        rw [heq] at hlinks
        exact ⟨hlinks, fun _ _ _ => ⟨m, hm, hadmits⟩⟩
    · exact ⟨h, honestAnswer_denied⟩
  · exact ⟨h, honestAnswer_denied⟩

theorem eligibleMemory_honest (room : ℕ) (id : Uuid) (h : Honest w q st) :
    Honest w q (eligibleMemory w q mode room id st).2 ∧
      HonestAnswer w q mode id (eligibleMemory w q mode room id st).1 := by
  induction room generalizing id st with
  | zero => exact ⟨h, honestAnswer_denied⟩
  | succ room ih =>
    have hcharged := h.charge (memoryReference id)
    have hcase := visitCase w q mode room id st
    generalize eligibleMemory w q mode (room + 1) id st = answer at hcase ⊢
    cases hcase with
    | refused spent => exact ⟨hcharged, honestAnswer_denied⟩
    | kept d charged cached =>
      refine ⟨hcharged, fun row heads hd => ?_⟩
      dsimp only at hd
      rw [hd] at cached
      exact hcharged id mode row heads cached
    | cycle charged active => exact ⟨hcharged, honestAnswer_denied⟩
    | decided r charged uncached inactive decides =>
      have hstarted : Honest w q ((q.charge st (memoryReference id)).2.start id) := hcharged
      have hdecide := decideMemory_honest mode (fun b s hs => (ih b hs).1) id hstarted
      rw [decides] at hdecide
      obtain ⟨hstate, hanswer⟩ := hdecide
      refine ⟨fun id' mode' row heads hlookup => ?_, hanswer⟩
      simp only [RequestState.settle, Table.lookup_insert] at hlookup
      split_ifs at hlookup with hkey
      · obtain ⟨rfl, rfl⟩ := Prod.mk.inj hkey
        exact hanswer row heads (Option.some.inj hlookup)
      · exact hstate id' mode' row heads hlookup

end Decisions

/-! ### Audiences -/

/-- The memory is neither invalidated nor superseded. -/
def KeptMemory.IsCurrent (m : KeptMemory) : Prop :=
  m.stored.row.invalidatedAt = none ∧ m.stored.row.supersededById = none

namespace WriteAudience

/-- Whoever is of the first audience is of the second. -/
def Within (a a' : WriteAudience) : Prop :=
  a'.kind = .workspace ∨ (a.kind = .member ∧ a'.kind = .member ∧ a.id = a'.id)

variable {a a' a'' : WriteAudience}

theorem within_refl (a : WriteAudience) : a.Within a := by
  cases hkind : a.kind with
  | workspace => exact .inl hkind
  | member => exact .inr ⟨hkind, hkind, rfl⟩

theorem Within.trans (h : a.Within a') (h' : a'.Within a'') : a.Within a'' := by
  rcases h' with hall | ⟨hmember, hmember', hid'⟩
  · exact .inl hall
  · rcases h with hall | ⟨hfirst, -, hid⟩
    · rw [hall] at hmember
      cases hmember
    · exact .inr ⟨hfirst, hmember', hid.trans hid'⟩

/-- What two audiences meet in is within both. -/
theorem within_of_meet (h : meetAudience a a' = some a'') : a''.Within a ∧ a''.Within a' := by
  unfold meetAudience at h
  split_ifs at h with hleft hright hid
  · obtain rfl := Option.some.inj h
    exact ⟨.inl hleft, within_refl _⟩
  · obtain rfl := Option.some.inj h
    exact ⟨within_refl _, .inl hright⟩
  · obtain rfl := Option.some.inj h
    have hmember : ∀ {k : AudienceKind}, k ≠ .workspace → k = .member := by
      intro k hk
      cases k with
      | workspace => exact absurd rfl hk
      | member => rfl
    exact ⟨within_refl _, .inr ⟨hmember hleft, hmember hright, hid⟩⟩

end WriteAudience

/-- What the first memory may be shown to, and used for, the second may. -/
def KeptMemory.Narrows (m m' : KeptMemory) : Prop :=
  m.audience.Within m'.audience ∧ ∀ purpose ∈ m.stored.purposes, purpose ∈ m'.stored.purposes

theorem KeptMemory.Narrows.trans {m m' m'' : KeptMemory} (h : m.Narrows m')
    (h' : m'.Narrows m'') : m.Narrows m'' :=
  ⟨h.1.trans h'.1, fun purpose hpurpose => h'.2 purpose (h.2 purpose hpurpose)⟩

/-! ### Where links come from -/

/-- The link says that its memory is derived from what it names. -/
def MemoryLinkRow.Derives (link : MemoryLinkRow) : Prop :=
  link.relation = .derivedFrom ∧ link.supersessionLineage = false

/-- A link that is written: to a record that is no memory, to a current memory, as a current memory
has it, or to what backs an entity that some memory mentions. What is derived is bound by `N`. -/
inductive LinkOrigin (b : MemoryBooks) (N : KeptMemory → Prop) (link : MemoryLinkRow) : Prop where
  | other (hother : ∀ id, link.ref ≠ memoryReference id)
  | source (id : Uuid) (m : KeptMemory) (href : link.ref = memoryReference id)
      (hm : b.memories.lookup id = some m) (hcurrent : m.IsCurrent) (hbound : link.Derives → N m)
  | copied (id : Uuid) (m : KeptMemory) (old : MemoryLinkRow) (hm : b.memories.lookup id = some m)
      (hcurrent : m.IsCurrent) (hold : old ∈ m.stored.links) (href : old.ref = link.ref)
      (hderives : link.Derives → old.Derives) (hbound : link.Derives → N m)
  | named (id entity : Uuid) (m : KeptMemory) (row : EntityRow)
      (hm : b.memories.lookup id = some m) (hmentions : entity ∈ m.mentions)
      (hentity : b.entities.lookup entity = some row) (href : row.ref = some link.ref)
      (habout : link.relation = .about)

theorem LinkOrigin.mono {b : MemoryBooks} {N N' : KeptMemory → Prop} {link : MemoryLinkRow}
    (h : LinkOrigin b N link) (hmono : ∀ m, N m → N' m) : LinkOrigin b N' link := by
  cases h with
  | other hother => exact .other hother
  | source id m href hm hcurrent hbound =>
    exact .source id m href hm hcurrent fun hderived => hmono m (hbound hderived)
  | copied id m old hm hcurrent hold href hderives hbound =>
    exact .copied id m old hm hcurrent hold href hderives fun hderived => hmono m (hbound hderived)
  | named id entity m row hm hmentions hentity href habout =>
    exact .named id entity m row hm hmentions hentity href habout

/-! ### What the reading half of a write answers -/

section Reading

variable {c : MemoryCall} {q : MemoryRequest} {b : MemoryBooks} {mode : ReadMode} {id : Uuid}
  {N : KeptMemory → Prop}

/-- The tables are `b`, and the request is honest about them. -/
structure Asking (c : MemoryCall) (q : MemoryRequest) (b : MemoryBooks) (t : MemoryWork) :
    Prop where
  books : t.books = b
  honest : Honest (c.store b) q t.request

theorem lookup_stored {m : StoredMemory} :
    b.stored.lookup id = some m ↔ ∃ kept, b.memories.lookup id = some kept ∧ kept.stored = m := by
  rw [MemoryBooks.stored, Table.lookup_mapRows, Option.map_eq_some_iff]

theorem isCurrent_of_admits {m : KeptMemory} (h : q.admits .current m.stored = true) :
    m.IsCurrent := by
  simp only [MemoryRequest.admits, MemoryRequest.modeAdmits, Bool.and_eq_true,
    Option.isNone_iff_eq_none] at h
  exact h.2

/-- A reference to a memory that can be read is to a current one. -/
theorem current_of_readable (h : readableRef c b (memoryReference id) = true) :
    ∃ m, b.memories.lookup id = some m ∧ m.IsCurrent := by
  have hmemory : isMemoryRef ⟨"recallatron", "memory", id⟩ = true := by simp [isMemoryRef]
  simp only [readableRef, memoryReference, RefText.parse, hmemory, if_true, Option.any_eq_true] at h
  obtain ⟨q, -, hanswer⟩ := h
  split at hanswer
  · next row heads heq =>
    have hfresh : Honest (c.store b) q .fresh := honest_fresh
    obtain ⟨m, hm, hadmits⟩ := (eligibleMemory_honest (q.depthLimit + 1) id hfresh).2 row heads heq
    obtain ⟨kept, hkept, rfl⟩ := lookup_stored.mp hm
    exact ⟨kept, hkept, isCurrent_of_admits hadmits⟩
  · cases hanswer

theorem readableRef_congr {b b' : MemoryBooks} (h : b'.memories = b.memories)
    (reference : RefText) : readableRef c b' reference = readableRef c b reference := by
  simp only [readableRef, MemoryCall.store, MemoryBooks.stored, h]

theorem yields_chargeReference (reference : RefText) :
    Yields (Asking c q b) (chargeReference q reference) fun _ => True := by
  unfold chargeReference
  refine yields_get.bind fun t ht => ?_
  refine Yields.bind (Q := fun _ => True) (yields_write (fun s hs => ?_) trivial) fun _ _ =>
    yields_require fun _ => trivial
  exact ⟨hs.books, hs.honest.charge reference⟩

theorem yields_decideOn (mode : ReadMode) (id : Uuid) :
    Yields (Asking c q b) (decideOn c q mode id) (HonestAnswer (c.store b) q mode id) := by
  have hask : ∀ t, Asking c q b t → Honest (c.store b) q (ask (c.store t.books) q t.request
      (id, mode)).2 ∧ HonestAnswer (c.store b) q mode id
        (ask (c.store t.books) q t.request (id, mode)).1 := by
    rintro t ⟨rfl, hhonest⟩
    exact eligibleMemory_honest (q.depthLimit + 1) id hhonest
  unfold decideOn
  refine yields_get.bind fun t ht => ?_
  refine Yields.bind (Q := fun _ => True) (yields_write (fun s hs => ?_) trivial) fun _ _ =>
    yields_pure (hask t ht).2
  exact ⟨hs.books, (hask s hs).1⟩

theorem yields_eligibleRow (mode : ReadMode) (id : Uuid) :
    Yields (Asking c q b) (eligibleRow c q mode id) fun m =>
      b.memories.lookup id = some m ∧ q.admits mode m.stored = true := by
  unfold eligibleRow
  refine (yields_decideOn mode id).bind fun decision hdecision => ?_
  cases decision with
  | denied state => exact yields_refuse
  | eligible row heads =>
    obtain ⟨m, hm, hadmits⟩ := hdecision row heads rfl
    obtain ⟨kept, hkept, rfl⟩ := lookup_stored.mp hm
    refine yields_get.bind fun t ht => yields_found fun found hfound => ?_
    rw [ht.books, hkept] at hfound
    obtain rfl := Option.some.inj hfound
    exact ⟨hkept, hadmits⟩

/-- The links that a caller states are to no memory. -/
theorem yields_statedLinks (references : List (RefText × Relation)) :
    Yields (Asking c q b) (statedLinks c q references) fun links =>
      ∀ link ∈ links, LinkOrigin b N link := by
  induction references with
  | nil => exact yields_pure (by simp)
  | cons stated rest ih =>
    obtain ⟨reference, relation⟩ := stated
    unfold statedLinks
    refine Yields.bind (yields_found fun _ hparsed => hparsed) fun parsed hparsed => ?_
    refine Yields.bind (Q := fun _ => isMemoryRef parsed = false)
      (yields_require fun hother => hother) fun _ hother => ?_
    refine (yields_chargeReference reference).bind fun _ _ => yields_get.bind fun t _ => ?_
    refine Yields.bind (Q := fun _ => True) (yields_require fun _ => trivial) fun _ _ => ?_
    refine ih.bind fun links hlinks => yields_pure fun link hlink => ?_
    rcases List.mem_cons.mp hlink with rfl | hlink
    · refine .other fun id href => ?_
      dsimp only at href
      rw [href] at hparsed
      obtain rfl := Option.some.inj hparsed
      simp [isMemoryRef] at hother
    · exact hlinks link hlink

theorem yields_copiedLinks (old : List MemoryLinkRow) :
    Yields (Asking c q b) (copiedLinks q old) fun links =>
      ∀ link ∈ links, ∃ own ∈ old, own.ref = link.ref ∧ (link.Derives → own.Derives) := by
  induction old with
  | nil => exact yields_pure (by simp)
  | cons own rest ih =>
    have hrest : Yields (Asking c q b) (copiedLinks q rest) fun links =>
        ∀ link ∈ links, ∃ o ∈ own :: rest, o.ref = link.ref ∧ (link.Derives → o.Derives) := by
      refine ih.mono fun links hlinks link hlink => ?_
      obtain ⟨o, ho, hcopied⟩ := hlinks link hlink
      exact ⟨o, List.mem_cons_of_mem _ ho, hcopied⟩
    unfold copiedLinks
    split_ifs with hmarked
    · exact hrest
    refine (yields_chargeReference own.ref).bind fun _ _ => hrest.bind fun links hlinks =>
      yields_pure fun link hlink => ?_
    rcases List.mem_cons.mp hlink with rfl | hlink
    · exact ⟨own, List.mem_cons_self, rfl, fun hderived => ⟨hderived.1, by simpa using hmarked⟩⟩
    · exact hlinks link hlink

/-- What is drawn from the sources may be shown to, and used for, what the memory may be. -/
def DerivedSources.Bounds (sources : DerivedSources) (m : KeptMemory) : Prop :=
  sources.audience.Within m.audience ∧
    ∀ purpose ∈ sources.purposes, purpose.value ∈ m.stored.purposes

/-- The links of the sources come from memories that bound what is drawn from them. -/
def DerivedSources.Drawn (b : MemoryBooks) (sources : DerivedSources) : Prop :=
  ∀ link ∈ sources.links, LinkOrigin b sources.Bounds link

theorem yields_resolveSource {sources : DerivedSources} {reference : RefText} {parsed : RecordRef}
    (hsources : sources.Drawn b) (hparsed : reference.parse = some parsed) :
    Yields (Asking c q b) (resolveSource c q sources reference parsed)
      (DerivedSources.Drawn b) := by
  have href : reference = .ref parsed := by
    cases reference with
    | ref target =>
      obtain rfl := Option.some.inj hparsed
      rfl
    | malformed text => cases hparsed
  unfold resolveSource
  split_ifs with hmemory
  · obtain ⟨moduleId, recordType, id⟩ := parsed
    obtain ⟨rfl, rfl⟩ : moduleId = "recallatron" ∧ recordType = "memory" := by
      simpa [isMemoryRef] using hmemory
    refine (yields_eligibleRow .current id).bind fun m hm => ?_
    obtain ⟨hm, hadmits⟩ := hm
    have hcurrent := isCurrent_of_admits hadmits
    refine Yields.bind (yields_found fun _ hmet => hmet) fun met hmet => ?_
    obtain ⟨hwithin, hwithin'⟩ := WriteAudience.within_of_meet hmet
    refine (yields_copiedLinks m.stored.links).bind fun copied hcopied =>
      yields_pure fun link hlink => ?_
    rcases List.mem_append.mp hlink with hlink | hlink
    · refine (hsources link hlink).mono fun other hother => ⟨hwithin.trans hother.1, ?_⟩
      exact fun purpose hpurpose => hother.2 purpose (Finset.mem_filter.mp hpurpose).1
    have hbounds : ∀ purpose ∈ sources.purposes.filter
        (fun purpose => purpose.value ∈ m.stored.purposes), purpose.value ∈ m.stored.purposes :=
      fun purpose hpurpose => (Finset.mem_filter.mp hpurpose).2
    rcases List.mem_cons.mp hlink with rfl | hlink
    · exact .source id m href hm hcurrent fun _ => ⟨hwithin', hbounds⟩
    · obtain ⟨old, hold, hsame, hderives⟩ := hcopied link hlink
      exact .copied id m old hm hcurrent hold hsame hderives fun _ => ⟨hwithin', hbounds⟩
  · refine yields_get.bind fun t _ => ?_
    refine Yields.bind (Q := fun _ => True) (yields_require fun _ => trivial) fun _ _ =>
      yields_pure fun link hlink => ?_
    rcases List.mem_append.mp hlink with hlink | hlink
    · exact hsources link hlink
    · obtain rfl := List.mem_singleton.mp hlink
      refine .other fun id heq => hmemory ?_
      rw [href] at heq
      obtain rfl := RefText.ref.inj heq
      simp [isMemoryRef]

theorem yields_resolveEach (references seen : List RefText) {sources : DerivedSources}
    (hsources : sources.Drawn b) :
    Yields (Asking c q b) (resolveEach c q references seen sources) (DerivedSources.Drawn b) := by
  induction references generalizing seen sources with
  | nil => exact yields_pure hsources
  | cons reference rest ih =>
    unfold resolveEach
    refine Yields.bind (yields_found fun _ hparsed => hparsed) fun parsed hparsed => ?_
    split_ifs with hseen
    · exact ih seen hsources
    · exact (yields_chargeReference reference).bind fun _ _ =>
        (yields_resolveSource hsources hparsed).bind fun next hnext => ih _ hnext

theorem yields_resolveSources (sources aboutRefs : List RefText) :
    Yields (Asking c q b) (resolveSources c q sources aboutRefs) (DerivedSources.Drawn b) := by
  unfold resolveSources
  refine (yields_resolveEach sources [] fun link hlink => absurd hlink List.not_mem_nil).bind
    fun resolved hresolved => (yields_statedLinks (N := resolved.Bounds) _).bind
      fun about habout => yields_pure fun link hlink => ?_
  rcases List.mem_append.mp hlink with hlink | hlink
  · exact hresolved link hlink
  · exact habout link hlink

theorem yields_verifiedLinks (links : List SourceUnits.SourceLink) :
    Yields (Asking c q b) (verifiedLinks c q links) fun written =>
      (links = [] → written = []) ∧
        ∀ link ∈ written, LinkOrigin b (fun _ => True) link := by
  induction links with
  | nil => exact yields_pure ⟨fun _ => rfl, by simp⟩
  | cons own rest ih =>
    obtain ⟨reference, relation⟩ := own
    unfold verifiedLinks
    refine Yields.bind (yields_found fun _ hparsed => hparsed) fun parsed hparsed => ?_
    split_ifs with hmemory
    · refine (yields_eligibleRow .current parsed.id).bind fun m hm => ?_
      refine ih.bind fun written hwritten => yields_pure ⟨by simp, fun link hlink => ?_⟩
      rcases List.mem_cons.mp hlink with rfl | hlink
      · obtain ⟨moduleId, recordType, id⟩ := parsed
        obtain ⟨rfl, rfl⟩ : moduleId = "recallatron" ∧ recordType = "memory" := by
          simpa [isMemoryRef] using hmemory
        cases reference with
        | ref target =>
          obtain rfl := Option.some.inj hparsed
          exact .source id m rfl hm.1 (isCurrent_of_admits hm.2) fun _ => trivial
        | malformed text => cases hparsed
      · exact hwritten.2 link hlink
    · refine yields_get.bind fun t _ => ?_
      refine Yields.bind (Q := fun _ => True) (yields_require fun _ => trivial) fun _ _ =>
        ih.bind fun written hwritten => yields_pure ⟨by simp, fun link hlink => ?_⟩
      rcases List.mem_cons.mp hlink with rfl | hlink
      · refine .other fun id heq => hmemory ?_
        dsimp only at heq hparsed
        rw [heq] at hparsed
        obtain rfl := Option.some.inj hparsed
        simp [isMemoryRef]
      · exact hwritten.2 link hlink

theorem yields_resolveAudience {P : MemoryWork → Prop} (requested : Option AudienceKind)
    (met : Option WriteAudience) :
    Yields P (resolveAudience c requested met) fun audience => ∀ a ∈ met, audience.Within a := by
  unfold resolveAudience
  refine Yields.bind (Q := fun _ => True) (yields_require fun _ => trivial) fun _ _ => ?_
  cases met with
  | none => exact yields_pure (by simp)
  | some met =>
    refine Yields.bind (yields_found fun _ hmet => hmet) fun narrowed hnarrowed => ?_
    refine Yields.bind (Q := fun _ => True) (yields_require fun _ => trivial) fun _ _ =>
      yields_pure fun a ha => ?_
    obtain rfl := Option.mem_some_iff.mp ha
    exact (WriteAudience.within_of_meet hnarrowed).2

theorem mem_purposeValues {purposes : Finset ContextPurpose} {value : String}
    (h : value ∈ purposeValues purposes) : ∃ purpose ∈ purposes, purpose.value = value := by
  have hmem := (sortedBy_perm _ _).mem_iff.mp h
  obtain ⟨purpose, hpurpose, hvalue⟩ := List.mem_map.mp hmem
  exact ⟨purpose, by simpa using (List.mem_filter.mp hpurpose).2, hvalue⟩

theorem yields_resolvePurposes {P : MemoryWork → Prop}
    (requested available : Option (Finset ContextPurpose)) :
    Yields P (resolvePurposes c requested available) fun values =>
      ∀ purposes ∈ available, ∀ value ∈ values, ∃ purpose ∈ purposes, purpose.value = value := by
  unfold resolvePurposes
  refine Yields.bind (Q := fun _ => True) (yields_require fun _ => trivial) fun _ _ => ?_
  split
  · next bound hbound =>
    refine Yields.bind (Q := fun _ => True) (yields_require fun _ => trivial) fun _ _ => ?_
    refine Yields.bind (Q := fun _ => ∀ purposes ∈ available, bound ∈ purposes)
      (yields_require fun h => h) fun _ hcarries => ?_
    refine yields_pure fun purposes hpurposes value hv => ?_
    obtain rfl := List.mem_singleton.mp hv
    exact ⟨bound, hcarries purposes hpurposes, rfl⟩
  · refine Yields.bind (Q := fun _ => True) (yields_found fun _ _ => trivial) fun chosen _ => ?_
    refine Yields.bind (Q := fun _ => ∀ purposes ∈ available, chosen ⊆ purposes)
      (yields_require fun h => h) fun _ hcarries => ?_
    refine Yields.bind (Q := fun _ => True) (yields_require fun _ => trivial) fun _ _ =>
      yields_pure fun purposes hpurposes value hv => ?_
    obtain ⟨purpose, hpurpose, hvalue⟩ := mem_purposeValues hv
    exact ⟨purpose, hcarries purposes hpurposes hpurpose, hvalue⟩

/-! ### Mentions -/

/-- Some memory mentions the entity. -/
def MemoryBooks.Mentions (b : MemoryBooks) (entity : Uuid) : Prop :=
  ∃ id m, b.memories.lookup id = some m ∧ entity ∈ m.mentions

/-- The entity is seen through a memory that mentions it, or through its backing reference. -/
def SeenEntity (c : MemoryCall) (b : MemoryBooks) (entity : Uuid) (row : EntityRow) : Prop :=
  b.entities.lookup entity = some row ∧
    (b.Mentions entity ∨ ∃ reference, row.ref = some reference ∧ readableRef c b reference = true)

theorem yields_countEligible (ids : List Uuid) :
    Yields (Asking c q b) (countEligible c q ids) fun count => count ≠ 0 → ids ≠ [] := by
  have hkeeps : ∀ ids, Yields (Asking c q b) (countEligible c q ids) fun _ => True := by
    intro ids
    induction ids with
    | nil => exact yields_pure trivial
    | cons id rest ih =>
      unfold countEligible
      refine (yields_decideOn .current id).bind fun decision _ => ?_
      cases decision with
      | eligible row heads => exact ih.bind fun _ _ => yields_pure trivial
      | denied state =>
        exact Yields.bind (Q := fun _ => True) (yields_require fun _ => trivial) fun _ _ => ih
  cases ids with
  | nil => exact yields_pure fun h => absurd rfl h
  | cons id rest => exact (hkeeps _).mono fun _ _ _ => List.cons_ne_nil _ _

theorem mentions_of_mem {entity : Uuid} (h : id ∈ mentioningMemories b q entity) :
    b.Mentions entity := by
  obtain ⟨⟨id', m⟩, hmem, rfl⟩ := List.mem_map.mp (List.mem_of_mem_take h)
  have hrow := AList.mem_lookup_iff.mpr ((sortedBy_perm _ _).mem_iff.mp hmem)
  rw [Option.mem_def, Table.lookup_select, Option.filter_eq_some_iff, Bool.and_eq_true] at hrow
  exact ⟨id', m, hrow.1, by simpa using hrow.2.1⟩

theorem yields_visibleEntity (entity : Uuid) :
    Yields (Asking c q b) (visibleEntity c q entity) (SeenEntity c b entity) := by
  unfold visibleEntity
  refine yields_get.bind fun t ht => ?_
  obtain ⟨hbooks, -⟩ := ht
  rw [hbooks]
  refine Yields.bind (yields_found fun _ hrow => hrow) fun row hrow => ?_
  refine (yields_countEligible (mentioningMemories b q entity)).bind fun count hcount => ?_
  refine Yields.bind (Q := fun _ => count ≠ 0 ∨ row.ref.any (readableRef c b) = true)
    (yields_require fun h => h) fun _ hroute => yields_pure ⟨hrow, ?_⟩
  rcases hroute with hmentioned | hbacked
  · obtain ⟨id, hid⟩ := List.exists_mem_of_ne_nil _ (hcount hmentioned)
    exact .inl (mentions_of_mem hid)
  · exact .inr (by simpa [Option.any_eq_true] using hbacked)

theorem yields_selectMentions (inputs : List MentionInput) {selected : List ResolvedMention}
    (hselected : ∀ mention ∈ selected, SeenEntity c b mention.entityId ⟨mention.backingRef⟩) :
    Yields (Asking c q b) (selectMentions c q inputs selected) fun mentions =>
      ∀ mention ∈ mentions, SeenEntity c b mention.entityId ⟨mention.backingRef⟩ := by
  induction inputs generalizing selected with
  | nil => exact yields_pure hselected
  | cons input rest ih =>
    cases input with
    | create backing role => exact ih hselected
    | select reference role =>
      unfold selectMentions
      refine Yields.bind (Q := fun _ => True) (yields_found fun _ _ => trivial) fun entity _ => ?_
      refine (yields_visibleEntity entity).bind fun row hrow => ?_
      split
      · exact Yields.bind (Q := fun _ => True) (yields_require fun _ => trivial) fun _ _ =>
          ih hselected
      · refine ih fun mention hmention => ?_
        rcases List.mem_append.mp hmention with hmention | hmention
        · exact hselected mention hmention
        · obtain rfl := List.mem_singleton.mp hmention
          exact hrow

/-- A record that can be read may back a mention. -/
theorem origin_of_readable {reference : RefText} (h : readableRef c b reference = true) :
    LinkOrigin b N ⟨reference, .about, false⟩ := by
  by_cases hmemory : ∃ id, reference = memoryReference id
  · obtain ⟨id, rfl⟩ := hmemory
    obtain ⟨m, hm, hcurrent⟩ := current_of_readable h
    exact .source id m rfl hm hcurrent fun hderived => by cases hderived.1
  · exact .other fun id heq => hmemory ⟨id, heq⟩

end Reading

/-! ### What a write leaves -/

section Writing

variable {c : MemoryCall} {b b' : MemoryBooks} {t u : MemoryWork} {id : Uuid}
  {mentions : List ResolvedMention} {new : NewMemory}

theorem mem_of_mem_deduplicated {seen : List (RefText × Relation)} {links : List MemoryLinkRow}
    {link : MemoryLinkRow} (h : link ∈ deduplicated seen links) : link ∈ links := by
  induction links generalizing seen with
  | nil => exact h
  | cons first rest ih =>
    unfold deduplicated at h
    split_ifs at h
    · exact List.mem_cons_of_mem _ (ih h)
    · rcases List.mem_cons.mp h with rfl | h
      · exact List.mem_cons_self
      · exact List.mem_cons_of_mem _ (ih h)

/-- Of the links to one record in one relation, one is kept. -/
theorem exists_deduplicated {seen : List (RefText × Relation)} {links : List MemoryLinkRow}
    {link : MemoryLinkRow} (h : link ∈ links) (hseen : (link.ref, link.relation) ∉ seen) :
    ∃ kept ∈ deduplicated seen links, kept.ref = link.ref ∧ kept.relation = link.relation := by
  induction links generalizing seen with
  | nil => cases h
  | cons first rest ih =>
    unfold deduplicated
    rcases List.mem_cons.mp h with rfl | h
    · rw [if_neg hseen]
      exact ⟨link, List.mem_cons_self, rfl, rfl⟩
    split_ifs with hfirst
    · exact ih h hseen
    by_cases hsame : (link.ref, link.relation) = (first.ref, first.relation)
    · obtain ⟨href, hrelation⟩ := Prod.mk.inj hsame
      exact ⟨first, List.mem_cons_self, href.symm, hrelation.symm⟩
    · have hnext : (link.ref, link.relation) ∉ (first.ref, first.relation) :: seen := by
        rw [List.mem_cons, not_or]
        exact ⟨hsame, hseen⟩
      obtain ⟨kept, hkept, heq⟩ := ih h hnext
      exact ⟨kept, List.mem_cons_of_mem _ hkept, heq⟩

theorem createEntity_answers {backing : Option RefText}
    (h : (createEntity backing).Answers t id u) : id = t.books.nextId ∧
      u.books = { t.books with
        entities := t.books.entities.insert t.books.nextId ⟨backing⟩
        nextId := t.books.nextId + 1 } := by
  simp only [createEntity, drawId, answers_bind, answers_get, answers_write, answers_pure] at h
  obtain ⟨id, _, ⟨_, _, ⟨rfl, rfl⟩, _, _, rfl, rfl, rfl⟩, _, _, rfl, rfl, rfl⟩ := h
  exact ⟨rfl, rfl⟩

theorem writeMemory_answers (h : (writeMemory new).Answers t id u) : id = t.books.nextId ∧
    u.books = { t.books with
      memories := t.books.memories.insert t.books.nextId new.row
      events := ⟨.recorded, t.books.nextId, new.kind, none, 1⟩ :: t.books.events
      nextId := t.books.nextId + 1 } := by
  simp only [writeMemory, drawId, answers_bind, answers_get, answers_write, answers_pure] at h
  obtain ⟨id, _, ⟨_, _, ⟨rfl, rfl⟩, _, _, rfl, rfl, rfl⟩, _, _, rfl, _, _, rfl, rfl, rfl⟩ := h
  exact ⟨rfl, rfl⟩

theorem checkBacking_answers {backing : Option RefText} {a : Unit}
    (h : (checkBacking c backing).Answers t a u) :
    u = t ∧ ∀ reference, backing = some reference → readableRef c t.books reference = true := by
  cases backing with
  | none =>
    obtain ⟨-, rfl⟩ := answers_pure.mp h
    exact ⟨rfl, fun _ hnone => by cases hnone⟩
  | some reference =>
    simp only [checkBacking, answers_bind, answers_found, answers_get, answers_require] at h
    obtain ⟨_, _, ⟨-, rfl⟩, _, _, ⟨rfl, rfl⟩, hreadable, rfl⟩ := h
    refine ⟨rfl, fun other hother => ?_⟩
    obtain rfl := Option.some.inj hother
    exact hreadable

/-- What the creations leave: fresh entities, each with the backing reference of its mention. -/
structure Created (c : MemoryCall) (b b' : MemoryBooks) (mentions : List ResolvedMention) :
    Prop where
  memories : b'.memories = b.memories
  events : b'.events = b.events
  nextId : b.nextId ≤ b'.nextId
  old : ∀ e < b.nextId, b'.entities.lookup e = b.entities.lookup e
  fresh : ∀ mention ∈ mentions, b.nextId ≤ mention.entityId ∧ mention.entityId < b'.nextId ∧
    b'.entities.lookup mention.entityId = some ⟨mention.backingRef⟩ ∧
      ∀ reference, mention.backingRef = some reference → readableRef c b reference = true
  only : ∀ e row, b.nextId ≤ e → b'.entities.lookup e = some row →
    b.entities.lookup e = some row ∨ ∃ mention ∈ mentions, mention.entityId = e

theorem created_of_answers {inputs : List MentionInput}
    (h : (createMentions c inputs).Answers t mentions u) :
    Created c t.books u.books mentions := by
  induction inputs generalizing t mentions with
  | nil =>
    obtain ⟨rfl, rfl⟩ := answers_pure.mp h
    exact ⟨rfl, rfl, le_refl _, fun _ _ => rfl, fun _ hmention => absurd hmention List.not_mem_nil,
      fun _ _ _ hrow => .inl hrow⟩
  | cons input rest ih =>
    cases input with
    | select reference role => exact ih h
    | create backing role =>
      unfold createMentions at h
      rw [answers_bind] at h
      obtain ⟨_, t₁, hcheck, h⟩ := h
      obtain ⟨rfl, hreadable⟩ := checkBacking_answers hcheck
      rw [answers_bind] at h
      obtain ⟨id, t₂, hcreate, h⟩ := h
      obtain ⟨rfl, hbooks⟩ := createEntity_answers hcreate
      rw [answers_bind] at h
      obtain ⟨others, _, hothers, h⟩ := h
      obtain ⟨rfl, rfl⟩ := answers_pure.mp h
      have hrest := ih hothers
      rw [hbooks] at hrest
      have hread : ∀ reference, readableRef c { t₁.books with
          entities := t₁.books.entities.insert t₁.books.nextId ⟨backing⟩
          nextId := t₁.books.nextId + 1 } reference = readableRef c t₁.books reference :=
        readableRef_congr rfl
      have hnext : t₁.books.nextId < u.books.nextId := hrest.nextId
      constructor
      case memories => exact hrest.memories
      case events => exact hrest.events
      case nextId => exact hnext.le
      case old =>
        intro e he
        rw [hrest.old e (Nat.lt_succ_of_lt he), Table.lookup_insert, if_neg he.ne]
      case fresh =>
        intro mention hmention
        rcases List.mem_cons.mp hmention with rfl | hmention
        · refine ⟨le_refl _, hnext, ?_, hreadable⟩
          rw [hrest.old _ (Nat.lt_succ_self _), Table.lookup_insert, if_pos rfl]
        · obtain ⟨hle, hlt, hrow, hbacked⟩ := hrest.fresh mention hmention
          refine ⟨(Nat.lt_succ_self _).le.trans hle, hlt, hrow, fun reference href => ?_⟩
          rw [← hread]
          exact hbacked reference href
      case only =>
        intro e row he hrow
        by_cases hnew : e = t₁.books.nextId
        · subst hnew
          exact .inr ⟨_, List.mem_cons_self, rfl⟩
        · have hlater : t₁.books.nextId + 1 ≤ e := lt_of_le_of_ne he (Ne.symm hnew)
          rcases hrest.only e row hlater hrow with hold | ⟨mention, hmention, heq⟩
          · rw [Table.lookup_insert, if_neg hnew] at hold
            exact .inl hold
          · exact .inr ⟨mention, List.mem_cons_of_mem _ hmention, heq⟩

/-- A memory is written, with entities that it mentions. Its derived links are bound by `N`. -/
structure Wrote (N : KeptMemory → KeptMemory → Prop) (b b' : MemoryBooks) (id : Uuid)
    (m : KeptMemory) : Prop where
  fresh : b.nextId ≤ id
  next : id < b'.nextId
  memories : b'.memories = b.memories.insert id m
  events : b'.events = ⟨.recorded, id, m.kind, none, 1⟩ :: b.events
  revision : m.revision = 1
  live : m.stored.row.invalidatedAt = none ∧ m.stored.row.supersededById = none ∧
    m.stored.row.invalidationReason = none
  links : ∀ link ∈ m.stored.links, LinkOrigin b (N m) link
  old : ∀ e < b.nextId, b'.entities.lookup e = b.entities.lookup e
  mentions : ∀ e ∈ m.mentions, ∃ row, b'.entities.lookup e = some row ∧
    ∀ reference, row.ref = some reference → ∃ link ∈ m.stored.links, link.ref = reference
  only : ∀ e row, b.nextId ≤ e → b'.entities.lookup e = some row → e < b'.nextId ∧ e ∈ m.mentions ∧
    ∀ target, row.ref = some (memoryReference target) →
      ∃ source, b.memories.lookup target = some source

/-- The last two statements of a write, after the links and the selections were resolved. -/
theorem wrote_of_created {N : KeptMemory → KeptMemory → Prop} {b₁ : MemoryBooks}
    {selected created : List ResolvedMention}
    (hentities : ∀ e row, b.entities.lookup e = some row → e < b.nextId)
    (hlinks : ∀ link ∈ new.links, LinkOrigin b (N new.row) link)
    (hmentions : new.mentions = selected ++ created)
    (hselected : ∀ mention ∈ selected, SeenEntity c b mention.entityId ⟨mention.backingRef⟩)
    (hcreated : Created c b b₁ created)
    (hbooks : b' = { b₁ with
      memories := b₁.memories.insert b₁.nextId new.row
      events := ⟨.recorded, b₁.nextId, new.kind, none, 1⟩ :: b₁.events
      nextId := b₁.nextId + 1 }) :
    Wrote N b b' b₁.nextId new.row := by
  have hnext := hcreated.nextId
  -- what a mention is backed by is linked to
  have hlinked : ∀ mention ∈ new.mentions, ∀ reference, mention.backingRef = some reference →
      ∃ link ∈ new.row.stored.links, link.ref = reference := by
    intro mention hmention reference href
    have hmem : (⟨reference, .about, false⟩ : MemoryLinkRow) ∈ new.links ++
        new.mentions.filterMap fun mention => mention.backingRef.map fun reference =>
          ⟨reference, .about, false⟩ :=
      List.mem_append_right _ (List.mem_filterMap.mpr ⟨mention, hmention, by rw [href]; rfl⟩)
    obtain ⟨kept, hkept, heq, -⟩ := exists_deduplicated hmem List.not_mem_nil
    exact ⟨kept, hkept, heq⟩
  constructor
  case fresh => exact hnext
  case next =>
    rw [hbooks]
    exact Nat.lt_succ_self _
  case memories => rw [hbooks, hcreated.memories]
  case events =>
    rw [hbooks, hcreated.events]
    rfl
  case revision => rfl
  case live => exact ⟨rfl, rfl, rfl⟩
  case links =>
    intro link hlink
    rcases List.mem_append.mp (mem_of_mem_deduplicated hlink) with hlink | hlink
    · exact hlinks link hlink
    obtain ⟨mention, hmention, hmap⟩ := List.mem_filterMap.mp hlink
    obtain ⟨reference, href, rfl⟩ := Option.map_eq_some_iff.mp hmap
    rw [hmentions] at hmention
    rcases List.mem_append.mp hmention with hmention | hmention
    · obtain ⟨hrow, ⟨id, m, hm, hnames⟩ | ⟨other, hother, hreadable⟩⟩ := hselected mention hmention
      · exact .named id mention.entityId m _ hm hnames hrow href rfl
      · obtain rfl : other = reference := Option.some.inj (hother.symm.trans href)
        exact origin_of_readable hreadable
    · exact origin_of_readable ((hcreated.fresh mention hmention).2.2.2 reference href)
  case old =>
    intro e he
    rw [hbooks]
    exact hcreated.old e he
  case mentions =>
    intro e he
    obtain ⟨mention, hmention, rfl⟩ := List.mem_map.mp he
    have hrow : b'.entities.lookup mention.entityId = some ⟨mention.backingRef⟩ := by
      rw [hbooks]
      have hmem := hmention
      rw [hmentions] at hmem
      rcases List.mem_append.mp hmem with hold | hnew
      · have hseen := (hselected mention hold).1
        exact (hcreated.old _ (hentities _ _ hseen)).trans hseen
      · exact (hcreated.fresh mention hnew).2.2.1
    exact ⟨_, hrow, fun reference href => hlinked mention hmention reference href⟩
  case only =>
    intro e row he hrow
    rw [hbooks] at hrow ⊢
    rcases hcreated.only e row he hrow with hold | ⟨mention, hmention, rfl⟩
    · exact absurd (hentities e row hold) (not_lt.mpr he)
    · obtain ⟨-, hlt, hown, hreadable⟩ := hcreated.fresh mention hmention
      obtain rfl := Option.some.inj (hown.symm.trans hrow)
      refine ⟨Nat.lt_succ_of_lt hlt, List.mem_map.mpr ⟨mention, ?_, rfl⟩, fun target htarget => ?_⟩
      · rw [hmentions]
        exact List.mem_append_right _ hmention
      · obtain ⟨m, hm, -⟩ := current_of_readable (hreadable _ htarget)
        exact ⟨m, hm⟩

/-! ### The three callers -/

/-- The mentions of a write, and the two statements after them. -/
theorem wrote_of_mentions (N : KeptMemory → KeptMemory → Prop)
    (row : List ResolvedMention → NewMemory) {q : MemoryRequest} {inputs : List MentionInput}
    (hentities : ∀ e entity, b.entities.lookup e = some entity → e < b.nextId)
    (hasking : Asking c q b t)
    (hlinks : ∀ mentions, ∀ link ∈ (row mentions).links,
      LinkOrigin b (N (row mentions).row) link)
    (hrow : ∀ mentions, (row mentions).mentions = mentions)
    (h : (resolveMentions c q inputs >>= fun mentions => writeMemory (row mentions)).Answers
      t id u) : ∃ mentions, Wrote N b u.books id (row mentions).row := by
  rw [answers_bind] at h
  obtain ⟨mentions, t₁, hmentions, hwrite⟩ := h
  unfold resolveMentions at hmentions
  rw [answers_bind] at hmentions
  obtain ⟨selected, t₂, hselect, hmentions⟩ := hmentions
  obtain ⟨hasking, hselected⟩ := yields_selectMentions inputs
    (fun mention hmention => absurd hmention List.not_mem_nil) hasking hselect
  rw [answers_bind] at hmentions
  obtain ⟨created, t₃, hcreate, hmentions⟩ := hmentions
  obtain ⟨rfl, rfl⟩ := answers_pure.mp hmentions
  have hcreated := created_of_answers hcreate
  rw [hasking.books] at hcreated
  obtain ⟨rfl, hbooks⟩ := writeMemory_answers hwrite
  exact ⟨_, wrote_of_created hentities (hlinks _) (hrow _) hselected hcreated hbooks⟩

/-- Past the request that is opened, nothing is decided yet. -/
theorem answers_opened {α : Type} {k : MemoryRequest → MemoryHandler α} {a : α}
    (h : (opened c >>= k).Answers ⟨b, .fresh⟩ a u) :
    ∃ q, Asking c q b ⟨b, .fresh⟩ ∧ (k q).Answers ⟨b, .fresh⟩ a u := by
  rw [answers_bind] at h
  obtain ⟨q, _, hopened, h⟩ := h
  obtain ⟨-, rfl⟩ := answers_found.mp hopened
  exact ⟨q, ⟨rfl, honest_fresh⟩, h⟩

theorem wrote_of_remember {N : KeptMemory → KeptMemory → Prop} {input : WriteInput}
    {refs : List RefText} (hentities : ∀ e entity, b.entities.lookup e = some entity → e < b.nextId)
    (h : (remember c input refs).Answers ⟨b, .fresh⟩ id u) : ∃ m, Wrote N b u.books id m := by
  unfold remember at h
  obtain ⟨q, hasking, h⟩ := answers_opened h
  rw [answers_bind] at h
  obtain ⟨audience, _, haudience, h⟩ := h
  obtain ⟨hasking, -⟩ := yields_resolveAudience input.audience none hasking haudience
  rw [answers_bind] at h
  obtain ⟨purposes, _, hpurposes, h⟩ := h
  obtain ⟨hasking, -⟩ := yields_resolvePurposes input.purposes none hasking hpurposes
  rw [answers_bind] at h
  obtain ⟨links, _, hstated, h⟩ := h
  have hany := fun M => yields_statedLinks (N := M) _ hasking hstated
  rw [answers_bind] at h
  obtain ⟨_, _, hbound, h⟩ := h
  obtain ⟨-, rfl⟩ := answers_require.mp hbound
  obtain ⟨mentions, hwrote⟩ := wrote_of_mentions N (fun mentions =>
    ⟨input.kind, input.title, input.body, audience, purposes, q.now, links, mentions⟩) hentities
    (hany fun _ => True).1 (fun mentions => (hany _).2) (fun _ => rfl) h
  exact ⟨_, hwrote⟩

/-- What is derived narrows every memory it is derived from. -/
theorem wrote_of_derive {input : WriteInput} {sources : List RefText}
    (hentities : ∀ e entity, b.entities.lookup e = some entity → e < b.nextId)
    (h : (derive c input sources).Answers ⟨b, .fresh⟩ id u) :
    ∃ m, Wrote KeptMemory.Narrows b u.books id m := by
  unfold derive at h
  obtain ⟨q, hasking, h⟩ := answers_opened h
  rw [answers_bind] at h
  obtain ⟨resolved, _, hresolve, h⟩ := h
  obtain ⟨hasking, hdrawn⟩ := yields_resolveSources sources input.aboutRefs hasking hresolve
  rw [answers_bind] at h
  obtain ⟨audience, _, haudience, h⟩ := h
  obtain ⟨hasking, hwithin⟩ := yields_resolveAudience input.audience (some resolved.audience)
    hasking haudience
  rw [answers_bind] at h
  obtain ⟨purposes, _, hpurposes, h⟩ := h
  obtain ⟨hasking, hcarried⟩ := yields_resolvePurposes input.purposes (some resolved.purposes)
    hasking hpurposes
  have hlinks : ∀ link ∈ resolved.links, LinkOrigin b (fun m => audience.Within m.audience ∧
      ∀ value ∈ purposes, value ∈ m.stored.purposes) link := by
    intro link hlink
    refine (hdrawn link hlink).mono fun m hbounds => ⟨(hwithin _ rfl).trans hbounds.1, ?_⟩
    intro value hvalue
    obtain ⟨purpose, hpurpose, rfl⟩ := hcarried _ rfl value hvalue
    exact hbounds.2 purpose hpurpose
  obtain ⟨mentions, hwrote⟩ := wrote_of_mentions KeptMemory.Narrows (fun mentions =>
    ⟨input.kind, input.title, input.body, audience, purposes, q.now, resolved.links, mentions⟩)
    hentities hasking (fun _ => hlinks) (fun _ => rfl) h
  exact ⟨_, hwrote⟩

theorem selectMentions_creations {q : MemoryRequest} (backings : List (Option RefText)) :
    selectMentions c q (backings.map fun backing => .create backing none) [] = pure [] := by
  induction backings with
  | nil => rfl
  | cons backing rest ih => exact ih

/-- A unit without links is written without a link to a memory that it is derived from. -/
theorem wrote_of_acceptUnit {kind : String} {unit : SourceUnits.TrustedSourceUnit}
    (hentities : ∀ e entity, b.entities.lookup e = some entity → e < b.nextId)
    (h : (acceptUnit c kind unit).Answers ⟨b, .fresh⟩ id u) :
    ∃ m, Wrote (fun _ _ => unit.evidence.links ≠ []) b u.books id m := by
  unfold acceptUnit at h
  obtain ⟨q, hasking, h⟩ := answers_opened h
  rw [answers_bind] at h
  obtain ⟨recorded, _, hrecorded, h⟩ := h
  obtain ⟨-, rfl⟩ := answers_found.mp hrecorded
  rw [answers_bind] at h
  obtain ⟨links, _, hverify, h⟩ := h
  obtain ⟨hasking, hnone, hlinks⟩ := yields_verifiedLinks unit.evidence.links hasking hverify
  rw [answers_bind] at h
  obtain ⟨purposes, t₁, hpurposes, h⟩ := h
  obtain ⟨-, rfl⟩ := answers_found.mp hpurposes
  have hresolve : (resolveMentions c q (unit.evidence.mentions.map fun backing =>
      .create backing none) >>= fun mentions => writeMemory ⟨kind, pyStrip unit.evidence.title,
        unit.evidence.body, ⟨unit.audienceKind, unit.audienceId⟩,
        purposes.map ContextPurpose.value, recorded, links, mentions⟩).Answers t₁ id u := by
    simpa [resolveMentions, selectMentions_creations] using h
  have horigins : ∀ link ∈ links, LinkOrigin b (fun _ => unit.evidence.links ≠ []) link := by
    intro link hlink
    refine (hlinks link hlink).mono fun m _ hempty => ?_
    rw [hnone hempty] at hlink
    cases hlink
  obtain ⟨mentions, hwrote⟩ := wrote_of_mentions (fun _ _ => unit.evidence.links ≠ [])
    (fun mentions => ⟨kind, pyStrip unit.evidence.title, unit.evidence.body,
      ⟨unit.audienceKind, unit.audienceId⟩, purposes.map ContextPurpose.value, recorded, links,
      mentions⟩) hentities hasking (fun _ => horigins) (fun _ => rfl) hresolve
  exact ⟨_, hwrote⟩

end Writing

end Rheostream.Recallatron
