import Rheostream.Recallatron.MemoryHistory

/-!
# What memories rest on

Derivation over whole runs: what a memory is derived from stays, and stays current while the memory
is; it was shown to no fewer people and could be used for no fewer purposes. A successor takes the
place of one memory, and an erased memory is nowhere named again.
-/

namespace Rheostream.Recallatron

open Handler

deriving instance DecidableEq for MemoryLinkRow

/-- The first memory is stored as derived from the second. -/
def MemoryBooks.DerivedFrom (b : MemoryBooks) (j r : Uuid) : Prop :=
  ∃ m, b.memories.lookup j = some m ∧
    ∃ link ∈ m.stored.links, link.Derives ∧ link.ref = memoryReference r

/-! ### What stays -/

/-- What a memory is derived from is stored, and related to it by `N`. -/
def MemoryBooks.Grounded (N : KeptMemory → KeptMemory → Prop) (b : MemoryBooks) : Prop :=
  ∀ j m link r, b.memories.lookup j = some m → link ∈ m.stored.links → link.Derives →
    link.ref = memoryReference r → ∃ n, b.memories.lookup r = some n ∧ N m n

section Grounds

variable {N : KeptMemory → KeptMemory → Prop} {b b₁ b' : MemoryBooks} {id j : Uuid}
  {m m' n n' : KeptMemory}

/-- A relation between memories that later rows keep and that carries over derivations. -/
structure Steady (N : KeptMemory → KeptMemory → Prop) : Prop where
  trans : ∀ {m n o}, N m n → N n o → N m o
  became : ∀ {m m' n n'}, m.Became m' → n.Became n' → N m n → N m' n'
  narrows : ∀ {m n}, m.Narrows n → N m n

theorem steady_true : Steady fun _ _ => True := ⟨fun _ _ => trivial, fun _ _ _ => trivial,
  fun _ => trivial⟩

theorem steady_narrows : Steady KeptMemory.Narrows where
  trans h h' := h.trans h'
  became h h' hnarrows := by
    obtain ⟨hwithin, hpurposes⟩ := hnarrows
    refine ⟨?_, fun purpose hpurpose => ?_⟩
    · rw [h.audience, h'.audience]
      exact hwithin
    · rw [h'.purposes]
      rw [h.purposes] at hpurpose
      exact hpurposes purpose hpurpose
  narrows h := h

theorem Wrote.grounded (hsteady : Steady N) (hdrawn : b.Drawn) (hold : b.Grounded N)
    (h : Wrote N b b' id m) : b'.Grounded N := by
  intro j m' link r hm' hlink hderives href
  have hfound : ∃ n, b.memories.lookup r = some n ∧ N m' n := by
    rcases h.lookup hm' with ⟨rfl, rfl⟩ | ⟨-, hm⟩
    · cases h.links link hlink with
      | other hother => exact absurd href (hother r)
      | source k n hsame hn hcurrent hbound =>
        obtain rfl : k = r := congrArg RecordRef.id (RefText.ref.inj (hsame.symm.trans href))
        exact ⟨n, hn, hbound hderives⟩
      | copied k n old hn hcurrent hmem hsame hcopies hbound =>
        obtain ⟨o, ho, hbetween⟩ :=
          hold k n old r hn hmem (hcopies hderives) (hsame.trans href)
        exact ⟨o, ho, hsteady.trans (hbound hderives) hbetween⟩
      | named k entity n row hn hmentions hentity hsame habout =>
        rw [hderives.1] at habout
        cases habout
    · exact hold j m' link r hm hlink hderives href
  obtain ⟨n, hn, hbound⟩ := hfound
  exact ⟨n, h.kept hdrawn hn, hbound⟩

/-- Rows that become others stay grounded where what they are derived from stays. -/
theorem Carried.grounded (hsteady : Steady N) (hold : b.Grounded N)
    (hthere : ∀ j m', b'.memories.lookup j = some m' → j < b.nextId) (h : Carried b b')
    (hstays : ∀ j m link r, b.memories.lookup j = some m → link ∈ m.stored.links → link.Derives →
      link.ref = memoryReference r → (b'.memories.lookup j).isSome = true →
        (b.memories.lookup r).isSome = true → (b'.memories.lookup r).isSome = true)
    (hdrawn : b.Drawn) : b'.Grounded N := by
  intro j m' link r hm' hlink hderives href
  obtain ⟨m, hm, hbecame⟩ := h.rows j m' hm' (hthere j m' hm')
  rw [hbecame.links] at hlink
  obtain ⟨n, hn, hbound⟩ := hold j m link r hm hlink hderives href
  obtain ⟨n', hn'⟩ := Option.isSome_iff_exists.mp
    (hstays j m link r hm hlink hderives href (by rw [hm']; rfl) (by rw [hn]; rfl))
  obtain ⟨own, hown, hlater⟩ := h.rows r n' hn' (hdrawn.ids r n hn)
  obtain rfl : own = n := Option.some.inj (hown.symm.trans hn)
  exact ⟨n', hn', hsteady.became hbecame hlater hbound⟩

/-- What is set or marked stays. -/
theorem Struck.stays {set : KeptMemory → KeptMemory} {events : List MemoryEvent}
    {reason : InvalidationReason} {now : ℤ} {affected : List Uuid}
    (h : Struck set events reason now id affected b b') (j : Uuid) :
    (b'.memories.lookup j).isSome = (b.memories.lookup j).isSome := by
  rw [h.rows, Option.isSome_map]

theorem Struck.grounded {set : KeptMemory → KeptMemory} {events : List MemoryEvent}
    {reason : InvalidationReason} {now : ℤ} {affected : List Uuid} (hsteady : Steady N)
    (hdrawn : b.Drawn) (hold : b.Grounded N)
    (hset : ∀ m, b.memories.lookup id = some m → m.Became (m.advanced set))
    (h : Struck set events reason now id affected b b') : b'.Grounded N := by
  refine (h.carried hset).grounded hsteady hold (fun j m' hm' => ?_)
    (fun j m link r _ _ _ _ _ hr => ?_) hdrawn
  · rw [h.rows] at hm'
    obtain ⟨m, hm, -⟩ := Option.map_eq_some_iff.mp hm'
    exact hdrawn.ids j m hm
  · rw [h.stays]
    exact hr

theorem Erased.grounded {gone : Finset Uuid} (hsteady : Steady N) (hdrawn : b.Drawn)
    (hold : b.Grounded N) (h : Erased b b' gone)
    (hclosed : ∀ j m link, b.memories.lookup j = some m → link ∈ m.stored.links →
      link.Derives → (∃ x ∈ gone, link.ref = memoryReference x) → j ∈ gone) : b'.Grounded N := by
  refine h.carried.grounded hsteady hold (fun j m' hm' => ?_)
    (fun j m link r hm hlink hderives href hj hr => ?_) hdrawn
  · obtain ⟨-, m, hm, -⟩ := h.old hm'
    exact hdrawn.ids j m hm
  · obtain ⟨m', hm'⟩ := Option.isSome_iff_exists.mp hj
    obtain ⟨hleft, -⟩ := h.old hm'
    have hr' : r ∉ gone := fun hgone => hleft (hclosed j m link hm hlink hderives ⟨r, hgone, href⟩)
    rw [h.rows, if_neg hr', Option.isSome_map]
    exact hr

/-- Every call keeps what memories are derived from, a unit with links where `N` is no bound. -/
theorem BooksStep.grounded {a : MemoryAction} (hsteady : Steady N) (hsound : b.Sound)
    (hold : b.Grounded N)
    (hunit : ∀ kind unit, a = .accept kind unit → unit.evidence.links ≠ [] → ∀ m n, N m n)
    (h : BooksStep b a b') : b'.Grounded N := by
  have hdrawn := hsound.toDrawn
  cases h with
  | refused => exact hold
  | remembered input refs _ id m hwrote =>
    exact (hwrote.mono fun _ hfalse => hfalse.elim).grounded hsteady hdrawn hold
  | derived input sources _ id m hwrote =>
    exact (hwrote.mono fun _ hnarrows => hsteady.narrows hnarrows).grounded hsteady hdrawn hold
  | accepted kind unit _ id m hwrote =>
    exact (hwrote.mono fun other hlinks => hunit kind unit rfl hlinks m other).grounded hsteady
      hdrawn hold
  | corrected id expected title body _ m now hm hrevision hcurrent hstruck =>
    refine hstruck.grounded hsteady hdrawn hold fun own hown => ?_
    obtain rfl : own = m := Option.some.inj (hown.symm.trans hm)
    exact KeptMemory.became_advanced rfl rfl rfl rfl rfl rfl (hsound.reason_none hm hcurrent)
  | superseded id expected r _ m now hm hrevision hcurrent hstruck =>
    have hwrote := wrote_replaced r now hdrawn hm hcurrent
    have hfirst := (hwrote.mono fun _ hnarrows => hsteady.narrows hnarrows).grounded hsteady hdrawn
      hold
    refine hstruck.grounded hsteady (sound_of_wrote hsound hwrote).toDrawn hfirst fun own hown => ?_
    obtain rfl : own = m := Option.some.inj (hown.symm.trans (hwrote.kept hdrawn hm))
    exact KeptMemory.became_advanced rfl rfl rfl rfl rfl rfl (hsound.reason_none hm hcurrent)
  | deleted id approved _ m gone hm hrevision huprooted hid =>
    exact huprooted.toErased.grounded hsteady hdrawn hold fun j m link hm hlink hderives hto =>
      huprooted.closed j m link hm hlink (.inl rfl) (.inr ⟨hderives.1, hto⟩)
  | expired id _ gone huprooted hid =>
    exact huprooted.toErased.grounded hsteady hdrawn hold fun j m link hm hlink hderives hto =>
      huprooted.closed j m link hm hlink (.inr hderives.2) (.inr ⟨hderives.1, hto⟩)
  | withdrawn target _ gone herased hclosed =>
    exact herased.grounded hsteady hdrawn hold fun j m link hm hlink hderives hto =>
      hclosed j m link hm hlink hderives.1 hto

theorem grounded_emptyBooks : emptyBooks.Grounded N := by
  intro j m link r hm
  simp [emptyBooks] at hm

end Grounds

section Derivation

variable {N : KeptMemory → KeptMemory → Prop} {b : MemoryBooks} {j r : Uuid} {m : KeptMemory}

/-- What holds between a memory and what it is derived from holds through any number of others. -/
theorem MemoryBooks.Grounded.through (hsteady : Steady N) (hgrounded : b.Grounded N)
    (hm : b.memories.lookup j = some m) (h : Relation.TransGen b.DerivedFrom j r) :
    ∃ n, b.memories.lookup r = some n ∧ N m n := by
  induction h with
  | single hlast =>
    obtain ⟨own, hown, link, hlink, hderives, href⟩ := hlast
    obtain rfl : own = m := Option.some.inj (hown.symm.trans hm)
    exact hgrounded j own link _ hm hlink hderives href
  | tail _ hlast ih =>
    obtain ⟨n, hn, hbound⟩ := ih
    obtain ⟨own, hown, link, hlink, hderives, href⟩ := hlast
    obtain rfl : own = n := Option.some.inj (hown.symm.trans hn)
    obtain ⟨o, ho, hnext⟩ := hgrounded _ own link _ hn hlink hderives href
    exact ⟨o, ho, hsteady.trans hbound hnext⟩

theorem grounded_of_reachable (hb : memoryMachine.Reachable b) :
    b.Grounded fun _ _ => True := by
  refine Machine.Reachable.invariant (fun s hs => ?_) (fun s a t hs hgrounded hstep => ?_) hb
  · rw [hs]
    exact grounded_emptyBooks
  · obtain rfl := Option.some.inj hstep
    have hsound := sound_of_reachable hs
    exact (booksStep_of_run hsound.toDrawn a.1 a.2).grounded steady_true hsound hgrounded
      fun _ _ _ _ _ _ => trivial

/-- Whatever a memory is derived from, over any number of others, is older than it and stored, and
it is current where the memory is. -/
theorem derivation_rests (hb : memoryMachine.Reachable b) (hm : b.memories.lookup j = some m)
    (h : Relation.TransGen b.DerivedFrom j r) :
    r < j ∧ ∃ n, b.memories.lookup r = some n ∧ (m.IsCurrent → n.IsCurrent) := by
  have hsound := sound_of_reachable hb
  induction h with
  | single hlast =>
    obtain ⟨own, hown, link, hlink, hderives, href⟩ := hlast
    obtain rfl : own = m := Option.some.inj (hown.symm.trans hm)
    refine ⟨hsound.older j own link _ hm hlink href, ?_⟩
    obtain ⟨n, hn, -⟩ := grounded_of_reachable hb j own link _ hm hlink hderives href
    refine ⟨n, hn, fun hcurrent => ?_⟩
    obtain ⟨n', hn', hrests⟩ := hsound.rests j own link _ hm hcurrent hlink hderives href
    obtain rfl : n' = n := Option.some.inj (hn'.symm.trans hn)
    exact hrests
  | tail _ hlast ih =>
    obtain ⟨holder, o, ho, hrests⟩ := ih
    obtain ⟨own, hown, link, hlink, hderives, href⟩ := hlast
    obtain rfl : own = o := Option.some.inj (hown.symm.trans ho)
    refine ⟨(hsound.older _ own link _ ho hlink href).trans holder, ?_⟩
    obtain ⟨n, hn, -⟩ := grounded_of_reachable hb _ own link _ ho hlink hderives href
    refine ⟨n, hn, fun hcurrent => ?_⟩
    obtain ⟨n', hn', hlater⟩ := hsound.rests _ own link _ ho (hrests hcurrent) hlink hderives href
    obtain rfl : n' = n := Option.some.inj (hn'.symm.trans hn)
    exact hlater

theorem second_derivedBooks : (derivedBooks.memories.lookup 3).isSome = true := by decide +kernel

theorem derivedFrom_derivedBooks : derivedBooks.DerivedFrom 3 1 :=
  ⟨(derivedBooks.memories.lookup 3).get second_derivedBooks, (Option.some_get _).symm,
    ⟨memoryReference 1, .derivedFrom, false⟩, by decide +kernel, ⟨rfl, rfl⟩, rfl⟩

/-- The second memory of the sample rests on the first. -/
theorem derivation_rests_second : 1 < 3 ∧ ∃ n, derivedBooks.memories.lookup 1 = some n ∧
    (((derivedBooks.memories.lookup 3).get second_derivedBooks).IsCurrent → n.IsCurrent) :=
  derivation_rests reachable_derivedBooks (Option.some_get _).symm
    (.single derivedFrom_derivedBooks)

/-- No link of a trusted unit is written: the callers of `accept_source_unit` build none. -/
def MemoryAction.Linkless : MemoryAction → Prop
  | .accept _ unit => unit.evidence.links = []
  | _ => True

instance : DecidablePred MemoryAction.Linkless := fun a =>
  match a with
  | .accept _ unit => inferInstanceAs (Decidable (unit.evidence.links = []))
  | .remember .. => .isTrue trivial
  | .derive .. => .isTrue trivial
  | .correct .. => .isTrue trivial
  | .supersede .. => .isTrue trivial
  | .delete .. => .isTrue trivial
  | .expire .. => .isTrue trivial
  | .recordDeleted .. => .isTrue trivial

/-- The calls, where units come without links. -/
def linklessMachine : Machine MemoryBooks (MemoryCall × MemoryAction) :=
  memoryMachine.restrict fun _ a => a.2.Linkless

theorem reachable_run (hb : linklessMachine.Reachable b) (c : MemoryCall)
    {a : MemoryAction} (h : a.Linkless) : linklessMachine.Reachable (a.run c b) :=
  hb.step (a := (c, a)) (Machine.restrict_step.mpr ⟨h, rfl⟩)

theorem narrowing_of_reachable (hb : linklessMachine.Reachable b) :
    b.Grounded KeptMemory.Narrows := by
  refine Machine.Reachable.invariant (fun s hs => ?_) (fun s a t hs hgrounded hstep => ?_) hb
  · rw [hs]
    exact grounded_emptyBooks
  · obtain ⟨hlinkless, hstep⟩ := Machine.restrict_step.mp hstep
    obtain rfl := Option.some.inj hstep
    have hsound := sound_of_reachable (Machine.Reachable.of_restrict hs)
    refine (booksStep_of_run hsound.toDrawn a.1 a.2).grounded steady_narrows hsound hgrounded
      fun kind unit haccept hlinks => ?_
    rw [haccept] at hlinkless
    exact absurd hlinkless hlinks

/-- What a memory may be shown to and used for, everything it is derived from may, over any number
of others. -/
theorem derivation_narrows (hb : linklessMachine.Reachable b) (hm : b.memories.lookup j = some m)
    (h : Relation.TransGen b.DerivedFrom j r) :
    ∃ n, b.memories.lookup r = some n ∧ m.Narrows n :=
  (narrowing_of_reachable hb).through steady_narrows hm h

/-- The second memory of the sample narrows the first. -/
theorem derivation_narrows_second : ∃ n, derivedBooks.memories.lookup 1 = some n ∧
    ((derivedBooks.memories.lookup 3).get second_derivedBooks).Narrows n := by
  have hinit : linklessMachine.Reachable emptyBooks := ⟨emptyBooks, rfl, .refl _⟩
  have hfirst := reachable_run hinit ownerCall (a := .remember (noteInput "first") []) trivial
  have hsecond := reachable_run hfirst ownerCall
    (a := .derive (noteInput "second") [memoryReference 1]) trivial
  exact derivation_narrows hsecond (Option.some_get _).symm (.single derivedFrom_derivedBooks)

end Derivation

/-! ### Successors -/

/-- The memory has the audience and the purposes of the one under `j`, and a marked link to it. -/
structure KeptMemory.Succeeds (n : KeptMemory) (j : Uuid) (m : KeptMemory) : Prop where
  audience : n.audience = m.audience
  purposes : n.stored.purposes = m.stored.purposes
  back : ⟨memoryReference j, .derivedFrom, true⟩ ∈ n.stored.links

/-- A superseded memory points to a newer one that succeeds it alone. -/
structure MemoryBooks.Lineage (b : MemoryBooks) : Prop where
  successor : ∀ j m k, b.memories.lookup j = some m → m.stored.row.supersededById = some k →
    j < k ∧ ∃ n, b.memories.lookup k = some n ∧ n.Succeeds j m
  one : ∀ i j m m' k, b.memories.lookup i = some m → b.memories.lookup j = some m' →
    m.stored.row.supersededById = some k → m'.stored.row.supersededById = some k → i = j

section Succession

variable {b b₁ b' : MemoryBooks} {id j k : Uuid} {m m' n n' : KeptMemory}

theorem KeptMemory.Succeeds.became (h : n.Succeeds j m) (hm : m.Became m') (hn : n.Became n') :
    n'.Succeeds j m' where
  audience := hn.audience.trans (h.audience.trans hm.audience.symm)
  purposes := hn.purposes.trans (h.purposes.trans hm.purposes.symm)
  back := by
    rw [hn.links]
    exact h.back

/-- Where no pointer is new and none is left without its memory, the lineage stays. -/
theorem Carried.lineage (hdrawn : b.Drawn) (hold : b.Lineage) (h : Carried b b')
    (hpointers : ∀ j m' k, b'.memories.lookup j = some m' →
      m'.stored.row.supersededById = some k → (b'.memories.lookup k).isSome = true ∧
        ∃ m, b.memories.lookup j = some m ∧ m.stored.row.supersededById = some k) :
    b'.Lineage where
  successor j m' k hm' hsuccessor := by
    obtain ⟨hthere, m, hm, hpoints⟩ := hpointers j m' k hm' hsuccessor
    obtain ⟨hlt, n, hn, hsucceeds⟩ := hold.successor j m k hm hpoints
    obtain ⟨n', hn'⟩ := Option.isSome_iff_exists.mp hthere
    obtain ⟨own, hown, hbecame⟩ := h.rows j m' hm' (hdrawn.ids j m hm)
    obtain rfl : own = m := Option.some.inj (hown.symm.trans hm)
    obtain ⟨last, hlast, hlater⟩ := h.rows k n' hn' (hdrawn.ids k n hn)
    obtain rfl : last = n := Option.some.inj (hlast.symm.trans hn)
    exact ⟨hlt, n', hn', hsucceeds.became hbecame hlater⟩
  one i j m m' k hm hm' hsuccessor hsuccessor' := by
    obtain ⟨-, old, hold', hpoints⟩ := hpointers i m k hm hsuccessor
    obtain ⟨-, other, hother, hpoints'⟩ := hpointers j m' k hm' hsuccessor'
    exact hold.one i j old other k hold' hother hpoints hpoints'

theorem lineage_emptyBooks : emptyBooks.Lineage := by
  constructor
  · intro j m k hm
    simp [emptyBooks] at hm
  · intro i j m m' k hm
    simp [emptyBooks] at hm

theorem Wrote.lineage {N : KeptMemory → KeptMemory → Prop} (hdrawn : b.Drawn) (hold : b.Lineage)
    (h : Wrote N b b' id m) : b'.Lineage := by
  refine h.carried.lineage hdrawn hold fun j m' k hm' hsuccessor => ?_
  rcases h.lookup hm' with ⟨rfl, rfl⟩ | ⟨-, hm⟩
  · rw [h.live.2.1] at hsuccessor
    cases hsuccessor
  · obtain ⟨-, n, hn, -⟩ := hold.successor j m' k hm hsuccessor
    refine ⟨?_, m', hm, hsuccessor⟩
    rw [h.kept hdrawn hn]
    rfl

theorem Erased.lineage {gone : Finset Uuid} (hdrawn : b.Drawn) (hold : b.Lineage)
    (h : Erased b b' gone) : b'.Lineage := by
  refine h.carried.lineage hdrawn hold fun j m' k hm' hsuccessor => ?_
  obtain ⟨-, m, hm, rfl⟩ := h.old hm'
  obtain ⟨hpoints, hk⟩ := m.unpoint_successor gone hsuccessor
  obtain ⟨-, n, hn, -⟩ := hold.successor j m k hm hpoints
  refine ⟨?_, m, hm, hpoints⟩
  rw [h.rows, if_neg hk, hn]
  rfl

/-- Marking moves no pointer. -/
theorem KeptMemory.marked_successor (reason : InvalidationReason) (now : ℤ) (m : KeptMemory) :
    (m.marked reason now).stored.row.supersededById = m.stored.row.supersededById := by
  unfold KeptMemory.marked
  split_ifs <;> rfl

variable {now : ℤ}

theorem Struck.pointer {set : KeptMemory → KeptMemory} {events : List MemoryEvent}
    {reason : InvalidationReason} {affected : List Uuid}
    (h : Struck set events reason now id affected b b') (hm' : b'.memories.lookup j = some m')
    (hj : j ≠ id) : ∃ m, b.memories.lookup j = some m ∧
      m.stored.row.supersededById = m'.stored.row.supersededById := by
  rw [h.rows] at hm'
  obtain ⟨m, hm, rfl⟩ := Option.map_eq_some_iff.mp hm'
  refine ⟨m, hm, ?_⟩
  rw [if_neg hj]
  split_ifs
  · exact (m.marked_successor reason now).symm
  · rfl

/-- A replacement has a marked link to its predecessor. -/
theorem back_of_replacement {r : Replacement} (hsound : b.Sound)
    (hm : b.memories.lookup id = some m) :
    ⟨memoryReference id, .derivedFrom, true⟩ ∈ (r.of id m now).row.stored.links := by
  have hback : (⟨memoryReference id, .derivedFrom, true⟩ : MemoryLinkRow) ∈
      (r.of id m now).links ++ [] := by simp [Replacement.of]
  obtain ⟨kept, hkept, href, hrelation⟩ := exists_deduplicated hback List.not_mem_nil
  -- the links of the predecessor are to older memories, so the one that is kept is the marked one
  have hmarked : kept = ⟨memoryReference id, .derivedFrom, true⟩ := by
    have hmem := mem_of_mem_deduplicated hkept
    rw [List.append_nil] at hmem
    rcases List.mem_append.mp hmem with hcopied | hback
    · exact absurd (hsound.older id m kept id hm hcopied href) (lt_irrefl id)
    · exact List.mem_singleton.mp hback
  rw [hmarked] at hkept
  exact hkept

/-- The last step of a supersession: the predecessor points to its replacement. -/
theorem Struck.lineage_of_superseded {r : Replacement} (hsound : b.Sound) (hold : b.Lineage)
    (hm : b.memories.lookup id = some m) (hcurrent : m.IsCurrent)
    (h : Struck (.invalidated .sourceSuperseded now (some b.nextId)) [⟨.invalidated, id, m.kind,
      some .sourceSuperseded, m.revision + 1⟩] .sourceSuperseded now id (b.affected id) (b.replaced
      id m r now) b')
    : b'.Lineage := by
  have hdrawn := hsound.toDrawn
  have hwrote := wrote_replaced r now hdrawn hm hcurrent
  have hfirst := hwrote.lineage hdrawn hold
  have hnext := (sound_of_wrote hsound hwrote).toDrawn
  have hkept := hwrote.kept hdrawn hm
  have hcarried := h.carried fun own hown => by
    obtain rfl : own = m := Option.some.inj (hown.symm.trans hkept)
    exact KeptMemory.became_advanced rfl rfl rfl rfl rfl rfl (hsound.reason_none hm hcurrent)
  have hrow : ∀ {m'}, b'.memories.lookup id = some m' →
      m' = m.advanced (.invalidated .sourceSuperseded now (some b.nextId)) := by
    intro m' hm'
    rw [h.rows, hkept, Option.map_some, if_pos rfl] at hm'
    exact (Option.some.inj hm').symm
  -- nothing else points to the replacement
  have hnew : ∀ j m', j ≠ id → b'.memories.lookup j = some m' →
      m'.stored.row.supersededById ≠ some b.nextId := by
    intro j m' hj hm' hpoints
    obtain ⟨own, hown, hsame⟩ := h.pointer hm' hj
    rw [← hsame] at hpoints
    rcases hwrote.lookup hown with ⟨rfl, rfl⟩ | ⟨-, hprevious⟩
    · cases hpoints
    · obtain ⟨-, n, hn, -⟩ := hold.successor j own b.nextId hprevious hpoints
      exact lt_irrefl _ (hdrawn.ids _ n hn)
  have hself : ∀ {m' k}, b'.memories.lookup id = some m' →
      m'.stored.row.supersededById = some k → k = b.nextId := by
    intro m' k hm' hpoints
    rw [hrow hm'] at hpoints
    exact (Option.some.inj hpoints).symm
  constructor
  case successor =>
    intro j m' k hm' hpoints
    by_cases hj : j = id
    · subst hj
      obtain rfl := hself hm' hpoints
      refine ⟨hdrawn.ids j m hm, ?_⟩
      have hreplacement : (b.replaced j m r now).memories.lookup b.nextId =
          some (r.of j m now).row := by
        rw [hwrote.memories, Table.lookup_insert, if_pos rfl]
      have hthere := h.stays b.nextId
      rw [hreplacement] at hthere
      obtain ⟨n', hn'⟩ := Option.isSome_iff_exists.mp hthere
      obtain ⟨own, hown, hbecame⟩ := hcarried.rows b.nextId n' hn' (hnext.ids _ _ hreplacement)
      obtain rfl : own = (r.of j m now).row := Option.some.inj (hown.symm.trans hreplacement)
      obtain ⟨last, hlast, hlater⟩ := hcarried.rows j m' hm' (hnext.ids j m hkept)
      obtain rfl : last = m := Option.some.inj (hlast.symm.trans hkept)
      have hsucceeds : (r.of j last now).row.Succeeds j last :=
        ⟨rfl, rfl, back_of_replacement hsound hm⟩
      exact ⟨n', hn', hsucceeds.became hlater hbecame⟩
    · obtain ⟨own, hown, hsame⟩ := h.pointer hm' hj
      rw [← hsame] at hpoints
      obtain ⟨hlt, n, hn, hsucceeds⟩ := hfirst.successor j own k hown hpoints
      have hthere := h.stays k
      rw [hn] at hthere
      obtain ⟨n', hn'⟩ := Option.isSome_iff_exists.mp hthere
      obtain ⟨own', hown', hbecame⟩ := hcarried.rows j m' hm' (hnext.ids j own hown)
      obtain rfl : own' = own := Option.some.inj (hown'.symm.trans hown)
      obtain ⟨last, hlast, hlater⟩ := hcarried.rows k n' hn' (hnext.ids k n hn)
      obtain rfl : last = n := Option.some.inj (hlast.symm.trans hn)
      exact ⟨hlt, n', hn', hsucceeds.became hbecame hlater⟩
  case one =>
    intro i j m₁ m₂ k hm₁ hm₂ hpoints hpoints'
    by_cases hi : i = id
    · subst hi
      obtain rfl := hself hm₁ hpoints
      by_contra hne
      exact hnew j m₂ (Ne.symm hne) hm₂ hpoints'
    · by_cases hj : j = id
      · subst hj
        obtain rfl := hself hm₂ hpoints'
        exact absurd hpoints (hnew i m₁ hi hm₁)
      · obtain ⟨own, hown, hsame⟩ := h.pointer hm₁ hi
        obtain ⟨other, hother, hsame'⟩ := h.pointer hm₂ hj
        rw [← hsame] at hpoints
        rw [← hsame'] at hpoints'
        exact hfirst.one i j own other k hown hother hpoints hpoints'

theorem BooksStep.lineage {a : MemoryAction} (hsound : b.Sound) (hold : b.Lineage)
    (h : BooksStep b a b') : b'.Lineage := by
  have hdrawn := hsound.toDrawn
  have hcarried := h.carried hsound
  cases h with
  | refused => exact hold
  | remembered input refs _ id m hwrote => exact hwrote.lineage hdrawn hold
  | derived input sources _ id m hwrote => exact hwrote.lineage hdrawn hold
  | accepted kind unit _ id m hwrote => exact hwrote.lineage hdrawn hold
  | corrected id expected title body _ m now hm hrevision hcurrent hstruck =>
    refine hcarried.lineage hdrawn hold fun j m' k hm' hpoints => ?_
    have hsame : ∃ own, b.memories.lookup j = some own ∧
        own.stored.row.supersededById = m'.stored.row.supersededById := by
      by_cases hj : j = id
      · subst hj
        rw [hstruck.rows, hm, Option.map_some, if_pos rfl] at hm'
        obtain rfl := Option.some.inj hm'
        exact ⟨m, hm, rfl⟩
      · exact hstruck.pointer hm' hj
    obtain ⟨own, hown, hsame⟩ := hsame
    rw [← hsame] at hpoints
    obtain ⟨-, n, hn, -⟩ := hold.successor j own k hown hpoints
    refine ⟨?_, own, hown, hpoints⟩
    rw [hstruck.stays, hn]
    rfl
  | superseded id expected r _ m now hm hrevision hcurrent hstruck =>
    exact hstruck.lineage_of_superseded hsound hold hm hcurrent
  | deleted id approved _ m gone hm hrevision huprooted hid =>
    exact huprooted.toErased.lineage hdrawn hold
  | expired id _ gone huprooted hid => exact huprooted.toErased.lineage hdrawn hold
  | withdrawn target _ gone herased hclosed => exact herased.lineage hdrawn hold

/-- In every reachable state a superseded memory points to a newer one that succeeds it alone. -/
theorem lineage_of_reachable (hb : memoryMachine.Reachable b) : b.Lineage := by
  refine Machine.Reachable.invariant (fun s hs => ?_) (fun s a t hs hlineage hstep => ?_) hb
  · rw [hs]
    exact lineage_emptyBooks
  · obtain rfl := Option.some.inj hstep
    have hsound := sound_of_reachable hs
    exact (booksStep_of_run hsound.toDrawn a.1 a.2).lineage hsound hlineage

/-- The sample after its supersession. -/
theorem lineage_supersededBooks : supersededBooks.Lineage :=
  lineage_of_reachable (reachable_derivedBooks.reaches reaches_supersededBooks)

end Succession

/-! ### Erasure -/

/-- The memory is gone, and no link is to it. -/
structure MemoryBooks.Forgot (b : MemoryBooks) (id : Uuid) : Prop where
  drawn : id < b.nextId
  row : b.memories.lookup id = none
  links : ∀ j m link, b.memories.lookup j = some m → link ∈ m.stored.links →
    link.ref ≠ memoryReference id

/-- The second memory was linked to the first, or is derived from what was. -/
def MemoryBooks.DependsOn (b : MemoryBooks) (id j : Uuid) : Prop :=
  ∃ x m, b.memories.lookup x = some m ∧ (∃ link ∈ m.stored.links, link.ref = memoryReference id) ∧
    Relation.ReflTransGen (fun y z => ∃ n, b.memories.lookup z = some n ∧
      ∃ link ∈ n.stored.links, link.relation = .derivedFrom ∧ link.ref = memoryReference y) x j

section Erasure

variable {b b' : MemoryBooks} {id j : Uuid} {m : KeptMemory}

/-- What is written is not linked to what is gone. -/
theorem LinkOrigin.not_forgot {N : KeptMemory → Prop} {link : MemoryLinkRow} (hsound : b.Sound)
    (hforgot : b.Forgot id) (h : LinkOrigin b N link) : link.ref ≠ memoryReference id := by
  intro href
  cases h with
  | other hother => exact hother id href
  | source k m hsame hm hcurrent hbound =>
    obtain rfl : k = id := congrArg RecordRef.id (RefText.ref.inj (hsame.symm.trans href))
    rw [hforgot.row] at hm
    cases hm
  | copied k m old hm hcurrent hold hsame hderives hbound =>
    exact hforgot.links k m old hm hold (hsame.trans href)
  | named k entity m row hm hmentions hentity hsame habout =>
    obtain ⟨old, hold, heq⟩ := hsound.linked k m entity row link.ref hm hmentions hentity hsame
    exact hforgot.links k m old hm hold (heq.trans href)

theorem Wrote.forgot {N : KeptMemory → KeptMemory → Prop} (hsound : b.Sound)
    (hforgot : b.Forgot id) (h : Wrote N b b' j m) : b'.Forgot id where
  drawn := hforgot.drawn.trans_le (h.fresh.trans h.next.le)
  row := by
    rw [h.memories, Table.lookup_insert, if_neg (hforgot.drawn.trans_le h.fresh).ne]
    exact hforgot.row
  links k m' link hm' hlink := by
    rcases h.lookup hm' with ⟨rfl, rfl⟩ | ⟨-, hold⟩
    · exact (h.links link hlink).not_forgot hsound hforgot
    · exact hforgot.links k m' link hold hlink

/-- Where no memory is new, what is gone stays gone. -/
theorem Carried.forgot (hforgot : b.Forgot id) (h : Carried b b')
    (hthere : ∀ j m', b'.memories.lookup j = some m' → j < b.nextId) : b'.Forgot id where
  drawn := hforgot.drawn.trans_le h.nextId
  row := by
    refine Option.eq_none_iff_forall_ne_some.mpr fun m' hm' => ?_
    obtain ⟨m, hm, -⟩ := h.rows id m' hm' hforgot.drawn
    rw [hforgot.row] at hm
    cases hm
  links k m' link hm' hlink := by
    obtain ⟨m, hm, hbecame⟩ := h.rows k m' hm' (hthere k m' hm')
    rw [hbecame.links] at hlink
    exact hforgot.links k m link hm hlink

theorem Struck.there {set : KeptMemory → KeptMemory} {events : List MemoryEvent}
    {reason : InvalidationReason} {now : ℤ} {affected : List Uuid} (hdrawn : b.Drawn)
    (h : Struck set events reason now id affected b b') (j : Uuid) (m' : KeptMemory)
    (hm' : b'.memories.lookup j = some m') : j < b.nextId := by
  have hsome := h.stays j
  rw [hm'] at hsome
  obtain ⟨m, hm⟩ := Option.isSome_iff_exists.mp hsome.symm
  exact hdrawn.ids j m hm

variable {gone : Finset Uuid}

theorem Erased.forgot (hdrawn : b.Drawn) (hforgot : b.Forgot id) (h : Erased b b' gone) :
    b'.Forgot id := by
  refine h.carried.forgot hforgot fun j m' hm' => ?_
  obtain ⟨-, m, hm, -⟩ := h.old hm'
  exact hdrawn.ids j m hm

theorem BooksStep.forgot {a : MemoryAction} (hsound : b.Sound) (hforgot : b.Forgot id)
    (h : BooksStep b a b') : b'.Forgot id := by
  have hdrawn := hsound.toDrawn
  have hcarried := h.carried hsound
  cases h with
  | refused => exact hforgot
  | remembered input refs _ j m hwrote => exact hwrote.forgot hsound hforgot
  | derived input sources _ j m hwrote => exact hwrote.forgot hsound hforgot
  | accepted kind unit _ j m hwrote => exact hwrote.forgot hsound hforgot
  | corrected j expected title body _ m now hm hrevision hcurrent hstruck =>
    exact hcarried.forgot hforgot (hstruck.there hdrawn)
  | superseded j expected r _ m now hm hrevision hcurrent hstruck =>
    have hwrote := wrote_replaced r now hdrawn hm hcurrent
    have hnext := sound_of_wrote hsound hwrote
    refine (hstruck.carried fun own hown => ?_).forgot (hwrote.forgot hsound hforgot)
      (hstruck.there hnext.toDrawn)
    obtain rfl : own = m := Option.some.inj (hown.symm.trans (hwrote.kept hdrawn hm))
    exact KeptMemory.became_advanced rfl rfl rfl rfl rfl rfl (hsound.reason_none hm hcurrent)
  | deleted j approved _ m gone hm hrevision huprooted hid =>
    exact huprooted.toErased.forgot hdrawn hforgot
  | expired j _ gone huprooted hid => exact huprooted.toErased.forgot hdrawn hforgot
  | withdrawn target _ gone herased hclosed => exact herased.forgot hdrawn hforgot

/-- An erasure takes what depended on the memory, and leaves no link to it. -/
theorem Uprooted.forgot (hdrawn : b.Drawn) (hm : b.memories.lookup id = some m) (hid : id ∈ gone)
    (h : Uprooted true (memoryRecord id) b b' gone) : b'.Forgot id where
  drawn := by
    rw [h.nextId]
    exact hdrawn.ids id m hm
  row := by rw [h.rows, if_pos hid]
  links k m' link hm' hlink href := by
    obtain ⟨hk, own, hown, rfl⟩ := h.old hm'
    rw [KeptMemory.unpoint_links] at hlink
    exact hk (h.closed k own link hown hlink (.inl rfl) (.inl href))

theorem Uprooted.takes (h : Uprooted true (memoryRecord id) b b' gone) (hdepends : b.DependsOn id j)
    : j ∈ gone := by
  obtain ⟨x, m, hm, ⟨link, hlink, href⟩, hpath⟩ := hdepends
  induction hpath with
  | refl => exact h.closed x m link hm hlink (.inl rfl) (.inl href)
  | tail _ hlast ih =>
    obtain ⟨n, hn, later, hlater, hrelation, hsame⟩ := hlast
    exact h.closed _ n later hn hlater (.inl rfl) (.inr ⟨hrelation, _, ih, hsame⟩)

theorem forgot_of_reaches {s t : MemoryBooks} (hs : memoryMachine.Reachable s)
    (hforgot : s.Forgot id) (hrun : memoryMachine.Reaches s t) : t.Forgot id := by
  refine hs.stable (P := fun t => t.Forgot id) (fun u a v hu hforgot hstep => ?_) hforgot hrun
  obtain rfl := Option.some.inj hstep
  have hsound := sound_of_reachable hu
  exact (booksStep_of_run hsound.toDrawn a.1 a.2).forgot hsound hforgot

/-- After an accepted erasure, in every later state, the memory is gone with all that depended on
it, and nothing links or points to it. -/
theorem forgotten_after_delete {s t : MemoryBooks} {c : MemoryCall} {approved : ℕ}
    (hs : memoryMachine.Reachable s) (hchanged : (MemoryAction.delete id approved).run c s ≠ s)
    (hrun : memoryMachine.Reaches ((MemoryAction.delete id approved).run c s) t) :
    t.memories.lookup id = none ∧
      (∀ j, s.DependsOn id j → t.memories.lookup j = none) ∧
      ∀ j m, t.memories.lookup j = some m → m.stored.row.supersededById ≠ some id ∧
        ∀ link ∈ m.stored.links, link.ref ≠ memoryReference id := by
  have hdrawn := (sound_of_reachable hs).toDrawn
  have hnext := hs.step (a := (c, .delete id approved)) rfl
  have hstep := booksStep_of_run hdrawn c (.delete id approved)
  generalize hbooks : (MemoryAction.delete id approved).run c s = u at hchanged hrun hnext hstep
  cases hstep with
  | refused => exact absurd rfl hchanged
  | deleted _ _ _ m gone hm hrevision huprooted hid =>
    have hlater := forgot_of_reaches hnext (huprooted.forgot hdrawn hm hid) hrun
    refine ⟨hlater.row, fun j hdepends => ?_, fun j n hn => ⟨fun hpoints => ?_, fun link hlink =>
      hlater.links j n link hn hlink⟩⟩
    · -- it was there, so it is not drawn again
      have hj := huprooted.takes hdepends
      obtain ⟨own, hown⟩ := Option.isSome_iff_exists.mp (huprooted.there j hj)
      refine Option.eq_none_iff_forall_ne_some.mpr fun n hn => ?_
      have hold : j < u.nextId := by
        rw [huprooted.nextId]
        exact hdrawn.ids j own hown
      obtain ⟨left, hleft, -⟩ := (carried_of_reaches hnext hrun).rows j n hn hold
      rw [huprooted.rows, if_pos hj] at hleft
      cases hleft
    · have hlineage := lineage_of_reachable (hnext.reaches hrun)
      obtain ⟨-, k, hk, -⟩ := hlineage.successor j n id hn hpoints
      rw [hlater.row] at hk
      cases hk

/-- The first note is deleted, and another one is remembered. -/
private def forgetfulBooks : MemoryBooks :=
  (MemoryAction.remember (noteInput "third") []).run ownerCall
    ((MemoryAction.delete 1 1).run ownerCall derivedBooks)

private theorem depends_derivedBooks : derivedBooks.DependsOn 1 3 := by
  have hlinks : ((derivedBooks.memories.lookup 3).any fun m =>
      m.stored.links.any fun link => link.ref = memoryReference 1) = true := by decide +kernel
  obtain ⟨m, hm, hlink⟩ := (Option.any_eq_true _ _).mp hlinks
  obtain ⟨link, hmem, href⟩ := List.any_eq_true.mp hlink
  exact ⟨3, m, hm, ⟨link, hmem, of_decide_eq_true href⟩, .refl⟩

/-- After another note was remembered the deleted one is still gone, and so is what was derived
from it. -/
theorem forgotten_first : (forgetfulBooks.memories.keys = [5] ∧ derivedBooks.DependsOn 1 3) ∧
    forgetfulBooks.memories.lookup 1 = none ∧
      forgetfulBooks.memories.lookup 3 = none := by
  have hchanged : (MemoryAction.delete 1 1).run ownerCall derivedBooks ≠ derivedBooks := by
    intro heq
    have hthere := first_derivedBooks
    rw [← heq] at hthere
    exact absurd hthere (by decide +kernel)
  have hrun : memoryMachine.Reaches ((MemoryAction.delete 1 1).run ownerCall derivedBooks)
      forgetfulBooks := .single (a := (ownerCall, .remember (noteInput "third") [])) rfl
  obtain ⟨hgone, hderived, -⟩ := forgotten_after_delete reachable_derivedBooks hchanged hrun
  exact ⟨⟨by decide +kernel, depends_derivedBooks⟩, hgone, hderived 3 depends_derivedBooks⟩

end Erasure

/-! ### Entities -/

/-- A mention is of an entity that is there, its backing reference is among the links of the memory,
and an entity without one is mentioned. -/
structure MemoryBooks.Populated (b : MemoryBooks) : Prop where
  mentioned : ∀ j m e, b.memories.lookup j = some m → e ∈ m.mentions →
    ∃ row, b.entities.lookup e = some row ∧ ∀ reference, row.ref = some reference →
      ∃ link ∈ m.stored.links, link.ref = reference
  mentions : ∀ e row, b.entities.lookup e = some row → row.ref = none → b.Mentions e

/-- In every reachable state a mention is of an entity that is there, and a bare entity is
mentioned. -/
theorem populated_of_reachable {b : MemoryBooks} (hb : memoryMachine.Reachable b) :
    b.Populated := by
  have hsound := sound_of_reachable hb
  refine ⟨fun j m e hm he => ?_, hsound.alive⟩
  obtain ⟨row, hrow⟩ := hsound.mentioned j m e hm he
  exact ⟨row, hrow, fun reference href => hsound.linked j m e row reference hm he hrow href⟩

/-- The sample after its supersession. -/
theorem populated_supersededBooks : supersededBooks.Populated :=
  populated_of_reachable (reachable_derivedBooks.reaches reaches_supersededBooks)

end Rheostream.Recallatron
