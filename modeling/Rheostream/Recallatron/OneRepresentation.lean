import Rheostream.Recallatron.SourceUnits

/-!
# A source unit has one representation, once

The receipt of an identity is active as long as the memory that carries the identity is there.
Whatever ends the memory ends the receipt with it, and an identity that has a receipt stores
nothing again.
-/

namespace Rheostream.Recallatron.SourceUnits

variable {hashing : Hashing} {s t : SourceState} {key : SourceKey}

/-! ### What acceptance checks -/

/-- The memory lies within what its grant allows. A migrated memory has the purposes of its own
evidence. -/
structure Within (grant : AuthorityGrant) (m : SourceMemory) : Prop where
  member : m.audienceKind = .member → m.audienceId.isSome = true ∧
    m.audienceId = grant.principalAccountId ∧
    (grant.audienceKind = .member → grant.audienceId = m.audienceId)
  workspace : m.audienceKind = .workspace → m.audienceId = none ∧ grant.audienceKind = .workspace
  purposes : grant.producerKind ≠ .migration →
    ∃ purpose, grant.boundPurpose = some purpose ∧ m.purposes = [purpose]
  links : ∀ link ∈ grant.requiredLinks, link ∈ m.links

variable {c : SourceCall} {grant : AuthorityGrant} {unit : TrustedSourceUnit}

theorem verified_eq_some (h : verified c unit = some grant) :
    grant.workspaceId = c.workspaceId ∧ grant.producerKind = unit.producerKind ∧
      grant.principalAccountId = unit.principalAccountId := by
  obtain ⟨found, -, hfound⟩ := Option.bind_eq_some_iff.mp h
  split_ifs at hfound with hworkspace hidentity
  cases hfound
  simp only [not_or, not_not] at hworkspace hidentity
  exact ⟨hworkspace, hidentity.1, hidentity.2.2⟩

theorem policyState_ne_active {now : ℤ} {state : ReceiptState}
    (h : policyState unit grant now = some state) : state ≠ .active := by
  have hwindow : windowState unit now ≠ some .active := by
    unfold windowState
    split
    · split_ifs <;> simp
    · simp
  unfold policyState at h
  cases hfound : windowState unit now with
  | some found =>
    rw [hfound] at h hwindow
    dsimp only at h
    split_ifs at h
    · cases h
      simp
    · cases h
      simp
    · cases h
      simp
    · cases h
      simp
    · cases h
      simpa using hwindow
  | none =>
    rw [hfound] at h
    dsimp only at h
    split_ifs at h
    all_goals
      cases h
      simp

/-- What a unit without a denial satisfies. -/
theorem policyState_eq_none {now : ℤ} (h : policyState unit grant now = none) :
    withinCeiling unit grant = true ∧ unit.boundPurpose = grant.boundPurpose ∧
      ∀ link ∈ grant.requiredLinks, link ∈ unit.evidence.links := by
  unfold policyState at h
  cases hfound : windowState unit now with
  | some found =>
    rw [hfound] at h
    dsimp only at h
    split_ifs at h
  | none =>
    rw [hfound] at h
    dsimp only at h
    split_ifs at h with _ hceiling hpurpose _ hlinks
    refine ⟨by simpa using hceiling, by simpa using hpurpose, ?_⟩
    simpa using hlinks

theorem within_of_policy {purposes : List ContextPurpose} (hverified : verified c unit = some grant)
    (hpolicy : policyState unit grant c.now = none)
    (hpurposes : acceptedPurposes unit = some purposes) :
    Within grant (SourceState.acceptedMemory unit purposes key) := by
  obtain ⟨-, hkind, hprincipal⟩ := verified_eq_some hverified
  obtain ⟨hceiling, hbound, hlinks⟩ := policyState_eq_none hpolicy
  constructor
  · intro haudience
    have hmember : unit.audienceKind = .member := haudience
    simp only [withinCeiling, hmember] at hceiling
    split_ifs at hceiling with howner
    simp only [Bool.or_eq_true, decide_eq_true_eq, not_or, not_not] at howner
    obtain ⟨hsome, hown⟩ := howner
    have hid : (SourceState.acceptedMemory unit purposes key).audienceId = unit.audienceId := rfl
    rw [hid]
    refine ⟨by simpa [Option.isSome_iff_ne_none] using hsome, ?_, fun hgrant => ?_⟩
    · rw [hprincipal]
      exact hown
    · rw [hgrant] at hceiling
      simpa using hceiling
  · intro haudience
    have hworkspace : unit.audienceKind = .workspace := haudience
    simp only [withinCeiling, hworkspace, Bool.and_eq_true, decide_eq_true_eq] at hceiling
    have hnone : unit.audienceId = none := by simpa using hceiling.1
    exact ⟨hnone, hceiling.2⟩
  · intro hmigration
    have hautomatic : unit.producerKind.isAutomatic = true := by
      simpa [ProducerKind.isAutomatic, ← hkind] using hmigration
    unfold acceptedPurposes at hpurposes
    rw [if_pos hautomatic] at hpurposes
    split at hpurposes
    · cases hpurposes
    · rename_i purpose hpurpose
      split_ifs at hpurposes
      cases hpurposes
      exact ⟨purpose, by rw [← hbound, hpurpose], rfl⟩
  · intro link hlink
    exact List.mem_append_left _ (hlinks link hlink)

/-! ### The invariant -/

/-- What every reachable state satisfies. -/
structure Sound (s : SourceState) : Prop where
  recorded : ∀ id m key, s.memories.lookup id = some m → m.identity = some key →
    ∃ receipt, s.receipts.lookup key = some receipt ∧ receipt.state = .active ∧
      receipt.recordId = some id
  represented : ∀ key receipt, s.receipts.lookup key = some receipt → receipt.state = .active →
    ∃ id m, s.memories.lookup id = some m ∧ m.identity = some key
  within : ∀ id grant m, s.accepted.lookup id = some grant → s.memories.lookup id = some m →
    Within grant m

variable {id : Uuid} {m : SourceMemory}

/-- No memory carries an identity that has no receipt, or a terminal one. -/
theorem Sound.no_memory (hs : Sound s)
    (h : ∀ receipt, s.receipts.lookup key = some receipt → receipt.state ≠ .active)
    (hm : s.memories.lookup id = some m) : m.identity ≠ some key := by
  intro hkey
  obtain ⟨receipt, hreceipt, hactive, -⟩ := hs.recorded id m key hm hkey
  exact h receipt hreceipt hactive

/-- A receipt that is not active takes the place of one that is not. -/
theorem Sound.insertReceipt (hs : Sound s) {receipt : SourceReceipt}
    (hold : ∀ old, s.receipts.lookup key = some old → old.state ≠ .active)
    (hnew : receipt.state ≠ .active) :
    Sound { s with receipts := s.receipts.insert key receipt } := by
  refine ⟨fun id m key' hm hkey => ?_, fun key' receipt' hreceipt hactive => ?_, hs.within⟩
  · obtain ⟨found, hfound, hstate, hrecord⟩ := hs.recorded id m key' hm hkey
    refine ⟨found, ?_, hstate, hrecord⟩
    rw [Table.lookup_insert, if_neg, hfound]
    rintro rfl
    exact hold found hfound hstate
  · rw [Table.lookup_insert] at hreceipt
    split_ifs at hreceipt
    · cases hreceipt
      exact absurd hactive hnew
    · exact hs.represented key' receipt' hreceipt hactive

/-- Memories are rewritten, without what their acceptance decided. -/
theorem Sound.rewrite (hs : Sound s) {f : Uuid → SourceMemory → SourceMemory}
    (hmemories : ∀ id, t.memories.lookup id = (s.memories.lookup id).map (f id))
    (hreceipts : t.receipts = s.receipts) (haccepted : t.accepted = s.accepted)
    (hidentity : ∀ id m, (f id m).identity = m.identity)
    (hwithin : ∀ id m grant, Within grant m → Within grant (f id m)) : Sound t := by
  refine ⟨fun id m key hm hkey => ?_, fun key receipt hreceipt hactive => ?_,
    fun id grant m hgrant hm => ?_⟩
  · rw [hmemories] at hm
    obtain ⟨old, hold, rfl⟩ := Option.map_eq_some_iff.mp hm
    rw [hreceipts]
    exact hs.recorded id old key hold (by rw [← hidentity id old, hkey])
  · rw [hreceipts] at hreceipt
    obtain ⟨id, m, hm, hkey⟩ := hs.represented key receipt hreceipt hactive
    refine ⟨id, f id m, ?_, by rw [hidentity, hkey]⟩
    rw [hmemories, hm, Option.map_some]
  · rw [hmemories] at hm
    obtain ⟨old, hold, rfl⟩ := Option.map_eq_some_iff.mp hm
    rw [haccepted] at hgrant
    exact hwithin id old grant (hs.within id grant old hgrant hold)

/-- A unit without a receipt is accepted. -/
theorem Sound.create (hs : Sound s) {purposes : List ContextPurpose}
    (hnone : s.receipts.lookup key = none) (hfresh : s.memories.lookup c.newId = none)
    (hwithin : Within grant (SourceState.acceptedMemory unit purposes key)) :
    Sound (s.create hashing c unit grant purposes key).1 := by
  refine ⟨fun id m key' hm hkey => ?_, fun key' receipt hreceipt hactive => ?_,
    fun id grant' m hgrant hm => ?_⟩
  · simp only [SourceState.create, Table.lookup_insert] at hm ⊢
    split_ifs at hm with hid
    · cases hm
      cases hkey
      exact ⟨_, if_pos rfl, rfl, by rw [hid]⟩
    · obtain ⟨found, hfound, hstate, hrecord⟩ := hs.recorded id m key' hm hkey
      refine ⟨found, ?_, hstate, hrecord⟩
      rw [if_neg, hfound]
      rintro rfl
      rw [hnone] at hfound
      cases hfound
  · simp only [SourceState.create, Table.lookup_insert] at hreceipt ⊢
    split_ifs at hreceipt with hkey
    · subst hkey
      exact ⟨c.newId, _, if_pos rfl, rfl⟩
    · obtain ⟨id, m, hm, hidentity⟩ := hs.represented key' receipt hreceipt hactive
      refine ⟨id, m, ?_, hidentity⟩
      rw [if_neg, hm]
      rintro rfl
      rw [hfresh] at hm
      cases hm
  · simp only [SourceState.create, Table.lookup_insert] at hgrant hm
    split_ifs at hgrant hm with hid
    · cases hgrant
      cases hm
      exact hwithin
    · exact hs.within id grant' m hgrant hm

/-- A memory goes, and its receipt with it. -/
theorem Sound.eraseRow (hs : Sound s) (id : Uuid) : Sound (s.eraseRow id) := by
  unfold SourceState.eraseRow
  split
  · exact hs
  · rename_i m hm
    cases hidentity : m.identity with
    | none =>
      refine ⟨fun id' m' key' hm' hkey => ?_, fun key' receipt hreceipt hactive => ?_,
        fun id' grant m' hgrant hm' => ?_⟩
      · exact hs.recorded id' m' key' (Table.lookup_erase_eq_some.mp hm').2 hkey
      · obtain ⟨id', m', hm', hkey⟩ := hs.represented key' receipt hreceipt hactive
        refine ⟨id', m', Table.lookup_erase_eq_some.mpr ⟨?_, hm'⟩, hkey⟩
        rintro rfl
        rw [hm] at hm'
        cases hm'
        rw [hidentity] at hkey
        cases hkey
      · exact hs.within id' grant m' hgrant (Table.lookup_erase_eq_some.mp hm').2
    | some key =>
      obtain ⟨receipt, hreceipt, -, hrecord⟩ := hs.recorded id m key hm hidentity
      refine ⟨fun id' m' key' hm' hkey => ?_, fun key' receipt' hreceipt' hactive => ?_,
        fun id' grant m' hgrant hm' => ?_⟩
      · obtain ⟨hne, hold⟩ := Table.lookup_erase_eq_some.mp hm'
        obtain ⟨found, hfound, hstate, hid⟩ := hs.recorded id' m' key' hold hkey
        refine ⟨found, ?_, hstate, hid⟩
        simp only [SourceState.setReceiptState, Table.lookup_updateIf]
        rw [if_neg, hfound]
        rintro rfl
        rw [hreceipt] at hfound
        cases hfound
        rw [hrecord] at hid
        exact hne (Option.some.inj hid).symm
      · simp only [SourceState.setReceiptState, Table.lookup_updateIf] at hreceipt'
        split_ifs at hreceipt' with hkey
        · obtain ⟨old, -, rfl⟩ := Option.map_eq_some_iff.mp hreceipt'
          cases hactive
        · obtain ⟨id', m', hm', hkey'⟩ := hs.represented key' receipt' hreceipt' hactive
          refine ⟨id', m', Table.lookup_erase_eq_some.mpr ⟨?_, hm'⟩, hkey'⟩
          rintro rfl
          rw [hm] at hm'
          cases hm'
          rw [hidentity] at hkey'
          exact hkey (Option.some.inj hkey').symm
      · exact hs.within id' grant m' hgrant (Table.lookup_erase_eq_some.mp hm').2

theorem Sound.erase (hs : Sound s) (ids : List Uuid) : Sound (s.erase ids) := by
  unfold SourceState.erase
  generalize sortedBy id ids = sorted
  induction sorted generalizing s with
  | nil => exact hs
  | cons id sorted ih => exact ih (hs.eraseRow id)

theorem Sound.correctRow (hs : Sound s) (id : Uuid) (title body : String) :
    Sound (s.correctRow id title body) := by
  refine hs.rewrite (f := fun id' m =>
    if id' = id then { m with title := title, body := body } else m) ?_ rfl rfl ?_ ?_
  · intro id'
    simp only [SourceState.correctRow, Table.lookup_updateIf]
    split_ifs with hid
    · subst hid
      simp
    · simp
  · intro id' m
    split_ifs <;> rfl
  · intro id' m grant h
    split_ifs
    · exact ⟨h.member, h.workspace, h.purposes, h.links⟩
    · exact h

theorem Sound.retireRows (hs : Sound s) (ids : List Uuid) : Sound (s.retireRows ids) := by
  refine hs.rewrite (f := fun id m =>
    if ids.contains id then { m with retired := true } else m) ?_ rfl rfl ?_ ?_
  · intro id
    exact Table.lookup_updateAll _ _ id
  · intro id m
    split_ifs <;> rfl
  · intro id m grant h
    split_ifs
    · exact ⟨h.member, h.workspace, h.purposes, h.links⟩
    · exact h

theorem Sound.writeMemory (hs : Sound s) (h : s.writeMemory id m = some t) : Sound t := by
  unfold SourceState.writeMemory at h
  split_ifs at h with hfresh
  cases h
  simp only [Bool.or_eq_true, not_or, Bool.not_eq_true, Option.isSome_eq_false_iff,
    Option.isNone_iff_eq_none] at hfresh
  refine ⟨fun id' m' key hm hkey => ?_, fun key receipt hreceipt hactive => ?_,
    fun id' grant m' hgrant hm => ?_⟩
  · rw [Table.lookup_insert] at hm
    split_ifs at hm
    · cases hm
      cases hkey
    · exact hs.recorded id' m' key hm hkey
  · obtain ⟨id', m', hm, hkey⟩ := hs.represented key receipt hreceipt hactive
    refine ⟨id', m', ?_, hkey⟩
    rw [Table.lookup_insert, if_neg, hm]
    rintro rfl
    rw [hfresh.1] at hm
    cases hm
  · rw [Table.lookup_insert] at hm
    split_ifs at hm with hid
    · subst hid
      rw [hfresh.2] at hgrant
      cases hgrant
    · exact hs.within id' grant m' hgrant hm

/-! ### Acceptance and retirement -/

/-- What acceptance of an identity without a receipt does. -/
theorem acceptNew_cases {policy : RetentionPolicy} (hverified : verified c unit = some grant) :
    (∃ state, state ≠ ReceiptState.active ∧
      s.acceptNew hashing c unit grant policy key = s.terminalize hashing key unit state) ∨
    ∃ purposes, Within grant (SourceState.acceptedMemory unit purposes key) ∧
      s.acceptNew hashing c unit grant policy key = s.create hashing c unit grant purposes key := by
  unfold SourceState.acceptNew
  cases hpolicy : policyState unit grant c.now with
  | some state => exact Or.inl ⟨state, policyState_ne_active hpolicy, rfl⟩
  | none =>
    cases recordedAt unit with
    | none => exact Or.inl ⟨.denied, by simp, rfl⟩
    | some recorded =>
      dsimp only
      split_ifs
      · exact Or.inl ⟨.noop, by simp, rfl⟩
      · exact Or.inl ⟨.denied, by simp, rfl⟩
      · cases hpurposes : acceptedPurposes unit with
        | none => exact Or.inl ⟨.denied, by simp, rfl⟩
        | some purposes =>
          exact Or.inr ⟨purposes, within_of_policy hverified hpolicy hpurposes, rfl⟩

/-- What acceptance does to the tables. -/
theorem accept_cases {answer : SourceState × SourceOutcome}
    (h : s.acceptSourceUnit hashing c unit = .ok answer) :
    answer.1 = s ∨ ∃ grant key, verified c unit = some grant ∧ s.receipts.lookup key = none ∧
      ((∃ state, state ≠ ReceiptState.active ∧ answer = s.terminalize hashing key unit state) ∨
      ∃ purposes, Within grant (SourceState.acceptedMemory unit purposes key) ∧
        answer = s.create hashing c unit grant purposes key) := by
  unfold SourceState.acceptSourceUnit at h
  split at h
  · cases h
    exact Or.inl rfl
  · rename_i grant hverified
    split at h
    · cases h
    · split at h
      · cases h
        exact Or.inl rfl
      · rename_i hnone
        cases h
        exact Or.inr ⟨grant, _, hverified, hnone, acceptNew_cases hverified⟩

/-- What retirement does to the tables: nothing, or a terminal receipt where no memory is. -/
theorem retire_cases (hs : Sound s) (c : SourceCall) (unit : TrustedSourceUnit) :
    (s.retireSourceUnit hashing c unit).1 = s ∨
    ∃ key, ∃ receipt : SourceReceipt, receipt.state ≠ .active ∧
      (∀ id m, s.memories.lookup id = some m → m.identity ≠ some key) ∧
      (s.retireSourceUnit hashing c unit).1.memories = s.memories ∧
      (s.retireSourceUnit hashing c unit).1.accepted = s.accepted ∧
      ∀ key', (s.retireSourceUnit hashing c unit).1.receipts.lookup key' =
        if key' = key then some receipt else s.receipts.lookup key' := by
  unfold SourceState.retireSourceUnit
  split
  · exact Or.inl rfl
  · rename_i grant hverified
    dsimp only
    cases hreceipt : s.receipts.lookup (hashing.mint grant, unit.externalSourceKey) with
    | none =>
      right
      refine ⟨(hashing.mint grant, unit.externalSourceKey),
        ⟨none, hashing.digest unit, .erased⟩, by simp, ?_, rfl, rfl, ?_⟩
      · intro id m hm
        exact hs.no_memory (by simp [hreceipt]) hm
      · intro key'
        exact Table.lookup_insert _ _ _ _
    | some existing =>
      dsimp only
      split
      · exact Or.inl rfl
      · rename_i hlive
        right
        refine ⟨(hashing.mint grant, unit.externalSourceKey),
          { existing with state := .erased }, by simp, ?_, rfl, rfl, ?_⟩
        · intro id m hm hkey
          obtain ⟨found, hfound, hactive, hrecord⟩ := hs.recorded id m _ hm hkey
          rw [hreceipt] at hfound
          cases hfound
          rw [hrecord, Option.filter_eq_none_iff] at hlive
          have hthere := hlive id rfl
          simp [hactive, hm] at hthere
        · intro key'
          simp only [SourceState.setReceiptState, Table.lookup_updateIf, hreceipt]
          rfl

/-- Every operation keeps what every reachable state satisfies. -/
theorem Sound.step (hs : Sound s) {a : SourceAction} (h : sourceStep hashing s a = some t) :
    Sound t := by
  cases a with
  | accept c unit =>
    simp only [sourceStep] at h
    split_ifs at h with hfresh
    simp only [Bool.or_eq_true, not_or, Bool.not_eq_true, Option.isSome_eq_false_iff,
      Option.isNone_iff_eq_none] at hfresh
    split at h
    · cases h
      exact hs
    · rename_i answer haccept
      cases h
      rcases accept_cases haccept with hsame | ⟨grant, key, -, hnone, hcase⟩
      · rw [hsame]
        exact hs
      · rcases hcase with ⟨state, hstate, rfl⟩ | ⟨purposes, hwithin, rfl⟩
        · exact hs.insertReceipt (by simp [hnone]) hstate
        · exact hs.create hnone hfresh.1 hwithin
  | retire c unit =>
    simp only [sourceStep, Option.some.injEq] at h
    subst h
    rcases retire_cases hs c unit with hsame | ⟨key, receipt, hstate, hnone, hm, ha, hr⟩
    · rw [hsame]
      exact hs
    · refine ⟨fun id m key' hmem hkey => ?_, fun key' found hfound hactive => ?_, ?_⟩
      · rw [hm] at hmem
        obtain ⟨found, hfound, hactive, hrecord⟩ := hs.recorded id m key' hmem hkey
        refine ⟨found, ?_, hactive, hrecord⟩
        rw [hr, if_neg, hfound]
        rintro rfl
        exact hnone id m hmem hkey
      · rw [hr] at hfound
        split_ifs at hfound
        · cases hfound
          exact absurd hactive hstate
        · rw [hm]
          exact hs.represented key' found hfound hactive
      · rw [hm, ha]
        exact hs.within
  | erase ids =>
    cases h
    exact hs.erase ids
  | correct id title body affected =>
    cases h
    exact (hs.correctRow id title body).retireRows affected
  | supersede id replacement m affected =>
    obtain ⟨u, hwrite, rfl⟩ := Option.map_eq_some_iff.mp h
    exact (hs.writeMemory hwrite).retireRows (id :: affected)
  | write id m => exact hs.writeMemory h

theorem sound_of_reachable (hs : (sourceUnits hashing).Reachable s) : Sound s := by
  refine hs.invariant (I := Sound) ?_ ?_
  · rintro _ rfl
    refine ⟨?_, ?_, ?_⟩ <;> simp
  · intro s a t _ hs h
    exact hs.step h

/-! ### A terminal receipt stays terminal -/

/-- The identity has a receipt that is not active. -/
def Ended (s : SourceState) (key : SourceKey) : Prop :=
  ∃ receipt, s.receipts.lookup key = some receipt ∧ receipt.state ≠ .active

theorem Ended.eraseRow (h : Ended s key) (id : Uuid) : Ended (s.eraseRow id) key := by
  obtain ⟨receipt, hreceipt, hstate⟩ := h
  unfold SourceState.eraseRow
  split
  · exact ⟨receipt, hreceipt, hstate⟩
  · rename_i m hm
    cases m.identity with
    | none => exact ⟨receipt, hreceipt, hstate⟩
    | some key' =>
      by_cases hkey : key = key'
      · subst hkey
        refine ⟨{ receipt with state := .erased }, ?_, by simp⟩
        simp [SourceState.setReceiptState, Table.lookup_updateIf, hreceipt]
      · refine ⟨receipt, ?_, hstate⟩
        simp [SourceState.setReceiptState, Table.lookup_updateIf, hkey, hreceipt]

theorem Ended.erase (h : Ended s key) (ids : List Uuid) : Ended (s.erase ids) key := by
  unfold SourceState.erase
  generalize sortedBy id ids = sorted
  induction sorted generalizing s with
  | nil => exact h
  | cons id sorted ih => exact ih (h.eraseRow id)

theorem receipts_of_writeMemory (h : s.writeMemory id m = some t) : t.receipts = s.receipts := by
  unfold SourceState.writeMemory at h
  split_ifs at h
  cases h
  rfl

theorem Ended.step (hs : Sound s) (h : Ended s key) {a : SourceAction}
    (hstep : sourceStep hashing s a = some t) : Ended t key := by
  obtain ⟨receipt, hreceipt, hstate⟩ := h
  have hkept : ∀ {key' receipt'}, s.receipts.lookup key' = none →
      (s.receipts.insert key' receipt').lookup key = some receipt := by
    intro key' receipt' hnone
    rw [Table.lookup_insert, if_neg, hreceipt]
    rintro rfl
    rw [hreceipt] at hnone
    cases hnone
  cases a with
  | accept c unit =>
    simp only [sourceStep] at hstep
    split_ifs at hstep
    split at hstep
    · cases hstep
      exact ⟨receipt, hreceipt, hstate⟩
    · rename_i answer haccept
      cases hstep
      rcases accept_cases haccept with hsame | ⟨grant, key', -, hnone, hcase⟩
      · rw [hsame]
        exact ⟨receipt, hreceipt, hstate⟩
      · rcases hcase with ⟨state, -, rfl⟩ | ⟨purposes, -, rfl⟩
        · exact ⟨receipt, hkept hnone, hstate⟩
        · exact ⟨receipt, hkept hnone, hstate⟩
  | retire c unit =>
    simp only [sourceStep, Option.some.injEq] at hstep
    subst hstep
    rcases retire_cases hs c unit with hsame | ⟨key', ended, hended, -, -, -, hr⟩
    · rw [hsame]
      exact ⟨receipt, hreceipt, hstate⟩
    · by_cases hkey : key = key'
      · exact ⟨ended, by rw [hr, if_pos hkey], hended⟩
      · exact ⟨receipt, by rw [hr, if_neg hkey, hreceipt], hstate⟩
  | erase ids =>
    cases hstep
    exact Ended.erase ⟨receipt, hreceipt, hstate⟩ ids
  | correct id title body affected =>
    cases hstep
    exact ⟨receipt, hreceipt, hstate⟩
  | supersede id replacement m affected =>
    obtain ⟨u, hwrite, rfl⟩ := Option.map_eq_some_iff.mp hstep
    refine ⟨receipt, ?_, hstate⟩
    have hwritten : u.receipts = s.receipts := receipts_of_writeMemory hwrite
    have hreceipts : (u.retireRows (id :: affected)).receipts = u.receipts := rfl
    rw [hreceipts, hwritten, hreceipt]
  | write id m =>
    refine ⟨receipt, ?_, hstate⟩
    rw [receipts_of_writeMemory hstep, hreceipt]

/-! ### The law -/

/-- What holds of the units and memories in a reachable state. -/
structure SourceUnitLaw (hashing : Hashing) (s : SourceState) : Prop where
  /-- An identity has at most one memory. -/
  one_memory : ∀ id id' m m' key, s.memories.lookup id = some m → s.memories.lookup id' = some m' →
    m.identity = some key → m'.identity = some key → id = id'
  /-- A receipt is active exactly when the memory that carries its identity is there. -/
  active_iff : ∀ key, (∃ receipt, s.receipts.lookup key = some receipt ∧ receipt.state = .active) ↔
    ∃ id m, s.memories.lookup id = some m ∧ m.identity = some key
  /-- A receipt that is not active never becomes active, and no memory carries its identity
  again. -/
  terminal : ∀ key t, Ended s key → (sourceUnits hashing).Reaches s t →
    Ended t key ∧ ∀ id m, t.memories.lookup id = some m → m.identity ≠ some key
  /-- A unit whose identity has a receipt changes nothing, whatever its digest. -/
  repeated : ∀ c unit grant receipt answer, verified c unit = some grant →
    s.receipts.lookup (hashing.mint grant, unit.externalSourceKey) = some receipt →
    s.acceptSourceUnit hashing c unit = .ok answer → answer.1 = s
  /-- An accepted memory lies within what its grant allows. -/
  within : ∀ id grant m, s.accepted.lookup id = some grant → s.memories.lookup id = some m →
    Within grant m

/-- The law of the source units holds in every reachable state. -/
theorem source_unit_law (hashing : Hashing) (s : SourceState)
    (hs : (sourceUnits hashing).Reachable s) : SourceUnitLaw hashing s where
  one_memory id id' m m' key hm hm' hkey hkey' := by
    obtain ⟨receipt, hreceipt, -, hid⟩ := (sound_of_reachable hs).recorded id m key hm hkey
    obtain ⟨receipt', hreceipt', -, hid'⟩ := (sound_of_reachable hs).recorded id' m' key hm' hkey'
    rw [hreceipt] at hreceipt'
    cases hreceipt'
    rw [hid] at hid'
    exact Option.some.inj hid'
  active_iff key := by
    constructor
    · rintro ⟨receipt, hreceipt, hactive⟩
      exact (sound_of_reachable hs).represented key receipt hreceipt hactive
    · rintro ⟨id, m, hm, hkey⟩
      obtain ⟨receipt, hreceipt, hactive, -⟩ := (sound_of_reachable hs).recorded id m key hm hkey
      exact ⟨receipt, hreceipt, hactive⟩
  terminal key t hended hrun := by
    have hstays : Ended t key := hs.stable (P := fun s => Ended s key)
      (fun _ _ _ hr hend hstep => hend.step (sound_of_reachable hr) hstep) hended hrun
    refine ⟨hstays, fun id m hm => ?_⟩
    obtain ⟨receipt, hreceipt, hstate⟩ := hstays
    refine (sound_of_reachable (hs.reaches hrun)).no_memory (fun found hfound => ?_) hm
    rw [hreceipt] at hfound
    cases hfound
    exact hstate
  repeated c unit grant receipt answer hverified hreceipt haccept := by
    unfold SourceState.acceptSourceUnit at haccept
    rw [hverified] at haccept
    dsimp only at haccept
    split at haccept
    · cases haccept
    · rw [hreceipt] at haccept
      cases haccept
      rfl
  within := (sound_of_reachable hs).within

section Sample

def sampleHashing : Hashing := ⟨fun _ => "partition", fun unit => unit.evidence.body⟩

/-- A unit of an import whose authority is bound to responding. -/
def importedUnit : TrustedSourceUnit :=
  ⟨.migration, 3, none, .workspace, none, some .respond, none, none, "row-1",
    ⟨"Site visit", "The gate sticks.", some 5, [.internalAnalysis], [], []⟩⟩

def importGrant : AuthorityGrant := ⟨1, .migration, 3, none, .workspace, none, some .respond, []⟩

def importCall (newId : Uuid) : SourceCall :=
  ⟨1, 100, some importGrant, some ⟨none⟩, fun _ => true, fun _ => true, newId⟩

def noMemories : SourceState := ⟨∅, ∅, ∅⟩

def imported : SourceState :=
  ((sourceUnits sampleHashing).run noMemories [.accept (importCall 7) importedUnit]).getD noMemories

theorem reachable_imported : (sourceUnits sampleHashing).Reachable imported := by
  have hrun : (sourceUnits sampleHashing).run noMemories
      [.accept (importCall 7) importedUnit] = some imported := rfl
  exact Machine.reachable_of_run rfl hrun

/-- The unit is accepted, erased and offered again: its identity stays ended. -/
theorem source_unit_law_erased :
    ∃ t, (sourceUnits sampleHashing).run imported
        [.erase [7], .accept (importCall 8) importedUnit] = some t ∧
      t.memories.lookup 7 = none ∧ t.memories.lookup 8 = none ∧
      (∃ receipt, t.receipts.lookup ("partition", "row-1") = some receipt ∧
        receipt.state = .erased) ∧ SourceUnitLaw sampleHashing imported :=
  ⟨_, rfl, rfl, rfl, ⟨_, rfl, rfl⟩, source_unit_law sampleHashing imported reachable_imported⟩

/-- A migrated memory keeps a purpose that its grant is not bound to. -/
theorem imported_purpose :
    ∃ grant m, imported.accepted.lookup 7 = some grant ∧ imported.memories.lookup 7 = some m ∧
      grant.boundPurpose = some .respond ∧ m.purposes = [.internalAnalysis] :=
  ⟨_, _, rfl, rfl, rfl, rfl⟩

end Sample

end Rheostream.Recallatron.SourceUnits
