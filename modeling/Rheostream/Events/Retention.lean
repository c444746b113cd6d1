import Mathlib.Data.List.Sort
import Rheostream.Events.Outbox

/-!
# Outbox retention

`purge_outbox`, statement by statement. A sweep holds the retention row from before its first
read until it ends, and works in batches; what it has deleted stays visible to everybody else
until it commits. Each statement sees what others have committed by then. `Sweep.Ok` is what
a sweep in progress relies on, and `Evolves` what everybody else may do to the tables
meanwhile without disturbing it.
-/

namespace Rheostream

/-- Where a sweep stands between two of its statements. -/
inductive SweepStage where
  /-- Before a batch: the checkpoint comes next, unless no batch is left. -/
  | checkpoint
  /-- The candidates of a batch are read. -/
  | chosen (candidates : List Uuid)
  /-- Their settled deliveries are deleted. -/
  | cleared (candidates : List Uuid)
  /-- No batch follows; the ledger delete and the record are left. -/
  | finished

/-- A sweep in progress: its parameters, and what its transaction has done so far. -/
structure Sweep where
  occurredBefore : ℕ
  batchEvents : ℕ
  batchesLeft : ℕ
  sweptThrough : Option ℕ
  deletedIds : List Uuid
  deletedDeliveries : List DeliveryKey
  stage : SweepStage

namespace Sweep

/-- A sweep that has read the retention row. -/
def start (tables : EventTables) (occurredBefore batchEvents maxBatches : ℕ) : Sweep where
  occurredBefore := occurredBefore
  batchEvents := batchEvents
  batchesLeft := maxBatches
  sweptThrough := tables.sweptThrough
  deletedIds := []
  deletedDeliveries := []
  stage := .checkpoint

variable (sweep : Sweep) (tables : EventTables)

/-- The outbox as the sweep's own transaction sees it. -/
def outbox : Outbox := tables.outbox.deleteWhere fun id _ => sweep.deletedIds.contains id

/-- The deliveries as the sweep's own transaction sees them. -/
def deliveries : Deliveries :=
  tables.deliveries.deleteWhere fun key _ => sweep.deletedDeliveries.contains key

/-- Whether a delivery of the event is neither delivered nor skipped. -/
def unsettled (id : Uuid) : Bool :=
  (sweep.deliveries tables).existsRow fun key row => key.1 = id && !row.state.isSettled

/-- Whether the event has a delivery. -/
def anyDelivery (id : Uuid) : Bool :=
  (sweep.deliveries tables).existsRow fun key _ => key.1 = id

/-- The oldest settled events before the horizon, at most a batch of them. -/
def candidates : List Uuid :=
  ((((sweep.outbox tables).select fun id row =>
      row.occurredAt < sweep.occurredBefore && !sweep.unsettled tables id).entries.insertionSort
    (·.2.position ≤ ·.2.position)).take sweep.batchEvents).map Sigma.fst

/-- The sweep's next statement, until it is finished. -/
def next : Option Sweep :=
  match sweep.stage with
  | .checkpoint =>
    if sweep.batchesLeft = 0 then some { sweep with stage := .finished }
    else
      let candidates := sweep.candidates tables
      some { sweep with
        batchesLeft := sweep.batchesLeft - 1
        stage := if candidates.isEmpty then .finished else .chosen candidates }
  | .chosen candidates =>
    let cleared := (sweep.deliveries tables).select fun key row =>
      candidates.contains key.1 && row.state.isSettled
    some { sweep with
      deletedDeliveries := cleared.keys ++ sweep.deletedDeliveries
      stage := .cleared candidates }
  | .cleared candidates =>
    let gone := (sweep.outbox tables).select fun id _ =>
      candidates.contains id && !sweep.anyDelivery tables id
    some { sweep with
      deletedIds := gone.keys ++ sweep.deletedIds
      sweptThrough :=
        match (gone.entries.map fun e => e.2.position).max? with
        | none => sweep.sweptThrough
        | some highest => some (sweep.sweptThrough.elim highest (max highest))
      stage := if candidates.length < sweep.batchEvents then .finished else .checkpoint }
  | .finished => none

/-- What the sweep's commit leaves. The ledger rows go, and the record moves, only when an
event did. -/
def commit : EventTables where
  outbox := sweep.outbox tables
  deliveries := sweep.deliveries tables
  processed := tables.processed.deleteWhere fun key _ => sweep.deletedIds.contains key.1
  sweptThrough := if sweep.deletedIds.isEmpty then tables.sweptThrough else sweep.sweptThrough

variable {sweep tables}

theorem lookup_outbox {id : Uuid} {row : OutboxRow} : (sweep.outbox tables).lookup id = some row ↔
      tables.outbox.lookup id = some row ∧ id ∉ sweep.deletedIds := by
  rw [outbox, Table.lookup_deleteWhere_eq_some]
  simp

theorem lookup_deliveries {key : DeliveryKey} {row : DeliveryRow} :
    (sweep.deliveries tables).lookup key = some row ↔
      tables.deliveries.lookup key = some row ∧ key ∉ sweep.deletedDeliveries := by
  rw [deliveries, Table.lookup_deleteWhere_eq_some]
  simp

theorem unsettled_eq_false {id : Uuid} :
    sweep.unsettled tables id = false ↔
      ∀ key row, (sweep.deliveries tables).lookup key = some row → key.1 = id →
        row.state.isSettled = true := by
  simp only [unsettled, Table.existsRow_eq_false, Bool.and_eq_false_iff,
    decide_eq_false_iff_not, Bool.not_eq_false', ← imp_iff_not_or]

theorem anyDelivery_eq_false {id : Uuid} :
    sweep.anyDelivery tables id = false ↔
      ∀ key row, (sweep.deliveries tables).lookup key = some row → key.1 ≠ id := by
  simp [anyDelivery, Table.existsRow_eq_false]

/-- A key of a table has a row. -/
private theorem exists_of_mem_keys {K V : Type} [DecidableEq K] {t : Table K V} {k : K}
    (h : k ∈ t.keys) : ∃ v, t.lookup k = some v := by
  rw [← AList.mem_keys, ← AList.lookup_isSome] at h
  exact Option.isSome_iff_exists.mp h

/-- A candidate is an event the sweep sees, whose deliveries it sees settled. -/
theorem of_mem_candidates {id : Uuid} (h : id ∈ sweep.candidates tables) :
    (∃ row, (sweep.outbox tables).lookup id = some row) ∧
      sweep.unsettled tables id = false := by
  obtain ⟨⟨id, row⟩, hmem, rfl⟩ := List.mem_map.mp h
  have hsorted := List.mem_of_mem_take hmem
  rw [List.mem_insertionSort] at hsorted
  have hlookup := AList.mem_lookup_iff.mpr hsorted
  rw [Option.mem_def, Table.lookup_select, Option.filter_eq_some_iff] at hlookup
  obtain ⟨hrow, hkept⟩ := hlookup
  simp only [Bool.and_eq_true, Bool.not_eq_true'] at hkept
  exact ⟨⟨row, hrow⟩, hkept.2⟩

end Sweep

/-- What may happen to the tables beside a sweep: events stay, a settled delivery stays as it
is, and no event gets a delivery it did not have. -/
structure EventTables.Evolves (tables tables' : EventTables) : Prop where
  outbox : ∀ id row, tables.outbox.lookup id = some row → tables'.outbox.lookup id = some row
  deliveries : ∀ key row' event, tables'.deliveries.lookup key = some row' →
    tables.outbox.lookup key.1 = some event →
    ∃ row, tables.deliveries.lookup key = some row ∧ (row.state.isSettled = true → row' = row)
  sweptThrough : tables'.sweptThrough = tables.sweptThrough

/-- The batch in hand: every candidate is retained, and its deliveries are settled, and gone
once they are cleared. -/
def SweepStage.Ok (sweep : Sweep) (tables : EventTables) : SweepStage → Prop
  | .checkpoint | .finished => True
  | .chosen candidates => ∀ id ∈ candidates, id ∉ sweep.deletedIds ∧
      (∃ row, tables.outbox.lookup id = some row) ∧
      ∀ key row, tables.deliveries.lookup key = some row → key.1 = id →
        row.state.isSettled = true
  | .cleared candidates => ∀ id ∈ candidates, id ∉ sweep.deletedIds ∧
      (∃ row, tables.outbox.lookup id = some row) ∧
      ∀ key row, tables.deliveries.lookup key = some row → key.1 = id →
        key ∈ sweep.deletedDeliveries

/-- The events whose deliveries are being deleted before they are. -/
def SweepStage.clearing : SweepStage → List Uuid
  | .cleared candidates => candidates
  | .checkpoint | .chosen _ | .finished => []

/-- A sweep in progress. -/
structure Sweep.Ok (tables : EventTables) (sweep : Sweep) : Prop where
  swept_le : ∀ swept, tables.sweptThrough = some swept →
    ∃ swept', sweep.sweptThrough = some swept' ∧ swept ≤ swept'
  deleted : ∀ id ∈ sweep.deletedIds, ∃ row, tables.outbox.lookup id = some row ∧
    ∃ swept', sweep.sweptThrough = some swept' ∧ row.position ≤ swept'
  cleared : ∀ key row, tables.deliveries.lookup key = some row → key.1 ∈ sweep.deletedIds →
    key ∈ sweep.deletedDeliveries
  settled : ∀ key ∈ sweep.deletedDeliveries, ∀ row, tables.deliveries.lookup key = some row →
    row.state.isSettled = true
  going : ∀ key ∈ sweep.deletedDeliveries,
    key.1 ∈ sweep.deletedIds ∨ key.1 ∈ sweep.stage.clearing
  stage : sweep.stage.Ok sweep tables

namespace Sweep.Ok

variable {tables tables' : EventTables} {sweep sweep' : Sweep}

theorem start (tables : EventTables) (occurredBefore batchEvents maxBatches : ℕ) :
    Sweep.Ok tables (.start tables occurredBefore batchEvents maxBatches) where
  swept_le swept hswept := ⟨swept, hswept, le_rfl⟩
  deleted := by simp [Sweep.start]
  cleared := by simp [Sweep.start]
  settled := by simp [Sweep.start]
  going := by simp [Sweep.start]
  stage := trivial

/-- What others do beside a sweep does not disturb it. -/
theorem evolves (h : Sweep.Ok tables sweep) (htables : tables.Evolves tables') :
    Sweep.Ok tables' sweep := by
  have hbefore : ∀ key row' event, tables'.deliveries.lookup key = some row' →
      tables.outbox.lookup key.1 = some event →
      ∃ row, tables.deliveries.lookup key = some row ∧ (row.state.isSettled = true → row' = row) :=
    htables.deliveries
  refine ⟨?_, fun id hid => ?_, fun key row hrow hid => ?_, fun key hkey row' hrow' => ?_, h.going,
    ?_⟩
  · rw [htables.sweptThrough]
    exact h.swept_le
  · obtain ⟨row, hrow, hswept⟩ := h.deleted id hid
    exact ⟨row, htables.outbox id row hrow, hswept⟩
  · obtain ⟨event, hevent, -⟩ := h.deleted key.1 hid
    obtain ⟨old, hold, -⟩ := hbefore key row event hrow hevent
    exact h.cleared key old hold hid
  · have hevent : ∃ event, tables.outbox.lookup key.1 = some event := by
      rcases h.going key hkey with hid | hclearing
      · obtain ⟨event, hevent, -⟩ := h.deleted key.1 hid
        exact ⟨event, hevent⟩
      · have hstage := h.stage
        cases hcase : sweep.stage with
        | cleared candidates =>
          rw [hcase] at hstage hclearing
          exact (hstage key.1 hclearing).2.1
        | checkpoint | chosen | finished =>
          rw [hcase] at hclearing
          cases hclearing
    obtain ⟨event, hevent⟩ := hevent
    obtain ⟨row, hrow, hsame⟩ := hbefore key row' event hrow' hevent
    have hsettled := h.settled key hkey row hrow
    rwa [hsame hsettled]
  · have hstage := h.stage
    cases hcase : sweep.stage with
    | checkpoint | finished => exact trivial
    | chosen candidates =>
      rw [hcase] at hstage
      intro id hid
      obtain ⟨hkept, ⟨event, hevent⟩, hsettled⟩ := hstage id hid
      refine ⟨hkept, ⟨event, htables.outbox id event hevent⟩, ?_⟩
      rintro key row' hrow' rfl
      obtain ⟨row, hrow, hsame⟩ := hbefore key row' event hrow' hevent
      have hrowSettled := hsettled key row hrow rfl
      rwa [hsame hrowSettled]
    | cleared candidates =>
      rw [hcase] at hstage
      intro id hid
      obtain ⟨hkept, ⟨event, hevent⟩, hcleared⟩ := hstage id hid
      refine ⟨hkept, ⟨event, htables.outbox id event hevent⟩, ?_⟩
      rintro key row' hrow' rfl
      obtain ⟨row, hrow, -⟩ := hbefore key row' event hrow' hevent
      exact hcleared key row hrow rfl

/-- Reading a batch finds settled events only. -/
private theorem choose (h : Sweep.Ok tables sweep) (hcheckpoint : sweep.stage = .checkpoint) :
    Sweep.Ok tables { sweep with
      batchesLeft := sweep.batchesLeft - 1
      stage := .chosen (sweep.candidates tables) } := by
  have hgoing : ∀ key ∈ sweep.deletedDeliveries, key.1 ∈ sweep.deletedIds := by
    intro key hkey
    have hclearing := h.going key hkey
    rw [hcheckpoint] at hclearing
    exact hclearing.resolve_right (by simp [SweepStage.clearing])
  refine ⟨h.swept_le, h.deleted, h.cleared, h.settled, fun key hkey => .inl (hgoing key hkey),
    fun id hid => ?_⟩
  obtain ⟨⟨event, hevent⟩, hunsettled⟩ := of_mem_candidates hid
  obtain ⟨hevent, hkept⟩ := lookup_outbox.mp hevent
  refine ⟨hkept, ⟨event, hevent⟩, ?_⟩
  rintro key row hrow rfl
  have hvisible : key ∉ sweep.deletedDeliveries := fun hkey => hkept (hgoing key hkey)
  exact unsettled_eq_false.mp hunsettled key row (lookup_deliveries.mpr ⟨hrow, hvisible⟩) rfl

/-- Clearing a batch leaves none of its deliveries. -/
private theorem clear (h : Sweep.Ok tables sweep) {candidates : List Uuid}
    (hchosen : sweep.stage = .chosen candidates) :
    Sweep.Ok tables { sweep with
      deletedDeliveries := ((sweep.deliveries tables).select fun key row =>
        candidates.contains key.1 && row.state.isSettled).keys ++ sweep.deletedDeliveries
      stage := .cleared candidates } := by
  have hstage : SweepStage.Ok sweep tables (.chosen candidates) := hchosen ▸ h.stage
  have hcleared : ∀ key ∈ ((sweep.deliveries tables).select fun key row =>
      candidates.contains key.1 && row.state.isSettled).keys, key.1 ∈ candidates := by
    intro key hkey
    obtain ⟨row, hrow⟩ := exists_of_mem_keys hkey
    rw [Table.lookup_select, Option.filter_eq_some_iff] at hrow
    have hmatch := hrow.2
    simp only [Bool.and_eq_true, List.contains_iff_mem] at hmatch
    exact hmatch.1
  refine ⟨h.swept_le, h.deleted, fun key row hrow hid => ?_, fun key hkey row hrow => ?_,
    fun key hkey => ?_, fun id hid => ?_⟩
  · exact List.mem_append_right _ (h.cleared key row hrow hid)
  · rcases List.mem_append.mp hkey with hkey | hkey
    · exact (hstage key.1 (hcleared key hkey)).2.2 key row hrow rfl
    · exact h.settled key hkey row hrow
  · rcases List.mem_append.mp hkey with hkey | hkey
    · exact .inr (hcleared key hkey)
    · have hgoing := h.going key hkey
      rw [hchosen] at hgoing
      exact .inl (hgoing.resolve_right (by simp [SweepStage.clearing]))
  · obtain ⟨hkept, hevent, hsettled⟩ := hstage id hid
    refine ⟨hkept, hevent, ?_⟩
    rintro key row hrow rfl
    refine List.mem_append.mpr (or_iff_not_imp_right.mpr fun hvisible => ?_)
    have hlookup := lookup_deliveries.mpr ⟨hrow, hvisible⟩
    rw [← AList.mem_keys, ← AList.lookup_isSome, Table.lookup_select, hlookup]
    simp [Option.filter, hid, hsettled key row hrow rfl]

/-- A batch whose deliveries are cleared goes, and the record covers it. -/
private theorem remove (h : Sweep.Ok tables sweep) {candidates : List Uuid}
    (hcleared : sweep.stage = .cleared candidates) {gone : Outbox} {stage : SweepStage}
    (hgone : gone = (sweep.outbox tables).select fun id _ =>
      candidates.contains id && !sweep.anyDelivery tables id)
    (hstage : stage = .checkpoint ∨ stage = .finished) :
    Sweep.Ok tables { sweep with
      deletedIds := gone.keys ++ sweep.deletedIds
      sweptThrough :=
        match (gone.entries.map fun e => e.2.position).max? with
        | none => sweep.sweptThrough
        | some highest => some (sweep.sweptThrough.elim highest (max highest))
      stage := stage } := by
  have hbatch : SweepStage.Ok sweep tables (.cleared candidates) := hcleared ▸ h.stage
  have hlookup : ∀ id row, gone.lookup id = some row ↔
      (sweep.outbox tables).lookup id = some row ∧ id ∈ candidates ∧
        sweep.anyDelivery tables id = false := by
    intro id row
    rw [hgone, Table.lookup_select, Option.filter_eq_some_iff]
    simp
  -- Every candidate is gone: the sweep sees none of its deliveries any more.
  have hall : ∀ id ∈ candidates, id ∈ gone.keys := by
    intro id hid
    obtain ⟨hkept, ⟨event, hevent⟩, hnone⟩ := hbatch id hid
    have hany : sweep.anyDelivery tables id = false := by
      refine anyDelivery_eq_false.mpr fun key row hrow heq => ?_
      obtain ⟨hrow, hvisible⟩ := lookup_deliveries.mp hrow
      exact hvisible (hnone key row hrow heq)
    rw [← AList.mem_keys, ← AList.lookup_isSome]
    exact Option.isSome_of_mem ((hlookup id event).mpr
      ⟨lookup_outbox.mpr ⟨hevent, hkept⟩, hid, hany⟩)
  have hgrow : ∀ swept, sweep.sweptThrough = some swept → ∃ swept',
      (match (gone.entries.map fun e => e.2.position).max? with
        | none => sweep.sweptThrough
        | some highest => some (sweep.sweptThrough.elim highest (max highest))) = some swept' ∧
        swept ≤ swept' := by
    intro swept hswept
    split
    · exact ⟨swept, hswept, le_rfl⟩
    · exact ⟨_, rfl, by simp [hswept]⟩
  have hcover : ∀ id row, gone.lookup id = some row → ∃ swept',
      (match (gone.entries.map fun e => e.2.position).max? with
        | none => sweep.sweptThrough
        | some highest => some (sweep.sweptThrough.elim highest (max highest))) = some swept' ∧
        row.position ≤ swept' := by
    intro id row hrow
    have hmem : row.position ∈ gone.entries.map fun e => e.2.position :=
      List.mem_map.mpr ⟨⟨id, row⟩, AList.mem_lookup_iff.mp hrow, rfl⟩
    split
    · rename_i hnone
      rw [List.max?_eq_none_iff.mp hnone] at hmem
      cases hmem
    · rename_i highest hhighest
      have hle := (List.max?_eq_some_iff.mp hhighest).2 _ hmem
      refine ⟨_, rfl, ?_⟩
      cases sweep.sweptThrough with
      | none => exact hle
      | some swept => exact hle.trans (le_max_left _ _)
  refine ⟨fun swept hswept => ?_, fun id hid => ?_, fun key row hrow hid => ?_, h.settled,
    fun key hkey => ?_, ?_⟩
  · obtain ⟨swept', hswept', hle⟩ := h.swept_le swept hswept
    obtain ⟨swept'', hswept'', hle'⟩ := hgrow swept' hswept'
    exact ⟨swept'', hswept'', hle.trans hle'⟩
  · rcases List.mem_append.mp hid with hid | hid
    · obtain ⟨row, hrow⟩ := exists_of_mem_keys hid
      exact ⟨row, (lookup_outbox.mp ((hlookup id row).mp hrow).1).1, hcover id row hrow⟩
    · obtain ⟨row, hrow, swept, hswept, hle⟩ := h.deleted id hid
      obtain ⟨swept', hswept', hle'⟩ := hgrow swept hswept
      exact ⟨row, hrow, swept', hswept', hle.trans hle'⟩
  · rcases List.mem_append.mp hid with hid | hid
    · obtain ⟨event, hevent⟩ := exists_of_mem_keys hid
      obtain ⟨-, hcandidate, -⟩ := (hlookup key.1 event).mp hevent
      exact (hbatch key.1 hcandidate).2.2 key row hrow rfl
    · exact h.cleared key row hrow hid
  · have hgoing := h.going key hkey
    rw [hcleared] at hgoing
    refine .inl (List.mem_append.mpr ?_)
    rcases hgoing with hid | hclearing
    · exact .inr hid
    · exact .inl (hall key.1 hclearing)
  · rcases hstage with rfl | rfl <;> exact trivial

/-- Every statement of a sweep keeps what the sweep relies on. -/
theorem next (h : Sweep.Ok tables sweep) (hnext : sweep.next tables = some sweep') :
    Sweep.Ok tables sweep' := by
  unfold Sweep.next at hnext
  split at hnext
  case h_1 hcheckpoint =>
    have hgoing : ∀ key ∈ sweep.deletedDeliveries, key.1 ∈ sweep.deletedIds := by
      intro key hkey
      have hclearing := h.going key hkey
      rw [hcheckpoint] at hclearing
      exact hclearing.resolve_right (by simp [SweepStage.clearing])
    split at hnext
    · obtain rfl := Option.some.inj hnext
      exact ⟨h.swept_le, h.deleted, h.cleared, h.settled,
        fun key hkey => .inl (hgoing key hkey), trivial⟩
    · obtain rfl := Option.some.inj hnext
      by_cases hempty : (sweep.candidates tables).isEmpty = true
      · simp only [hempty, if_true]
        exact ⟨h.swept_le, h.deleted, h.cleared, h.settled,
          fun key hkey => .inl (hgoing key hkey), trivial⟩
      · simp only [hempty]
        exact h.choose hcheckpoint
  case h_2 candidates hchosen =>
    obtain rfl := Option.some.inj hnext
    exact h.clear hchosen
  case h_3 candidates hcleared =>
    obtain rfl := Option.some.inj hnext
    refine h.remove hcleared rfl ?_
    split
    · exact .inr rfl
    · exact .inl rfl
  case h_4 => cases hnext

variable (hfinished : sweep.stage = .finished)

include hfinished in
/-- A finished sweep deletes the deliveries of the events it deletes and no others. -/
theorem lookup_commit_deliveries (h : Sweep.Ok tables sweep) (key : DeliveryKey)
    (row : DeliveryRow) : (sweep.commit tables).deliveries.lookup key = some row ↔
      tables.deliveries.lookup key = some row ∧ key.1 ∉ sweep.deletedIds := by
  rw [Sweep.commit, lookup_deliveries]
  refine and_congr_right fun hrow => not_congr ⟨fun hkey => ?_, h.cleared key row hrow⟩
  have hgoing := h.going key hkey
  rw [hfinished] at hgoing
  exact hgoing.resolve_right (by simp [SweepStage.clearing])

/-- What a sweep deletes with an event was delivered or skipped. -/
theorem settled_of_deleted (h : Sweep.Ok tables sweep) {key : DeliveryKey} {row : DeliveryRow}
    (hrow : tables.deliveries.lookup key = some row) (hid : key.1 ∈ sweep.deletedIds) :
    row.state.isSettled = true :=
  h.settled key (h.cleared key row hrow hid) row hrow

/-- The record never goes back. -/
theorem sweptThrough_commit (h : Sweep.Ok tables sweep) {swept : ℕ}
    (hswept : tables.sweptThrough = some swept) :
    ∃ swept', (sweep.commit tables).sweptThrough = some swept' ∧ swept ≤ swept' := by
  simp only [Sweep.commit]
  split
  · exact ⟨swept, hswept, le_rfl⟩
  · exact h.swept_le swept hswept

/-- The record covers every event the sweep deletes. -/
theorem position_le_commit (h : Sweep.Ok tables sweep) {id : Uuid} {row : OutboxRow}
    (hid : id ∈ sweep.deletedIds) (hrow : tables.outbox.lookup id = some row) :
    ∃ swept', (sweep.commit tables).sweptThrough = some swept' ∧ row.position ≤ swept' := by
  obtain ⟨row', hrow', hswept⟩ := h.deleted id hid
  obtain rfl := Option.some.inj (hrow.symm.trans hrow')
  have hsome : sweep.deletedIds.isEmpty = false := by
    cases hids : sweep.deletedIds with
    | nil => simp [hids] at hid
    | cons => rfl
  simpa [Sweep.commit, hsome] using hswept

end Sweep.Ok

end Rheostream
