import Mathlib.Data.List.Perm.Basic
import Rheostream.Evidence.Recording

/-!
# Resending what was deferred

An attempt settles a prefix of its records and defers the rest. A sender that resends what was
deferred comes to an end, with every record answered once and the rows of one attempt that defers
nothing.
-/

namespace Rheostream.Evidence

variable (sanitize : String → Option String) (settings : RecordSettings) (now : ℕ)

/-- What settling a record does to the rows. -/
def storeRecord (t : EvidenceTables) (record : NewEvidence) : EvidenceTables :=
  match sanitize record.rawText with
  | none => t
  | some body =>
    if settings.maxBytes < body.utf8ByteSize then
      (insertUnit t record.toEvidenceIdentity (record.recordedAt + settings.pendingFor) now none
        .gap (some "oversize") (some now)).2
    else
      (insertUnit t record.toEvidenceIdentity (record.recordedAt + settings.pendingFor) now
        (some body) .pending none none).2

/-- The bytes that a record needs. -/
def recordBytes (record : NewEvidence) : ℕ :=
  (sanitize record.rawText).elim 0 String.utf8ByteSize

/-- The keys an attempt has settled. -/
def RecordAttempt.settled (attempt : RecordAttempt) : List String :=
  attempt.accepted ++ attempt.gapped ++ attempt.dropped

variable {r : Recording}

/-- Once a record is deferred, so is every one behind it. -/
theorem foldl_step_deferred (h : r.attempt.deferred ≠ [])
    (records : List NewEvidence) :
    records.foldl (Recording.step sanitize settings now) r =
      { r with attempt := { r.attempt with
          deferred := r.attempt.deferred ++ records.map fun record => record.nativeKey } } := by
  induction records generalizing r with
  | nil => simp
  | cons record records ih =>
    have hstep : Recording.step sanitize settings now r record = r.defer record.nativeKey := by
      rw [Recording.step, if_neg (by simpa [List.isEmpty_iff] using h)]
    rw [List.foldl_cons, hstep, ih (by simp [Recording.defer])]
    simp [Recording.defer]

/-- What a record that is not deferred changes. -/
structure Settles (r next : Recording) (record : NewEvidence) : Prop where
  tables : next.tables = storeRecord sanitize settings now r.tables record
  deferred : next.attempt.deferred = r.attempt.deferred
  settled : next.attempt.settled.Perm (r.attempt.settled ++ [record.nativeKey])
  admitted : next.admitted ≤ r.admitted + 1
  bytes : next.admittedBytes ≤ r.admittedBytes + recordBytes sanitize record

/-- A record is settled, or deferred where it does not fit what is left of the budgets. -/
theorem step_cases (h : r.attempt.deferred = []) (record : NewEvidence) :
    Settles sanitize settings now r (Recording.step sanitize settings now r record) record ∨
      Recording.step sanitize settings now r record = r.defer record.nativeKey ∧
        (settings.maxRecords < r.admitted + 1 ∨
          ∃ body, sanitize record.rawText = some body ∧ body.utf8ByteSize ≤ settings.maxBytes ∧
            settings.maxBytes < r.admittedBytes + body.utf8ByteSize) := by
  rw [Recording.step, h, if_pos List.isEmpty_nil]
  cases hbody : sanitize record.rawText with
  | none =>
    left
    constructor
    · rw [storeRecord, hbody]
      rfl
    · rfl
    · simp [Recording.drop, RecordAttempt.settled]
    · simp [Recording.drop]
    · simp [Recording.drop]
  | some body =>
    dsimp only
    by_cases hrecords : settings.maxRecords < r.admitted + 1
    · rw [if_pos hrecords]
      exact Or.inr ⟨rfl, Or.inl hrecords⟩
    · rw [if_neg hrecords]
      by_cases hsize : settings.maxBytes < body.utf8ByteSize
      · rw [if_pos hsize]
        left
        constructor
        · rw [storeRecord, hbody]
          exact (if_pos hsize).symm
        · rfl
        · have hswap := @List.perm_append_comm _ [record.nativeKey] r.attempt.dropped
          simp only [Recording.oversize, RecordAttempt.settled, List.append_assoc]
          exact (hswap.append_left _).append_left _
        · simp [Recording.oversize]
        · simp [Recording.oversize]
      · rw [if_neg hsize]
        by_cases hbytes : settings.maxBytes < r.admittedBytes + body.utf8ByteSize
        · rw [if_pos hbytes]
          exact Or.inr ⟨rfl, Or.inr ⟨body, rfl, by omega, hbytes⟩⟩
        · rw [if_neg hbytes]
          left
          constructor
          · rw [storeRecord, hbody]
            exact (if_neg hsize).symm
          · rfl
          · have hswap :=
              @List.perm_append_comm _ [record.nativeKey] (r.attempt.gapped ++ r.attempt.dropped)
            simp only [Recording.accept, RecordAttempt.settled, List.append_assoc]
            rw [List.append_assoc] at hswap
            exact hswap.append_left _
          · simp [Recording.accept]
          · simp [Recording.accept, recordBytes, hbody]

/-- What a loop over records leaves behind: a prefix settled, the rest deferred. -/
structure Attempted (r last : Recording) (records : List NewEvidence) (n : ℕ) : Prop where
  within : n ≤ records.length
  deferred : last.attempt.deferred = (records.drop n).map fun record => record.nativeKey
  settled : last.attempt.settled.Perm
    (r.attempt.settled ++ (records.take n).map fun record => record.nativeKey)
  tables : last.tables = (records.take n).foldl (storeRecord sanitize settings now) r.tables
  /-- The first record always fits budgets that nothing was taken from. -/
  progress : r.admitted = 0 → r.admittedBytes = 0 → 1 ≤ settings.maxRecords → records ≠ [] → 0 < n
  /-- Budgets that are large enough defer nothing. -/
  enough : r.admitted + records.length ≤ settings.maxRecords →
    r.admittedBytes + (records.map (recordBytes sanitize)).sum ≤ settings.maxBytes →
    n = records.length

theorem foldl_step (h : r.attempt.deferred = []) (records : List NewEvidence) :
    ∃ n, Attempted sanitize settings now r
      (records.foldl (Recording.step sanitize settings now) r) records n := by
  induction records generalizing r with
  | nil =>
    exact ⟨0, Nat.le_refl 0, h, by simp, rfl, fun _ _ _ hne => absurd rfl hne, fun _ _ => rfl⟩
  | cons record records ih =>
    rw [List.foldl_cons]
    rcases step_cases sanitize settings now h record with hsettles | ⟨hdefer, hfull⟩
    · obtain ⟨n, hn⟩ := ih (hsettles.deferred.trans h)
      refine ⟨n + 1, Nat.succ_le_succ hn.within, hn.deferred, ?_, ?_, fun _ _ _ _ => n.succ_pos, ?_⟩
      · refine hn.settled.trans ?_
        rw [List.take_succ_cons, List.map_cons]
        have hone := hsettles.settled.append_right
          ((records.take n).map fun record => record.nativeKey)
        rw [List.append_assoc] at hone
        exact hone
      · rw [hn.tables, hsettles.tables, List.take_succ_cons, List.foldl_cons]
      · intro hrecords hbytes
        rw [List.length_cons] at hrecords ⊢
        rw [List.map_cons, List.sum_cons] at hbytes
        have hadmitted := hsettles.admitted
        have hadmittedBytes := hsettles.bytes
        rw [hn.enough (by omega) (by omega)]
    · have hdeferred : (r.defer record.nativeKey).attempt.deferred ≠ [] := by
        simp [Recording.defer]
      rw [hdefer, foldl_step_deferred sanitize settings now hdeferred]
      refine ⟨0, Nat.zero_le _, ?_, ?_, rfl, ?_, ?_⟩
      · simp [Recording.defer, h]
      · simp [Recording.defer, RecordAttempt.settled]
      · intro hadmitted hbytes hbudget _
        rcases hfull with hfull | ⟨body, -, hsize, hfull⟩
        · omega
        · omega
      · intro hrecords hbytes
        rw [List.length_cons] at hrecords
        rw [List.map_cons, List.sum_cons] at hbytes
        rcases hfull with hfull | ⟨body, hbody, -, hfull⟩
        · omega
        · have hsame : recordBytes sanitize record = body.utf8ByteSize := by
            rw [recordBytes, hbody, Option.elim_some]
          omega

/-! ## One call -/

/-- What holding a gap does to the rows. -/
def storeGap (t : EvidenceTables) (gap : NewGap) : EvidenceTables :=
  (insertUnit t gap.toEvidenceIdentity (gap.recordedAt + settings.pendingFor) now none .gap
    (some gap.reason) (some now)).2

variable {call : IngestCall} {enrollment : Uuid × EnrollmentRow}

/-- The bytes that an ingested record needs. -/
def ingestBytes (record : IngestRecord) : ℕ := (sanitize record.text).elim 0 String.utf8ByteSize

/-- The rows after an ingest has settled these records. -/
def storeAll (enrollment : Uuid × EnrollmentRow) (t : EvidenceTables)
    (records : List IngestRecord) (gaps : List IngestGap) : EvidenceTables :=
  (records.map (IngestRecord.evidence now enrollment)).foldl (storeRecord sanitize settings now)
    ((gaps.map (IngestGap.gap now enrollment)).foldl (storeGap settings now) t)

/-- An admitted ingest settles its gaps and a prefix of its records, and defers the rest. -/
structure Ingested (enrollment : Uuid × EnrollmentRow) (records : List IngestRecord)
    (gaps : List IngestGap) (t : EvidenceTables) (attempt : RecordAttempt) (next : EvidenceTables)
    (n : ℕ) : Prop where
  within : n ≤ records.length
  deferred : attempt.deferred = (records.drop n).map IngestRecord.nativeKey
  settled : attempt.settled.Perm ((records.take n).map IngestRecord.nativeKey ++
    gaps.map IngestGap.nativeKey)
  units : next.units =
    (storeAll sanitize settings now enrollment t (records.take n) gaps).units
  progress : 1 ≤ settings.maxRecords → records ≠ [] → 0 < n
  enough : records.length ≤ settings.maxRecords →
    (records.map (ingestBytes sanitize)).sum ≤ settings.maxBytes → n = records.length

theorem bound_of_fits (hfits : call.fits enrollment.2 = true) :
    enrollment.2.accountId = call.token.accountId ∧
      call.token.boundPurpose.map ContextPurpose.value = some enrollment.2.purpose := by
  rw [IngestCall.fits, Bool.and_eq_true, Bool.and_eq_true] at hfits
  obtain ⟨⟨-, haccount⟩, hpurpose⟩ := hfits
  refine ⟨(of_decide_eq_true haccount).symm, ?_⟩
  cases hbound : call.token.boundPurpose with
  | none =>
    rw [hbound] at hpurpose
    cases hpurpose
  | some purpose =>
    rw [hbound] at hpurpose
    exact congrArg some (of_decide_eq_true hpurpose)

theorem ingest_spec (hfits : call.fits enrollment.2 = true) (records : List IngestRecord)
    (gaps : List IngestGap) (t : EvidenceTables) :
    ∃ attempt next n,
      ingest sanitize settings now call (some enrollment) true records gaps t =
        .ok (attempt, next) ∧
      Ingested sanitize settings now enrollment records gaps t attempt next n := by
  obtain ⟨haccount, hpurpose⟩ := bound_of_fits hfits
  have hbound : ∀ record : EvidenceIdentity, record.speakerAccountId = enrollment.2.accountId →
      record.purpose = enrollment.2.purpose →
      boundToContext (some call.token.accountId)
        (call.token.boundPurpose.map ContextPurpose.value) record = true := by
    intro record hspeaker hrecord
    simp [boundToContext, hpurpose, hspeaker, hrecord, haccount]
  have hgaps : (gaps.map (IngestGap.gap now enrollment)).all (fun gap => boundToContext
      (some call.token.accountId) (call.token.boundPurpose.map ContextPurpose.value)
      gap.toEvidenceIdentity) = true := by
    rw [List.all_map, List.all_eq_true]
    exact fun gap _ => hbound _ rfl rfl
  have hrecords : (records.map (IngestRecord.evidence now enrollment)).all (fun record =>
      boundToContext (some call.token.accountId)
        (call.token.boundPurpose.map ContextPurpose.value) record.toEvidenceIdentity) = true := by
    rw [List.all_map, List.all_eq_true]
    exact fun record _ => hbound _ rfl rfl
  let held := (gaps.map (IngestGap.gap now enrollment)).foldl (storeGap settings now) t
  let start : Recording := ⟨held, ⟨[], [], [], []⟩, none, 0, 0⟩
  let last := (records.map (IngestRecord.evidence now enrollment)).foldl
    (Recording.step sanitize settings now) start
  obtain ⟨n, hn⟩ := @foldl_step sanitize settings now start rfl
    (records.map (IngestRecord.evidence now enrollment))
  have hkeys : ∀ l : List IngestRecord, ((l.map (IngestRecord.evidence now enrollment)).map
      fun record => record.nativeKey) = l.map IngestRecord.nativeKey := by
    intro l
    rw [List.map_map]
    rfl
  have hgapKeys : ((gaps.map (IngestGap.gap now enrollment)).map fun gap => gap.nativeKey) =
      gaps.map IngestGap.nativeKey := by
    rw [List.map_map]
    rfl
  refine ⟨{ last.attempt with gapped := last.attempt.gapped ++ gaps.map IngestGap.nativeKey },
    { last.tables with recorded := last.tables.recorded ++ last.firstInserted.toList }, n, ?_, ?_⟩
  · rw [ingest, hfits]
    simp only [Bool.not_true, Bool.false_eq_true, if_false]
    rw [recordGaps, if_pos hgaps]
    dsimp only
    rw [recordEvidence, if_pos hrecords, hgapKeys]
    rfl
  · constructor
    · have hwithin := hn.within
      rw [List.length_map] at hwithin
      exact hwithin
    · have hdeferred := hn.deferred
      rw [← List.map_drop, hkeys] at hdeferred
      exact hdeferred
    · have hsettled := hn.settled
      rw [← List.map_take, hkeys] at hsettled
      have hswap := @List.perm_append_comm _ (gaps.map IngestGap.nativeKey) last.attempt.dropped
      have hall : (last.attempt.accepted ++ (last.attempt.gapped ++ gaps.map IngestGap.nativeKey) ++
          last.attempt.dropped).Perm (last.attempt.settled ++ gaps.map IngestGap.nativeKey) := by
        simp only [RecordAttempt.settled, List.append_assoc]
        exact (hswap.append_left _).append_left _
      exact hall.trans (hsettled.append_right _)
    · have htables := hn.tables
      rw [← List.map_take] at htables
      have hunits := congrArg EvidenceTables.units htables
      exact hunits
    · intro hbudget hne
      exact hn.progress rfl rfl hbudget (by simpa using hne)
    · intro hbudget hbytes
      have hadmitted : start.admitted +
          (records.map (IngestRecord.evidence now enrollment)).length ≤ settings.maxRecords := by
        rw [List.length_map]
        exact (Nat.zero_add _).symm ▸ hbudget
      have hadmittedBytes : start.admittedBytes + ((records.map (IngestRecord.evidence now
          enrollment)).map (recordBytes sanitize)).sum ≤ settings.maxBytes := by
        rw [List.map_map]
        exact (Nat.zero_add _).symm ▸ hbytes
      have henough := hn.enough hadmitted hadmittedBytes
      rw [List.length_map] at henough
      exact henough

/-! ## The rows -/

/-- A row but for its identifier and the server's clock. -/
def EvidenceUnit.content (row : EvidenceUnit) : EvidenceUnit :=
  { row with id := 0, createdAt := 0, settledAt := row.settledAt.map fun _ => 0 }

/-- The same rows, but for their identifiers and the server's clock. -/
def SameRows (units units' : Table UnitKey EvidenceUnit) : Prop :=
  ∀ k, (units.lookup k).map EvidenceUnit.content = (units'.lookup k).map EvidenceUnit.content

variable {t : EvidenceTables}

theorem SameRows.insertUnit {t' : EvidenceTables} (h : SameRows t.units t'.units)
    (record : EvidenceIdentity) (expiresAt now now' : ℕ) (body : Option String)
    (state : EvidenceUnitState) (outcome : Option String) {settledAt settledAt' : Option ℕ}
    (hsettled : (settledAt.map fun _ => 0) = settledAt'.map fun _ => 0) :
    SameRows (insertUnit t record expiresAt now body state outcome settledAt).2.units
      (insertUnit t' record expiresAt now' body state outcome settledAt').2.units := by
  intro k
  have hkey := h record.key
  rw [Evidence.insertUnit, Evidence.insertUnit]
  cases hheld : t.units.lookup record.key with
  | some row =>
    rw [hheld] at hkey
    obtain ⟨row', hheld', -⟩ := Option.map_eq_some_iff.mp hkey.symm
    rw [hheld']
    exact h k
  | none =>
    rw [hheld] at hkey
    have hheld' : t'.units.lookup record.key = none := Option.map_eq_none_iff.mp hkey.symm
    rw [hheld']
    simp only [Option.isSome_none, Bool.false_eq_true, if_false, Table.lookup_insert]
    split
    · simp [EvidenceUnit.content, hsettled]
    · exact h k

/-- The settings of a call, and when it is made. -/
structure IngestEnv where
  settings : RecordSettings
  now : ℕ

/-- Two calls keep records for the same time, read the same clocks in what they are sent, and find
the same texts over their byte budgets. -/
structure Alike (records : List IngestRecord) (gaps : List IngestGap) (env env₀ : IngestEnv) :
    Prop where
  lifetime : env.settings.pendingFor = env₀.settings.pendingFor
  recordClocks : ∀ record ∈ records, min record.recordedAt env.now = min record.recordedAt env₀.now
  gapClocks : ∀ gap ∈ gaps, min gap.recordedAt env.now = min gap.recordedAt env₀.now
  oversize : ∀ record ∈ records, env.settings.maxBytes < ingestBytes sanitize record ↔
    env₀.settings.maxBytes < ingestBytes sanitize record

variable {sanitize} {env env₀ : IngestEnv} {records : List IngestRecord} {gaps : List IngestGap}

theorem Alike.subset (h : Alike sanitize records gaps env env₀) {fewer : List IngestRecord}
    {fewerGaps : List IngestGap} (hrecords : fewer ⊆ records) (hgaps : fewerGaps ⊆ gaps) :
    Alike sanitize fewer fewerGaps env env₀ where
  lifetime := h.lifetime
  recordClocks record hrecord := h.recordClocks record (hrecords hrecord)
  gapClocks gap hgap := h.gapClocks gap (hgaps hgap)
  oversize record hrecord := h.oversize record (hrecords hrecord)

variable {t₀ : EvidenceTables}

/-- The same gaps leave the same rows in calls that are alike. -/
theorem SameRows.storeGaps (h : SameRows t.units t₀.units)
    (halike : Alike sanitize records gaps env env₀) :
    SameRows
      ((gaps.map (IngestGap.gap env.now enrollment)).foldl (storeGap env.settings env.now) t).units
      ((gaps.map (IngestGap.gap env₀.now enrollment)).foldl
        (storeGap env₀.settings env₀.now) t₀).units := by
  induction gaps generalizing t t₀ with
  | nil => exact h
  | cons gap gaps ih =>
    have hsame : IngestGap.gap env.now enrollment gap = IngestGap.gap env₀.now enrollment gap := by
      rw [IngestGap.gap, IngestGap.gap, halike.gapClocks gap List.mem_cons_self]
    rw [List.map_cons, List.map_cons, List.foldl_cons, List.foldl_cons]
    refine ih ?_ (halike.subset (fun _ h => h) fun _ h => List.mem_cons_of_mem _ h)
    rw [storeGap, storeGap, hsame, halike.lifetime]
    exact h.insertUnit _ _ _ _ _ _ _ rfl

/-- The same records leave the same rows in calls that are alike. -/
theorem SameRows.storeRecords (h : SameRows t.units t₀.units)
    (halike : Alike sanitize records gaps env env₀) :
    SameRows
      ((records.map (IngestRecord.evidence env.now enrollment)).foldl
        (storeRecord sanitize env.settings env.now) t).units
      ((records.map (IngestRecord.evidence env₀.now enrollment)).foldl
        (storeRecord sanitize env₀.settings env₀.now) t₀).units := by
  induction records generalizing t t₀ with
  | nil => exact h
  | cons record records ih =>
    have hsame : IngestRecord.evidence env.now enrollment record =
        IngestRecord.evidence env₀.now enrollment record := by
      rw [IngestRecord.evidence, IngestRecord.evidence,
        halike.recordClocks record List.mem_cons_self]
    have hoversize := halike.oversize record List.mem_cons_self
    rw [List.map_cons, List.map_cons, List.foldl_cons, List.foldl_cons]
    refine ih ?_ (halike.subset (fun _ h => List.mem_cons_of_mem _ h) fun _ h => h)
    have htext : (IngestRecord.evidence env₀.now enrollment record).rawText = record.text := rfl
    rw [storeRecord, storeRecord, hsame, halike.lifetime, htext]
    rw [ingestBytes] at hoversize
    cases hbody : sanitize record.text with
    | none => exact h
    | some body =>
      rw [hbody, Option.elim_some] at hoversize
      dsimp only
      by_cases hsize : env₀.settings.maxBytes < body.utf8ByteSize
      · rw [if_pos (hoversize.mpr hsize), if_pos hsize]
        exact h.insertUnit _ _ _ _ _ _ _ rfl
      · rw [if_neg (mt hoversize.mp hsize), if_neg hsize]
        exact h.insertUnit _ _ _ _ _ _ _ rfl

theorem SameRows.storeAll (h : SameRows t.units t₀.units)
    (halike : Alike sanitize records gaps env env₀) :
    SameRows
      (storeAll sanitize env.settings env.now enrollment t records gaps).units
      (storeAll sanitize env₀.settings env₀.now enrollment t₀ records gaps).units :=
  (h.storeGaps halike).storeRecords halike

/-! ## A run of calls -/

/-- What a sender still has to send. -/
def RecordAttempt.unsent (attempt : RecordAttempt) (records : List IngestRecord) :
    List IngestRecord :=
  records.drop (records.length - attempt.deferred.length)

/-- Call after call: each sends the records that the one before it deferred, and the first sends
the gaps. -/
def resend (sanitize : String → Option String) (call : IngestCall)
    (enrollment : Uuid × EnrollmentRow) : List IngestEnv → List IngestRecord → List IngestGap →
      EvidenceTables → Except String (List RecordAttempt × List IngestRecord × EvidenceTables)
  | [], records, _, t => .ok ([], records, t)
  | env :: envs, records, gaps, t =>
    match ingest sanitize env.settings env.now call (some enrollment) true records gaps t with
    | .error refusal => .error refusal
    | .ok (attempt, t) =>
      match resend sanitize call enrollment envs (attempt.unsent records) [] t with
      | .error refusal => .error refusal
      | .ok (attempts, unsent, t) => .ok (attempt :: attempts, unsent, t)

theorem Ingested.unsent {settings : RecordSettings} {now : ℕ} {next : EvidenceTables}
    {attempt : RecordAttempt} {n : ℕ}
    (h : Ingested sanitize settings now enrollment records gaps t attempt next n) :
    attempt.unsent records = records.drop n := by
  have hwithin := h.within
  rw [RecordAttempt.unsent, h.deferred, List.length_map, List.length_drop]
  congr 1
  omega

/-- The rows after two halves of the records are those after all of them. -/
theorem storeAll_append {settings : RecordSettings} {now : ℕ} {next : EvidenceTables} {n : ℕ}
    (h : SameRows next.units
      (storeAll sanitize settings now enrollment t (records.take n) gaps).units) :
    SameRows
      (storeAll sanitize settings now enrollment next (records.drop n) []).units
      (storeAll sanitize settings now enrollment t records gaps).units := by
  have hself : Alike sanitize (records.drop n) [] ⟨settings, now⟩ ⟨settings, now⟩ :=
    ⟨rfl, fun _ _ => rfl, fun _ _ => rfl, fun _ _ => Iff.rfl⟩
  let store (t : EvidenceTables) : EvidenceTables :=
    ((records.drop n).map (IngestRecord.evidence now enrollment)).foldl
      (storeRecord sanitize settings now) t
  have hrest : SameRows (store next).units
      (store (storeAll sanitize settings now enrollment t (records.take n) gaps)).units :=
    h.storeRecords hself
  dsimp only [store] at hrest
  rw [Evidence.storeAll, ← List.foldl_append, ← List.map_append, List.take_append_drop] at hrest
  exact hrest

/-- Enough calls, each with room for a record, settle everything, and leave the rows of a call
that is alike and settles all of it. -/
theorem resend_spec (hfits : call.fits enrollment.2 = true) (envs : List IngestEnv) :
    ∀ (records : List IngestRecord) (gaps : List IngestGap) (t : EvidenceTables),
      (∀ env ∈ envs, 1 ≤ env.settings.maxRecords) → records.length ≤ envs.length →
      (envs = [] → gaps = []) →
      ∃ attempts next,
        resend sanitize call enrollment envs records gaps t = .ok (attempts, [], next) ∧
        (attempts.flatMap RecordAttempt.settled).Perm
          (records.map IngestRecord.nativeKey ++ gaps.map IngestGap.nativeKey) ∧
        ∀ env₀, (∀ env ∈ envs, Alike sanitize records gaps env env₀) →
          SameRows next.units
            (storeAll sanitize env₀.settings env₀.now enrollment t records gaps).units := by
  induction envs with
  | nil =>
    intro records gaps t _ hlength hgaps
    have hrecords : records = [] := List.eq_nil_of_length_eq_zero (Nat.le_zero.mp hlength)
    obtain rfl := hrecords
    obtain rfl := hgaps rfl
    exact ⟨[], t, rfl, List.Perm.refl _, fun _ _ _ => rfl⟩
  | cons env envs ih =>
    intro records gaps t hbudgets hlength _
    obtain ⟨attempt, next, n, hingest, hn⟩ :=
      ingest_spec sanitize env.settings env.now hfits records gaps t
    have hprogress := hn.progress (hbudgets env List.mem_cons_self)
    have hshorter : (records.drop n).length ≤ envs.length := by
      rw [List.length_drop]
      rw [List.length_cons] at hlength
      by_cases hrecords : records = []
      · rw [hrecords, List.length_nil]
        omega
      · have hpositive := hprogress hrecords
        omega
    obtain ⟨attempts, last, hresend, hsettled, hrows⟩ := ih (records.drop n) [] next
      (fun e he => hbudgets e (List.mem_cons_of_mem _ he)) hshorter fun _ => rfl
    refine ⟨attempt :: attempts, last, ?_, ?_, ?_⟩
    · rw [resend, hingest]
      dsimp only
      rw [hn.unsent, hresend]
    · rw [List.flatMap_cons]
      rw [List.map_nil, List.append_nil] at hsettled
      refine (hn.settled.append hsettled).trans ?_
      have hsplit : records.map IngestRecord.nativeKey =
          (records.take n).map IngestRecord.nativeKey ++
            (records.drop n).map IngestRecord.nativeKey := by
        rw [← List.map_append, List.take_append_drop]
      rw [hsplit, List.append_assoc, List.append_assoc]
      exact List.perm_append_comm.append_left _
    · intro env₀ halike
      have hfirst := halike env List.mem_cons_self
      have htaken : SameRows next.units
          (storeAll sanitize env₀.settings env₀.now enrollment t (records.take n) gaps).units := by
        rw [hn.units]
        have hsame : SameRows t.units t.units := fun _ => rfl
        exact hsame.storeAll (hfirst.subset (List.take_subset _ _) fun _ h => h)
      have hrest := hrows env₀ fun e he =>
        (halike e (List.mem_cons_of_mem _ he)).subset (List.drop_subset _ _) (List.nil_subset _)
      intro k
      rw [hrest k]
      exact storeAll_append htaken k

/-- Each call settles a prefix of what it is sent, its gaps with it, and answers the rest as
deferred. Calls that are sent what was deferred settle everything, each record and gap once, and
leave the rows of one call whose budgets hold all of it. -/
theorem deferred_resent (hfits : call.fits enrollment.2 = true) (records : List IngestRecord)
    (gaps : List IngestGap) (t : EvidenceTables) :
    (∀ env : IngestEnv, ∃ attempt next n,
      ingest sanitize env.settings env.now call (some enrollment) true records gaps t =
        .ok (attempt, next) ∧
      n ≤ records.length ∧
      (1 ≤ env.settings.maxRecords → records ≠ [] → 0 < n) ∧
      attempt.deferred = (records.drop n).map IngestRecord.nativeKey ∧
      attempt.settled.Perm
        ((records.take n).map IngestRecord.nativeKey ++ gaps.map IngestGap.nativeKey)) ∧
    ∀ (env : IngestEnv) (envs : List IngestEnv),
      (∀ e ∈ env :: envs, 1 ≤ e.settings.maxRecords) → records.length ≤ envs.length + 1 →
      ∃ attempts next,
        resend sanitize call enrollment (env :: envs) records gaps t = .ok (attempts, [], next) ∧
        (attempts.flatMap RecordAttempt.settled).Perm
          (records.map IngestRecord.nativeKey ++ gaps.map IngestGap.nativeKey) ∧
        ∀ env₀ : IngestEnv, (∀ e ∈ env :: envs, Alike sanitize records gaps e env₀) →
          records.length ≤ env₀.settings.maxRecords →
          (records.map (ingestBytes sanitize)).sum ≤ env₀.settings.maxBytes →
          ∃ attempt₀ next₀,
            ingest sanitize env₀.settings env₀.now call (some enrollment) true records gaps t =
              .ok (attempt₀, next₀) ∧
            attempt₀.deferred = [] ∧ SameRows next.units next₀.units := by
  refine ⟨fun env => ?_, fun env envs hbudgets hlength => ?_⟩
  · obtain ⟨attempt, next, n, hingest, hn⟩ :=
      ingest_spec sanitize env.settings env.now hfits records gaps t
    exact ⟨attempt, next, n, hingest, hn.within, hn.progress, hn.deferred, hn.settled⟩
  · obtain ⟨attempts, next, hresend, hsettled, hrows⟩ := resend_spec hfits (env :: envs) records
      gaps t hbudgets (by rw [List.length_cons]; exact hlength) fun h => by cases h
    refine ⟨attempts, next, hresend, hsettled, fun env₀ halike hrecords hbytes => ?_⟩
    obtain ⟨attempt₀, next₀, n, hingest, hn⟩ :=
      ingest_spec sanitize env₀.settings env₀.now hfits records gaps t
    have hall := hn.enough hrecords hbytes
    refine ⟨attempt₀, next₀, hingest, ?_, ?_⟩
    · rw [hn.deferred, hall, List.drop_length, List.map_nil]
    · rw [hn.units, hall, List.take_length]
      exact hrows env₀ halike

section Sample

/-- A call for the only enrollment of the account 1. -/
private def sampleCall : IngestCall :=
  ⟨⟨10, 1, 2, .member, {"core.evidence.ingest"}, some .respond⟩, "m", "p"⟩

private def sampleEnrollment : Uuid × EnrollmentRow := (5, ⟨1, 10, "m", "p", "respond", .active⟩)

private def sampleKey (digit : Char) : String := "cc1:" ++ String.ofList (List.replicate 64 digit)

private def sampleRecord (digit : Char) (text : String) : IngestRecord := ⟨sampleKey digit, 1, text⟩

/-- Room for one record of four bytes. -/
private def narrow : IngestEnv := ⟨⟨4, 1, 24⟩, 7⟩

/-- Room for whatever is sent below. -/
private def wide : IngestEnv := ⟨⟨1048576, 1000, 24⟩, 7⟩

private def emptyTables : EvidenceTables := ⟨∅, [], 0⟩

/-- What is held once the second of two records is stored, and what a call for both of them then
settles and defers. -/
private def afterHeld (first second : IngestRecord) :
    Option (List String × List String × List String) :=
  match ingest some narrow.settings narrow.now sampleCall (some sampleEnrollment) true [second] []
      emptyTables with
  | .error _ => none
  | .ok (_, t) =>
    match ingest some narrow.settings narrow.now sampleCall (some sampleEnrollment) true
        [first, second] [] t with
    | .error _ => none
    | .ok (attempt, _) =>
      some (t.units.keys.map UnitKey.nativeKey, attempt.settled, attempt.deferred)

/-- The texts that a run of calls leaves in the rows. -/
private def bodies (envs : List IngestEnv) (records : List IngestRecord) :
    Option (List (Option String)) :=
  (resend some sampleCall sampleEnrollment envs records [] emptyTables).toOption.map fun last =>
    last.2.2.units.entries.map fun unit => unit.2.body

/-- A key that is held is deferred, a key that is sent twice is answered twice, a text that is
alone over the byte budget is not stored, and a workspace that records nothing settles nothing. -/
theorem held_deferred :
    afterHeld (sampleRecord '0' "one") (sampleRecord '1' "two") =
      some ([sampleKey '1'], [sampleKey '0'], [sampleKey '1']) ∧
    ((resend some sampleCall sampleEnrollment [narrow, narrow]
        [sampleRecord '0' "one", sampleRecord '0' "one"] [] emptyTables).toOption.map fun last =>
        last.1.flatMap RecordAttempt.settled) = some [sampleKey '0', sampleKey '0'] ∧
    bodies [narrow] [sampleRecord '0' "longer"] = some [none] ∧
    bodies [wide] [sampleRecord '0' "longer"] = some [some "longer"] ∧
    ((ingest some narrow.settings narrow.now sampleCall (some sampleEnrollment) false
        [sampleRecord '0' "one"] [] emptyTables).toOption.map fun last =>
        (last.1.settled, last.1.deferred)) = some ([], [sampleKey '0']) := by
  decide +kernel

/-- Three records are settled by three calls that have room for one. -/
theorem deferred_resent_sample :
    sampleCall.fits sampleEnrollment.2 = true ∧
      ∃ attempts next,
        resend some sampleCall sampleEnrollment [narrow, narrow, narrow]
          [sampleRecord '0' "one", sampleRecord '1' "two", sampleRecord '2' "six"] [] emptyTables =
            .ok (attempts, [], next) ∧
        (attempts.flatMap RecordAttempt.settled).Perm
          [sampleKey '0', sampleKey '1', sampleKey '2'] := by
  have hfits : sampleCall.fits sampleEnrollment.2 = true := by decide
  obtain ⟨-, hruns⟩ := @deferred_resent some sampleCall sampleEnrollment hfits
    [sampleRecord '0' "one", sampleRecord '1' "two", sampleRecord '2' "six"] [] emptyTables
  obtain ⟨attempts, next, hresend, hsettled, -⟩ := hruns narrow [narrow, narrow]
    (by decide) (by decide)
  exact ⟨hfits, attempts, next, hresend, hsettled⟩

end Sample

end Rheostream.Evidence
