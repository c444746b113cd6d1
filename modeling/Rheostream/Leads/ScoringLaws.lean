import Rheostream.Leads.Scoring

/-!
# What a timely run of the scoring sweeps keeps

A result is matched to its row by the digest of the inputs alone. A step is timely when it
neither claims a row nor makes one pending anew under an unanswered claim that the digest
would still let record. Timely steps keep the rows, the unanswered claims and the history
in agreement.
-/

namespace Rheostream.Leads

namespace ScoringState

variable {digest : ScoredJob → ℕ → String} {s t : ScoringState}

/-- The version of the profile, zero while none is set. -/
def version (s : ScoringState) : ℕ := s.profile.elim 0 (·.version)

/-- An unanswered claim could record the digest that the refresh of a sweep brings back. -/
def bringsBack (digest : ScoredJob → ℕ → String) (s : ScoringState) (cap : ℕ) : Bool :=
  s.claims.existsRow fun _ c => (c.promoted || !s.isPromoted c.id) &&
    ((s.moved digest cap).lookup c.id).any fun job => digest job cap = c.digest

/-- A sweep claims with the current profile and no row under an unanswered claim that could
still record. The profile is not set while such a claim is on a row that becomes pending
anew, and no refresh brings back the digest of such a claim. -/
def isTimely (digest : ScoredJob → ℕ → String) (s : ScoringState) : ScoringAction → Bool
  | .setProfile _ _ => !s.claims.existsRow fun _ c =>
      s.mayRecord c && (s.rows.lookup c.id).any (s.isUnscored c.id)
  | .startSweep _ _ _ => !s.profile.any fun profile => s.bringsBack digest profile.maxProposals
  | .claim k skipped _ now =>
      decide (s.running.lookup k = s.profile.map (·.version)) &&
        !s.claims.existsRow fun _ c =>
          s.mayRecord c && (s.newest skipped now).any fun e => e.1 = c.id
  | _ => true

/-- What ties one row to its history. -/
structure RowSound (log : QueueLog) (id : Uuid) (row : ScoreRow) : Prop where
  held : (log.holder id).isSome → row.state = .pending ∧ log.failures id + 1 ≤ row.attempts
  failures : log.failures id ≤ scoreAttempts
  open_ : row.state ≠ .failed → log.failures id < scoreAttempts
  pending : row.state = .pending → log.failures id ≤ row.attempts

variable {row : ScoreRow}

theorem RowSound.frame {log log' : QueueLog} {id : Uuid} (h : RowSound log id row)
    (hholder : log'.holder id = log.holder id) (hfailures : log'.failures id = log.failures id) :
    RowSound log' id row := by
  constructor
  case held => rw [hholder, hfailures]; exact h.held
  case failures => rw [hfailures]; exact h.failures
  case open_ => rw [hfailures]; exact h.open_
  case pending => rw [hfailures]; exact h.pending

/-- A row is sound after a reset of its history. -/
theorem RowSound.reset {log : QueueLog} {id : Uuid} {ids : List Uuid} (hmem : id ∈ ids) :
    RowSound (.reset ids :: log) id row := by
  have hholder : QueueLog.holder id (.reset ids :: log) = none := by
    simp [QueueLog.holder, QueueEvent.touches, hmem]
  have hfailures : QueueLog.failures id (.reset ids :: log) = 0 := by
    simp [QueueLog.failures, hmem]
  constructor
  case held => simp [hholder]
  case failures => omega
  case open_ =>
    intro
    rw [hfailures]
    decide
  case pending => omega

/-- The rows agree with their history and with the claims of the sweeps. -/
structure Agrees (s : ScoringState) : Prop where
  honest : s.log.IsHonest
  numbered : ∀ n c, s.claims.lookup n = some c → n < s.log.claims
  row : ∀ id row, s.rows.lookup id = some row → RowSound s.log id row
  holding : ∀ id, (s.log.holder id).isSome → ∃ row, s.rows.lookup id = some row
  /-- A claim that could still record holds its row. -/
  current : ∀ n c, s.claims.lookup n = some c → s.mayRecord c = true → s.log.holder c.id = some n
  /-- The claim that holds a row counted its attempts and was taken under the profile of the
  row's last reset, or under a later one. -/
  fresh : ∀ n c, s.claims.lookup n = some c → s.log.holder c.id = some n →
    (∀ row, s.rows.lookup c.id = some row → row.attempts = c.attempts) ∧
      (s.repended.lookup c.id).getD 0 ≤ c.profileVersion
  promoted : ∀ n c, s.claims.lookup n = some c → c.promoted = true → s.isPromoted c.id = true
  versions : ∀ id v, s.repended.lookup id = some v → v ≤ s.version

variable {p : Uuid → ScoreRow → Bool}

/-- A row that does not match is not among those that do. -/
private theorem not_touches_select {id : Uuid} (hrow : s.rows.lookup id =
      some row) (hp : ¬p id row = true) :
    (QueueEvent.reset (s.rows.select p).keys).touches id = false := by
  rw [QueueEvent.touches, Bool.eq_false_iff, ne_eq, List.contains_iff_mem, Table.mem_keys_select]
  rintro ⟨other, hother, hmatch⟩
  rw [hrow] at hother
  obtain rfl := Option.some.inj hother
  exact hp hmatch

theorem mayRecord_iff {c : ScoreClaim} :
    s.mayRecord c = true ↔
      (∃ row, s.rows.lookup c.id = some row ∧ row.inputDigest = c.digest) ∧
        (c.promoted = true ∨ s.isPromoted c.id = false) := by
  rw [mayRecord, Bool.and_eq_true, Bool.or_eq_true, Bool.not_eq_true', Option.any_eq_true]
  simp only [decide_eq_true_eq]

variable {now v : ℕ}

theorem lookup_rependWhere (id : Uuid) :
    (s.rependWhere p v now).rows.lookup id =
      (s.rows.lookup id).map fun row => if p id row then row.repend now else row :=
  Table.lookup_updateAll _ _ _

/-- Upserting one value under the keys of a table. -/
private theorem lookup_upsert_keys {V W : Type} (t : Table Uuid W) (keys : Table Uuid V) (f : V → W)
    (k : Uuid) :
    (t.upsertAll (keys.rowsAs id f)).lookup k = ((keys.lookup k).map f).or (t.lookup k) := by
  rw [Table.lookup_upsertAll _ (Table.nodup_rowsAs Function.injective_id keys f)]
  congr 1
  exact Table.lookup_rowsAs Function.injective_id keys f k

theorem lookup_repended (k : Uuid) :
    (s.rependWhere p v now).repended.lookup k =
      (((s.rows.lookup k).filter (p k)).map fun _ => v).or (s.repended.lookup k) := by
  change (s.repended.upsertAll ((s.rows.select p).rowsAs id fun _ => v)).lookup k = _
  rw [lookup_upsert_keys, Table.lookup_select]

theorem mayRecord_rependWhere {c : ScoreClaim} :
    (s.rependWhere p v now).mayRecord c = s.mayRecord c := by
  unfold mayRecord
  rw [lookup_rependWhere]
  cases s.rows.lookup c.id with
  | none => rfl
  | some row =>
    simp only [Option.map_some, Option.any_some]
    split_ifs <;> rfl

/-- Rows become pending anew while no unanswered claim could still record on one of them. -/
theorem Agrees.rependWhere (h : s.Agrees) (now : ℕ)
    (hv : v ≤ s.version)
    (hfree : ∀ n c row, s.claims.lookup n = some c → s.mayRecord c = true →
      s.rows.lookup c.id = some row → p c.id row = false) :
    (s.rependWhere p v now).Agrees where
  honest := h.honest
  numbered := h.numbered
  row k row hrow := by
    rw [lookup_rependWhere] at hrow
    obtain ⟨old, hold, rfl⟩ := Option.map_eq_some_iff.mp hrow
    by_cases hp : p k old = true
    · exact RowSound.reset (Table.mem_keys_select.mpr ⟨old, hold, hp⟩)
    · have htouch := not_touches_select hold hp
      rw [if_neg hp]
      exact (h.row k old hold).frame (QueueLog.holder_cons htouch s.log)
        (QueueLog.failures_cons htouch s.log)
  holding k hk := by
    rw [lookup_rependWhere]
    obtain ⟨row, hrow⟩ := h.holding k (QueueLog.isSome_holder_of_reset hk)
    exact ⟨_, by rw [hrow]; rfl⟩
  current n c hc hmay := by
    rw [mayRecord_rependWhere] at hmay
    obtain ⟨⟨row, hrow, -⟩, -⟩ := mayRecord_iff.mp hmay
    have hp := hfree n c row hc hmay hrow
    have hnot : ¬p c.id row = true := by simp [hp]
    have htouch := not_touches_select hrow hnot
    exact (QueueLog.holder_cons htouch s.log).trans (h.current n c hc hmay)
  fresh n c hc hholder := by
    have hold := QueueLog.holder_of_reset hholder
    obtain ⟨hattempts, hrepended⟩ := h.fresh n c hc hold
    obtain ⟨row, hrow⟩ := h.holding c.id (by simp [hold])
    have hp : p c.id row = false := by
      by_contra hp
      have hmem : c.id ∈ (s.rows.select p).keys :=
        Table.mem_keys_select.mpr ⟨row, hrow, by simpa using hp⟩
      have hnone : QueueLog.holder c.id (.reset (s.rows.select p).keys :: s.log) = none := by
        simp [QueueLog.holder, QueueEvent.touches, hmem]
      exact absurd (hholder.symm.trans hnone) (by simp)
    constructor
    · intro row' hrow'
      rw [lookup_rependWhere, hrow, Option.map_some, hp] at hrow'
      obtain rfl := Option.some.inj hrow'
      exact hattempts row hrow
    · rw [lookup_repended, hrow, Option.filter_some, hp]
      exact hrepended
  promoted := h.promoted
  versions k v' hv' := by
    rw [lookup_repended, Option.or_eq_some_iff] at hv'
    obtain hnew | ⟨-, hold⟩ := hv'
    · obtain ⟨-, -, rfl⟩ := Option.map_eq_some_iff.mp hnew
      exact hv
    · exact h.versions k v' hold

/-- The rows after a refresh. -/
theorem lookup_refresh (digest : ScoredJob → ℕ → String) (cap v now : ℕ) (k : Uuid) :
    (s.refresh digest cap v now).rows.lookup k =
      (((s.moved digest cap).lookup k).map fun job => ScoreRow.fresh (digest job cap) now).or
        (s.rows.lookup k) :=
  lookup_upsert_keys _ _ _ k

/-- A job that did not move is not among those that did. -/
theorem not_touches_moved {cap : ℕ} {k : Uuid} (h : (s.moved digest cap).lookup k = none) :
    (QueueEvent.reset (s.moved digest cap).keys).touches k = false := by
  rw [QueueEvent.touches, Bool.eq_false_iff, ne_eq, List.contains_iff_mem, ← AList.mem_keys,
    ← AList.lookup_isSome, h]
  simp

/-- A refresh that brings back no digest of an unanswered claim. -/
theorem Agrees.refresh (h : s.Agrees) {cap : ℕ} (now : ℕ) (hv : v ≤ s.version)
    (hnew : s.bringsBack digest cap = false) : (s.refresh digest cap v now).Agrees := by
  have hkept (k : Uuid) (hk : (s.moved digest cap).lookup k = none) :
      (s.refresh digest cap v now).rows.lookup k = s.rows.lookup k := by
    rw [lookup_refresh, hk]
    rfl
  constructor
  case honest => exact h.honest
  case numbered => exact h.numbered
  case promoted => exact h.promoted
  case row =>
    intro k row hrow
    cases hmoved : (s.moved digest cap).lookup k with
    | some job =>
      refine RowSound.reset ?_
      rw [← AList.mem_keys, ← AList.lookup_isSome, hmoved]
      rfl
    | none =>
      rw [hkept k hmoved] at hrow
      have htouch := not_touches_moved hmoved
      exact (h.row k row hrow).frame (QueueLog.holder_cons htouch s.log)
        (QueueLog.failures_cons htouch s.log)
  case holding =>
    intro k hk
    obtain ⟨row, hrow⟩ := h.holding k (QueueLog.isSome_holder_of_reset hk)
    rw [lookup_refresh, hrow]
    cases (s.moved digest cap).lookup k with
    | none => exact ⟨row, rfl⟩
    | some job => exact ⟨_, rfl⟩
  case current =>
    intro n c hc hmay
    obtain ⟨⟨row, hrow, hdigest⟩, hpromoted⟩ := mayRecord_iff.mp hmay
    change c.promoted = true ∨ s.isPromoted c.id = false at hpromoted
    cases hmoved : (s.moved digest cap).lookup c.id with
    | some job =>
      rw [lookup_refresh, hmoved] at hrow
      obtain rfl := Option.some.inj hrow
      have hback := Table.existsRow_eq_false.mp hnew n c hc
      have hallowed : (c.promoted || !s.isPromoted c.id) = true := by simpa using hpromoted
      have hsame : digest job cap = c.digest := hdigest
      simp [hallowed, hmoved, hsame] at hback
    | none =>
      rw [hkept c.id hmoved] at hrow
      have hold := h.current n c hc (mayRecord_iff.mpr ⟨⟨row, hrow, hdigest⟩, hpromoted⟩)
      exact (QueueLog.holder_cons (not_touches_moved hmoved) s.log).trans hold
  case fresh =>
    intro n c hc hholder
    obtain ⟨hattempts, hrepended⟩ := h.fresh n c hc (QueueLog.holder_of_reset hholder)
    have hmoved : (s.moved digest cap).lookup c.id = none := by
      by_contra hsome
      have hmem : c.id ∈ (s.moved digest cap).keys := by
        rw [← AList.mem_keys, ← AList.lookup_isSome, Option.isSome_iff_ne_none]
        exact hsome
      have hnone : QueueLog.holder c.id (.reset (s.moved digest cap).keys :: s.log) = none := by
        simp [QueueLog.holder, QueueEvent.touches, hmem]
      exact absurd (hholder.symm.trans hnone) (by simp)
    constructor
    · intro row hrow
      rw [hkept c.id hmoved] at hrow
      exact hattempts row hrow
    · change ((s.repended.upsertAll ((s.moved digest cap).rowsAs id fun _ => v)).lookup c.id).getD 0
        ≤ c.profileVersion
      rw [lookup_upsert_keys, hmoved]
      exact hrepended
  case versions =>
    intro k v' hv'
    change (s.repended.upsertAll ((s.moved digest cap).rowsAs id fun _ => v)).lookup k = some v'
      at hv'
    rw [lookup_upsert_keys, Option.or_eq_some_iff] at hv'
    obtain hset | ⟨-, hold⟩ := hv'
    · obtain ⟨-, -, rfl⟩ := Option.map_eq_some_iff.mp hset
      exact hv
    · exact h.versions k v' hold

/-- What an agreement does not read may change. -/
theorem Agrees.frame (h : s.Agrees) (hrows : t.rows = s.rows) (hclaims : t.claims = s.claims)
    (hlog : t.log = s.log) (hpromotions : t.promotions = s.promotions)
    (hrepended : t.repended = s.repended) (hversion : s.version ≤ t.version) : t.Agrees where
  honest := by rw [hlog]; exact h.honest
  numbered := by rw [hclaims, hlog]; exact h.numbered
  row := by rw [hrows, hlog]; exact h.row
  holding := by rw [hrows, hlog]; exact h.holding
  current n c hc hmay := by
    rw [hclaims] at hc
    rw [hlog]
    refine h.current n c hc ?_
    rw [mayRecord_iff, isPromoted] at hmay ⊢
    rw [hrows, hpromotions] at hmay
    exact hmay
  fresh := by rw [hclaims, hlog, hrows, hrepended]; exact h.fresh
  promoted n c hc hpromoted := by
    rw [hclaims] at hc
    rw [isPromoted, hpromotions]
    exact h.promoted n c hc hpromoted
  versions k v hv := by
    rw [hrepended] at hv
    exact le_trans (h.versions k v hv) hversion

/-- Forgetting an unanswered claim. -/
theorem Agrees.forget (h : s.Agrees) (n : ℕ) : ({ s with claims := s.claims.erase n }).Agrees where
  honest := h.honest
  numbered m c hc := h.numbered m c (Table.lookup_erase_eq_some.mp hc).2
  row := h.row
  holding := h.holding
  current m c hc := h.current m c (Table.lookup_erase_eq_some.mp hc).2
  fresh m c hc := h.fresh m c (Table.lookup_erase_eq_some.mp hc).2
  promoted m c hc := h.promoted m c (Table.lookup_erase_eq_some.mp hc).2
  versions := h.versions

theorem Agrees.setProfile (h : s.Agrees) (maxProposals now : ℕ)
    (htimely : s.isTimely digest (.setProfile maxProposals now) = true) :
    (s.setProfile maxProposals now).Agrees := by
  have hgrows : s.version ≤ s.nextVersion := by
    unfold version nextVersion
    cases s.profile <;> simp
  have hset : ({ s with profile := some ⟨s.nextVersion, maxProposals⟩ }).Agrees :=
    h.frame rfl rfl rfl rfl rfl hgrows
  refine (hset.rependWhere (p := s.isUnscored) now le_rfl fun n c row hc hmay hrow => ?_).frame
    rfl rfl rfl rfl rfl le_rfl
  rw [isTimely, Bool.not_eq_true', Table.existsRow_eq_false] at htimely
  have hfree := htimely n c hc
  have hmay' : s.mayRecord c = true := hmay
  have hrow' : s.rows.lookup c.id = some row := hrow
  simpa [hmay', hrow'] using hfree

theorem Agrees.startSweep (h : s.Agrees) {k : ℕ} {config : PrefilterConfig} (htimely : s.isTimely
      digest (.startSweep k config now) = true) :
    (s.startSweep digest k config now).Agrees := by
  unfold ScoringState.startSweep
  cases hprofile : s.profile with
  | none => exact h
  | some profile =>
    have hversion : profile.version ≤ s.version := by simp [version, hprofile]
    have hback : s.bringsBack digest profile.maxProposals = false := by
      simpa [isTimely, hprofile] using htimely
    have hfresh := h.refresh now hversion hback
    refine (hfresh.rependWhere now hversion fun n c row hc hmay hrow => ?_).frame
      rfl rfl rfl rfl rfl le_rfl
    have hholder := hfresh.current n c hc hmay
    have hpending := ((hfresh.row c.id row hrow).held (by simp [hholder])).1
    simp [hpending]

theorem promote_ok {id : Uuid} (ht : s.promote id now = .ok t) :
    t = s ∨ s.isPromoted id = false ∧
      t = { s.rependWhere (fun k _ => k = id) s.version now with
        promotions := s.promotions.insert id now
        sweeps := queueScoreSweep now s.sweeps } := by
  unfold promote at ht
  split_ifs at ht with hnone hpromoted
  · exact .inl (Except.ok.inj ht).symm
  · exact .inr ⟨by simpa using hpromoted, (Except.ok.inj ht).symm⟩

theorem isPromoted_insert {id k : Uuid} {v : ScoringState}
    (hv : v.promotions = s.promotions.insert id now) :
    v.isPromoted k = (decide (k = id) || s.isPromoted k) := by
  rw [isPromoted, hv, Table.lookup_insert]
  by_cases hk : k = id
  · simp [hk]
  · simp [hk, isPromoted]

/-- A promotion lets no claim record that could not record before. -/
theorem Agrees.promote (h : s.Agrees) {id : Uuid} (ht : s.promote id now = .ok t) :
    t.Agrees := by
  obtain rfl | ⟨hnot, rfl⟩ := promote_ok ht
  · exact h
  · have hpromoted (k : Uuid) :
        ({ s with promotions := s.promotions.insert id now }).isPromoted k =
          (decide (k = id) || s.isPromoted k) := isPromoted_insert rfl
    have hset : ({ s with promotions := s.promotions.insert id now }).Agrees := by
      refine ⟨h.honest, h.numbered, h.row, h.holding, ?_, h.fresh, ?_, h.versions⟩
      · intro n c hc hmay
        refine h.current n c hc ?_
        rw [mayRecord_iff, hpromoted] at hmay
        rw [mayRecord_iff]
        obtain ⟨hrow, hc' | hc'⟩ := hmay
        · exact ⟨hrow, .inl hc'⟩
        · exact ⟨hrow, .inr (Bool.or_eq_false_iff.mp hc').2⟩
      · intro n c hc hc'
        rw [hpromoted, h.promoted n c hc hc', Bool.or_true]
    refine (hset.rependWhere (p := fun k _ => decide (k = id)) now le_rfl
      fun n c row hc hmay _ => ?_).frame rfl rfl rfl rfl rfl le_rfl
    rw [decide_eq_false_iff_not]
    intro hid
    rw [mayRecord_iff, hpromoted, hid] at hmay
    obtain hc' | hc' := hmay.2
    · have hold := h.promoted n c hc hc'
      rw [hid, hnot] at hold
      cases hold
    · simp at hc'

variable {skipped : Finset Uuid}

/-- The newest claimable row may be taken, and no other such row is newer. -/
theorem newest_eq_some {id : Uuid} (h : s.newest skipped now = some (id, row)) :
    s.rows.lookup id = some row ∧ s.mayTake skipped now id row = true := by
  obtain ⟨e, hmax, he⟩ := Option.map_eq_some_iff.mp h
  obtain ⟨rfl, rfl⟩ := Prod.mk.inj he
  obtain ⟨hmem, hmay⟩ := List.mem_filter.mp (List.argmax_mem hmax)
  exact ⟨AList.mem_lookup_iff.mpr hmem, hmay⟩

theorem newest_eq_none {id : Uuid} (h : s.newest skipped now = none) (hrow : s.rows.lookup id =
      some row) :
    s.mayTake skipped now id row = false := by
  have hnil := List.argmax_eq_none.mp (Option.map_eq_none_iff.mp h)
  by_contra hmay
  have hmem : (⟨id, row⟩ : Sigma fun _ : Uuid => ScoreRow) ∈
      s.rows.entries.filter fun e => s.mayTake skipped now e.1 e.2 :=
    List.mem_filter.mpr ⟨AList.mem_lookup_iff.mp hrow, by simpa using hmay⟩
  rw [hnil] at hmem
  exact List.not_mem_nil hmem

theorem mayTake_iff {id : Uuid} :
    s.mayTake skipped now id row = true ↔
      (row.state = .pending ∧ row.retryAfter.all (· ≤ now) = true) ∧ s.isOpen id = true ∧
        id ∉ skipped := by
  rw [mayTake, ScoreRow.isClaimable]
  simp only [Bool.and_eq_true, decide_eq_true_eq, Bool.not_eq_true', decide_eq_false_iff_not,
    and_assoc]

/-- A claim by a sweep with the current profile, of a row that no unanswered claim could still
record on. -/
theorem Agrees.claim (h : s.Agrees) {k : ℕ} {window : ℕ}
    (hv : s.running.lookup k = some v)
    (htimely : s.isTimely digest (.claim k skipped window now) = true) :
    (s.claim v skipped window now).Agrees := by
  unfold ScoringState.claim
  cases hnewest : s.newest skipped now with
  | none => exact h
  | some found =>
    obtain ⟨id, row⟩ := found
    obtain ⟨hrow, hmay⟩ := newest_eq_some hnewest
    obtain ⟨⟨hpending, -⟩, -, -⟩ := mayTake_iff.mp hmay
    rw [isTimely, Bool.and_eq_true, decide_eq_true_eq, Bool.not_eq_true',
      Table.existsRow_eq_false, hv, hnewest] at htimely
    obtain ⟨hcurrent, hfree⟩ := htimely
    have hversion : v = s.version := by
      obtain ⟨profile, hprofile, rfl⟩ := Option.map_eq_some_iff.mp hcurrent.symm
      simp [version, hprofile]
    have htouch (j : Uuid) (hj : j ≠ id) :
        (QueueEvent.claimed s.log.claims id).touches j = false := by
      simpa [QueueEvent.touches] using Ne.symm hj
    have hholder : QueueLog.holder id (.claimed s.log.claims id :: s.log) = some s.log.claims := by
      simp [QueueLog.holder]
    constructor
    case honest => exact ⟨rfl, h.honest⟩
    case numbered =>
      intro n c hc
      rw [Table.lookup_insert] at hc
      simp only [QueueLog.claims]
      split_ifs at hc with heq
      · omega
      · exact Nat.lt_succ_of_lt (h.numbered n c hc)
    case row =>
      intro j r hr
      rw [Table.lookup_insert] at hr
      split_ifs at hr with hj
      · obtain rfl := Option.some.inj hr
        subst hj
        have hsound := h.row j row hrow
        have hspent := hsound.pending hpending
        have hfailures : QueueLog.failures j (.claimed s.log.claims j :: s.log) =
            s.log.failures j := rfl
        constructor
        case held =>
          intro
          rw [hfailures]
          exact ⟨hpending, by simp only [ScoreRow.hold]; omega⟩
        case failures => exact hsound.failures
        case open_ => exact hsound.open_
        case pending =>
          intro
          rw [hfailures]
          simp only [ScoreRow.hold]
          omega
      · exact (h.row j r hr).frame (QueueLog.holder_cons (htouch j hj) s.log)
          (QueueLog.failures_cons (htouch j hj) s.log)
    case holding =>
      intro j hj
      rw [Table.lookup_insert]
      split_ifs with heq
      · exact ⟨_, rfl⟩
      · exact h.holding j (by rwa [QueueLog.holder_cons (htouch j heq)] at hj)
    case current =>
      intro n c hc hrecord
      rw [mayRecord_iff] at hrecord
      obtain ⟨⟨r, hr, hdigest⟩, hallowed⟩ := hrecord
      rw [Table.lookup_insert] at hc hr
      by_cases hid : c.id = id
      · rw [if_pos hid] at hr
        obtain rfl := Option.some.inj hr
        by_cases hn : n = s.log.claims
        · rw [hid, hn]
          exact hholder
        · rw [if_neg hn] at hc
          have hmayrecord : s.mayRecord c = true :=
            mayRecord_iff.mpr ⟨⟨row, by rw [hid]; exact hrow, hdigest⟩, hallowed⟩
          have hnone := hfree n c hc
          simp [hmayrecord, hid] at hnone
      · rw [if_neg hid] at hr
        have hn : n ≠ s.log.claims := by
          rintro rfl
          rw [if_pos rfl] at hc
          obtain rfl := Option.some.inj hc
          exact hid rfl
        rw [if_neg hn] at hc
        exact (QueueLog.holder_cons (htouch c.id hid) s.log).trans
          (h.current n c hc (mayRecord_iff.mpr ⟨⟨r, hr, hdigest⟩, hallowed⟩))
    case fresh =>
      intro n c hc hheld
      rw [Table.lookup_insert] at hc
      by_cases hid : c.id = id
      · rw [hid, hholder] at hheld
        rw [if_pos (Option.some.inj hheld).symm] at hc
        obtain rfl := Option.some.inj hc
        constructor
        · intro r hr
          rw [Table.lookup_insert, if_pos hid] at hr
          obtain rfl := Option.some.inj hr
          rfl
        · change (s.repended.lookup id).getD 0 ≤ v
          cases hrepended : s.repended.lookup id with
          | none => exact Nat.zero_le v
          | some u => exact hversion ▸ h.versions id u hrepended
      · rw [QueueLog.holder_cons (htouch c.id hid)] at hheld
        have hn : n ≠ s.log.claims := by
          rintro rfl
          rw [if_pos rfl] at hc
          obtain rfl := Option.some.inj hc
          exact hid rfl
        rw [if_neg hn] at hc
        obtain ⟨hattempts, hrepended⟩ := h.fresh n c hc hheld
        refine ⟨fun r hr => ?_, hrepended⟩
        rw [Table.lookup_insert, if_neg hid] at hr
        exact hattempts r hr
    case promoted =>
      intro n c hc hpromoted
      rw [Table.lookup_insert] at hc
      split_ifs at hc
      · obtain rfl := Option.some.inj hc
        exact hpromoted
      · exact h.promoted n c hc hpromoted
    case versions => exact h.versions

/-- The rows keep what a claim is matched by, and the rows of other jobs keep their state and
their attempts. -/
structure Kept (s : ScoringState) (id : Uuid) (rows : Table Uuid ScoreRow) : Prop where
  row : ∀ k r', rows.lookup k = some r' → ∃ r, s.rows.lookup k = some r ∧
    r'.inputDigest = r.inputDigest ∧ (k ≠ id → r'.state = r.state ∧ r'.attempts = r.attempts)
  keys : ∀ k r, s.rows.lookup k = some r → ∃ r', rows.lookup k = some r'

/-- Updating every row keeps what the update keeps of each. -/
theorem Kept.updateAll {id : Uuid} {rows : Table Uuid ScoreRow} {f : Uuid → ScoreRow → ScoreRow}
    (h : s.Kept id rows) (hf : ∀ k r, (f k r).inputDigest = r.inputDigest ∧
      (k ≠ id → (f k r).state = r.state ∧ (f k r).attempts = r.attempts)) :
    s.Kept id (rows.updateAll f) where
  row k r' hr' := by
    rw [Table.lookup_updateAll] at hr'
    obtain ⟨old, hold, rfl⟩ := Option.map_eq_some_iff.mp hr'
    obtain ⟨r, hr, hdigest, hsame⟩ := h.row k old hold
    obtain ⟨hdigest', hsame'⟩ := hf k old
    refine ⟨r, hr, hdigest'.trans hdigest, fun hk => ?_⟩
    exact ⟨(hsame' hk).1.trans (hsame hk).1, (hsame' hk).2.trans (hsame hk).2⟩
  keys k r hr := by
    obtain ⟨r', hr'⟩ := h.keys k r hr
    exact ⟨f k r', by rw [Table.lookup_updateAll, hr']; rfl⟩

theorem Kept.refl (s : ScoringState) (id : Uuid) : s.Kept id s.rows where
  row _ r hr := ⟨r, hr, rfl, fun _ => ⟨rfl, rfl⟩⟩
  keys _ r hr := ⟨r, hr⟩

/-- A claim that could record answers: its row leaves the claim, and the others stay. -/
theorem Agrees.answer (h : s.Agrees) {n : ℕ} {c : ScoreClaim} {answer : Answer}
    {rows : Table Uuid ScoreRow} (hclaim : s.claims.lookup n = some c)
    (hmay : s.mayRecord c = true) (hkept : s.Kept c.id rows)
    (hown : ∀ r, rows.lookup c.id = some r → RowSound (.answered n c.id answer :: s.log) c.id r) :
    ({ s with
      rows := rows
      claims := s.claims.erase n
      log := .answered n c.id answer :: s.log }).Agrees := by
  have hholder := h.current n c hclaim hmay
  have htouch (k : Uuid) (hk : k ≠ c.id) :
      (QueueEvent.answered n c.id answer).touches k = false := by
    simpa [QueueEvent.touches] using Ne.symm hk
  have hnone : QueueLog.holder c.id (.answered n c.id answer :: s.log) = none := by
    simp [QueueLog.holder, QueueEvent.touches]
  constructor
  case honest => exact ⟨hholder, h.honest⟩
  case numbered => exact fun m d hd => h.numbered m d (Table.lookup_erase_eq_some.mp hd).2
  case promoted => exact fun m d hd => h.promoted m d (Table.lookup_erase_eq_some.mp hd).2
  case versions => exact h.versions
  case row =>
    intro k r' hr'
    by_cases hk : k = c.id
    · subst hk
      exact hown r' hr'
    · obtain ⟨r, hr, -, hsame⟩ := hkept.row k r' hr'
      obtain ⟨hstate, hattempts⟩ := hsame hk
      have hsound := (h.row k r hr).frame (QueueLog.holder_cons (htouch k hk) s.log)
        (QueueLog.failures_cons (htouch k hk) s.log)
      constructor
      case held => rw [hstate, hattempts]; exact hsound.held
      case failures => exact hsound.failures
      case open_ => rw [hstate]; exact hsound.open_
      case pending => rw [hstate, hattempts]; exact hsound.pending
  case holding =>
    intro k hk
    have hne : k ≠ c.id := by
      rintro rfl
      simp [hnone] at hk
    rw [QueueLog.holder_cons (htouch k hne)] at hk
    obtain ⟨r, hr⟩ := h.holding k hk
    exact hkept.keys k r hr
  case current =>
    intro m d hd hrecord
    obtain ⟨hne, hlive⟩ := Table.lookup_erase_eq_some.mp hd
    obtain ⟨⟨r', hr', hdigest⟩, hallowed⟩ := mayRecord_iff.mp hrecord
    obtain ⟨r, hr, hsame, -⟩ := hkept.row d.id r' hr'
    have hheld := h.current m d hlive
      (mayRecord_iff.mpr ⟨⟨r, hr, hsame.symm.trans hdigest⟩, hallowed⟩)
    have hid : d.id ≠ c.id := by
      intro heq
      rw [heq, hholder] at hheld
      exact hne (Option.some.inj hheld).symm
    exact (QueueLog.holder_cons (htouch d.id hid) s.log).trans hheld
  case fresh =>
    intro m d hd hheld
    have hlive := (Table.lookup_erase_eq_some.mp hd).2
    have hid : d.id ≠ c.id := by
      intro heq
      rw [heq, hnone] at hheld
      cases hheld
    rw [QueueLog.holder_cons (htouch d.id hid)] at hheld
    obtain ⟨hattempts, hrepended⟩ := h.fresh m d hlive hheld
    refine ⟨fun r' hr' => ?_, hrepended⟩
    obtain ⟨r, hr, -, hsame⟩ := hkept.row d.id r' hr'
    exact (hsame hid).2.trans (hattempts r hr)

/-- Updating the row of one job keeps the others. -/
theorem Kept.updateOne {id : Uuid} {f : ScoreRow → ScoreRow}
    (hf : ∀ r, (f r).inputDigest = r.inputDigest) :
    s.Kept id (s.rows.updateAll fun k r => if k = id then f r else r) := by
  refine (Kept.refl s id).updateAll fun k r => ?_
  split_ifs with hk
  · exact ⟨hf r, fun hne => absurd hk hne⟩
  · exact ⟨rfl, fun _ => ⟨rfl, rfl⟩⟩

section Answer

variable {n : ℕ} {c : ScoreClaim}

/-- The row of a claim that could record: pending, with an attempt more than its failures. -/
theorem Agrees.claimed (h : s.Agrees) (hclaim : s.claims.lookup n = some c)
    (hmay : s.mayRecord c = true) {row : ScoreRow} (hrow : s.rows.lookup c.id = some row) :
    s.log.failures c.id + 1 ≤ row.attempts ∧ row.attempts = c.attempts ∧
      s.log.failures c.id < scoreAttempts := by
  have hholder := h.current n c hclaim hmay
  have hsound := h.row c.id row hrow
  obtain ⟨hpending, hspent⟩ := hsound.held (by simp [hholder])
  exact ⟨hspent, (h.fresh n c hclaim hholder).1 row hrow, hsound.open_ (by simp [hpending])⟩

/-- The history after an answer: the row has no holder, and a failure is counted. -/
theorem answered_log (n : ℕ) (id : Uuid) (answer : Answer) (log : QueueLog) :
    QueueLog.holder id (.answered n id answer :: log) = none ∧
      QueueLog.failures id (.answered n id answer :: log) =
        log.failures id + (if answer = .failed then 1 else 0) := by
  constructor
  · simp [QueueLog.holder, QueueEvent.touches]
  · simp only [QueueLog.failures, true_and]
    split_ifs <;> rfl

/-- A deferral gives the attempt back, so the row has counted its failures still. -/
theorem Agrees.deferred (h : s.Agrees) (hclaim : s.claims.lookup n = some c)
    (hmay : s.mayRecord c = true) (kind : String) (now : ℕ) :
    ({ s with
      rows := s.deferred c kind now
      claims := s.claims.erase n
      log := .answered n c.id .deferred :: s.log }).Agrees := by
  refine h.answer hclaim hmay (Kept.updateAll (Kept.updateOne fun _ => rfl) fun k r => ?_) ?_
  · split_ifs <;> exact ⟨rfl, fun _ => ⟨rfl, rfl⟩⟩
  · intro r' hr'
    rw [ScoringState.deferred, Table.lookup_updateAll, Table.lookup_updateAll] at hr'
    obtain ⟨old, hold, rfl⟩ := Option.map_eq_some_iff.mp hr'
    obtain ⟨row, hrow, rfl⟩ := Option.map_eq_some_iff.mp hold
    obtain ⟨hspent, -, hopen⟩ := h.claimed hclaim hmay hrow
    obtain ⟨hnone, hfailures⟩ := answered_log n c.id .deferred s.log
    rw [if_neg (by decide), Nat.add_zero] at hfailures
    simp only [if_true, true_or]
    constructor
    case held => simp [hnone]
    case failures => omega
    case open_ => exact fun _ => by omega
    case pending => exact fun _ => by simp only; omega

/-- A counted failure that is not the last. -/
theorem Agrees.retried (h : s.Agrees) (hclaim : s.claims.lookup n = some c)
    (hmay : s.mayRecord c = true) (hleft : c.attempts < scoreAttempts) (kind : String) (now : ℕ) :
    ({ s with
      rows := s.retried c kind now
      claims := s.claims.erase n
      log := .answered n c.id .failed :: s.log }).Agrees := by
  refine h.answer hclaim hmay (Kept.updateOne fun _ => rfl) fun r' hr' => ?_
  rw [ScoringState.retried, Table.lookup_updateAll] at hr'
  obtain ⟨row, hrow, rfl⟩ := Option.map_eq_some_iff.mp hr'
  obtain ⟨hspent, hattempts, -⟩ := h.claimed hclaim hmay hrow
  obtain ⟨hnone, hfailures⟩ := answered_log n c.id .failed s.log
  simp only [if_true] at hfailures ⊢
  constructor
  case held => simp [hnone]
  case failures => omega
  case open_ => exact fun _ => by omega
  case pending => exact fun _ => by simp only; omega

/-- An assessment: the last counted failure, or a score. -/
theorem Agrees.settled (h : s.Agrees) (hclaim : s.claims.lookup n = some c)
    (hmay : s.mayRecord c = true) (failure : Option String) {answer : Answer}
    (hanswer : answer = .failed → failure.isSome) (now : ℕ) :
    ({ s with
      rows := s.settled c failure now
      claims := s.claims.erase n
      log := .answered n c.id answer :: s.log }).Agrees := by
  refine h.answer hclaim hmay (Kept.updateOne fun _ => rfl) fun r' hr' => ?_
  rw [ScoringState.settled, Table.lookup_updateAll] at hr'
  obtain ⟨row, hrow, rfl⟩ := Option.map_eq_some_iff.mp hr'
  obtain ⟨-, -, hopen⟩ := h.claimed hclaim hmay hrow
  obtain ⟨hnone, hfailures⟩ := answered_log n c.id answer s.log
  simp only [if_true] at hfailures ⊢
  constructor
  case held => simp [hnone]
  case failures =>
    split_ifs at hfailures <;> omega
  case open_ =>
    intro hstate
    split_ifs at hfailures with hfailed
    · simp [hanswer hfailed] at hstate
    · omega
  case pending =>
    intro hstate
    split_ifs at hstate

theorem Agrees.record (h : s.Agrees) (hclaim : s.claims.lookup n = some c)
    (outcome : ScoreOutcome) (qualificationId : Uuid) (model : ScoringModel) (now : ℕ) :
    (s.record n c outcome qualificationId model now).Agrees := by
  cases hmay : s.mayRecord c with
  | false =>
    rw [ScoringState.record, if_pos (by simp [hmay])]
    exact h.forget n
  | true =>
    rw [ScoringState.record, if_neg (by simp [hmay])]
    cases hdeferred : outcome.deferred with
    | some kind => exact h.deferred hclaim hmay kind now
    | none =>
      cases hfailure : outcome.failure with
      | some kind =>
        dsimp only
        split_ifs with hleft
        · exact h.retried hclaim hmay hleft kind now
        · have hsettled := h.settled hclaim hmay (some kind)
            (fun _ : Answer.failed = .failed => rfl) now
          exact hsettled.frame rfl rfl rfl rfl rfl le_rfl
      | none =>
        have hsettled := h.settled hclaim hmay outcome.failure
          (fun hne : Answer.finished = .failed => by cases hne) now
        exact hsettled.frame rfl rfl rfl rfl rfl le_rfl

end Answer

/-- Every timely step keeps the agreement. -/
theorem Agrees.step {a : ScoringAction} (h : s.Agrees) (htimely : s.isTimely digest a = true)
    (ht : s.step digest a = some t) : t.Agrees := by
  cases a with
  | setJob id job =>
    obtain rfl := Option.some.inj ht
    exact h.frame rfl rfl rfl rfl rfl le_rfl
  | setProfile maxProposals now =>
    obtain rfl := Option.some.inj ht
    exact h.setProfile maxProposals now htimely
  | promote id now => exact h.promote (accepted_iff.mp ht)
  | qualify qualificationId q =>
    obtain rfl := Option.some.inj ht
    exact h.frame rfl rfl rfl rfl rfl le_rfl
  | eraseAssessments ids =>
    obtain rfl := Option.some.inj ht
    exact h.frame rfl rfl rfl rfl rfl le_rfl
  | startSweep k config now =>
    simp only [ScoringState.step, Option.ite_none_left_eq_some, Option.some.injEq] at ht
    obtain ⟨-, rfl⟩ := ht
    exact h.startSweep htimely
  | claim k skipped window now =>
    obtain ⟨v, hv, rfl⟩ := Option.map_eq_some_iff.mp ht
    exact h.claim hv htimely
  | record n outcome qualificationId model now =>
    obtain ⟨c, hclaim, rfl⟩ := Option.map_eq_some_iff.mp ht
    exact h.record hclaim outcome qualificationId model now
  | crash n =>
    obtain rfl := Option.some.inj ht
    exact h.forget n
  | endSweep k now =>
    simp only [ScoringState.step, Option.ite_none_left_eq_some, Option.some.injEq] at ht
    obtain ⟨-, rfl⟩ := ht
    unfold ScoringState.endSweep
    dsimp only
    split <;> exact h.frame rfl rfl rfl rfl rfl le_rfl
  | takeSweep due =>
    simp only [ScoringState.step, Option.ite_none_right_eq_some, Option.some.injEq] at ht
    obtain ⟨-, rfl⟩ := ht
    exact h.frame rfl rfl rfl rfl rfl le_rfl

end ScoringState

end Rheostream.Leads
