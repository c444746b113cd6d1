import Rheostream.Foundation.ClaimQueue
import Rheostream.Foundation.Selection

/-!
# What ties a claim queue to its history

Every operation of a claim queue keeps its rows, the claims still unanswered and its history
in agreement, whatever the order of the operations and the instants at which they run. Which
claim holds a row is known as long as the requests are apart: none carries the instant of an
earlier request that a claim still answers, since the two would be one request to that claim.
-/

namespace Rheostream

universe u v

/-- The attempts a row has counted, against what its history says it spent. -/
def QueueRow.Tallies {D : Type u} (limit spent : ℕ) (row : QueueRow D) : Prop :=
  match row.state with
  | .idle => spent = 0
  | .queued => row.attempts = spent ∧ spent < limit
  | .held => row.attempts = spent + 1 ∧ spent < limit
  | .ready => spent < limit
  | .failed => spent = limit

/-- How an answer leaves the row of its claim. -/
def QueueRow.Settles {D : Type u} (limit : ℕ) (answer : Answer) (row row' : QueueRow D) : Prop :=
  row'.requestedAt = row.requestedAt ∧
    match answer with
    | .finished => row'.state = .ready ∧ row'.attempts = row.attempts
    | .deferred => row'.state = .queued ∧ row'.attempts = row.attempts - 1
    | .failed =>
      row'.state = (if limit ≤ row.attempts then .failed else .queued) ∧
        row'.attempts = row.attempts

/-- What ties one row to its history and, when the requests are apart, to the claims still
unanswered. -/
structure QueueRow.Sound {D : Type u} {P : Type v} (apart : Prop) (limit : ℕ)
    (claims : Table ℕ (Claim P)) (log : QueueLog) (id : Uuid) (row : QueueRow D) : Prop where
  timed : row.state = .held → row.retryAfter.isSome
  held : row.state = .held ↔ (log.holder id).isSome
  tally : row.Tallies limit (log.spent id)
  /-- A claim of the row's request counted no later attempt than the row did, and the
  attempt that holds the row is the holder's. -/
  own : apart → ∀ n c, claims.lookup n = some c → c.id = id → row.state ≠ .idle →
    row.requestedAt = c.requestedAt →
      c.attempts ≤ row.attempts ∧
        (row.state = .held → c.attempts = row.attempts → log.holder id = some n)

/-- What ties a queue to its history and to the claims still unanswered. -/
structure Queue.Sound {D : Type u} {P : Type v} (apart : Prop) (limit : ℕ) (rows : Queue D)
    (claims : Table ℕ (Claim P)) (log : QueueLog) : Prop where
  honest : apart → log.IsHonest
  numbered : ∀ n c, claims.lookup n = some c → n < log.claims
  row : ∀ id row, rows.lookup id = some row → row.Sound apart limit claims log id
  missing : ∀ id, rows.lookup id = none → log.holder id = none ∧ log.spent id = 0

variable {D : Type u} {P : Type v} {apart : Prop} {limit : ℕ} {rows rows' : Queue D}
  {claims claims' : Table ℕ (Claim P)}
  {log log' : QueueLog} {id : Uuid} {row row' : QueueRow D} {now : ℕ}

/-- A row that no part of a step is about stays sound. -/
theorem QueueRow.Sound.frame (h : row.Sound apart limit claims log id)
    (hholder : log'.holder id = log.holder id) (hspent : log'.spent id = log.spent id)
    (hclaims : ∀ n c, claims'.lookup n = some c → c.id = id → claims.lookup n = some c) :
    row.Sound apart limit claims' log' id where
  timed := h.timed
  held := by rw [hholder]; exact h.held
  tally := by rw [hspent]; exact h.tally
  own happart n c hc hid := by rw [hholder]; exact h.own happart n c (hclaims n c hc hid) hid

/-- Changing when a row may run or when its claim lapses keeps it sound. -/
theorem QueueRow.Sound.retime (h : row.Sound apart limit claims log id) (until_ : ℕ)
    (kind : Option String) (at_ : ℕ) :
    ({ row with retryAfter := some until_, failureKind := kind, updatedAt := at_ } :
      QueueRow D).Sound apart limit claims log id where
  timed _ := rfl
  held := h.held
  tally := h.tally
  own := h.own

namespace Queue

theorem lookup_failLapsed (limit : ℕ) (word : String) (now : ℕ) (rows : Queue D) (id : Uuid) :
    (rows.failLapsed limit word now).lookup id = (rows.lookup id).map fun row =>
      if row.isSpent limit now then
        { row with
          state := .failed
          retryAfter := none
          failureKind := some word
          updatedAt := now }
      else row :=
  Table.lookup_updateAll _ _ _

theorem mem_lapsing : id ∈ rows.lapsing limit now ↔
    ∃ row, rows.lookup id = some row ∧ row.isSpent limit now = true := by
  simp only [lapsing, List.mem_map, List.mem_filter]
  constructor
  · rintro ⟨e, ⟨hmem, hspent⟩, rfl⟩
    exact ⟨e.2, AList.mem_lookup_iff.mpr hmem, hspent⟩
  · rintro ⟨row, hrow, hspent⟩
    exact ⟨⟨id, row⟩, ⟨AList.mem_lookup_iff.mp hrow, hspent⟩, rfl⟩

/-- The oldest claimable row is one that may be taken, and no other such row is older. -/
theorem oldest_eq_some {takes : Uuid → Bool} (h : rows.oldest takes now = some (id, row)) :
    rows.lookup id = some row ∧ takes id = true ∧ row.isClaimable now = true ∧
      ∀ k r, rows.lookup k = some r → takes k = true → r.isClaimable now = true →
        toLex (row.requestedAt, id) ≤ toLex (r.requestedAt, k) := by
  obtain ⟨e, hmin, he⟩ := Option.map_eq_some_iff.mp h
  obtain ⟨rfl, rfl⟩ := Prod.mk.inj he
  obtain ⟨hmem, hcond⟩ := List.mem_filter.mp (List.argmin_mem hmin)
  obtain ⟨htakes, hclaimable⟩ := Bool.and_eq_true_iff.mp hcond
  refine ⟨AList.mem_lookup_iff.mpr hmem, htakes, hclaimable, fun k r hr hk hcl => ?_⟩
  have hother : (⟨k, r⟩ : Sigma fun _ : Uuid => QueueRow D) ∈
      rows.entries.filter fun e => takes e.1 && e.2.isClaimable now :=
    List.mem_filter.mpr ⟨AList.mem_lookup_iff.mp hr, by simp [hk, hcl]⟩
  have hle := List.le_of_mem_argmin hother hmin
  exact hle

theorem oldest_eq_none {takes : Uuid → Bool} (h : rows.oldest takes now = none)
    (hrow : rows.lookup id = some row) (htakes : takes id = true) :
    row.isClaimable now = false := by
  have hnil := List.argmin_eq_none.mp (Option.map_eq_none_iff.mp h)
  by_contra hnot
  have hclaimable : row.isClaimable now = true := by simpa using hnot
  have hmem : (⟨id, row⟩ : Sigma fun _ : Uuid => QueueRow D) ∈
      rows.entries.filter fun e => takes e.1 && e.2.isClaimable now :=
    List.mem_filter.mpr ⟨AList.mem_lookup_iff.mp hrow, by simp [htakes, hclaimable]⟩
  rw [hnil] at hmem
  exact List.not_mem_nil hmem

variable {c : Claim P}

theorem isMine_iff :
    rows.isMine c = true ↔ ∃ row, rows.lookup c.id = some row ∧ row.isHeldBy c = true := by
  unfold isMine
  cases rows.lookup c.id <;> simp

/-- An empty queue with an empty history. -/
theorem Sound.empty (apart : Prop) (limit : ℕ) :
    Queue.Sound apart limit (∅ : Queue D) (∅ : Table ℕ (Claim P)) [] where
  honest _ := trivial
  numbered n c hc := by cases hc
  row id row hrow := by cases hrow
  missing _ _ := ⟨rfl, rfl⟩

/-- A row of the queue has spent no more than its limit. -/
theorem Sound.spent_le (h : rows.Sound apart limit claims log) (id : Uuid) :
    log.spent id ≤ limit := by
  cases hrow : rows.lookup id with
  | none =>
    have hzero := (h.missing id hrow).2
    omega
  | some row =>
    have htally := (h.row id row hrow).tally
    unfold QueueRow.Tallies at htally
    split at htally <;> omega

variable {n : ℕ}

/-- A live claim that the row is still held by is the claim that holds the row. -/
theorem Sound.holder_of_isMine (h : rows.Sound apart limit claims log) (happart : apart)
    (hclaim : claims.lookup n = some c) (hmine : rows.isMine c = true) :
    ∃ row, rows.lookup c.id = some row ∧ row.isHeldBy c = true ∧ log.holder c.id = some n := by
  obtain ⟨row, hrow, hheld⟩ := isMine_iff.mp hmine
  obtain ⟨hstate, hrequest, hattempts⟩ := QueueRow.isHeldBy_iff.mp hheld
  have hown := (h.row c.id row hrow).own happart n c hclaim rfl (by simp [hstate]) hrequest
  exact ⟨row, hrow, hheld, hown.2 hstate hattempts.symm⟩

/-- Forgetting claims keeps a queue sound. -/
theorem Sound.forget (h : rows.Sound apart limit claims log)
    (hclaims : ∀ n c, claims'.lookup n = some c → claims.lookup n = some c) :
    rows.Sound apart limit claims' log where
  honest := h.honest
  numbered n c hc := h.numbered n c (hclaims n c hc)
  row id row hrow := (h.row id row hrow).frame rfl rfl fun n c hc _ => hclaims n c hc
  missing := h.missing

/-- A new request for a row, at an instant that no unanswered claim of the row carries. -/
theorem Sound.request (h : rows.Sound apart limit claims log) (hlimit : 0 < limit)
    (hqueued : row.state = .queued) (hattempts : row.attempts = 0)
    (hfresh : apart → ∀ n c, claims.lookup n = some c → c.id = id →
      c.requestedAt ≠ row.requestedAt) :
    Queue.Sound apart limit (rows.insert id row) claims (.reset [id] :: log) where
  honest := h.honest
  numbered := h.numbered
  row k r hr := by
    rw [Table.lookup_insert] at hr
    split_ifs at hr with heq
    · obtain rfl := Option.some.inj hr
      subst heq
      constructor
      case timed => simp [hqueued]
      case held => simp [hqueued, QueueLog.holder, QueueEvent.touches]
      case tally => simp [QueueRow.Tallies, hqueued, hattempts, QueueLog.spent, hlimit]
      case own =>
        intro happart n c hc hid _ hsame
        exact absurd hsame.symm (hfresh happart n c hc hid)
    · have htouch : (QueueEvent.reset [id]).touches k = false := by
        simpa [QueueEvent.touches] using heq
      exact (h.row k r hr).frame (QueueLog.holder_cons htouch log)
        (QueueLog.spent_cons htouch log) fun _ _ hc _ => hc
  missing k hk := by
    rw [Table.lookup_insert] at hk
    split_ifs at hk with heq
    have htouch : (QueueEvent.reset [id]).touches k = false := by
      simpa [QueueEvent.touches] using heq
    rw [QueueLog.holder_cons htouch, QueueLog.spent_cons htouch]
    exact h.missing k hk

/-- Taking rows out of the queue, by deleting them or by leaving them idle. -/
theorem Sound.remove (h : rows.Sound apart limit claims log) {ids : List Uuid}
    (hkept : ∀ k, k ∉ ids → rows'.lookup k = rows.lookup k)
    (hidle : ∀ k r, k ∈ ids → rows'.lookup k = some r → r.state = .idle) :
    rows'.Sound apart limit claims (.reset ids :: log) where
  honest := h.honest
  numbered := h.numbered
  row k r hr := by
    by_cases hk : k ∈ ids
    · have hstate := hidle k r hk hr
      constructor
      case timed => simp [hstate]
      case held => simp [hstate, QueueLog.holder, QueueEvent.touches, hk]
      case tally => simp [QueueRow.Tallies, hstate, QueueLog.spent, hk]
      case own => simp [hstate]
    · have htouch : (QueueEvent.reset ids).touches k = false := by
        simpa [QueueEvent.touches] using hk
      rw [hkept k hk] at hr
      exact (h.row k r hr).frame (QueueLog.holder_cons htouch log)
        (QueueLog.spent_cons htouch log) fun _ _ hc _ => hc
  missing k hr := by
    by_cases hk : k ∈ ids
    · simp [QueueLog.holder, QueueEvent.touches, QueueLog.spent, hk]
    · have htouch : (QueueEvent.reset ids).touches k = false := by
        simpa [QueueEvent.touches] using hk
      rw [hkept k hk] at hr
      rw [QueueLog.holder_cons htouch, QueueLog.spent_cons htouch]
      exact h.missing k hr

/-- A row that does not fail is not among those that do. -/
theorem not_touches_lapsing (hrow : rows.lookup id = some row)
    (hspent : ¬row.isSpent limit now = true) :
    (QueueEvent.lapsed (rows.lapsing limit now)).touches id = false := by
  rw [QueueEvent.touches, Bool.eq_false_iff, ne_eq, List.contains_iff_mem, mem_lapsing]
  rintro ⟨other, hother, hlapsed⟩
  rw [hrow] at hother
  obtain rfl := Option.some.inj hother
  exact hspent hlapsed

/-- Renewing writes the claim's row, or nothing. -/
theorem renew_cases (rows : Queue D) (c : Claim P) (until_ : ℕ) :
    rows.renew c until_ = rows ∨ ∃ row, rows.lookup c.id = some row ∧ row.isHeldBy c = true ∧
      rows.renew c until_ = rows.insert c.id { row with retryAfter := some until_ } := by
  unfold renew Table.updateIf
  cases hupdate : rows.updateRow c.id ⟨fun row => row.isHeldBy c,
      fun row => { row with retryAfter := some until_ }⟩ with
  | none => exact .inl rfl
  | some t =>
    obtain ⟨row, hrow, hheld, rfl⟩ := Table.updateRow_eq_some.mp hupdate
    exact .inr ⟨row, hrow, hheld, rfl⟩

/-- Failing the rows whose claims lapsed with no attempt left. -/
theorem Sound.failLapsed (h : rows.Sound apart limit claims log) (word : String) (now : ℕ) :
    (rows.failLapsed limit word now).Sound apart limit claims
      (.lapsed (rows.lapsing limit now) :: log) where
  honest := h.honest
  numbered := h.numbered
  row k r hr := by
    rw [lookup_failLapsed] at hr
    obtain ⟨old, hold, rfl⟩ := Option.map_eq_some_iff.mp hr
    have hsound := h.row k old hold
    by_cases hspent : old.isSpent limit now = true
    · have hmem : k ∈ rows.lapsing limit now := mem_lapsing.mpr ⟨old, hold, hspent⟩
      obtain ⟨hstate, -, hle⟩ := QueueRow.isSpent_iff.mp hspent
      have htally := hsound.tally
      simp only [QueueRow.Tallies, hstate] at htally
      rw [if_pos hspent]
      constructor
      case timed => simp
      case held => simp [QueueLog.holder, QueueEvent.touches, hmem]
      case tally =>
        have hone : QueueLog.spent k (.lapsed (rows.lapsing limit now) :: log) =
            log.spent k + 1 := by
          simp [QueueLog.spent, hmem]
        simp only [QueueRow.Tallies, hone]
        omega
      case own =>
        intro happart n c hc hid _ hsame
        have hown := hsound.own happart n c hc hid (by simp [hstate]) hsame
        exact ⟨hown.1, by simp⟩
    · have htouch := not_touches_lapsing hold hspent
      rw [if_neg hspent]
      exact hsound.frame (QueueLog.holder_cons htouch log) (QueueLog.spent_cons htouch log)
        fun _ _ hc _ => hc
  missing k hk := by
    rw [lookup_failLapsed, Option.map_eq_none_iff] at hk
    have htouch : (QueueEvent.lapsed (rows.lapsing limit now)).touches k = false := by
      rw [QueueEvent.touches, Bool.eq_false_iff, ne_eq, List.contains_iff_mem, mem_lapsing]
      rintro ⟨other, hother, -⟩
      simp [hk] at hother
    rw [QueueLog.holder_cons htouch, QueueLog.spent_cons htouch]
    exact h.missing k hk

/-- Taking a claimable row with attempts left. -/
theorem Sound.take (h : rows.Sound apart limit claims log) (hrow : rows.lookup id = some row)
    (hclaimable : row.isClaimable now = true) (hspent : row.isSpent limit now = false)
    (window : ℕ) (read : P) :
    Queue.Sound apart limit (rows.insert id (row.hold now window))
      (claims.insert log.claims ((row.hold now window).claim id read))
      (.claimed log.claims id :: log) where
  honest happart := ⟨rfl, h.honest happart⟩
  numbered n c hc := by
    rw [Table.lookup_insert] at hc
    simp only [QueueLog.claims]
    split_ifs at hc with heq
    · omega
    · exact Nat.lt_succ_of_lt (h.numbered n c hc)
  row k r hr := by
    rw [Table.lookup_insert] at hr
    split_ifs at hr with heq
    · obtain rfl := Option.some.inj hr
      subst heq
      have hsound := h.row k row hrow
      have htally := hsound.tally
      constructor
      case timed => exact fun _ => rfl
      case held => simp [QueueRow.hold, QueueLog.holder]
      case tally =>
        obtain ⟨hstate, -⟩ | ⟨hstate, hlapsed⟩ := QueueRow.isClaimable_iff.mp hclaimable
        · have hnone : (log.holder k).isSome = false := by
            rw [Bool.eq_false_iff, ne_eq, ← hsound.held, hstate]
            simp
          simp only [QueueRow.Tallies, hstate] at htally
          simp [QueueRow.Tallies, QueueRow.hold, QueueLog.spent, hnone]
          omega
        · have hsome := hsound.held.mp hstate
          have hleft : row.attempts < limit := by
            by_contra hle
            have := QueueRow.isSpent_iff.mpr ⟨hstate, hlapsed, not_lt.mp hle⟩
            simp [this] at hspent
          simp only [QueueRow.Tallies, hstate] at htally
          simp [QueueRow.Tallies, QueueRow.hold, QueueLog.spent, hsome]
          omega
      case own =>
        intro happart n c hc hid _ hsame
        rw [Table.lookup_insert] at hc
        split_ifs at hc with hn
        · obtain rfl := Option.some.inj hc
          exact ⟨le_rfl, fun _ _ => by simp [QueueLog.holder, hn]⟩
        · have hidle : row.state ≠ .idle := by
            obtain ⟨hstate, -⟩ | ⟨hstate, -⟩ := QueueRow.isClaimable_iff.mp hclaimable <;>
              simp [hstate]
          have hle := (hsound.own happart n c hc hid hidle hsame).1
          simp only [QueueRow.hold]
          exact ⟨by omega, fun _ heq => by omega⟩
    · have htouch : (QueueEvent.claimed log.claims id).touches k = false := by
        simpa [QueueEvent.touches] using Ne.symm heq
      refine (h.row k r hr).frame (QueueLog.holder_cons htouch log)
        (QueueLog.spent_cons htouch log) fun n c hc hid => ?_
      rw [Table.lookup_insert] at hc
      split_ifs at hc with hn
      · obtain rfl := Option.some.inj hc
        exact absurd hid.symm heq
      · exact hc
  missing k hk := by
    rw [Table.lookup_insert] at hk
    split_ifs at hk with heq
    have htouch : (QueueEvent.claimed log.claims id).touches k = false := by
      simpa [QueueEvent.touches] using Ne.symm heq
    rw [QueueLog.holder_cons htouch, QueueLog.spent_cons htouch]
    exact h.missing k hk

/-- Holding a row for longer. -/
theorem Sound.renew (h : rows.Sound apart limit claims log) (c : Claim P) (until_ : ℕ) :
    (rows.renew c until_).Sound apart limit claims log where
  honest := h.honest
  numbered := h.numbered
  row k r hr := by
    obtain hsame | ⟨old, hold, hheld, heq⟩ := renew_cases rows c until_
    · rw [hsame] at hr
      exact h.row k r hr
    · rw [heq, Table.lookup_insert] at hr
      split_ifs at hr with hk
      · obtain rfl := Option.some.inj hr
        subst hk
        have hsound := h.row c.id old hold
        exact ⟨fun _ => rfl, hsound.held, hsound.tally, hsound.own⟩
      · exact h.row k r hr
  missing k hk := by
    obtain hsame | ⟨old, hold, hheld, heq⟩ := renew_cases rows c until_
    · rw [hsame] at hk
      exact h.missing k hk
    · rw [heq, Table.lookup_insert] at hk
      split_ifs at hk
      exact h.missing k hk

/-- An answer on the claim that holds the row: the row leaves the claim as the answer says,
and the other rows at most wait longer. -/
theorem Sound.answer (h : rows.Sound apart limit claims log) {answer : Answer}
    (hclaim : claims.lookup n = some c) (hmine : rows.isMine c = true)
    (hsettled : ∀ row, rows.lookup c.id = some row →
      ∃ row', rows'.lookup c.id = some row' ∧ row.Settles limit answer row')
    (hothers : ∀ k, k ≠ c.id → rows'.lookup k = rows.lookup k ∨
      ∃ r u kind at_, rows.lookup k = some r ∧
      rows'.lookup k = some { r with retryAfter := some u, failureKind := kind, updatedAt := at_ })
    : rows'.Sound apart limit (claims.erase n) (.answered n c.id answer :: log) := by
  obtain ⟨row, hrow, hheld⟩ := isMine_iff.mp hmine
  obtain ⟨hstate, -, -⟩ := QueueRow.isHeldBy_iff.mp hheld
  have hholder (happart : apart) : log.holder c.id = some n := by
    obtain ⟨-, -, -, hholds⟩ := h.holder_of_isMine happart hclaim hmine
    exact hholds
  obtain ⟨row', hrow', hrequest, hsettles⟩ := hsettled row hrow
  have hsound := h.row c.id row hrow
  have htally := hsound.tally
  simp only [QueueRow.Tallies, hstate] at htally
  have htouch (k : Uuid) (hk : k ≠ c.id) :
      (QueueEvent.answered n c.id answer).touches k = false := by
    simpa [QueueEvent.touches] using Ne.symm hk
  constructor
  case honest => exact fun happart => ⟨hholder happart, h.honest happart⟩
  case numbered => exact fun m d hd => h.numbered m d (Table.lookup_erase_eq_some.mp hd).2
  case missing =>
    intro k hk
    have hne : k ≠ c.id := by
      rintro rfl
      simp [hrow'] at hk
    have hnone : rows.lookup k = none := by
      obtain hsame | ⟨r, u, kind, at_, -, hr⟩ := hothers k hne
      · rw [← hsame]
        exact hk
      · simp [hr] at hk
    rw [QueueLog.holder_cons (htouch k hne), QueueLog.spent_cons (htouch k hne)]
    exact h.missing k hnone
  case row =>
    intro k r hr
    by_cases hk : k = c.id
    · subst hk
      rw [hrow'] at hr
      obtain rfl := Option.some.inj hr
      have hnone : QueueLog.holder c.id (.answered n c.id answer :: log) = none := by
        simp [QueueLog.holder, QueueEvent.touches]
      have hother (happart : apart) (m : ℕ) (d : Claim P)
          (hd : (claims.erase n).lookup m = some d) (hid : d.id = c.id)
          (hsame : row'.requestedAt = d.requestedAt) :
          d.attempts < row.attempts := by
        obtain ⟨hne, hlive⟩ := Table.lookup_erase_eq_some.mp hd
        obtain ⟨hle, hlast⟩ :=
          hsound.own happart m d hlive hid (by simp [hstate]) (hrequest ▸ hsame)
        by_contra hnot
        have hm := hlast hstate (by omega)
        rw [hholder happart] at hm
        exact hne (Option.some.inj hm).symm
      cases answer with
      | finished =>
        obtain ⟨hready, hattempts⟩ := hsettles
        constructor
        case timed => simp [hready]
        case held => simp [hready, hnone]
        case tally =>
          simp only [QueueRow.Tallies, hready, QueueLog.spent]
          simpa using htally.2
        case own =>
          intro happart m d hd hid _ hsame
          have hlt := hother happart m d hd hid hsame
          exact ⟨by omega, by simp [hready]⟩
      | deferred =>
        obtain ⟨hqueued, hattempts⟩ := hsettles
        constructor
        case timed => simp [hqueued]
        case held => simp [hqueued, hnone]
        case tally =>
          simp only [QueueRow.Tallies, hqueued, QueueLog.spent]
          simp only [reduceCtorEq, and_false, if_false]
          omega
        case own =>
          intro happart m d hd hid _ hsame
          have hlt := hother happart m d hd hid hsame
          exact ⟨by omega, by simp [hqueued]⟩
      | failed =>
        obtain ⟨hleaves, hattempts⟩ := hsettles
        have hnext : row'.state ≠ .held := by
          rw [hleaves]
          split_ifs <;> simp
        constructor
        case timed => exact fun hheld => absurd hheld hnext
        case held => simp [hnext, hnone]
        case tally =>
          have hspent : QueueLog.spent c.id (.answered n c.id .failed :: log) =
              log.spent c.id + 1 := by
            simp [QueueLog.spent]
          simp only [QueueRow.Tallies, hleaves, hspent]
          split
          all_goals
            split_ifs at * <;> omega
        case own =>
          intro happart m d hd hid _ hsame
          have hlt := hother happart m d hd hid hsame
          exact ⟨by omega, fun hheld => absurd hheld hnext⟩
    · have hframe (r : QueueRow D) (hr : rows.lookup k = some r) :
          r.Sound apart limit (claims.erase n) (.answered n c.id answer :: log) k :=
        (h.row k r hr).frame (QueueLog.holder_cons (htouch k hk) log)
          (QueueLog.spent_cons (htouch k hk) log)
          fun m d hd _ => (Table.lookup_erase_eq_some.mp hd).2
      obtain hsame | ⟨old, u, kind, at_, hold, hnew⟩ := hothers k hk
      · rw [hsame] at hr
        exact hframe r hr
      · rw [hnew] at hr
        obtain rfl := Option.some.inj hr
        exact (hframe old hold).retime u kind at_

/-- Giving a claim's attempt back. -/
theorem Sound.giveBack (h : rows.Sound apart limit claims log) (hclaim : claims.lookup n = some c)
    (hmine : rows.isMine c = true) (until_ now : ℕ) (kind : String) :
    (rows.giveBack c until_ now kind).Sound apart limit (claims.erase n)
      (.answered n c.id .deferred :: log) := by
  refine h.answer hclaim hmine (fun row hrow => ?_) (fun k hk => ?_)
  · obtain ⟨other, hother, hheld⟩ := isMine_iff.mp hmine
    obtain rfl : other = row := by simpa [hrow] using hother.symm
    obtain ⟨-, -, hattempts⟩ := QueueRow.isHeldBy_iff.mp hheld
    refine ⟨{ other with
      state := .queued
      attempts := c.attempts - 1
      retryAfter := some until_
      failureKind := some kind
      updatedAt := now }, by simp [Queue.giveBack, hrow], rfl, rfl, ?_⟩
    simp [hattempts]
  · cases hrow : rows.lookup k with
    | none => exact .inl (by simp [Queue.giveBack, hrow])
    | some r =>
      by_cases hwaits : r.state = .queued ∧ r.isDue until_ = true
      · exact .inr ⟨r, until_, some kind, now, rfl, by simp [Queue.giveBack, hrow, hk, hwaits]⟩
      · exact .inl (by simp [Queue.giveBack, hrow, hk, hwaits])

/-- Counting a claim's failure. -/
theorem Sound.countFailure (h : rows.Sound apart limit claims log)
    (hclaim : claims.lookup n = some c) (hmine : rows.isMine c = true) (wait now : ℕ)
    (kind : String) : (rows.countFailure limit c wait now kind).Sound apart limit (claims.erase n)
      (.answered n c.id .failed :: log) := by
  refine h.answer hclaim hmine (fun row hrow => ?_) (fun k hk => ?_)
  · obtain ⟨other, hother, hheld⟩ := isMine_iff.mp hmine
    obtain rfl : other = row := by simpa [hrow] using hother.symm
    obtain ⟨-, -, hattempts⟩ := QueueRow.isHeldBy_iff.mp hheld
    refine ⟨{ other with
      state := if limit ≤ c.attempts then .failed else .queued
      failureKind := some kind
      retryAfter := if limit ≤ c.attempts then none else some (now + wait)
      updatedAt := now }, by simp [Queue.countFailure, hrow], rfl, ?_, rfl⟩
    simp [hattempts]
  · left
    cases hrow : rows.lookup k <;> simp [Queue.countFailure, hrow, hk]

/-- While a row waits or is held until an instant, the follow-up is no later than that. -/
theorem followUpAt_le (takes : Uuid → Bool) {u : ℕ} (hrow : rows.lookup id = some row)
    (hbusy : row.state = .queued ∨ row.state = .held) (hretry : row.retryAfter = some u)
    (now : ℕ) : ∃ t, rows.followUpAt takes now = some t ∧ t ≤ max now u := by
  unfold followUpAt
  split_ifs
  · exact ⟨now, rfl, le_max_left _ _⟩
  · have hmem : u ∈ (rows.entries.filter fun e =>
        e.2.state = .queued || e.2.state = .held).filterMap fun e => e.2.retryAfter := by
      refine List.mem_filterMap.mpr ⟨⟨id, row⟩, List.mem_filter.mpr ⟨?_, ?_⟩, hretry⟩
      · exact AList.mem_lookup_iff.mp hrow
      · simpa using hbusy
    cases hmin : List.min? ((rows.entries.filter fun e =>
        e.2.state = .queued || e.2.state = .held).filterMap fun e => e.2.retryAfter) with
    | none =>
      rw [List.min?_eq_none_iff.mp hmin] at hmem
      exact absurd hmem List.not_mem_nil
    | some t =>
      have hle := (List.min?_eq_some_iff.mp hmin).2 u hmem
      exact ⟨t, rfl, le_trans hle (le_max_right _ _)⟩

/-- While a row can be taken, the follow-up is now. -/
theorem followUpAt_of_claimable {takes : Uuid → Bool} (hrow : rows.lookup id = some row)
    (htakes : takes id = true) (hclaimable : row.isClaimable now = true) :
    rows.followUpAt takes now = some now := by
  rw [followUpAt, if_pos]
  exact Table.existsRow_iff.mpr ⟨id, row, hrow, by simp [htakes, hclaimable]⟩

/-- Every row that is held says when its claim lapses. -/
def Timed (rows : Queue D) : Prop :=
  ∀ id row, rows.lookup id = some row → row.state = .held → row.retryAfter.isSome

theorem Sound.timed (h : rows.Sound apart limit claims log) : rows.Timed :=
  fun id row hrow => (h.row id row hrow).timed

theorem Timed.insert (h : rows.Timed) (hrow : row.state = .held → row.retryAfter.isSome) :
    Timed (rows.insert id row) := by
  intro k r hr
  rw [Table.lookup_insert] at hr
  split_ifs at hr
  · obtain rfl := Option.some.inj hr
    exact hrow
  · exact h k r hr

theorem Timed.updateAll (h : rows.Timed) {f : Uuid → QueueRow D → QueueRow D}
    (hf : ∀ k r, (r.state = .held → r.retryAfter.isSome) →
      (f k r).state = .held → (f k r).retryAfter.isSome) : Timed (rows.updateAll f) := by
  intro k r hr
  rw [Table.lookup_updateAll] at hr
  obtain ⟨old, hold, rfl⟩ := Option.map_eq_some_iff.mp hr
  exact hf k old (h k old hold)

theorem Timed.failLapsed (h : rows.Timed) (limit : ℕ) (word : String) (now : ℕ) :
    (rows.failLapsed limit word now).Timed := by
  refine h.updateAll fun k r hr => ?_
  split_ifs
  · simp
  · exact hr

theorem Timed.renew (h : rows.Timed) (c : Claim P) (until_ : ℕ) : (rows.renew c until_).Timed := by
  obtain hsame | ⟨row, hrow, -, heq⟩ := renew_cases rows c until_
  · rw [hsame]
    exact h
  · rw [heq]
    exact h.insert fun _ => rfl

theorem Timed.giveBack (h : rows.Timed) (c : Claim P) (until_ now : ℕ) (kind : String) :
    (rows.giveBack c until_ now kind).Timed := by
  refine Timed.updateAll (h.updateAll fun k r hr => ?_) fun k r hr => ?_
  · split_ifs
    · simp
    · exact hr
  · split_ifs
    · simp
    · exact hr

theorem Timed.countFailure (h : rows.Timed) (limit : ℕ) (c : Claim P) (wait now : ℕ)
    (kind : String) : (rows.countFailure limit c wait now kind).Timed := by
  refine h.updateAll fun k r hr => ?_
  split_ifs <;> simp_all

section Progress

variable {takes : Uuid → Bool} {word : String} {window : ℕ}

/-- One claim of a queue: fail what lapsed with no attempt left, hold the oldest row. -/
def claimNext (limit : ℕ) (word : String) (takes : Uuid → Bool) (window now : ℕ)
    (rows : Queue D) : Queue D :=
  match (rows.failLapsed limit word now).oldest takes now with
  | none => rows.failLapsed limit word now
  | some (id, row) => (rows.failLapsed limit word now).insert id (row.hold now window)

/-- The subjects whose rows may be taken. -/
def candidates (takes : Uuid → Bool) (now : ℕ) (rows : Queue D) : Finset Uuid :=
  rows.keys.toFinset.filter fun k => takes k && (rows.lookup k).any (·.isClaimable now)

theorem mem_candidates :
    id ∈ rows.candidates takes now ↔
      takes id = true ∧ ∃ row, rows.lookup id = some row ∧ row.isClaimable now = true := by
  simp only [candidates, Finset.mem_filter, List.mem_toFinset, Bool.and_eq_true]
  constructor
  · rintro ⟨-, htakes, hany⟩
    cases hrow : rows.lookup id with
    | none => simp [hrow] at hany
    | some row => exact ⟨htakes, row, rfl, by simpa [hrow] using hany⟩
  · rintro ⟨htakes, row, hrow, hclaimable⟩
    refine ⟨?_, htakes, by simp [hrow, hclaimable]⟩
    rw [← AList.mem_keys, ← AList.lookup_isSome, hrow]
    rfl

/-- A claim takes one candidate and leaves the others. -/
theorem candidates_claimNext (hwindow : 0 < window)
    (hold : (rows.failLapsed limit word now).oldest takes now = some (id, row)) :
    ((claimNext limit word takes window now rows).failLapsed limit word now).candidates takes now =
      ((rows.failLapsed limit word now).candidates takes now).erase id := by
  ext k
  rw [Finset.mem_erase, mem_candidates, mem_candidates, lookup_failLapsed, claimNext, hold,
    Table.lookup_insert]
  by_cases hk : k = id
  · subst hk
    simp only [if_true, Option.map_some, Option.some.injEq, exists_eq_left', ne_eq,
      not_true_eq_false, false_and, iff_false, not_and]
    intro _
    have hlate : ¬(now + window ≤ now) := by omega
    split_ifs <;> simp [QueueRow.isClaimable, QueueRow.hold, QueueRow.hasLapsed, hlate]
  · rw [if_neg hk, lookup_failLapsed]
    cases rows.lookup k with
    | none => simp
    | some r =>
      simp only [Option.map_some, Option.some.injEq, exists_eq_left']
      split_ifs <;> simp_all [QueueRow.isSpent]

/-- A row that can be taken, with attempts left, is taken by one of the claims that follow. -/
theorem taken_of_claimNext (word : String) (hwindow : 0 < window) (hrow : rows.lookup id = some row)
    (htakes : takes id = true) (hclaimable : row.isClaimable now = true)
    (hspent : row.isSpent limit now = false) :
    ∃ n r, Queue.oldest takes now
      (((claimNext limit word takes window now)^[n] rows).failLapsed limit word now) =
        some (id, r) := by
  have hmem : id ∈ (rows.failLapsed limit word now).candidates takes now := by
    refine mem_candidates.mpr ⟨htakes, row, ?_, hclaimable⟩
    rw [lookup_failLapsed, hrow, Option.map_some, if_neg (by simp [hspent])]
  have hnone (rows : Queue D)
      (hnone : ((rows.failLapsed limit word now).oldest takes now).map Prod.fst = none) :
      (rows.failLapsed limit word now).candidates takes now = ∅ := by
    refine Finset.eq_empty_of_forall_notMem fun k hk => ?_
    obtain ⟨hk, r, hr, hcl⟩ := mem_candidates.mp hk
    have hnot := oldest_eq_none (Option.map_eq_none_iff.mp hnone) hr hk
    simp [hcl] at hnot
  obtain ⟨n, hn⟩ := taken_of_pick
    (fun rows : Queue D => ((rows.failLapsed limit word now).oldest takes now).map Prod.fst)
    (claimNext limit word takes window now)
    (fun rows => (rows.failLapsed limit word now).candidates takes now) hnone
    (fun rows k hpick => by
      obtain ⟨⟨k', r⟩, hfound, rfl⟩ := Option.map_eq_some_iff.mp hpick
      obtain ⟨hr, hk, hcl, -⟩ := oldest_eq_some hfound
      exact ⟨mem_candidates.mpr ⟨hk, r, hr, hcl⟩, candidates_claimNext hwindow hfound⟩) hmem
  obtain ⟨found, hfound, hid⟩ := Option.map_eq_some_iff.mp hn
  exact ⟨n, found.2, by rw [hfound, ← hid]⟩

end Progress

end Queue

end Rheostream
