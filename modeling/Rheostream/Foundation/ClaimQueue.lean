import Mathlib.Data.List.MinMax
import Mathlib.Data.Prod.Lex
import Rheostream.Foundation.Table
import Rheostream.Foundation.Values

/-!
# Queues whose rows are claimed for a window

A row asks for work. A worker claims it: the attempt is counted and the row held until the
claim lapses. An answer is accepted only on the claim that still holds the row. The history
of a queue says which claim holds which row and how many attempts each request has spent,
and `Sound` ties it to the rows and to the claims still unanswered.
-/

namespace Rheostream

universe u v

/-- What a row of a claim queue is doing. -/
inductive RowState where
  | idle
  | queued
  | held
  | ready
  | failed
  deriving DecidableEq

/-- A row of a claim queue, with what else its table keeps. -/
structure QueueRow (D : Type u) where
  state : RowState
  attempts : ℕ
  /-- While queued, when it may run. While held, when its claim lapses. -/
  retryAfter : Option ℕ
  failureKind : Option String
  requestedAt : ℕ
  updatedAt : ℕ
  data : D

/-- What a worker keeps of its claim: the request it answers, the attempt it counted and what
it read of the row. -/
structure Claim (P : Type v) where
  id : Uuid
  requestedAt : ℕ
  attempts : ℕ
  read : P

/-- How a claim is answered. -/
inductive Answer where
  | finished
  | deferred
  | failed
  deriving DecidableEq

namespace QueueRow

variable {D : Type u} {P : Type v}

/-- `retry_after IS NULL OR retry_after <= now`. -/
def isDue (now : ℕ) (row : QueueRow D) : Bool := row.retryAfter.all (· ≤ now)

/-- `retry_after <= now`. -/
def hasLapsed (now : ℕ) (row : QueueRow D) : Bool := row.retryAfter.any (· ≤ now)

/-- A queued row that is due, or a row whose claim has lapsed. -/
def isClaimable (now : ℕ) (row : QueueRow D) : Bool :=
  (row.state = .queued && row.isDue now) || (row.state = .held && row.hasLapsed now)

/-- A row whose claim has lapsed with its attempts used up. -/
def isSpent (limit now : ℕ) (row : QueueRow D) : Bool :=
  row.state = .held && row.hasLapsed now && limit ≤ row.attempts

/-- The row after a new claim of it. -/
def hold (now window : ℕ) (row : QueueRow D) : QueueRow D :=
  { row with
    state := .held
    attempts := row.attempts + 1
    retryAfter := some (now + window)
    failureKind := none
    updatedAt := now }

/-- The claim of a row that was just held. -/
def claim (id : Uuid) (read : P) (row : QueueRow D) : Claim P where
  id := id
  requestedAt := row.requestedAt
  attempts := row.attempts
  read := read

/-- The row is still held by the claim: for the same request, the same attempt. -/
def isHeldBy (c : Claim P) (row : QueueRow D) : Bool :=
  row.state = .held && row.requestedAt = c.requestedAt && row.attempts = c.attempts

variable {row : QueueRow D}

theorem isHeldBy_iff {c : Claim P} :
    row.isHeldBy c = true ↔
      row.state = .held ∧ row.requestedAt = c.requestedAt ∧ row.attempts = c.attempts := by
  simp [isHeldBy, and_assoc]

theorem isClaimable_iff {now : ℕ} :
    row.isClaimable now = true ↔
      row.state = .queued ∧ row.isDue now = true ∨
        row.state = .held ∧ row.hasLapsed now = true := by
  simp [isClaimable]

theorem isSpent_iff {limit now : ℕ} :
    row.isSpent limit now = true ↔
      row.state = .held ∧ row.hasLapsed now = true ∧ limit ≤ row.attempts := by
  simp [isSpent, and_assoc]

end QueueRow

/-- A queue, one row for each subject. -/
abbrev Queue (D : Type u) := Table Uuid (QueueRow D)

namespace Queue

variable {D : Type u} {P : Type v}

/-- Fail every row whose claim has lapsed with its attempts used up. -/
def failLapsed (limit : ℕ) (word : String) (now : ℕ) (rows : Queue D) : Queue D :=
  rows.updateAll fun _ row =>
    if row.isSpent limit now then
      { row with
        state := .failed
        retryAfter := none
        failureKind := some word
        updatedAt := now }
    else row

/-- The subjects of the rows that `failLapsed` fails. -/
def lapsing (limit now : ℕ) (rows : Queue D) : List Uuid :=
  (rows.entries.filter fun e => e.2.isSpent limit now).map Sigma.fst

/-- The oldest claimable row among those that may be taken, by request and then by subject. -/
def oldest (takes : Uuid → Bool) (now : ℕ) (rows : Queue D) : Option (Uuid × QueueRow D) :=
  ((rows.entries.filter fun e => takes e.1 && e.2.isClaimable now).argmin fun e =>
    toLex (e.2.requestedAt, e.1)).map fun e => (e.1, e.2)

/-- The row is still held by the claim. -/
def isMine (c : Claim P) (rows : Queue D) : Bool := (rows.lookup c.id).any (·.isHeldBy c)

/-- Hold the claim's row until a later instant, when it is still the claim's. -/
def renew (c : Claim P) (until_ : ℕ) (rows : Queue D) : Queue D :=
  rows.updateIf c.id ⟨fun row => row.isHeldBy c, fun row => { row with retryAfter := some until_ }⟩

/-- Give a claim's attempt back and let every queued row that is due by `until_` wait for it. -/
def giveBack (c : Claim P) (until_ now : ℕ) (kind : String) (rows : Queue D) : Queue D :=
  (rows.updateAll fun id row =>
    if id = c.id then { row with state := .queued, attempts := c.attempts - 1 } else row).updateAll
  fun id row =>
    if row.state = .queued ∧ (id = c.id ∨ row.isDue until_) then
      { row with retryAfter := some until_, failureKind := some kind, updatedAt := now }
    else row

/-- Count a claim's failure: the last attempt fails the row, an earlier one waits. -/
def countFailure (limit : ℕ) (c : Claim P) (wait now : ℕ) (kind : String) (rows : Queue D) :
    Queue D :=
  rows.updateAll fun id row =>
    if id = c.id then
      { row with
        state := if limit ≤ c.attempts then .failed else .queued
        failureKind := some kind
        retryAfter := if limit ≤ c.attempts then none else some (now + wait)
        updatedAt := now }
    else row

/-- When the next worker is needed: now while something can be taken, else at the earliest
wait or lapse. -/
def followUpAt (takes : Uuid → Bool) (now : ℕ) (rows : Queue D) : Option ℕ :=
  if rows.existsRow fun id row => takes id && row.isClaimable now then some now
  else ((rows.entries.filter fun e => e.2.state = .queued || e.2.state = .held).filterMap
    fun e => e.2.retryAfter).min?

end Queue

/-- One entry of a queue's history. -/
inductive QueueEvent where
  /-- These rows were requested anew, taken out of the queue or deleted. -/
  | reset (ids : List Uuid)
  /-- The `n`th claim took the row. -/
  | claimed (n : ℕ) (id : Uuid)
  /-- These rows failed: their claims lapsed with no attempt left. -/
  | lapsed (ids : List Uuid)
  /-- The answer of the `n`th claim was written to the row. -/
  | answered (n : ℕ) (id : Uuid) (answer : Answer)
  deriving DecidableEq

/-- A queue's history, the latest entry first. -/
abbrev QueueLog := List QueueEvent

namespace QueueEvent

/-- The entry is about this row. -/
def touches (id : Uuid) : QueueEvent → Bool
  | reset ids => ids.contains id
  | claimed _ k => k = id
  | lapsed ids => ids.contains id
  | answered _ k _ => k = id

/-- The entry is an answer of this claim. -/
def isAnswerOf (n : ℕ) : QueueEvent → Bool
  | answered m _ _ => m = n
  | _ => false

end QueueEvent

namespace QueueLog

/-- How many claims were taken. The next claim's number. -/
def claims : QueueLog → ℕ
  | [] => 0
  | .claimed _ _ :: log => claims log + 1
  | _ :: log => claims log

/-- The claim that holds a row. -/
def holder (id : Uuid) : QueueLog → Option ℕ
  | [] => none
  | .claimed n k :: log => if k = id then some n else holder id log
  | e :: log => if e.touches id then none else holder id log

/-- The attempts that a row's request has spent: its counted failures and the claims of it
that lapsed. A deferred claim spends none. -/
def spent (id : Uuid) : QueueLog → ℕ
  | [] => 0
  | .reset ids :: log => if ids.contains id then 0 else spent id log
  | .claimed _ k :: log =>
    if k = id ∧ (holder id log).isSome then spent id log + 1 else spent id log
  | .lapsed ids :: log => if ids.contains id then spent id log + 1 else spent id log
  | .answered _ k answer :: log =>
    if k = id ∧ answer = .failed then spent id log + 1 else spent id log

/-- The counted failures since a row's request. -/
def failures (id : Uuid) : QueueLog → ℕ
  | [] => 0
  | .reset ids :: log => if ids.contains id then 0 else failures id log
  | .answered _ k answer :: log =>
    if k = id ∧ answer = .failed then failures id log + 1 else failures id log
  | _ :: log => failures id log

/-- Claims are numbered in order and every answer is written by the claim that holds the row. -/
def IsHonest : QueueLog → Prop
  | [] => True
  | .claimed n _ :: log => n = claims log ∧ IsHonest log
  | .answered n id _ :: log => holder id log = some n ∧ IsHonest log
  | _ :: log => IsHonest log

/-- A counted failure spends an attempt. -/
theorem failures_le_spent (id : Uuid) (log : QueueLog) : failures id log ≤ spent id log := by
  induction log with
  | nil => exact le_rfl
  | cons e log ih =>
    cases e with
    | reset ids =>
      simp only [failures, spent]
      split_ifs <;> omega
    | claimed n k =>
      simp only [failures, spent]
      split_ifs <;> omega
    | lapsed ids =>
      simp only [failures, spent]
      split_ifs <;> omega
    | answered n k answer =>
      simp only [failures, spent]
      split_ifs <;> omega

variable {id : Uuid} {log : QueueLog} {n : ℕ}

/-- A row's holder took it, and nothing happened to the row since. -/
theorem split_of_holder (h : holder id log = some n) :
    ∃ later earlier, log = later ++ .claimed n id :: earlier ∧
      ∀ e ∈ later, e.touches id = false := by
  induction log with
  | nil => cases h
  | cons e log ih =>
    by_cases htouch : e.touches id = true
    · cases e with
      | claimed m k =>
        obtain rfl : k = id := by simpa [QueueEvent.touches] using htouch
        obtain rfl : m = n := by simpa [holder] using h
        exact ⟨[], log, rfl, by simp⟩
      | reset ids => simp [holder, htouch] at h
      | lapsed ids => simp [holder, htouch] at h
      | answered m k answer => simp [holder, htouch] at h
    · have hrest : holder id log = some n := by
        cases e with
        | claimed m k =>
          have hne : k ≠ id := by simpa [QueueEvent.touches] using htouch
          simpa [holder, hne] using h
        | reset ids => simpa [holder, htouch] using h
        | lapsed ids => simpa [holder, htouch] using h
        | answered m k answer => simpa [holder, htouch] using h
      obtain ⟨later, earlier, rfl, hlater⟩ := ih hrest
      refine ⟨e :: later, earlier, rfl, ?_⟩
      intro e' hmem
      obtain rfl | hmem := List.mem_cons.mp hmem
      · simpa using htouch
      · exact hlater e' hmem

/-- The part of an honest history before an entry is honest. -/
theorem IsHonest.of_append {later log : QueueLog} (h : IsHonest (later ++ log)) : IsHonest log := by
  induction later with
  | nil => exact h
  | cons e later ih =>
    cases e with
    | claimed n k => exact ih h.2
    | answered n k answer => exact ih h.2
    | reset ids => exact ih h
    | lapsed ids => exact ih h

/-- How many answers of a claim a history holds. -/
def answers (n : ℕ) (log : QueueLog) : ℕ := log.countP fun e => e.isAnswerOf n

/-- What is known of a claim: it was not taken yet, or it holds one row and has not answered,
or it holds none and answered at most once. -/
private structure Account (n : ℕ) (log : QueueLog) : Prop where
  new : claims log ≤ n → answers n log = 0 ∧ ∀ id, holder id log ≠ some n
  single : ∀ id k, holder id log = some n → holder k log = some n → id = k
  pending : ∀ id, holder id log = some n → answers n log = 0
  once : answers n log ≤ 1

private theorem Account.weaken {log log' : QueueLog} (h : Account n log)
    (hclaims : claims log' = claims log) (hanswers : answers n log' = answers n log)
    (hholder : ∀ id, holder id log' = some n → holder id log = some n) : Account n log' where
  new hn := by
    rw [hclaims] at hn
    rw [hanswers]
    exact ⟨(h.new hn).1, fun id hid => (h.new hn).2 id (hholder id hid)⟩
  single id k hid hk := h.single id k (hholder id hid) (hholder k hk)
  pending id hid := by
    rw [hanswers]
    exact h.pending id (hholder id hid)
  once := by
    rw [hanswers]
    exact h.once

/-- A new claim of a row: its number is new and the row is its own. -/
private theorem Account.claimed (h : Account n log) (k : Uuid) :
    Account n (.claimed (claims log) k :: log) := by
  have hanswers : answers n (.claimed (claims log) k :: log) = answers n log :=
    List.countP_cons_of_neg (by simp [QueueEvent.isAnswerOf])
  have hcase (id : Uuid) (hid : holder id (.claimed (claims log) k :: log) = some n) :
      k = id ∧ claims log = n ∨ holder id log = some n := by
    by_cases heq : k = id
    · exact .inl ⟨heq, by simpa [holder, heq] using hid⟩
    · exact .inr (by simpa [holder, heq] using hid)
  constructor
  case new =>
    intro hn
    simp only [claims] at hn
    obtain ⟨hzero, hnone⟩ := h.new (by omega)
    refine ⟨by rw [hanswers]; exact hzero, fun id hid => ?_⟩
    obtain ⟨-, heq⟩ | hold := hcase id hid
    · omega
    · exact hnone id hold
  case single =>
    intro id k' hid hk'
    obtain ⟨rfl, hn⟩ | hold := hcase id hid
    · obtain ⟨rfl, -⟩ | hold' := hcase k' hk'
      · rfl
      · exact absurd hold' ((h.new hn.le).2 k')
    · obtain ⟨rfl, hn⟩ | hold' := hcase k' hk'
      · exact absurd hold ((h.new hn.le).2 id)
      · exact h.single id k' hold hold'
  case pending =>
    intro id hid
    rw [hanswers]
    obtain ⟨-, hn⟩ | hold := hcase id hid
    · exact (h.new hn.le).1
    · exact h.pending id hold
  case once =>
    rw [hanswers]
    exact h.once

/-- A row's holder answers: from then on it holds none. -/
private theorem Account.answered (h : Account n log) {m : ℕ} {k : Uuid} (answer : Answer)
    (hholder : holder k log = some m) : Account n (.answered m k answer :: log) := by
  have hcase (id : Uuid) (hid : holder id (.answered m k answer :: log) = some n) :
      k ≠ id ∧ holder id log = some n := by
    by_cases heq : k = id
    · simp [holder, QueueEvent.touches, heq] at hid
    · exact ⟨heq, by simpa [holder, QueueEvent.touches, heq] using hid⟩
  by_cases hm : m = n
  · subst hm
    have hnone (id : Uuid) : holder id (.answered m k answer :: log) ≠ some m := by
      intro hid
      obtain ⟨hne, hold⟩ := hcase id hid
      exact hne (h.single k id hholder hold)
    have hone : answers m (.answered m k answer :: log) = 1 := by
      have hzero := h.pending k hholder
      have hsucc : answers m (.answered m k answer :: log) = answers m log + 1 :=
        List.countP_cons_of_pos (by simp [QueueEvent.isAnswerOf])
      omega
    constructor
    case new =>
      intro hn
      exact absurd hholder ((h.new hn).2 k)
    case single =>
      intro id k' hid
      exact absurd hid (hnone id)
    case pending =>
      intro id hid
      exact absurd hid (hnone id)
    case once => exact hone.le
  · exact h.weaken rfl (List.countP_cons_of_neg (by simp [QueueEvent.isAnswerOf, hm]))
      fun id hid => (hcase id hid).2

private theorem IsHonest.account (h : IsHonest log) (n : ℕ) : Account n log := by
  induction log with
  | nil =>
    constructor
    case new => exact fun _ => ⟨rfl, fun id hid => by cases hid⟩
    case once => exact Nat.zero_le 1
    all_goals
      intro id
      simp [holder]
  | cons e log ih =>
    cases e with
    | claimed m k =>
      obtain ⟨rfl, hlog⟩ := h
      exact (ih hlog).claimed k
    | answered m k answer => exact (ih h.2).answered answer h.1
    | reset ids =>
      refine (ih h).weaken rfl (List.countP_cons_of_neg (by simp [QueueEvent.isAnswerOf])) ?_
      intro id hid
      simp only [holder] at hid
      split_ifs at hid
      exact hid
    | lapsed ids =>
      refine (ih h).weaken rfl (List.countP_cons_of_neg (by simp [QueueEvent.isAnswerOf])) ?_
      intro id hid
      simp only [holder] at hid
      split_ifs at hid
      exact hid

/-- In an honest history a claim answers at most once. -/
theorem IsHonest.answers_le_one (h : IsHonest log) (n : ℕ) : answers n log ≤ 1 :=
  (h.account n).once

/-- In an honest history an answer is written on the claim that produced it: since that claim
took the row, nothing happened to the row. -/
theorem IsHonest.own_claim {later earlier : QueueLog} {answer : Answer}
    (h : IsHonest (later ++ .answered n id answer :: earlier)) :
    ∃ between before, earlier = between ++ .claimed n id :: before ∧
      ∀ e ∈ between, e.touches id = false :=
  split_of_holder (IsHonest.of_append h).1

variable {e : QueueEvent}

/-- An entry that is not about a row leaves what its history says of the row. -/
theorem holder_cons (he : e.touches id = false) (log : QueueLog) :
    holder id (e :: log) = holder id log := by
  cases e with
  | claimed n k =>
    have hne : k ≠ id := by simpa [QueueEvent.touches] using he
    simp [holder, hne]
  | _ => simp [holder, he]

theorem spent_cons (he : e.touches id = false) (log : QueueLog) :
    spent id (e :: log) = spent id log := by
  cases e with
  | reset ids => simp_all [spent, QueueEvent.touches]
  | lapsed ids => simp_all [spent, QueueEvent.touches]
  | _ =>
    have hne := of_decide_eq_false he
    simp [spent, hne]

/-- A reset gives no row a holder. -/
theorem holder_of_reset {ids : List Uuid} (h : holder id (.reset ids :: log) = some n) :
    holder id log = some n := by
  simp only [holder] at h
  split_ifs at h
  exact h

theorem isSome_holder_of_reset {ids : List Uuid} (h : (holder id (.reset ids :: log)).isSome) :
    (holder id log).isSome := by
  obtain ⟨n, hn⟩ := Option.isSome_iff_exists.mp h
  rw [holder_of_reset hn]
  rfl

theorem failures_cons (he : e.touches id = false) (log : QueueLog) :
    failures id (e :: log) = failures id log := by
  cases e with
  | reset ids => simp_all [failures, QueueEvent.touches]
  | answered n k answer =>
    have hne := of_decide_eq_false he
    simp [failures, hne]
  | _ => rfl

end QueueLog

end Rheostream
