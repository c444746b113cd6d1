import Mathlib.Data.Int.Interval
import Mathlib.Data.List.Dedup
import Rheostream.Foundation.Machine

/-!
# Counted attempts

Attempts are handed out by a counter: issuing a ticket raises it, and the holder of the last
ticket may give its attempt back. A ticket may be used once, and only while its number is
within a limit. Tickets outlive their standing (another one may be issued while they are in
hand), so uses are counted by number: the numbers spent are distinct and lie between one and
both the counter and the limit. A ledger is kept strictly when no ticket within the limit is
thrown away unused, and then no number is missing either.
-/

namespace Rheostream

universe u

/-- A ticket in hand: its number, and whether it has been used. -/
structure Ticket where
  number : ℤ
  used : Bool

/-- The counter, the limit on use, the owner whose ticket stands, the tickets in hand and the
numbers spent. -/
structure Ledger (Owner : Type u) where
  issued : ℤ
  limit : ℕ
  holder : Option Owner
  tickets : Owner → Option Ticket
  spent : List ℤ

/-- What happens to a ledger. -/
inductive LedgerAction (Owner : Type u) where
  /-- Set the limit, before anything is issued. -/
  | open (limit : ℕ)
  | issue (owner : Owner)
  | use (owner : Owner)
  | refund (owner : Owner)
  | drop (owner : Owner)
  /-- Nobody's ticket stands, or that of somebody who has none in hand. -/
  | hold (owner : Option Owner)
  /-- Start over: every ticket in hand is void and nothing is spent. -/
  | reset

namespace Ledger

variable {Owner : Type u} [DecidableEq Owner]

/-- One action on a ledger. -/
def step (strict : Bool) (l : Ledger Owner) : LedgerAction Owner → Option (Ledger Owner)
  | .open limit => if l.issued = 0 then some { l with limit := limit } else none
  | .issue owner =>
    if l.tickets owner = none then
      some { l with
        issued := l.issued + 1
        holder := some owner
        tickets := Function.update l.tickets owner (some ⟨l.issued + 1, false⟩) }
    else none
  | .use owner =>
    match l.tickets owner with
    | some ⟨number, false⟩ =>
      if number ≤ l.limit then
        some { l with
          tickets := Function.update l.tickets owner (some ⟨number, true⟩)
          spent := number :: l.spent }
      else none
    | _ => none
  | .refund owner =>
    match l.tickets owner with
    | some ⟨number, used⟩ =>
      if l.holder = some owner then
        some { l with
          issued := l.issued - 1
          holder := none
          tickets := Function.update l.tickets owner none
          spent := if used then l.spent.erase number else l.spent }
      else none
    | none => none
  | .drop owner =>
    match l.tickets owner with
    | some ⟨number, used⟩ =>
      if strict && !used && number ≤ l.limit then none
      else some { l with tickets := Function.update l.tickets owner none }
    | none => none
  | .hold owner =>
    match owner with
    | none => some { l with holder := none }
    | some owner =>
      if l.tickets owner = none then some { l with holder := some owner } else none
  | .reset => some { l with issued := 0, holder := none, tickets := fun _ => none, spent := [] }

/-- The empty ledger. -/
def empty : Ledger Owner := ⟨0, 0, none, fun _ => none, []⟩

/-- The ledger as a machine; a strict one throws away no ticket that could be used. -/
def machine (Owner : Type u) [DecidableEq Owner] (strict : Bool) :
    Machine (Ledger Owner) (LedgerAction Owner) where
  init l := l = empty
  step := step strict

section Runs

variable {strict : Bool} {l : Ledger Owner} {owner : Owner}

/-- Whatever an owner has in hand may go, unless that loses a number of a strict ledger. -/
theorem reaches_drop (hkept : strict = true → ∀ number,
    l.tickets owner = some ⟨number, false⟩ → (l.limit : ℤ) < number) :
    (machine Owner strict).Reaches l
      { l with tickets := Function.update l.tickets owner none } := by
  cases hticket : l.tickets owner with
  | none =>
    rw [← hticket, Function.update_eq_self]
    exact .refl _
  | some ticket =>
    obtain ⟨number, used⟩ := ticket
    refine .single (a := .drop owner) ?_
    have hmay : (strict && !used && decide (number ≤ (l.limit : ℤ))) = false := by
      cases strict <;> cases used <;> simp_all
    simp [machine, step, hticket, hmay]

theorem reaches_hold_none : (machine Owner strict).Reaches l { l with holder := none } :=
  .single (a := .hold none) rfl

/-- A ledger that is started over keeps its limit and nothing else. -/
theorem reaches_reset :
    (machine Owner strict).Reaches l { (empty : Ledger Owner) with limit := l.limit } :=
  .single (a := .reset) rfl

theorem reaches_open (limit : ℕ) :
    (machine Owner strict).Reaches empty { (empty : Ledger Owner) with limit := limit } :=
  .single (a := .open limit) rfl

/-- A ledger that is closed for good is as it was before it was opened. -/
theorem reaches_empty : (machine Owner strict).Reaches l (empty : Ledger Owner) :=
  reaches_reset.trans (.single (a := .open 0) rfl)

end Runs

/-- The numbers spent and the numbers in hand are accounted for. -/
structure Ok (l : Ledger Owner) : Prop where
  issued_nonneg : 0 ≤ l.issued
  spent_nodup : l.spent.Nodup
  spent_range : ∀ number ∈ l.spent, 1 ≤ number ∧ number ≤ l.issued ∧ number ≤ l.limit
  ticket_range : ∀ owner ticket, l.tickets owner = some ticket →
    1 ≤ ticket.number ∧ ticket.number ≤ l.issued
  ticket_inj : ∀ owner owner' ticket ticket', l.tickets owner = some ticket →
    l.tickets owner' = some ticket' → ticket.number = ticket'.number → owner = owner'
  used_iff : ∀ owner ticket, l.tickets owner = some ticket →
    (ticket.used = true ↔ ticket.number ∈ l.spent)
  holder_last : ∀ owner ticket, l.holder = some owner → l.tickets owner = some ticket →
    ticket.number = l.issued

variable {strict : Bool} {l l' : Ledger Owner}

/-- A ticket of an updated ledger is the new one or an old one of somebody else. -/
private theorem tickets_update {owner o : Owner} {new : Option Ticket} {ticket : Ticket}
    (h : Function.update l.tickets owner new o = some ticket) :
    o = owner ∧ new = some ticket ∨ o ≠ owner ∧ l.tickets o = some ticket := by
  by_cases ho : o = owner
  · subst ho
    exact .inl ⟨rfl, by rwa [Function.update_self] at h⟩
  · exact .inr ⟨ho, by rwa [Function.update_of_ne ho] at h⟩

omit [DecidableEq Owner] in
private theorem Ok.open (h : Ok l) (hissued : l.issued = 0) (limit : ℕ) :
    Ok { l with limit := limit } where
  issued_nonneg := h.issued_nonneg
  spent_nodup := h.spent_nodup
  spent_range number hnumber := by
    have := h.spent_range number hnumber
    omega
  ticket_range := h.ticket_range
  ticket_inj := h.ticket_inj
  used_iff := h.used_iff
  holder_last := h.holder_last

private theorem Ok.issue (h : Ok l) (owner : Owner) :
    Ok { l with
      issued := l.issued + 1
      holder := some owner
      tickets := Function.update l.tickets owner (some ⟨l.issued + 1, false⟩) } where
  issued_nonneg := Int.le_add_one h.issued_nonneg
  spent_nodup := h.spent_nodup
  spent_range number hnumber := by
    have := h.spent_range number hnumber
    dsimp only
    omega
  ticket_range o ticket hticket := by
    have hnonneg := h.issued_nonneg
    rcases tickets_update hticket with ⟨-, hnew⟩ | ⟨-, hold⟩
    · obtain rfl := Option.some.inj hnew
      dsimp only
      omega
    · have := h.ticket_range o ticket hold
      dsimp only
      omega
  ticket_inj o o' ticket ticket' hticket hticket' hnumber := by
    -- The new number is above every old one.
    rcases tickets_update hticket with ⟨rfl, hnew⟩ | ⟨-, hold⟩ <;>
      rcases tickets_update hticket' with ⟨rfl, hnew'⟩ | ⟨-, hold'⟩
    · rfl
    · obtain rfl := Option.some.inj hnew
      have := h.ticket_range o' ticket' hold'
      dsimp only at hnumber
      omega
    · obtain rfl := Option.some.inj hnew'
      have := h.ticket_range o ticket hold
      dsimp only at hnumber
      omega
    · exact h.ticket_inj o o' ticket ticket' hold hold' hnumber
  used_iff o ticket hticket := by
    rcases tickets_update hticket with ⟨-, hnew⟩ | ⟨-, hold⟩
    · obtain rfl := Option.some.inj hnew
      have hfresh : l.issued + 1 ∉ l.spent := fun hspent => by
        have := h.spent_range _ hspent
        omega
      simp [hfresh]
    · exact h.used_iff o ticket hold
  holder_last o ticket hholder hticket := by
    obtain rfl := Option.some.inj hholder
    rcases tickets_update hticket with ⟨-, hnew⟩ | ⟨hne, -⟩
    · obtain rfl := Option.some.inj hnew
      rfl
    · exact absurd rfl hne

private theorem Ok.use (h : Ok l) {owner : Owner} {number : ℤ}
    (hticket : l.tickets owner = some ⟨number, false⟩) (hlimit : number ≤ l.limit) :
    Ok { l with
      tickets := Function.update l.tickets owner (some ⟨number, true⟩)
      spent := number :: l.spent } where
  issued_nonneg := h.issued_nonneg
  spent_nodup := List.nodup_cons.mpr
    ⟨fun hspent => by simpa using (h.used_iff owner _ hticket).mpr hspent, h.spent_nodup⟩
  spent_range n hn := by
    rcases List.mem_cons.mp hn with rfl | hn
    · exact ⟨(h.ticket_range owner _ hticket).1, (h.ticket_range owner _ hticket).2, hlimit⟩
    · exact h.spent_range n hn
  ticket_range o ticket hnew := by
    rcases tickets_update hnew with ⟨-, hsome⟩ | ⟨-, hold⟩
    · obtain rfl := Option.some.inj hsome
      have hrange := h.ticket_range owner _ hticket
      exact hrange
    · exact h.ticket_range o ticket hold
  ticket_inj o o' ticket ticket' hnew hnew' hnumber := by
    rcases tickets_update hnew with ⟨rfl, hsome⟩ | ⟨-, hold⟩ <;>
      rcases tickets_update hnew' with ⟨rfl, hsome'⟩ | ⟨-, hold'⟩
    · rfl
    · obtain rfl := Option.some.inj hsome
      exact h.ticket_inj o o' _ ticket' hticket hold' hnumber
    · obtain rfl := Option.some.inj hsome'
      exact h.ticket_inj o o' ticket _ hold hticket hnumber
    · exact h.ticket_inj o o' ticket ticket' hold hold' hnumber
  used_iff o ticket hnew := by
    rcases tickets_update hnew with ⟨-, hsome⟩ | ⟨hne, hold⟩
    · obtain rfl := Option.some.inj hsome
      simp
    · have hother : ticket.number ≠ number := fun hnumber =>
        hne (h.ticket_inj o owner ticket _ hold hticket hnumber)
      simp [h.used_iff o ticket hold, hother]
  holder_last o ticket hholder hnew := by
    rcases tickets_update hnew with ⟨rfl, hsome⟩ | ⟨-, hold⟩
    · obtain rfl := Option.some.inj hsome
      have hlast := h.holder_last o _ hholder hticket
      exact hlast
    · exact h.holder_last o ticket hholder hold

private theorem Ok.drop (h : Ok l) (owner : Owner) :
    Ok { l with tickets := Function.update l.tickets owner none } := by
  have hold : ∀ {o ticket}, Function.update l.tickets owner none o = some ticket →
      l.tickets o = some ticket := fun hnew =>
    (tickets_update hnew).elim (fun hnone => absurd hnone.2 (by simp)) And.right
  exact ⟨h.issued_nonneg, h.spent_nodup, h.spent_range, fun o t ht => h.ticket_range o t (hold ht),
    fun o o' t t' ht ht' => h.ticket_inj o o' t t' (hold ht) (hold ht'),
    fun o t ht => h.used_iff o t (hold ht), fun o t ho ht => h.holder_last o t ho (hold ht)⟩

private theorem Ok.refund (h : Ok l) {owner : Owner} {number : ℤ} {used : Bool}
    (hticket : l.tickets owner = some ⟨number, used⟩) (hholder : l.holder = some owner) :
    Ok { l with
      issued := l.issued - 1
      holder := none
      tickets := Function.update l.tickets owner none
      spent := if used then l.spent.erase number else l.spent } := by
  have hlast : number = l.issued := h.holder_last owner _ hholder hticket
  have hpositive : 1 ≤ number := (h.ticket_range owner _ hticket).1
  have hother : ∀ {o ticket}, Function.update l.tickets owner none o = some ticket →
      l.tickets o = some ticket ∧ ticket.number ≠ number := by
    intro o ticket hnew
    rcases tickets_update hnew with ⟨-, hnone⟩ | ⟨hne, hold⟩
    · cases hnone
    · exact ⟨hold, fun hnumber => hne (h.ticket_inj o owner ticket _ hold hticket hnumber)⟩
  have hspent : ∀ n, n ∈ (if used then l.spent.erase number else l.spent) ↔
      n ∈ l.spent ∧ n ≠ number := by
    intro n
    cases used with
    | true =>
      simp only [if_true, h.spent_nodup.mem_erase_iff]
      exact and_comm
    | false =>
      have hunused : number ∉ l.spent := fun hmem => by
        simpa using (h.used_iff owner _ hticket).mpr hmem
      simp only [Bool.false_eq_true, if_false]
      exact ⟨fun hn => ⟨hn, fun heq => hunused (heq ▸ hn)⟩, And.left⟩
  refine ⟨?_, ?_, ?_, ?_, ?_, ?_, ?_⟩
  · dsimp only
    omega
  · dsimp only
    split
    · exact h.spent_nodup.erase _
    · exact h.spent_nodup
  · intro n hn
    obtain ⟨hn, hne⟩ := (hspent n).mp hn
    have := h.spent_range n hn
    dsimp only
    omega
  · intro o ticket hnew
    obtain ⟨hold, hne⟩ := hother hnew
    have := h.ticket_range o ticket hold
    dsimp only
    omega
  · intro o o' ticket ticket' hnew hnew'
    exact h.ticket_inj o o' ticket ticket' (hother hnew).1 (hother hnew').1
  · intro o ticket hnew
    obtain ⟨hold, hne⟩ := hother hnew
    rw [h.used_iff o ticket hold, hspent]
    exact ⟨fun hmem => ⟨hmem, hne⟩, And.left⟩
  · intro o ticket hnone
    cases hnone

/-- Every action keeps the account. -/
theorem Ok.step {a : LedgerAction Owner} (h : Ok l) (hstep : l.step strict a = some l') :
    Ok l' := by
  cases a with
  | «open» limit =>
    obtain ⟨hissued, rfl⟩ := by simpa [Ledger.step] using hstep
    exact h.open hissued limit
  | issue owner =>
    obtain ⟨-, rfl⟩ := by simpa [Ledger.step] using hstep
    exact h.issue owner
  | use owner =>
    simp only [Ledger.step] at hstep
    split at hstep
    case h_1 hticket =>
      split at hstep
      case isTrue hlimit =>
        obtain rfl := Option.some.inj hstep
        exact h.use hticket hlimit
      case isFalse => cases hstep
    case h_2 => cases hstep
  | refund owner =>
    simp only [Ledger.step] at hstep
    split at hstep
    case h_1 hticket =>
      split at hstep
      case isTrue hholder =>
        obtain rfl := Option.some.inj hstep
        exact h.refund hticket hholder
      case isFalse => cases hstep
    case h_2 => cases hstep
  | drop owner =>
    simp only [Ledger.step] at hstep
    split at hstep
    case h_1 =>
      split at hstep
      case isTrue => cases hstep
      case isFalse =>
        obtain rfl := Option.some.inj hstep
        exact h.drop owner
    case h_2 => cases hstep
  | hold owner =>
    cases owner with
    | none =>
      obtain rfl := Option.some.inj hstep
      exact ⟨h.issued_nonneg, h.spent_nodup, h.spent_range, h.ticket_range, h.ticket_inj,
        h.used_iff, fun _ _ hnone => by cases hnone⟩
    | some owner =>
      obtain ⟨hnone, rfl⟩ := by simpa [Ledger.step] using hstep
      refine ⟨h.issued_nonneg, h.spent_nodup, h.spent_range, h.ticket_range, h.ticket_inj,
        h.used_iff, fun o ticket ho hticket => ?_⟩
      obtain rfl := Option.some.inj ho
      exact absurd (hnone.symm.trans hticket) (by simp)
  | reset =>
    obtain rfl := Option.some.inj hstep
    exact ⟨le_rfl, List.nodup_nil, by simp, by simp, by simp, by simp, by simp⟩

theorem ok_of_reachable (h : (machine Owner strict).Reachable l) : Ok l := by
  refine Machine.IsInvariant.of_reachable ⟨?_, fun _ _ _ hok hstep => hok.step hstep⟩ h
  rintro _ rfl
  exact ⟨le_rfl, List.nodup_nil, by simp [empty], by simp [empty], by simp [empty],
    by simp [empty], by simp [empty]⟩

omit [DecidableEq Owner] in
/-- No more numbers are spent than the counter and the limit allow. -/
theorem Ok.length_spent_le (h : Ok l) :
    (l.spent.length : ℤ) ≤ l.issued ∧ l.spent.length ≤ l.limit := by
  have hcard : ∀ m : ℕ, (∀ n ∈ l.spent, n ≤ (m : ℤ)) → l.spent.length ≤ m := by
    intro m hm
    rw [← List.toFinset_card_of_nodup h.spent_nodup]
    have hsub : l.spent.toFinset ⊆ Finset.Icc (1 : ℤ) m := by
      intro n hn
      rw [List.mem_toFinset] at hn
      exact Finset.mem_Icc.mpr ⟨(h.spent_range n hn).1, hm n hn⟩
    simpa using Finset.card_le_card hsub
  refine ⟨?_, hcard l.limit fun n hn => (h.spent_range n hn).2.2⟩
  have hissued := hcard l.issued.toNat fun n hn =>
    (h.spent_range n hn).2.1.trans (Int.self_le_toNat _)
  have hnonneg := h.issued_nonneg
  omega

/-- Every number handed out within the limit is spent or still in hand, unused. -/
def Covered (l : Ledger Owner) : Prop :=
  ∀ number, 1 ≤ number → number ≤ l.issued → number ≤ l.limit →
    number ∈ l.spent ∨ ∃ owner, l.tickets owner = some ⟨number, false⟩

/-- A strictly kept ledger loses no number. -/
private theorem Covered.step {a : LedgerAction Owner} (hok : Ok l) (h : Covered l)
    (hstep : l.step true a = some l') : Covered l' := by
  intro number hpositive hissued hlimit
  cases a with
  | «open» limit =>
    obtain ⟨hzero, rfl⟩ := by simpa [Ledger.step] using hstep
    dsimp only at hissued
    omega
  | issue owner =>
    obtain ⟨hnone, rfl⟩ := by simpa [Ledger.step] using hstep
    by_cases hnew : number = l.issued + 1
    · exact .inr ⟨owner, by simp [hnew]⟩
    · rcases h number hpositive (by dsimp only at hissued; omega) hlimit with hspent | ⟨o, ho⟩
      · exact .inl hspent
      · have hne : o ≠ owner := by
          rintro rfl
          exact absurd (hnone.symm.trans ho) (by simp)
        exact .inr ⟨o, by simp [hne, ho]⟩
  | use owner =>
    simp only [Ledger.step] at hstep
    split at hstep
    case h_1 n hticket =>
      split at hstep
      case isTrue =>
        obtain rfl := Option.some.inj hstep
        rcases h number hpositive hissued hlimit with hspent | ⟨o, ho⟩
        · exact .inl (List.mem_cons_of_mem _ hspent)
        · by_cases hne : o = owner
          · subst hne
            obtain ⟨rfl, -⟩ := by simpa using hticket.symm.trans ho
            exact .inl List.mem_cons_self
          · exact .inr ⟨o, by simp [hne, ho]⟩
      case isFalse => cases hstep
    case h_2 => cases hstep
  | refund owner =>
    simp only [Ledger.step] at hstep
    split at hstep
    case h_1 n used hticket =>
      split at hstep
      case isTrue hholder =>
        obtain rfl := Option.some.inj hstep
        have hlast : n = l.issued := hok.holder_last owner _ hholder hticket
        dsimp only at hissued
        have hne : number ≠ n := by omega
        rcases h number hpositive (by omega) hlimit with hspent | ⟨o, ho⟩
        · left
          dsimp only
          split
          · exact (List.mem_erase_of_ne hne).mpr hspent
          · exact hspent
        · have ho' : o ≠ owner := by
            rintro rfl
            obtain ⟨rfl, -⟩ := by simpa using ho.symm.trans hticket
            exact hne rfl
          exact .inr ⟨o, by simp [ho', ho]⟩
      case isFalse => cases hstep
    case h_2 => cases hstep
  | drop owner =>
    simp only [Ledger.step] at hstep
    split at hstep
    case h_1 n used hticket =>
      split at hstep
      case isTrue => cases hstep
      case isFalse hkept =>
        obtain rfl := Option.some.inj hstep
        rcases h number hpositive hissued hlimit with hspent | ⟨o, ho⟩
        · exact .inl hspent
        · have ho' : o ≠ owner := by
            rintro rfl
            obtain ⟨rfl, rfl⟩ := by simpa using hticket.symm.trans ho
            simp [hlimit] at hkept
          exact .inr ⟨o, by simp [ho', ho]⟩
    case h_2 => cases hstep
  | hold owner =>
    cases owner with
    | none =>
      obtain rfl := Option.some.inj hstep
      exact h number hpositive hissued hlimit
    | some owner =>
      obtain ⟨-, rfl⟩ := by simpa [Ledger.step] using hstep
      exact h number hpositive hissued hlimit
  | reset =>
    obtain rfl := Option.some.inj hstep
    dsimp only at hissued
    omega

theorem covered_of_reachable (h : (machine Owner true).Reachable l) : Covered l := by
  refine Machine.Reachable.invariant ?_
    (fun _ _ _ hs hcovered hstep => hcovered.step (ok_of_reachable hs) hstep) h
  rintro _ rfl number hpositive hissued
  simp only [empty] at hissued
  omega

omit [DecidableEq Owner] in
/-- Once the limit is reached and nobody holds an unused ticket within it, exactly the limit
is spent. -/
theorem Ok.length_spent_eq (hok : Ok l) (h : Covered l) (hissued : (l.limit : ℤ) ≤ l.issued)
    (hnone : ∀ owner number, l.tickets owner = some ⟨number, false⟩ → (l.limit : ℤ) < number) :
    l.spent.length = l.limit := by
  refine le_antisymm hok.length_spent_le.2 ?_
  have hsub : Finset.Icc (1 : ℤ) l.limit ⊆ l.spent.toFinset := by
    intro number hnumber
    obtain ⟨hpositive, hlimit⟩ := Finset.mem_Icc.mp hnumber
    rcases h number hpositive (hlimit.trans hissued) hlimit with hspent | ⟨owner, hticket⟩
    · exact List.mem_toFinset.mpr hspent
    · exact absurd (hnone owner number hticket) (not_lt.mpr hlimit)
  simpa [List.toFinset_card_of_nodup hok.spent_nodup] using Finset.card_le_card hsub

end Ledger

end Rheostream
