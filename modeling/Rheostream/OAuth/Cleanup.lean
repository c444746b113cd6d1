import Rheostream.OAuth.Locks

/-!
# What a cleanup deletes

A registration deletes the clients that its `DELETE` selected. One of them can get an
authorization between the two; while none does, every deleted client is abandoned.
-/

namespace Rheostream

/-- The client that a transaction is about to write an authorization in flight for: a held
request, or an approval with its code. -/
def OAuthFlight.bringsInFlight : OAuthFlight → Option String
  | holding h => some h.clientId
  | choosing d [] chosen =>
    if d.workspaceId.any chosen.contains then some d.row.clientId else none
  | _ => none

namespace OAuthState

variable (D : Digests) (R : Registry) (challenge : String → String)

/-- The step writes no authorization in flight for a client that a cleanup has selected. -/
def spares (s : OAuthState) : OAuthAction → Bool
  | .advance p _ => ((s.flights.lookup p).bind OAuthFlight.bringsInFlight).all
      fun client => !s.selects client
  | _ => true

/-- The connector sign-in while no client gets an authorization in flight between the two
instants of a `DELETE` that selected it. -/
def sparing : Machine OAuthState OAuthAction :=
  (machine D R challenge).restrict fun s a => s.spares a = true

variable {D R challenge} {s t : OAuthState} {a : OAuthAction}

/-- No client that a cleanup has selected has an authorization in flight. -/
def Spared (s : OAuthState) : Prop :=
  ∀ p r recent selected, s.flights.lookup p = some (.deleting r recent selected) →
    ∀ client ∈ selected, s.tables.hasInFlight client r.now = false

theorem selects_of_mem {p : ℕ} {r : Registration} {recent : ℕ} {selected : List String}
    {client : String} (hflight : s.flights.lookup p = some (.deleting r recent selected))
    (hmem : client ∈ selected) : s.selects client = true :=
  Table.existsRow_iff.mpr ⟨p, _, hflight, by simpa [OAuthFlight.selects] using hmem⟩

/-- A client without a grant and without an authorization in flight is what is selected. -/
theorem abandoned_of_mem {tables : OAuthTables} {now before : ℕ} {client : String}
    (h : client ∈ tables.abandonedClients now before) : tables.hasInFlight client now = false := by
  obtain ⟨row, hrow⟩ := Option.isSome_iff_exists.mp (AList.lookup_isSome.mpr (AList.mem_keys.mp h))
  rw [Table.lookup_select] at hrow
  obtain ⟨-, habandoned⟩ := Option.filter_eq_some_iff.mp hrow
  simp only [OAuthTables.isAbandoned, Bool.and_eq_true, Bool.not_eq_true'] at habandoned
  exact habandoned.2

/-- A write brings no authorization in flight but that of a held request or an approval. -/
theorem Writes.inFlight_of {draw : Draw} {flight : OAuthFlight} {tables : OAuthTables}
    {answer : OAuthAnswer} (h : Writes s draw flight tables answer) {id : Uuid}
    {row : OAuthAuthorizationRow} {now : ℕ} (hrow : tables.authorizations.lookup id = some row)
    (hin : row.inFlight now = true) :
    flight.bringsInFlight = some row.clientId ∨
      ∃ old, s.tables.authorizations.lookup id = some old ∧ old.clientId = row.clientId ∧
        old.inFlight now = true := by
  cases h with
  | refused | rotated | revoked => exact .inr ⟨row, hrow, rfl, hin⟩
  | cleaned _ _ _ _ _ _ _ htables =>
    subst htables
    exact .inr ⟨row, lookup_clean_authorizations hrow, rfl, hin⟩
  | held hclient =>
    rw [Table.lookup_insert] at hrow
    split_ifs at hrow with hid
    · obtain rfl := Option.some.inj hrow
      exact .inl (congrArg some hclient.symm)
    · exact .inr ⟨row, hrow, rfl, hin⟩
  | @approved d chosen event hevent hchosen hold =>
    rw [Table.lookup_insert] at hrow
    split_ifs at hrow with hid
    · obtain rfl := Option.some.inj hrow
      exact .inl (if_pos hchosen)
    · exact .inr ⟨row, hrow, rfl, hin⟩
  | @declined d flight answer event hflight hevent hold =>
    rw [Table.lookup_insert] at hrow
    split_ifs at hrow with hid
    · obtain rfl := Option.some.inj hrow
      refine .inr ⟨d.row, hid ▸ hold, rfl, ?_⟩
      -- Without a code only the request itself can still be in flight.
      obtain hrequest | hcode := Bool.or_eq_true_iff.mp hin
      · exact Bool.or_eq_true_iff.mpr (.inl hrequest)
      · cases hcode
    · exact .inr ⟨row, hrow, rfl, hin⟩
  | @burned e _ _ _ hold | @redeemed e _ _ _ _ _ _ _ hold =>
    rw [Table.lookup_insert] at hrow
    split_ifs at hrow with hid
    · obtain rfl := Option.some.inj hrow
      exact .inr ⟨e.row, hid ▸ hold, rfl, hin⟩
    · exact .inr ⟨row, hrow, rfl, hin⟩
  | ended =>
    rw [endGrant_authorizations] at hrow
    exact .inr ⟨row, hrow, rfl, hin⟩

theorem Spared.step (hs : s.Spared) (hok : s.spares a = true) (h : StepCase s a t) : t.Spared := by
  cases h with
  | @began p flight a hfree hopens =>
    intro q r recent selected hflight
    have hflight : (s.flights.insert p flight).lookup q = some (.deleting r recent selected) :=
      hflight
    rw [Table.lookup_insert] at hflight
    split_ifs at hflight
    · obtain rfl := Option.some.inj hflight
      cases hopens
    · exact hs q r recent selected hflight
  | @moved p draw flight next hflight' hfresh hmoves =>
    intro q r recent selected hflight
    have hflight : (s.flights.insert p next).lookup q = some (.deleting r recent selected) :=
      hflight
    rw [Table.lookup_insert] at hflight
    split_ifs at hflight
    · obtain rfl := Option.some.inj hflight
      cases hmoves
      exact fun client hmem => abandoned_of_mem hmem
    · exact hs q r recent selected hflight
  | answered | failed | aborted =>
    intro q r recent selected hflight
    exact hs q r recent selected (Table.lookup_erase_eq_some.mp hflight).2
  | @wrote p draw flight tables answer hflight' hfresh hwrites =>
    intro q r recent selected hflight client hmem
    have hflight : s.flights.lookup q = some (.deleting r recent selected) :=
      (Table.lookup_erase_eq_some.mp hflight).2
    have hnone := Table.existsRow_eq_false.mp (hs q r recent selected hflight client hmem)
    refine Table.existsRow_eq_false.mpr fun id row hrow => ?_
    rw [← Bool.not_eq_true, Bool.and_eq_true, decide_eq_true_eq]
    rintro ⟨rfl, hin⟩
    obtain hbrings | ⟨old, hold, hclient, hin⟩ := hwrites.inFlight_of hrow hin
    · have hspared : s.selects row.clientId = false := by
        simpa [spares, hflight', hbrings] using hok
      rw [selects_of_mem hflight hmem] at hspared
      cases hspared
    · have hold := hnone id old hold
      simp [hclient, hin] at hold
  | changed | activated | issued => exact hs

theorem spared (hs : (sparing D R challenge).Reachable s) : s.Spared := by
  refine hs.invariant (fun s h => ?_) fun s a t hreach hspared hstep => ?_
  · intro p r recent selected hflight
    have hnone : s.flights.lookup p = none := by simp [(h : Initial s).flights]
    cases hnone.symm.trans hflight
  · obtain ⟨hok, hstep⟩ := Machine.restrict_step.mp hstep
    exact hspared.step hok (stepCase hreach.of_restrict hstep)

/-- A client is deleted by a cleanup that selected it, when it has no grant. -/
theorem deleted_of_step (h : StepCase s a t) {client : String}
    (hrow : (s.tables.clients.lookup client).isSome = true)
    (hdeleted : t.tables.clients.lookup client = none) :
    s.tables.hasAnyGrant client = false ∧ ∃ p draw r recent selected, a = .advance p draw ∧
      s.flights.lookup p = some (.deleting r recent selected) ∧ client ∈ selected := by
  have same (hkept : s.tables.clients.lookup client = none) : False := by
    simp [hkept] at hrow
  cases h with
  | began | answered | moved | failed | aborted | changed | activated | issued =>
    exact (same hdeleted).elim
  | @wrote p draw flight tables answer hflight hfresh hwrites =>
    cases hwrites with
    | refused | held | approved | declined | burned | redeemed | rotated | revoked =>
      exact (same hdeleted).elim
    | @ended _ token _ now before ended =>
      have hclients := endGrant_clients s.tables token now before ended
      exact (same (hclients ▸ hdeleted)).elim
    | @cleaned r recent selected _ _ event clients hevent hanswer hclients hfree hgrants htables =>
      subst htables
      have hmem : client ∈ s.victims selected := by
        by_contra hkept
        obtain ⟨row, hrow⟩ := Option.isSome_iff_exists.mp hrow
        have hclean : (s.tables.clean (s.victims selected) r.expiredBefore).clients.lookup client =
            some row :=
          Table.lookup_deleteWhere_eq_some.mpr ⟨hrow, by simpa using hkept⟩
        obtain rfl | ⟨row', hnone, rfl⟩ := hclients
        · cases hclean.symm.trans hdeleted
        · have hne : client ≠ draw.clientId := by
            rintro rfl
            cases hclean.symm.trans hnone
          have hdeleted : ((s.tables.clean (s.victims selected)
              r.expiredBefore).clients.insert draw.clientId row').lookup client = none := hdeleted
          rw [Table.lookup_insert, if_neg hne] at hdeleted
          cases hclean.symm.trans hdeleted
      exact ⟨hgrants client hmem, p, draw, r, recent, selected, rfl, hflight,
        List.mem_of_mem_filter hmem⟩

end OAuthState

end Rheostream
