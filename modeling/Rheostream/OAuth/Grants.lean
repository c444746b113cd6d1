import Rheostream.OAuth.Locks

/-!
# Grants

A grant has an access token that does not outlive it, one refresh value that is not rotated,
and as many events for its end as it was revoked, which is at most once.
-/

namespace Rheostream

namespace OAuthTables

variable (tables : OAuthTables)

/-- The token is revoked. -/
def Revoked (token : Uuid) : Prop :=
  ∃ row, tables.accessTokens.lookup token = some row ∧ row.revokedAt.isSome = true

/-- A refresh value of the token that is not rotated. -/
def Current (token : Uuid) (value : Digest) : Prop :=
  ∃ row, tables.refreshTokens.lookup value = some row ∧ row.tokenId = token ∧ row.rotatedAt = none

/-- The access token of a grant, which does not outlive it. -/
def Backs (token : Uuid) (grant : OAuthGrantRow) : Prop :=
  ∃ row, tables.accessTokens.lookup token = some row ∧ row.issuedFrom = .connector ∧
    row.expiresAt ≤ grant.grantExpiresAt

end OAuthTables

/-- The event records the end of the grant. -/
def OAuthEventRow.isEnd (token : Uuid) (row : OAuthEventRow) : Bool :=
  row.event = .grantRevoked && row.tokenId = some token

namespace OAuthTables

variable {tables : OAuthTables}

/-- The events of the end of a grant. -/
def ends (tables : OAuthTables) (token : Uuid) : ℕ :=
  tables.events.countP (OAuthEventRow.isEnd token)

theorem revoked_congr {s : OAuthTables} {token : Uuid}
    (h : tables.accessTokens.lookup token = s.accessTokens.lookup token) :
    tables.Revoked token ↔ s.Revoked token := by
  simp only [Revoked, h]

/-- A grant's end is recorded if and only if the grant is revoked. -/
def EndRecorded (tables : OAuthTables) (token : Uuid) : Prop :=
  (tables.Revoked token → tables.ends token = 1) ∧ (¬ tables.Revoked token → tables.ends token = 0)

theorem EndRecorded.of_frame {s : OAuthTables} {token : Uuid} (hs : s.EndRecorded token)
    (hrevoked : tables.Revoked token ↔ s.Revoked token) (hends : tables.ends token = s.ends token) :
    tables.EndRecorded token := by
  rw [EndRecorded, hrevoked, hends]
  exact hs

end OAuthTables

namespace OAuthState

variable {D : Digests} {R : Registry} {challenge : String → String} {s t : OAuthState}
  {a : OAuthAction}

/-- What is true of every grant. -/
structure Granted (s : OAuthState) : Prop where
  backed : ∀ id grant, s.tables.grants.lookup id = some grant → s.tables.Backs id grant
  values : ∀ value row, s.tables.refreshTokens.lookup value = some row →
    ∃ grant, s.tables.grants.lookup row.tokenId = some grant
  current : ∀ id grant, s.tables.grants.lookup id = some grant → ∃! value, s.tables.Current id value
  recorded : ∀ id grant, s.tables.grants.lookup id = some grant → s.tables.EndRecorded id
  known : ∀ event ∈ s.tables.events, ∀ id, event.isEnd id = true → id ∈ s.ids

section Writes

variable {draw : Draw} {flight : OAuthFlight} {tables : OAuthTables} {answer : OAuthAnswer}

theorem ends_concat {events : List OAuthEventRow} {event : OAuthEventRow}
    (hevent : event.event ≠ .grantRevoked) (id : Uuid) :
    (events ++ [event]).countP (OAuthEventRow.isEnd id) =
      events.countP (OAuthEventRow.isEnd id) := by
  simp [List.countP_append, OAuthEventRow.isEnd, hevent]

variable {grant : OAuthGrantRow} {id : Uuid}

/-- A grant's access token stays, within the grant. -/
theorem Writes.backs (h : Writes s draw flight tables answer) (hs : s.Identified)
    (hheld : flight.Held s.tables) (hfresh : s.isFresh draw = true)
    (hgrant : s.tables.grants.lookup id = some grant) (hbacks : s.tables.Backs id grant) :
    tables.Backs id grant := by
  have hnew : id ≠ draw.id := fun heq =>
    (fresh_of_isFresh hfresh).2.2.2 (heq ▸ hs.grants id grant hgrant)
  obtain ⟨row, hrow, hissued, hexpires⟩ := hbacks
  cases h with
  | refused | held | approved | declined | burned => exact ⟨row, hrow, hissued, hexpires⟩
  | cleaned _ _ _ _ _ _ _ htables =>
    subst htables
    exact ⟨row, hrow, hissued, hexpires⟩
  | redeemed =>
    refine ⟨row, ?_, hissued, hexpires⟩
    change (s.tables.accessTokens.insert draw.id _).lookup id = some row
    rwa [Table.lookup_insert, if_neg hnew]
  | @rotated r grant' token old expiresAt expiresIn event hevent hold hlive hbound =>
    by_cases hid : id = r.row.tokenId
    · obtain rfl := Option.some.inj (hrow.symm.trans (hid ▸ hold))
      obtain rfl := Option.some.inj (hgrant.symm.trans (hid ▸ hheld.2.2))
      refine ⟨(AccessTokenRow.rotation draw.access expiresAt).set row, ?_, hissued, hbound⟩
      change (s.tables.accessTokens.insert r.row.tokenId
        ((AccessTokenRow.rotation draw.access expiresAt).set row)).lookup id = some _
      rw [Table.lookup_insert, if_pos hid]
    · refine ⟨row, ?_, hissued, hexpires⟩
      change (s.tables.accessTokens.insert r.row.tokenId _).lookup id = some row
      rwa [Table.lookup_insert, if_neg hid]
  | @ended flight token answer now before ended =>
    obtain ⟨heq, -⟩ | ⟨id', old, -, hold, -, heq⟩ :=
      s.tables.endGrant_cases token now before ended
    · rw [heq]
      exact ⟨row, hrow, hissued, hexpires⟩
    · rw [heq]
      by_cases hid : id = id'
      · obtain rfl := Option.some.inj (hrow.symm.trans (hid ▸ hold))
        refine ⟨(AccessTokenRow.revocationIfLive now).set row, ?_, hissued, hexpires⟩
        change (s.tables.accessTokens.insert id'
          ((AccessTokenRow.revocationIfLive now).set row)).lookup id = some _
        rw [Table.lookup_insert, if_pos hid]
      · refine ⟨row, ?_, hissued, hexpires⟩
        change (s.tables.accessTokens.insert id' _).lookup id = some row
        rwa [Table.lookup_insert, if_neg hid]
  | @revoked id' old current now hissued' hold =>
    obtain ⟨current', hcurrent', hkept⟩ := hheld
    have hid : id ≠ id' := by
      rintro rfl
      obtain rfl := Option.some.inj (hrow.symm.trans hcurrent')
      exact hissued' (hkept.symm.trans hissued)
    refine ⟨row, ?_, hissued, hexpires⟩
    change (s.tables.accessTokens.insert id' _).lookup id = some row
    rwa [Table.lookup_insert, if_neg hid]

/-- The end of a grant is recorded by the write that revokes it, and by no other one. -/
theorem Writes.endRecorded (h : Writes s draw flight tables answer) (hs : s.Identified)
    (hheld : flight.Held s.tables) (hfresh : s.isFresh draw = true)
    (hgrant : s.tables.grants.lookup id = some grant) (hbacks : s.tables.Backs id grant)
    (hrecorded : s.tables.EndRecorded id) : tables.EndRecorded id := by
  have hnew : id ≠ draw.id := fun heq =>
    (fresh_of_isFresh hfresh).2.2.2 (heq ▸ hs.grants id grant hgrant)
  cases h with
  | refused | held | burned => exact hrecorded
  | cleaned _ _ hevent _ _ _ _ htables =>
    subst htables
    exact hrecorded.of_frame Iff.rfl (ends_concat (by simp [hevent]) id)
  | approved event hevent =>
    exact hrecorded.of_frame Iff.rfl (ends_concat (by simp [hevent]) id)
  | declined event hflight hevent => exact hrecorded.of_frame Iff.rfl (ends_concat hevent id)
  | redeemed expiresIn event hevent =>
    refine hrecorded.of_frame (OAuthTables.revoked_congr ?_) (ends_concat (by simp [hevent]) id)
    change (s.tables.accessTokens.insert draw.id _).lookup id = _
    rw [Table.lookup_insert, if_neg hnew]
  | @rotated r grant' token old expiresAt expiresIn event hevent hold hlive =>
    refine hrecorded.of_frame ?_ (ends_concat (by simp [hevent]) id)
    by_cases hid : id = r.row.tokenId
    · have hlookup : s.tables.accessTokens.lookup id = some old := hid ▸ hold
      have hafter : (s.tables.accessTokens.insert r.row.tokenId
          ((AccessTokenRow.rotation draw.access expiresAt).set old)).lookup id =
            some ((AccessTokenRow.rotation draw.access expiresAt).set old) := by
        rw [Table.lookup_insert, if_pos hid]
      constructor
      · rintro ⟨row, hrow, hrevoked⟩
        obtain rfl := Option.some.inj (hrow.symm.trans hafter)
        exact ⟨old, hlookup, hrevoked⟩
      · rintro ⟨row, hrow, hrevoked⟩
        obtain rfl := Option.some.inj (hrow.symm.trans hlookup)
        exact ⟨_, hafter, hrevoked⟩
    · refine OAuthTables.revoked_congr ?_
      change (s.tables.accessTokens.insert r.row.tokenId _).lookup id = _
      rw [Table.lookup_insert, if_neg hid]
  | @ended flight token answer now before ended hends hbefore hended htoken =>
    have hnone : before.countP (OAuthEventRow.isEnd id) = 0 := by
      refine List.countP_eq_zero.mpr fun event hmem => ?_
      simp [OAuthEventRow.isEnd, hbefore event hmem]
    obtain ⟨heq, -⟩ | ⟨id', old, hid', hold, hlive, heq⟩ :=
      s.tables.endGrant_cases token now before ended
    · rw [heq]
      refine hrecorded.of_frame Iff.rfl ?_
      simp [OAuthTables.ends, List.countP_append, hnone]
    · rw [heq]
      by_cases hid : id = id'
      · subst hid
        have hrevoked : ({ s.tables.withRevoked id old now with
            events := s.tables.events ++ before ++ [ended] } : OAuthTables).Revoked id := by
          refine ⟨(AccessTokenRow.revocationIfLive now).set old, ?_, rfl⟩
          change (s.tables.accessTokens.insert id _).lookup id = some _
          rw [Table.lookup_insert, if_pos rfl]
        have hunrevoked : ¬ s.tables.Revoked id := by
          rintro ⟨row, hrow, hsome⟩
          obtain rfl := Option.some.inj (hrow.symm.trans hold)
          simp [hlive] at hsome
        have hzero : s.tables.events.countP (OAuthEventRow.isEnd id) = 0 := hrecorded.2 hunrevoked
        have hend : ended.isEnd id = true := by
          simp [OAuthEventRow.isEnd, hended, htoken, hid']
        refine ⟨fun _ => ?_, fun hlive => absurd hrevoked hlive⟩
        simp [OAuthTables.ends, List.countP_append, hzero, hnone, hend]
      · refine hrecorded.of_frame (OAuthTables.revoked_congr ?_) ?_
        · change (s.tables.accessTokens.insert id' _).lookup id = _
          rw [Table.lookup_insert, if_neg hid]
        · have hother : ended.isEnd id = false := by
            simp [OAuthEventRow.isEnd, htoken, hid', Ne.symm hid]
          simp [OAuthTables.ends, List.countP_append, hnone, hother]
  | @revoked id' old current now hissued hold =>
    obtain ⟨row, hrow, hconnector, -⟩ := hbacks
    obtain ⟨current', hcurrent', hkept⟩ := hheld
    have hid : id ≠ id' := by
      rintro rfl
      obtain rfl := Option.some.inj (hrow.symm.trans hcurrent')
      exact hissued (hkept.symm.trans hconnector)
    refine hrecorded.of_frame (OAuthTables.revoked_congr ?_) rfl
    change (s.tables.accessTokens.insert id' _).lookup id = _
    rw [Table.lookup_insert, if_neg hid]

/-- Before it is drawn, an identifier is of no grant and of no refresh value. -/
theorem Granted.fresh (hgranted : s.Granted) (hs : s.Identified) (hfresh : s.isFresh draw = true)
    {value : Digest} {row : OAuthRefreshTokenRow}
    (hrow : s.tables.refreshTokens.lookup value = some row) :
    value ≠ draw.secret ∧ row.tokenId ≠ draw.id := by
  obtain ⟨hsecret, -, -, hid⟩ := fresh_of_isFresh hfresh
  obtain ⟨grant, hgrant⟩ := hgranted.values value row hrow
  exact ⟨fun heq => hsecret (heq ▸ hs.values value row hrow),
    fun heq => hid (heq ▸ hs.grants row.tokenId grant hgrant)⟩

/-- A rotation leaves the new value as the only one of its grant that is not rotated. -/
theorem Granted.current_rotated (hgranted : s.Granted) (hs : s.Identified)
    (hfresh : s.isFresh draw = true) {r : RefreshUse}
    (hvalue : s.tables.refreshTokens.lookup r.value = some r.row) (hlive : r.row.rotatedAt = none)
    (htables : tables.refreshTokens =
      (s.tables.refreshTokens.insert r.value
        ((OAuthRefreshTokenRow.rotation r.now).set r.row)).insert draw.secret ⟨r.row.tokenId, none⟩)
    (hgrant : s.tables.grants.lookup id = some grant) : ∃! value, tables.Current id value := by
  obtain ⟨current, hcurrent, hunique⟩ := hgranted.current id grant hgrant
  by_cases hid : id = r.row.tokenId
  · refine ⟨draw.secret, ⟨⟨r.row.tokenId, none⟩, ?_, hid.symm, rfl⟩, ?_⟩
    · rw [htables, Table.lookup_insert, if_pos rfl]
    · rintro value ⟨row, hrow, htoken, hrotated⟩
      rw [htables, Table.lookup_insert, Table.lookup_insert] at hrow
      split_ifs at hrow with hsecret hpresented
      · exact hsecret
      · obtain rfl := Option.some.inj hrow
        simp [OAuthRefreshTokenRow.rotation] at hrotated
      · have hold := hunique value ⟨row, hrow, htoken, hrotated⟩
        have hpresent := hunique r.value ⟨r.row, hvalue, hid.symm, hlive⟩
        exact absurd (hold.trans hpresent.symm) hpresented
  · obtain ⟨row, hrow, htoken, hrotated⟩ := hcurrent
    refine ⟨current, ⟨row, ?_, htoken, hrotated⟩, ?_⟩
    · have hother : current ≠ r.value := by
        rintro rfl
        obtain rfl := Option.some.inj (hrow.symm.trans hvalue)
        exact hid htoken.symm
      rwa [htables, Table.lookup_insert, if_neg (hgranted.fresh hs hfresh hrow).1,
        Table.lookup_insert, if_neg hother]
    · rintro value ⟨row', hrow', htoken', hrotated'⟩
      rw [htables, Table.lookup_insert, Table.lookup_insert] at hrow'
      split_ifs at hrow' with hsecret hpresented
      · obtain rfl := Option.some.inj hrow'
        exact absurd htoken'.symm hid
      · obtain rfl := Option.some.inj hrow'
        simp [OAuthRefreshTokenRow.rotation] at hrotated'
      · exact hunique value ⟨row', hrow', htoken', hrotated'⟩

/-- The first refresh value is the only one of its grant, and of no other one. -/
theorem Granted.current_redeemed (hgranted : s.Granted) (hs : s.Identified)
    (hfresh : s.isFresh draw = true)
    (htables : tables.refreshTokens = s.tables.refreshTokens.insert draw.secret ⟨draw.id, none⟩)
    (hgrant : id ≠ draw.id → ∃ grant, s.tables.grants.lookup id = some grant) :
    ∃! value, tables.Current id value := by
  by_cases hid : id = draw.id
  · refine ⟨draw.secret, ⟨⟨draw.id, none⟩, ?_, hid.symm, rfl⟩, ?_⟩
    · rw [htables, Table.lookup_insert, if_pos rfl]
    · rintro value ⟨row, hrow, htoken, -⟩
      rw [htables, Table.lookup_insert] at hrow
      split_ifs at hrow with hsecret
      · exact hsecret
      · exact absurd (htoken.trans hid) (hgranted.fresh hs hfresh hrow).2
  · obtain ⟨grant, hgrant⟩ := hgrant hid
    obtain ⟨current, ⟨row, hrow, htoken, hrotated⟩, hunique⟩ := hgranted.current id grant hgrant
    refine ⟨current, ⟨row, ?_, htoken, hrotated⟩, ?_⟩
    · rwa [htables, Table.lookup_insert, if_neg (hgranted.fresh hs hfresh hrow).1]
    · rintro value ⟨row', hrow', htoken', hrotated'⟩
      rw [htables, Table.lookup_insert] at hrow'
      split_ifs at hrow' with hsecret
      · obtain rfl := Option.some.inj hrow'
        exact absurd htoken'.symm hid
      · exact hunique value ⟨row', hrow', htoken', hrotated'⟩

theorem Writes.current (h : Writes s draw flight tables answer) (hgranted : s.Granted)
    (hs : s.Identified) (hheld : flight.Held s.tables) (hfresh : s.isFresh draw = true)
    (hgrant : tables.grants.lookup id = some grant) : ∃! value, tables.Current id value := by
  have hold := h.grant_of hgrant
  cases h with
  | refused | held | approved | declined | burned | revoked =>
    exact hgranted.current id grant hgrant
  | cleaned _ _ _ _ _ _ _ htables =>
    subst htables
    exact hgranted.current id grant hgrant
  | redeemed =>
    exact hgranted.current_redeemed hs hfresh rfl fun hid => ⟨grant, hold.resolve_left hid⟩
  | rotated expiresAt expiresIn event hevent hrow hlive hexpires hvalue =>
    exact hgranted.current_rotated hs hfresh hvalue hheld.2.1 rfl hgrant
  | ended =>
    rw [endGrant_grants] at hgrant
    simp only [OAuthTables.Current, endGrant_refreshTokens]
    exact hgranted.current id grant hgrant

/-- A refresh value is of a grant. -/
theorem Writes.values (h : Writes s draw flight tables answer) (hgranted : s.Granted)
    (hs : s.Identified) (hfresh : s.isFresh draw = true) {value : Digest}
    {row : OAuthRefreshTokenRow} (hrow : tables.refreshTokens.lookup value = some row) :
    ∃ grant, tables.grants.lookup row.tokenId = some grant := by
  have kept {row : OAuthRefreshTokenRow} {value : Digest}
      (hrow : s.tables.refreshTokens.lookup value = some row) :
      ∃ grant, tables.grants.lookup row.tokenId = some grant := by
    obtain ⟨grant, hgrant⟩ := hgranted.values value row hrow
    exact ⟨grant, h.grant_kept hs hfresh hgrant⟩
  cases h with
  | refused | held | approved | declined | burned | revoked => exact kept hrow
  | cleaned _ _ _ _ _ _ _ htables =>
    subst htables
    exact kept hrow
  | @redeemed e account workspace token grant =>
    rw [Table.lookup_insert] at hrow
    split_ifs at hrow with hsecret
    · obtain rfl := Option.some.inj hrow
      exact ⟨grant, by rw [Table.lookup_insert, if_pos rfl]⟩
    · exact kept hrow
  | rotated expiresAt expiresIn event hevent hold hlive hexpires hvalue =>
    have hpresented := kept hvalue
    rw [Table.lookup_insert, Table.lookup_insert] at hrow
    split_ifs at hrow
    · obtain rfl := Option.some.inj hrow
      exact hpresented
    · obtain rfl := Option.some.inj hrow
      exact hpresented
    · exact kept hrow
  | ended =>
    rw [endGrant_refreshTokens] at hrow
    exact kept hrow

/-- The end of a grant is recorded of a token that is there. -/
theorem Writes.known (h : Writes s draw flight tables answer) (hgranted : s.Granted)
    (hs : s.Identified) {event : OAuthEventRow} (hevent : event ∈ tables.events)
    (hend : event.isEnd id = true) : id ∈ s.ids := by
  have added {event' : OAuthEventRow} (hother : event'.event ≠ .grantRevoked)
      (hmem : event ∈ s.tables.events ++ [event']) : id ∈ s.ids := by
    rw [List.mem_append, List.mem_singleton] at hmem
    obtain hmem | rfl := hmem
    · exact hgranted.known event hmem id hend
    · simp [OAuthEventRow.isEnd, hother] at hend
  cases h with
  | refused | held | burned | revoked => exact hgranted.known event hevent id hend
  | cleaned event' clients hevent' hanswer hclients hfree hgrants htables =>
    subst htables
    exact added (by simp [hevent']) hevent
  | approved event' hevent' | redeemed _ event' hevent' | rotated _ _ event' hevent' =>
    exact added (by simp [hevent']) hevent
  | declined event' hflight hevent' => exact added hevent' hevent
  | @ended flight token answer now before ended hends hbefore hended htoken =>
    have early (hmem : event ∈ s.tables.events ++ before) : id ∈ s.ids := by
      obtain hmem | hmem := List.mem_append.mp hmem
      · exact hgranted.known event hmem id hend
      · simp [OAuthEventRow.isEnd, hbefore event hmem] at hend
    obtain ⟨heq, -⟩ | ⟨id', old, hid', hold, -, heq⟩ :=
      s.tables.endGrant_cases token now before ended
    · rw [heq] at hevent
      exact early hevent
    · rw [heq] at hevent
      obtain hmem | hmem := List.mem_append.mp hevent
      · exact early hmem
      · obtain rfl := List.mem_singleton.mp hmem
        obtain rfl : id' = id := by simpa [OAuthEventRow.isEnd, hended, htoken, hid'] using hend
        exact hs.accessTokens id' old hold

/-- The grant of a redeemed code. -/
theorem Writes.new_grant (h : Writes s draw flight tables answer) (hgranted : s.Granted)
    (hs : s.Identified) (hfresh : s.isFresh draw = true)
    (hgrant : tables.grants.lookup draw.id = some grant) :
    tables.Backs draw.id grant ∧ tables.EndRecorded draw.id := by
  have hnew : s.tables.grants.lookup draw.id ≠ some grant := fun hold =>
    (fresh_of_isFresh hfresh).2.2.2 (hs.grants draw.id grant hold)
  cases h with
  | refused | held | approved | declined | burned | rotated | revoked => exact absurd hgrant hnew
  | cleaned _ _ _ _ _ _ _ htables =>
    subst htables
    exact absurd hgrant hnew
  | ended =>
    rw [endGrant_grants] at hgrant
    exact absurd hgrant hnew
  | @redeemed e account workspace token grant' expiresIn event hevent hold hclient hhash hissued
      hlive hexpires =>
    rw [Table.lookup_insert, if_pos rfl] at hgrant
    obtain rfl := Option.some.inj hgrant
    have htoken : (s.tables.accessTokens.insert draw.id token).lookup draw.id = some token :=
      AList.lookup_insert _
    refine ⟨⟨token, htoken, hissued, hexpires⟩, ?_, fun _ => ?_⟩
    · rintro ⟨row, hrow, hrevoked⟩
      obtain rfl := Option.some.inj (htoken.symm.trans hrow)
      simp [hlive] at hrevoked
    · refine (ends_concat (by simp [hevent]) draw.id).trans (List.countP_eq_zero.mpr ?_)
      exact fun event hmem hend =>
        (fresh_of_isFresh hfresh).2.2.2 (hgranted.known event hmem draw.id hend)

end Writes

theorem Granted.step (hs : s.Granted) (hlocked : s.Locked) (h : StepCase s a t) : t.Granted := by
  cases h with
  | began | answered | aborted | changed | activated => exact { hs with }
  | moved | failed =>
    exact { hs with
      known := fun event hevent id hend => List.mem_cons_of_mem _ (hs.known event hevent id hend) }
  | @wrote p draw flight tables answer hflight hfresh hwrites =>
    have hheld := hlocked.held p flight hflight
    refine ⟨fun id grant hgrant => ?_, fun value row => hwrites.values hs hlocked.identified hfresh,
      fun id grant => hwrites.current hs hlocked.identified hheld hfresh,
      fun id grant hgrant => ?_, fun event hevent id hend =>
        List.mem_cons_of_mem _ (hwrites.known hs hlocked.identified hevent hend)⟩
    · obtain rfl | hold := hwrites.grant_of hgrant
      · exact (hwrites.new_grant hs hlocked.identified hfresh hgrant).1
      · exact hwrites.backs hlocked.identified hheld hfresh hold (hs.backed id grant hold)
    · obtain rfl | hold := hwrites.grant_of hgrant
      · exact (hwrites.new_grant hs hlocked.identified hfresh hgrant).2
      · exact hwrites.endRecorded hlocked.identified hheld hfresh hold (hs.backed id grant hold)
          (hs.recorded id grant hold)
  | @issued id row hissued hid hhash =>
    have hlookup (id' : Uuid) (grant : OAuthGrantRow)
        (hgrant : s.tables.grants.lookup id' = some grant) :
        (s.tables.accessTokens.insert id row).lookup id' = s.tables.accessTokens.lookup id' := by
      have hne : id' ≠ id := fun heq => hid (heq ▸ hlocked.identified.grants id' grant hgrant)
      rw [Table.lookup_insert, if_neg hne]
    refine ⟨fun id' grant hgrant => ?_, hs.values, hs.current, fun id' grant hgrant => ?_,
      fun event hevent id' hend => List.mem_cons_of_mem _ (hs.known event hevent id' hend)⟩
    · obtain ⟨row', hrow', hbacks⟩ := hs.backed id' grant hgrant
      exact ⟨row', (hlookup id' grant hgrant).trans hrow', hbacks⟩
    · exact (hs.recorded id' grant hgrant).of_frame
        (OAuthTables.revoked_congr (hlookup id' grant hgrant)) rfl

theorem Initial.granted (h : Initial s) : s.Granted := by
  refine ⟨?_, ?_, ?_, ?_, ?_⟩
  · simp [h.grants]
  · simp [h.refreshTokens]
  · simp [h.grants]
  · simp [h.grants]
  · simp [h.events]

theorem granted (hs : (machine D R challenge).Reachable s) : s.Granted :=
  hs.invariant (fun _ => Initial.granted)
    fun _ _ _ hreach hgranted hstep => hgranted.step (locked hreach) (stepCase hreach hstep)

end OAuthState

end Rheostream
