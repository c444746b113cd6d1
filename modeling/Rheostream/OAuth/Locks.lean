import Rheostream.OAuth.FlowLaws

/-!
# What is drawn and what is locked

Every identifier and every digest in a row was drawn, so what is drawn next is new. A locked row
is locked by one transaction, which therefore finds it as it left it.
-/

namespace Rheostream

namespace OAuthState

variable {D : Digests} {R : Registry} {challenge : String → String} {s t : OAuthState}
  {a : OAuthAction}

/-- Every identifier and digest in a row was drawn. -/
structure Identified (s : OAuthState) : Prop where
  authorizations : ∀ id row, s.tables.authorizations.lookup id = some row → id ∈ s.ids
  accessTokens : ∀ id row, s.tables.accessTokens.lookup id = some row → id ∈ s.ids
  grants : ∀ id grant, s.tables.grants.lookup id = some grant → id ∈ s.ids
  codes : ∀ id row code, s.tables.authorizations.lookup id = some row →
    row.codeHash = some code → code ∈ s.drawn
  values : ∀ value row, s.tables.refreshTokens.lookup value = some row → value ∈ s.drawn
  hashes : ∀ id row, s.tables.accessTokens.lookup id = some row → row.tokenHash ∈ s.drawn

/-- A locked row is locked by one transaction. -/
structure Exclusive (s : OAuthState) : Prop where
  authorizations : ∀ p q flight other id, s.flights.lookup p = some flight →
    s.flights.lookup q = some other → flight.authorization = some id →
      other.authorization = some id → p = q
  values : ∀ p q flight other value, s.flights.lookup p = some flight →
    s.flights.lookup q = some other → flight.refreshValue = some value →
      other.refreshValue = some value → p = q

theorem fresh_of_isFresh {draw : Draw} (h : s.isFresh draw = true) :
    draw.secret ∉ s.drawn ∧ draw.access ∉ s.drawn ∧ draw.secret ≠ draw.access ∧
      draw.id ∉ s.ids := by
  simpa [isFresh, and_assoc] using h

theorem lookup_clean_authorizations {tables : OAuthTables} {victims : List String} {before : ℕ}
    {id : Uuid} {row : OAuthAuthorizationRow}
    (h : (tables.clean victims before).authorizations.lookup id = some row) :
    tables.authorizations.lookup id = some row :=
  (Table.lookup_deleteWhere_eq_some.mp h).1

section EndGrant

variable (tables : OAuthTables) (token : Option Uuid) (now : ℕ) (before : List OAuthEventRow)
  (ended : OAuthEventRow)

theorem endGrant_clients : (tables.endGrant token now before ended).clients = tables.clients := by
  obtain ⟨h, -⟩ | ⟨id, row, -, -, -, h⟩ := tables.endGrant_cases token now before ended <;>
    rw [h]
  rfl

theorem endGrant_authorizations :
    (tables.endGrant token now before ended).authorizations = tables.authorizations := by
  obtain ⟨h, -⟩ | ⟨id, row, -, -, -, h⟩ := tables.endGrant_cases token now before ended <;>
    rw [h]
  rfl

theorem endGrant_grants : (tables.endGrant token now before ended).grants = tables.grants := by
  obtain ⟨h, -⟩ | ⟨id, row, -, -, -, h⟩ := tables.endGrant_cases token now before ended <;>
    rw [h]
  rfl

theorem endGrant_refreshTokens :
    (tables.endGrant token now before ended).refreshTokens = tables.refreshTokens := by
  obtain ⟨h, -⟩ | ⟨id, row, -, -, -, h⟩ := tables.endGrant_cases token now before ended <;>
    rw [h]
  rfl

end EndGrant

/-- A conditional revocation keeps every access token but for its `revoked_at`. -/
theorem endGrant_accessToken {tables : OAuthTables} {token : Option Uuid} {now : ℕ}
    {before : List OAuthEventRow} {ended : OAuthEventRow} {id : Uuid} {row : AccessTokenRow}
    (h : (tables.endGrant token now before ended).accessTokens.lookup id = some row) :
    ∃ old, tables.accessTokens.lookup id = some old ∧
      row = { old with revokedAt := row.revokedAt } := by
  obtain ⟨heq, -⟩ | ⟨id', old, -, hold, -, heq⟩ := tables.endGrant_cases token now before ended
  · rw [heq] at h
    exact ⟨row, h, rfl⟩
  · rw [heq] at h
    have h : (tables.accessTokens.insert id'
        ((AccessTokenRow.revocationIfLive now).set old)).lookup id = some row := h
    rw [Table.lookup_insert] at h
    split_ifs at h with hid
    · obtain rfl := Option.some.inj h
      exact ⟨old, hid ▸ hold, rfl⟩
    · exact ⟨row, h, rfl⟩

section Writes

variable {draw : Draw} {flight : OAuthFlight} {tables : OAuthTables} {answer : OAuthAnswer}

/-- What a write can change of an authorization. -/
structure Follows (draw : Draw) (old row : OAuthAuthorizationRow) : Prop where
  clientId : row.clientId = old.clientId
  decidedAt : row.decidedAt = none → old.decidedAt = none
  codeUsedAt : row.codeUsedAt = none → old.codeUsedAt = none
  codeHash : row.codeHash = old.codeHash ∨ old.decidedAt = none ∧ row.decidedAt ≠ none ∧
    (row.codeHash = none ∨ row.codeHash = some draw.secret)

theorem Follows.refl (row : OAuthAuthorizationRow) : Follows draw row row :=
  ⟨rfl, id, id, .inl rfl⟩

/-- An authorization after a write follows from the one before, or is the new one. -/
theorem Writes.authorization_of (h : Writes s draw flight tables answer)
    (hheld : flight.Held s.tables) {id : Uuid} {row : OAuthAuthorizationRow}
    (hrow : tables.authorizations.lookup id = some row) :
    (id = draw.id ∧ row.codeHash = none ∧ row.decidedAt = none) ∨
      ∃ old, s.tables.authorizations.lookup id = some old ∧ Follows draw old row := by
  cases h with
  | refused error => exact .inr ⟨row, hrow, .refl row⟩
  | cleaned _ _ _ _ _ _ _ htables =>
    subst htables
    exact .inr ⟨row, lookup_clean_authorizations hrow, .refl row⟩
  | held hclient hpending hcode hused htoken =>
    rw [Table.lookup_insert] at hrow
    split_ifs at hrow with hid
    · obtain rfl := Option.some.inj hrow
      exact .inl ⟨hid, hcode, hpending⟩
    · exact .inr ⟨row, hrow, .refl row⟩
  | @approved d chosen event hevent hchosen hold =>
    rw [Table.lookup_insert] at hrow
    split_ifs at hrow with hid
    · obtain rfl := Option.some.inj hrow
      have hpending : d.row.decidedAt = none := hheld.2
      exact .inr ⟨d.row, hid ▸ hold, rfl, fun _ => hpending, fun h => h,
        .inr ⟨hpending, by simp [decidedRow, OAuthAuthorizationRow.decision], .inr rfl⟩⟩
    · exact .inr ⟨row, hrow, .refl row⟩
  | @declined d flight answer event hflight hevent hold =>
    rw [Table.lookup_insert] at hrow
    split_ifs at hrow with hid
    · obtain rfl := Option.some.inj hrow
      have hpending : d.row.decidedAt = none := by
        obtain ⟨rfl, -⟩ | ⟨rfl, -⟩ := hflight <;> exact hheld.2
      exact .inr ⟨d.row, hid ▸ hold, rfl, fun _ => hpending, fun h => h,
        .inr ⟨hpending, by simp [decidedRow, OAuthAuthorizationRow.decision], .inl rfl⟩⟩
    · exact .inr ⟨row, hrow, .refl row⟩
  | @burned e _ _ _ hold | @redeemed e _ _ _ _ _ _ _ hold =>
    rw [Table.lookup_insert] at hrow
    split_ifs at hrow with hid
    · obtain rfl := Option.some.inj hrow
      exact .inr ⟨e.row, hid ▸ hold, rfl, fun h => h,
        fun h => absurd h (Option.some_ne_none e.now), .inl rfl⟩
    · exact .inr ⟨row, hrow, .refl row⟩
  | rotated | revoked => exact .inr ⟨row, hrow, .refl row⟩
  | ended =>
    rw [endGrant_authorizations] at hrow
    exact .inr ⟨row, hrow, .refl row⟩

/-- An access token after a write has the value from before, or the one that was handed out. -/
theorem Writes.accessToken_of (h : Writes s draw flight tables answer) {id : Uuid}
    {row : AccessTokenRow} (hrow : tables.accessTokens.lookup id = some row) :
    (∃ old, s.tables.accessTokens.lookup id = some old ∧ row.tokenHash = old.tokenHash) ∨
      row.tokenHash = draw.access ∧ answer.handsOut = some (id, draw.access) ∧
        (id = draw.id ∨ ∃ old, s.tables.accessTokens.lookup id = some old) := by
  cases h with
  | refused | held | approved | declined | burned => exact .inl ⟨row, hrow, rfl⟩
  | cleaned _ _ _ _ _ _ _ htables =>
    subst htables
    exact .inl ⟨row, hrow, rfl⟩
  | redeemed expiresIn event hevent hold hclient hhash =>
    have hrow : (s.tables.accessTokens.insert draw.id _).lookup id = some row := hrow
    rw [Table.lookup_insert] at hrow
    split_ifs at hrow with hid
    · obtain rfl := Option.some.inj hrow
      exact .inr ⟨hhash, by simp [OAuthAnswer.handsOut, hid], .inl hid⟩
    · exact .inl ⟨row, hrow, rfl⟩
  | rotated expiresAt expiresIn event hevent hold =>
    have hrow : (s.tables.accessTokens.insert _ _).lookup id = some row := hrow
    rw [Table.lookup_insert] at hrow
    split_ifs at hrow with hid
    · obtain rfl := Option.some.inj hrow
      exact .inr ⟨rfl, by simp [OAuthAnswer.handsOut, hid], .inr ⟨_, hid ▸ hold⟩⟩
    · exact .inl ⟨row, hrow, rfl⟩
  | ended =>
    obtain ⟨old, hold, hrow⟩ := endGrant_accessToken hrow
    exact .inl ⟨old, hold, by rw [hrow]⟩
  | @revoked _ _ current _ hissued hold =>
    have hrow : (s.tables.accessTokens.insert _ _).lookup id = some row := hrow
    rw [Table.lookup_insert] at hrow
    split_ifs at hrow with hid
    · obtain rfl := Option.some.inj hrow
      exact .inl ⟨current, hid ▸ hold, rfl⟩
    · exact .inl ⟨row, hrow, rfl⟩

/-- A grant after a write is one from before, or the new one of a redeemed code. -/
theorem Writes.grant_of (h : Writes s draw flight tables answer) {id : Uuid}
    {grant : OAuthGrantRow} (hgrant : tables.grants.lookup id = some grant) :
    id = draw.id ∨ s.tables.grants.lookup id = some grant := by
  cases h with
  | refused | held | approved | declined | burned | rotated | revoked => exact .inr hgrant
  | cleaned _ _ _ _ _ _ _ htables =>
    subst htables
    exact .inr hgrant
  | redeemed =>
    rw [Table.lookup_insert] at hgrant
    split_ifs at hgrant with hid
    · exact .inl hid
    · exact .inr hgrant
  | ended =>
    rw [endGrant_grants] at hgrant
    exact .inr hgrant

/-- A refresh value after a write is one from before, or the secret that was drawn. -/
theorem Writes.value_of (h : Writes s draw flight tables answer) {value : Digest}
    {row : OAuthRefreshTokenRow} (hrow : tables.refreshTokens.lookup value = some row) :
    value = draw.secret ∨ ∃ old, s.tables.refreshTokens.lookup value = some old := by
  cases h with
  | refused | held | approved | declined | burned | revoked => exact .inr ⟨row, hrow⟩
  | cleaned _ _ _ _ _ _ _ htables =>
    subst htables
    exact .inr ⟨row, hrow⟩
  | redeemed =>
    rw [Table.lookup_insert] at hrow
    split_ifs at hrow with hvalue
    · exact .inl hvalue
    · exact .inr ⟨row, hrow⟩
  | rotated expiresAt expiresIn event hevent hold hlive hexpires hvalue =>
    rw [Table.lookup_insert, Table.lookup_insert] at hrow
    split_ifs at hrow with hsecret hpresented
    · exact .inl hsecret
    · exact .inr ⟨_, hpresented ▸ hvalue⟩
    · exact .inr ⟨row, hrow⟩
  | ended =>
    rw [endGrant_refreshTokens] at hrow
    exact .inr ⟨row, hrow⟩

/-- A write leaves every locked authorization but its own as it was. -/
theorem Writes.authorization_frame (h : Writes s draw flight tables answer) (hs : s.Identified)
    (hfresh : s.isFresh draw = true) {id : Uuid} {row : OAuthAuthorizationRow}
    (hrow : s.tables.authorizations.lookup id = some row)
    (hother : flight.authorization ≠ some id) (hlocked : s.locksAuthorization id = true) :
    tables.authorizations.lookup id = some row := by
  have hnew : id ≠ draw.id := fun heq =>
    (fresh_of_isFresh hfresh).2.2.2 (heq ▸ hs.authorizations id row hrow)
  cases h with
  | refused | rotated | revoked => exact hrow
  | cleaned _ _ _ _ _ hfree _ htables =>
    subst htables
    refine Table.lookup_deleteWhere_eq_some.mpr ⟨hrow, ?_⟩
    by_contra hdeleted
    rw [Bool.not_eq_false, Bool.or_eq_true] at hdeleted
    rw [hfree id row hrow hdeleted] at hlocked
    cases hlocked
  | held => rwa [Table.lookup_insert, if_neg hnew]
  | approved | redeemed =>
    rwa [Table.lookup_insert, if_neg fun heq => hother (congrArg some heq.symm)]
  | declined event hflight =>
    rw [Table.lookup_insert, if_neg, hrow]
    rintro rfl
    obtain ⟨rfl, -⟩ | ⟨rfl, -⟩ := hflight <;> exact hother rfl
  | burned error hflight =>
    rw [Table.lookup_insert, if_neg, hrow]
    rintro rfl
    obtain rfl | ⟨account, workspace, rfl⟩ := hflight <;> exact hother rfl
  | ended => rwa [endGrant_authorizations]

/-- A write leaves every refresh value but its own as it was. -/
theorem Writes.value_frame (h : Writes s draw flight tables answer) (hs : s.Identified)
    (hfresh : s.isFresh draw = true) {value : Digest} {row : OAuthRefreshTokenRow}
    (hrow : s.tables.refreshTokens.lookup value = some row)
    (hother : flight.refreshValue ≠ some value) :
    tables.refreshTokens.lookup value = some row := by
  have hnew : value ≠ draw.secret := fun heq =>
    (fresh_of_isFresh hfresh).1 (heq ▸ hs.values value row hrow)
  cases h with
  | refused | held | approved | declined | burned | revoked => exact hrow
  | cleaned _ _ _ _ _ _ _ htables =>
    subst htables
    exact hrow
  | redeemed => rwa [Table.lookup_insert, if_neg hnew]
  | rotated =>
    rwa [Table.lookup_insert, if_neg hnew, Table.lookup_insert,
      if_neg fun heq => hother (congrArg some heq.symm)]
  | ended => rwa [endGrant_refreshTokens]

/-- A grant is never changed. -/
theorem Writes.grant_kept (h : Writes s draw flight tables answer) (hs : s.Identified)
    (hfresh : s.isFresh draw = true) {id : Uuid} {grant : OAuthGrantRow}
    (hgrant : s.tables.grants.lookup id = some grant) : tables.grants.lookup id = some grant := by
  have hnew : id ≠ draw.id := fun heq =>
    (fresh_of_isFresh hfresh).2.2.2 (heq ▸ hs.grants id grant hgrant)
  cases h with
  | refused | held | approved | declined | burned | rotated | revoked => exact hgrant
  | cleaned _ _ _ _ _ _ _ htables =>
    subst htables
    exact hgrant
  | redeemed => rwa [Table.lookup_insert, if_neg hnew]
  | ended => rwa [endGrant_grants]

/-- A write keeps who issued an access token, and whether it was revoked if it was. -/
theorem Writes.accessToken_kept (h : Writes s draw flight tables answer) (hs : s.Identified)
    (hfresh : s.isFresh draw = true) {id : Uuid} {row : AccessTokenRow}
    (hrow : s.tables.accessTokens.lookup id = some row) :
    ∃ new, tables.accessTokens.lookup id = some new ∧ new.issuedFrom = row.issuedFrom ∧
      (row.revokedAt.isSome = true → new.revokedAt.isSome = true ∧
        new.tokenHash = row.tokenHash) := by
  have hnew : id ≠ draw.id := fun heq =>
    (fresh_of_isFresh hfresh).2.2.2 (heq ▸ hs.accessTokens id row hrow)
  cases h with
  | refused | held | approved | declined | burned => exact ⟨row, hrow, rfl, fun h => ⟨h, rfl⟩⟩
  | cleaned _ _ _ _ _ _ _ htables =>
    subst htables
    exact ⟨row, hrow, rfl, fun h => ⟨h, rfl⟩⟩
  | redeemed =>
    refine ⟨row, ?_, rfl, fun h => ⟨h, rfl⟩⟩
    change (s.tables.accessTokens.insert draw.id _).lookup id = some row
    rwa [Table.lookup_insert, if_neg hnew]
  | @rotated r grant token old expiresAt expiresIn event hevent hold hlive =>
    by_cases hid : id = r.row.tokenId
    · obtain rfl := Option.some.inj (hrow.symm.trans (hid ▸ hold))
      refine ⟨(AccessTokenRow.rotation draw.access expiresAt).set row, ?_, rfl,
        fun hrevoked => ?_⟩
      · change (s.tables.accessTokens.insert r.row.tokenId
          ((AccessTokenRow.rotation draw.access expiresAt).set row)).lookup id = some _
        rw [Table.lookup_insert, if_pos hid]
      · simp [hlive] at hrevoked
    · refine ⟨row, ?_, rfl, fun h => ⟨h, rfl⟩⟩
      change (s.tables.accessTokens.insert r.row.tokenId _).lookup id = some row
      rwa [Table.lookup_insert, if_neg hid]
  | @ended flight token answer now before ended =>
    obtain ⟨heq, -⟩ | ⟨id', old, -, hold, -, heq⟩ :=
      s.tables.endGrant_cases token now before ended
    · rw [heq]
      exact ⟨row, hrow, rfl, fun h => ⟨h, rfl⟩⟩
    · rw [heq]
      by_cases hid : id = id'
      · obtain rfl := Option.some.inj (hrow.symm.trans (hid ▸ hold))
        refine ⟨(AccessTokenRow.revocationIfLive now).set row, ?_, rfl, fun _ => ⟨rfl, rfl⟩⟩
        change (s.tables.accessTokens.insert id'
          ((AccessTokenRow.revocationIfLive now).set row)).lookup id = some _
        rw [Table.lookup_insert, if_pos hid]
      · refine ⟨row, ?_, rfl, fun h => ⟨h, rfl⟩⟩
        change (s.tables.accessTokens.insert id' _).lookup id = some row
        rwa [Table.lookup_insert, if_neg hid]
  | @revoked id' old current now hissued hold =>
    by_cases hid : id = id'
    · obtain rfl := Option.some.inj (hrow.symm.trans (hid ▸ hold))
      refine ⟨(AccessTokenRow.revocation now).set row, ?_, rfl, fun _ => ⟨rfl, rfl⟩⟩
      change (s.tables.accessTokens.insert id'
        ((AccessTokenRow.revocation now).set row)).lookup id = some _
      rw [Table.lookup_insert, if_pos hid]
    · refine ⟨row, ?_, rfl, fun h => ⟨h, rfl⟩⟩
      change (s.tables.accessTokens.insert id' _).lookup id = some row
      rwa [Table.lookup_insert, if_neg hid]

end Writes

theorem Identified.step (hs : s.Identified) (hheld : s.Held) (h : StepCase s a t) :
    t.Identified := by
  cases h with
  | began | answered | aborted | changed | activated => exact { hs with }
  | moved | failed =>
    exact
      { authorizations := fun id row h => List.mem_cons_of_mem _ (hs.authorizations id row h)
        accessTokens := fun id row h => List.mem_cons_of_mem _ (hs.accessTokens id row h)
        grants := fun id grant h => List.mem_cons_of_mem _ (hs.grants id grant h)
        codes := fun id row code h hcode =>
          List.mem_cons_of_mem _ (List.mem_cons_of_mem _ (hs.codes id row code h hcode))
        values := fun value row h =>
          List.mem_cons_of_mem _ (List.mem_cons_of_mem _ (hs.values value row h))
        hashes := fun id row h =>
          List.mem_cons_of_mem _ (List.mem_cons_of_mem _ (hs.hashes id row h)) }
  | @wrote p draw flight tables answer hflight hfresh hwrites =>
    refine ⟨fun id row hrow => ?_, fun id row hrow => ?_, fun id grant hgrant => ?_,
      fun id row code hrow hcode => ?_, fun value row hrow => ?_, fun id row hrow => ?_⟩
    · obtain ⟨rfl, -⟩ | ⟨old, hold, -⟩ := hwrites.authorization_of (hheld p flight hflight) hrow
      · exact List.mem_cons_self
      · exact List.mem_cons_of_mem _ (hs.authorizations id old hold)
    · obtain ⟨old, hold, -⟩ | ⟨-, -, rfl | ⟨old, hold⟩⟩ := hwrites.accessToken_of hrow
      · exact List.mem_cons_of_mem _ (hs.accessTokens id old hold)
      · exact List.mem_cons_self
      · exact List.mem_cons_of_mem _ (hs.accessTokens id old hold)
    · obtain rfl | hold := hwrites.grant_of hgrant
      · exact List.mem_cons_self
      · exact List.mem_cons_of_mem _ (hs.grants id grant hold)
    · obtain ⟨-, hnone, -⟩ | ⟨old, hold, hfollows⟩ :=
        hwrites.authorization_of (hheld p flight hflight) hrow
      · simp [hcode] at hnone
      · obtain hkept | ⟨-, -, hnone | hsecret⟩ := hfollows.codeHash
        · have hmem := hs.codes id old code hold (hkept ▸ hcode)
          simp [settle, record, hmem]
        · simp [hcode] at hnone
        · obtain rfl := Option.some.inj (hcode.symm.trans hsecret)
          simp [settle, record]
    · obtain rfl | ⟨old, hold⟩ := hwrites.value_of hrow
      · simp [settle, record]
      · simp [settle, record, hs.values value old hold]
    · obtain ⟨old, hold, hkept⟩ | ⟨hnew, -⟩ := hwrites.accessToken_of hrow
      · have hmem := hs.hashes id old hold
        simp [settle, record, hkept, hmem]
      · simp [settle, record, hnew]
  | @issued id row hissued hid hhash =>
    refine ⟨fun id' row' hrow => ?_, fun id' row' hrow => ?_, fun id' grant hgrant => ?_,
      fun id' row' code hrow hcode => ?_, fun value row' hrow => ?_, fun id' row' hrow => ?_⟩
    · exact List.mem_cons_of_mem _ (hs.authorizations id' row' hrow)
    · have hrow : (s.tables.accessTokens.insert id row).lookup id' = some row' := hrow
      rw [Table.lookup_insert] at hrow
      split_ifs at hrow with heq
      · exact heq ▸ List.mem_cons_self
      · exact List.mem_cons_of_mem _ (hs.accessTokens id' row' hrow)
    · exact List.mem_cons_of_mem _ (hs.grants id' grant hgrant)
    · exact List.mem_cons_of_mem _ (hs.codes id' row' code hrow hcode)
    · exact List.mem_cons_of_mem _ (hs.values value row' hrow)
    · have hrow : (s.tables.accessTokens.insert id row).lookup id' = some row' := hrow
      rw [Table.lookup_insert] at hrow
      split_ifs at hrow with heq
      · obtain rfl := Option.some.inj hrow
        exact List.mem_cons_self
      · exact List.mem_cons_of_mem _ (hs.hashes id' row' hrow)

theorem locksAuthorization_iff {id : Uuid} : s.locksAuthorization id = true ↔
    ∃ p flight, s.flights.lookup p = some flight ∧ flight.authorization = some id := by
  simp [locksAuthorization, Table.existsRow_iff]

theorem locksRefresh_iff {value : Digest} : s.locksRefresh value = true ↔
    ∃ p flight, s.flights.lookup p = some flight ∧ flight.refreshValue = some value := by
  simp [locksRefresh, Table.existsRow_iff]

/-- What a transaction relies on survives a write of another one. -/
theorem Writes.held_frame {draw : Draw} {flight other : OAuthFlight} {tables : OAuthTables}
    {answer : OAuthAnswer} (h : Writes s draw flight tables answer) (hs : s.Identified)
    (hfresh : s.isFresh draw = true) (hheld : other.Held s.tables)
    (hauthorization : ∀ id, other.authorization = some id →
      flight.authorization ≠ some id ∧ s.locksAuthorization id = true)
    (hvalue : ∀ value, other.refreshValue = some value → flight.refreshValue ≠ some value) :
    other.Held tables := by
  cases other with
  | counting | cleaning | deleting | holding => trivial
  | listing d | choosing d | denying d =>
    obtain ⟨hother, hlocked⟩ := hauthorization d.id rfl
    exact ⟨h.authorization_frame hs hfresh hheld.1 hother hlocked, hheld.2⟩
  | redeeming e | issuing e | replaying e =>
    obtain ⟨hother, hlocked⟩ := hauthorization e.id rfl
    exact ⟨h.authorization_frame hs hfresh hheld.1 hother hlocked, hheld.2⟩
  | validating r | reusing r =>
    exact ⟨h.value_frame hs hfresh hheld.1 (hvalue r.value rfl), hheld.2⟩
  | joining r grant token | housing r grant token | rotating r grant token =>
    exact ⟨h.value_frame hs hfresh hheld.1 (hvalue r.value rfl), hheld.2.1,
      h.grant_kept hs hfresh hheld.2.2⟩
  | revoking id row now =>
    obtain ⟨current, hcurrent, hissued⟩ := hheld
    obtain ⟨new, hnew, hkept, -⟩ := h.accessToken_kept hs hfresh hcurrent
    exact ⟨new, hnew, hkept.trans hissued⟩

theorem Opens.held {flight : OAuthFlight} (h : Opens s flight) : flight.Held s.tables := by
  cases h with
  | counting | holding => trivial
  | listing hrow hpending | denying hrow hpending => exact ⟨hrow, hpending⟩
  | redeeming hrow hcode hunused => exact ⟨hrow, hcode, hunused⟩
  | replaying hrow hcode hused => exact ⟨hrow, hcode, hused⟩
  | validating hrow hlive => exact ⟨hrow, hlive⟩
  | reusing hrow hrotated => exact ⟨hrow, by simp [hrotated]⟩
  | revoking now hrow => exact ⟨_, hrow, rfl⟩

theorem Moves.held {flight next : OAuthFlight} (h : Moves s flight next)
    (hheld : flight.Held s.tables) : next.Held s.tables := by
  cases h with
  | counted | selected => trivial
  | listed | chose | checked | joined | housed => exact hheld
  | validated hgrant => exact ⟨hheld.1, hheld.2, hgrant⟩

theorem Moves.authorization {flight next : OAuthFlight} (h : Moves s flight next) :
    next.authorization = flight.authorization := by
  cases h <;> rfl

theorem Moves.refreshValue {flight next : OAuthFlight} (h : Moves s flight next) :
    next.refreshValue = flight.refreshValue := by
  cases h <;> rfl

/-- What a transaction opens with is locked by no other one. -/
theorem Opens.free {flight : OAuthFlight} (h : Opens s flight) :
    (∀ id, flight.authorization = some id → s.locksAuthorization id = false) ∧
      ∀ value, flight.refreshValue = some value → s.locksRefresh value = false := by
  cases h with
  | counting | holding | revoking => exact ⟨by simp [OAuthFlight.authorization],
      by simp [OAuthFlight.refreshValue]⟩
  | listing hrow hpending hfree | denying hrow hpending hfree =>
    exact ⟨fun id hid => Option.some.inj hid ▸ hfree, by simp [OAuthFlight.refreshValue]⟩
  | redeeming hrow hcode hused hfree | replaying hrow hcode hused hfree =>
    exact ⟨fun id hid => Option.some.inj hid ▸ hfree, by simp [OAuthFlight.refreshValue]⟩
  | validating hrow hlive hfree =>
    exact ⟨by simp [OAuthFlight.authorization], fun value hvalue => Option.some.inj hvalue ▸ hfree⟩
  | reusing hrow hrotated hgrace hfree =>
    exact ⟨by simp [OAuthFlight.authorization], fun value hvalue => Option.some.inj hvalue ▸ hfree⟩

theorem Exclusive.insert {p : ℕ} {flight : OAuthFlight} (hs : s.Exclusive)
    (hflights : t.flights = s.flights.insert p flight)
    (hauthorization : ∀ q other id, q ≠ p → s.flights.lookup q = some other →
      flight.authorization = some id → other.authorization ≠ some id)
    (hvalue : ∀ q other value, q ≠ p → s.flights.lookup q = some other →
      flight.refreshValue = some value → other.refreshValue ≠ some value) : t.Exclusive := by
  refine ⟨fun q r first second id hfirst hsecond hlock hlock' => ?_,
    fun q r first second value hfirst hsecond hlock hlock' => ?_⟩ <;>
  rw [hflights, Table.lookup_insert] at hfirst hsecond <;>
  split_ifs at hfirst hsecond with hq hr hr
  · exact hq.trans hr.symm
  · obtain rfl := Option.some.inj hfirst
    exact absurd hlock' (hauthorization r second id hr hsecond hlock)
  · obtain rfl := Option.some.inj hsecond
    exact absurd hlock (hauthorization q first id hq hfirst hlock')
  · exact hs.authorizations q r first second id hfirst hsecond hlock hlock'
  · exact hq.trans hr.symm
  · obtain rfl := Option.some.inj hfirst
    exact absurd hlock' (hvalue r second value hr hsecond hlock)
  · obtain rfl := Option.some.inj hsecond
    exact absurd hlock (hvalue q first value hq hfirst hlock')
  · exact hs.values q r first second value hfirst hsecond hlock hlock'

theorem Exclusive.erase {p : ℕ} (hs : s.Exclusive) (hflights : t.flights = s.flights.erase p) :
    t.Exclusive := by
  refine ⟨fun q r first second id hfirst hsecond => ?_,
    fun q r first second value hfirst hsecond => ?_⟩ <;>
  rw [hflights, Table.lookup_erase_eq_some] at hfirst hsecond
  · exact hs.authorizations q r first second id hfirst.2 hsecond.2
  · exact hs.values q r first second value hfirst.2 hsecond.2

/-- The invariant of the locks. -/
structure Locked (s : OAuthState) : Prop where
  identified : s.Identified
  exclusive : s.Exclusive
  held : s.Held

theorem Locked.step (hs : s.Locked) (h : StepCase s a t) : t.Locked := by
  refine ⟨hs.identified.step hs.held h, ?_, ?_⟩
  · cases h with
    | began a hfree hopens =>
      refine hs.exclusive.insert rfl (fun q other id _ hother hid hlock => ?_)
        fun q other value _ hother hvalue hlock => ?_
      · have hfree := hopens.free.1 id hid
        rw [locksAuthorization_iff.mpr ⟨q, other, hother, hlock⟩] at hfree
        cases hfree
      · have hfree := hopens.free.2 value hvalue
        rw [locksRefresh_iff.mpr ⟨q, other, hother, hlock⟩] at hfree
        cases hfree
    | @moved p draw flight next hflight hfresh hmoves =>
      refine Exclusive.insert (s := s.record draw) { hs.exclusive with } rfl
        (fun q other id hq hother hid hlock => hq ?_)
        fun q other value hq hother hvalue hlock => hq ?_
      · exact hs.exclusive.authorizations q p other flight id hother hflight hlock
          (hmoves.authorization ▸ hid)
      · exact hs.exclusive.values q p other flight value hother hflight hlock
          (hmoves.refreshValue ▸ hvalue)
    | answered | wrote | failed | aborted => exact hs.exclusive.erase rfl
    | changed | activated | issued => exact { hs.exclusive with }
  · cases h with
    | @began p flight a hfree hopens =>
      intro q other hother
      have hother : (s.flights.insert p flight).lookup q = some other := hother
      rw [Table.lookup_insert] at hother
      split_ifs at hother
      · exact Option.some.inj hother ▸ hopens.held
      · exact hs.held q other hother
    | @moved p draw flight next hflight hfresh hmoves =>
      intro q other hother
      have hother : (s.flights.insert p next).lookup q = some other := hother
      rw [Table.lookup_insert] at hother
      split_ifs at hother
      · exact Option.some.inj hother ▸ hmoves.held (hs.held p flight hflight)
      · exact hs.held q other hother
    | answered | failed | aborted =>
      intro q other hother
      exact hs.held q other (Table.lookup_erase_eq_some.mp hother).2
    | @wrote p draw flight tables answer hflight hfresh hwrites =>
      intro q other hother
      obtain ⟨hq, hother⟩ := Table.lookup_erase_eq_some.mp hother
      refine hwrites.held_frame hs.identified hfresh (hs.held q other hother)
        (fun id hid => ⟨fun hlock => hq ?_, locksAuthorization_iff.mpr ⟨q, other, hother, hid⟩⟩)
        fun value hvalue hlock => hq ?_
      · exact hs.exclusive.authorizations q p other flight id hother hflight hid hlock
      · exact hs.exclusive.values q p other flight value hother hflight hvalue hlock
    | changed | activated =>
      intro q other hother
      have hheld := hs.held q other hother
      cases other <;> exact hheld
    | @issued id row hissued hid hhash =>
      intro q other hother
      have hheld := hs.held q other hother
      cases other with
      | revoking id' row' now =>
        obtain ⟨current, hcurrent, hkept⟩ := hheld
        have hne : id' ≠ id := fun heq =>
          hid (heq ▸ hs.identified.accessTokens id' current hcurrent)
        refine ⟨current, ?_, hkept⟩
        change (s.tables.accessTokens.insert id row).lookup id' = some current
        rwa [Table.lookup_insert, if_neg hne]
      | _ => exact hheld

theorem Initial.locked (h : Initial s) : s.Locked := by
  have hnone {K V : Type} [DecidableEq K] {t : Table K V} (ht : t = ∅) (k : K) (v : V) :
      t.lookup k ≠ some v := by simp [ht]
  refine ⟨⟨?_, ?_, ?_, ?_, ?_, ?_⟩, ⟨?_, ?_⟩, ?_⟩
  · exact fun id row hrow => absurd hrow (hnone h.authorizations id row)
  · exact fun id row hrow => absurd hrow (hnone h.accessTokens id row)
  · exact fun id grant hgrant => absurd hgrant (hnone h.grants id grant)
  · exact fun id row code hrow => absurd hrow (hnone h.authorizations id row)
  · exact fun value row hrow => absurd hrow (hnone h.refreshTokens value row)
  · exact fun id row hrow => absurd hrow (hnone h.accessTokens id row)
  · exact fun p q flight other id hflight => absurd hflight (hnone h.flights p flight)
  · exact fun p q flight other value hflight => absurd hflight (hnone h.flights p flight)
  · exact fun p flight hflight => absurd hflight (hnone h.flights p flight)

theorem locked (hs : (machine D R challenge).Reachable s) : s.Locked :=
  hs.invariant (fun _ => Initial.locked)
    fun _ _ _ _ hlocked hstep => hlocked.step (step_cases hlocked.held hstep)

/-- Every step of a reachable state is one of the cases. -/
theorem stepCase (hs : (machine D R challenge).Reachable s)
    (h : (machine D R challenge).step s a = some t) : StepCase s a t :=
  step_cases (locked hs).held h

end OAuthState

end Rheostream
