import Rheostream.OAuth.Grants

/-!
# Requests and codes

A request is decided once, because only a pending row is decided and it is locked. A code is
used once, for the same reason, and the row of a redeemed code stays, so a second presentation
finds the grant.
-/

namespace Rheostream

namespace OAuthState

variable {D : Digests} {R : Registry} {challenge : String → String} {s t : OAuthState}
  {a : OAuthAction}

/-- A pending request was never decided, and any other one once. -/
structure DecidedOnce (s : OAuthState) : Prop where
  pending : ∀ id row, s.tables.authorizations.lookup id = some row → row.decidedAt = none →
    s.answers.countP (OAuthAnswer.decides id) = 0
  known : ∀ id, id ∉ s.ids → s.answers.countP (OAuthAnswer.decides id) = 0
  once : ∀ id, s.answers.countP (OAuthAnswer.decides id) ≤ 1

/-- The row of a redeemed code is there to find its grant. -/
def RedeemedRow (tables : OAuthTables) (code : Digest) (token : Uuid) : Prop :=
  ∃ id row grant, tables.authorizations.lookup id = some row ∧ row.codeHash = some code ∧
    row.decidedAt ≠ none ∧ row.codeUsedAt ≠ none ∧ row.tokenId = some token ∧
    tables.grants.lookup token = some grant ∧ grant.clientId = row.clientId

/-- An unused code was never presented, and any other one redeemed at most once. -/
structure CodesOnce (s : OAuthState) : Prop where
  pending : ∀ id row, s.tables.authorizations.lookup id = some row → row.decidedAt = none →
    row.codeHash = none
  unique : ∀ id id' row row' code, s.tables.authorizations.lookup id = some row →
    s.tables.authorizations.lookup id' = some row' → row.codeHash = some code →
      row'.codeHash = some code → id = id'
  unused : ∀ id row code, s.tables.authorizations.lookup id = some row →
    row.codeHash = some code → row.codeUsedAt = none →
      s.answers.countP (OAuthAnswer.presents code) = 0
  known : ∀ code, code ∉ s.drawn → s.answers.countP (OAuthAnswer.presents code) = 0
  redeemed : ∀ code token access expiresIn refresh,
    .redeemed code token access expiresIn refresh ∈ s.answers → RedeemedRow s.tables code token
  once : ∀ code, s.answers.countP (OAuthAnswer.redeems code) ≤ 1
  replayed : ∀ code token access expiresIn refresh,
    .redeemed code token access expiresIn refresh ∈ s.answers →
      2 ≤ s.answers.countP (OAuthAnswer.presents code) → s.tables.Revoked token

theorem countP_concat (p : OAuthAnswer → Bool) (answers : List OAuthAnswer) (answer : OAuthAnswer) :
    (answers ++ [answer]).countP p = answers.countP p + if p answer then 1 else 0 := by
  simp [List.countP_append, List.countP_cons]

theorem redeems_le_presents (answers : List OAuthAnswer) (code : Digest) :
    answers.countP (OAuthAnswer.redeems code) ≤ answers.countP (OAuthAnswer.presents code) := by
  refine List.countP_mono_left fun answer _ hredeems => ?_
  cases answer <;> simp_all [OAuthAnswer.redeems, OAuthAnswer.presents]

/-- A redeemed code was presented. -/
theorem presents_of_mem {answers : List OAuthAnswer} {code : Digest} {token : Uuid}
    {access refresh : Digest} {expiresIn : ℕ}
    (h : .redeemed code token access expiresIn refresh ∈ answers) :
    0 < answers.countP (OAuthAnswer.presents code) :=
  List.countP_pos_iff.mpr ⟨_, h, by simp [OAuthAnswer.presents]⟩

section Writes

variable {draw : Draw} {flight : OAuthFlight} {tables : OAuthTables} {answer : OAuthAnswer}

/-- A decision is on a pending row, which is decided after it. -/
theorem Writes.decides (h : Writes s draw flight tables answer) (hheld : flight.Held s.tables)
    {id : Uuid} (hdecides : answer.decides id = true) :
    ∃ row new, s.tables.authorizations.lookup id = some row ∧ row.decidedAt = none ∧
      tables.authorizations.lookup id = some new ∧ new.decidedAt ≠ none := by
  cases h with
  | refused | held | redeemed | burned | rotated | revoked =>
    simp [OAuthAnswer.decides] at hdecides
  | cleaned event clients hevent hanswer =>
    obtain rfl | ⟨error, rfl⟩ := hanswer <;> simp [OAuthAnswer.decides] at hdecides
  | ended now before ended hends =>
    cases hends <;> simp [OAuthAnswer.decides] at hdecides
  | @approved d chosen event hevent hchosen hold =>
    obtain rfl : d.id = id := by simpa [OAuthAnswer.decides] using hdecides
    exact ⟨d.row, _, hold, hheld.2, by rw [Table.lookup_insert, if_pos rfl],
      by simp [decidedRow, OAuthAuthorizationRow.decision]⟩
  | @declined d flight answer event hflight hevent hold =>
    have hid : d.id = id ∧ d.row.decidedAt = none := by
      obtain ⟨rfl, rfl⟩ | ⟨rfl, rfl⟩ := hflight <;>
        exact ⟨by simpa [OAuthAnswer.decides] using hdecides, hheld.2⟩
    obtain ⟨rfl, hpending⟩ := hid
    exact ⟨d.row, _, hold, hpending, by rw [Table.lookup_insert, if_pos rfl],
      by simp [decidedRow, OAuthAuthorizationRow.decision]⟩

variable {code : Digest}

/-- A presented code is one whose row is there, and used after it. -/
theorem Writes.presents (h : Writes s draw flight tables answer) (hheld : flight.Held s.tables)
    (hpresents : answer.presents code = true) :
    ∃ id row, tables.authorizations.lookup id = some row ∧ row.codeHash = some code ∧
      row.codeUsedAt ≠ none := by
  cases h with
  | refused | held | approved | rotated | revoked => simp [OAuthAnswer.presents] at hpresents
  | cleaned event clients hevent hanswer =>
    obtain rfl | ⟨error, rfl⟩ := hanswer <;> simp [OAuthAnswer.presents] at hpresents
  | declined event hflight =>
    obtain ⟨-, rfl⟩ | ⟨-, rfl⟩ := hflight <;> simp [OAuthAnswer.presents] at hpresents
  | @burned e flight error hflight hold =>
    have hcode : e.row.codeHash = some e.code := by
      obtain rfl | ⟨account, workspace, rfl⟩ := hflight <;> exact hheld.2.1
    obtain rfl : e.code = code := by simpa [OAuthAnswer.presents] using hpresents
    exact ⟨e.id, burnedRow e, by rw [Table.lookup_insert, if_pos rfl], hcode,
      by simp [burnedRow, OAuthAuthorizationRow.burn]⟩
  | @redeemed e account workspace token grant expiresIn event hevent hold =>
    obtain rfl : e.code = code := by simpa [OAuthAnswer.presents] using hpresents
    exact ⟨e.id, redeemedRow e draw.id, by rw [Table.lookup_insert, if_pos rfl], hheld.2.1,
      by simp [redeemedRow, burnedRow, OAuthAuthorizationRow.burn,
        OAuthAuthorizationRow.redemption]⟩
  | ended now before ended hends =>
    rw [endGrant_authorizations]
    cases hends with
    | replayed e =>
      obtain rfl : e.code = code := by simpa [OAuthAnswer.presents] using hpresents
      exact ⟨e.id, e.row, hheld.1, hheld.2.1, Option.isSome_iff_ne_none.mp hheld.2.2⟩
    | reused | revoked => simp [OAuthAnswer.presents] at hpresents

/-- Only the locked authorization of a write is changed, and the new one of a held request. -/
theorem Writes.authorization_own (h : Writes s draw flight tables answer) {id : Uuid}
    {row old : OAuthAuthorizationRow} (hrow : tables.authorizations.lookup id = some row)
    (hold : s.tables.authorizations.lookup id = some old) (hnew : id ≠ draw.id) (hne : row ≠ old) :
    flight.authorization = some id := by
  have same (hkept : s.tables.authorizations.lookup id = some row) : False :=
    hne (Option.some.inj (hkept.symm.trans hold))
  cases h with
  | refused | rotated | revoked => exact (same hrow).elim
  | cleaned _ _ _ _ _ _ _ htables =>
    subst htables
    exact (same (lookup_clean_authorizations hrow)).elim
  | held =>
    rw [Table.lookup_insert, if_neg hnew] at hrow
    exact (same hrow).elim
  | approved | redeemed =>
    rw [Table.lookup_insert] at hrow
    split_ifs at hrow with hid
    · exact congrArg some hid.symm
    · exact (same hrow).elim
  | declined event hflight =>
    rw [Table.lookup_insert] at hrow
    split_ifs at hrow with hid
    · obtain ⟨rfl, -⟩ | ⟨rfl, -⟩ := hflight <;> exact congrArg some hid.symm
    · exact (same hrow).elim
  | burned error hflight =>
    rw [Table.lookup_insert] at hrow
    split_ifs at hrow with hid
    · obtain rfl | ⟨account, workspace, rfl⟩ := hflight <;> exact congrArg some hid.symm
    · exact (same hrow).elim
  | ended =>
    rw [endGrant_authorizations] at hrow
    exact (same hrow).elim

variable {token : Uuid}

/-- The row of a redeemed code stays: it is neither pending nor unused, it does not expire, and
its client has a grant. -/
theorem Writes.redeemedRow_kept (h : Writes s draw flight tables answer) (hs : s.Identified)
    (hheld : flight.Held s.tables) (hfresh : s.isFresh draw = true)
    (hrow : RedeemedRow s.tables code token) : RedeemedRow tables code token := by
  obtain ⟨id, row, grant, hlookup, hcode, hdecided, hused, htoken, hgrant, hclient⟩ := hrow
  have hnew : id ≠ draw.id := fun heq =>
    (fresh_of_isFresh hfresh).2.2.2 (heq ▸ hs.authorizations id row hlookup)
  have unpending {d : Decision} (hd : s.tables.authorizations.lookup d.id = some d.row)
      (hpending : d.row.decidedAt = none) : id ≠ d.id := by
    rintro rfl
    obtain rfl := Option.some.inj (hlookup.symm.trans hd)
    exact hdecided hpending
  have notUnused {e : CodeExchange} (he : s.tables.authorizations.lookup e.id = some e.row)
      (hunused : e.row.codeUsedAt = none) : id ≠ e.id := by
    rintro rfl
    obtain rfl := Option.some.inj (hlookup.symm.trans he)
    exact hused hunused
  refine ⟨id, row, grant, ?_, hcode, hdecided, hused, htoken, h.grant_kept hs hfresh hgrant,
    hclient⟩
  cases h with
  | refused | rotated | revoked => exact hlookup
  | @cleaned r recent selected _ _ event clients hevent hanswer hclients hfree hgrants htables =>
    subst htables
    refine Table.lookup_deleteWhere_eq_some.mpr ⟨hlookup, ?_⟩
    have hvictim : (s.victims selected).contains row.clientId = false := by
      rw [← Bool.not_eq_true, List.contains_iff_mem]
      intro hmem
      have hsome : s.tables.hasAnyGrant row.clientId = true :=
        Table.existsRow_iff.mpr ⟨token, grant, hgrant, by simpa using hclient⟩
      rw [hgrants row.clientId hmem] at hsome
      cases hsome
    have hkept : OAuthTables.isExpired r.expiredBefore row = false := by
      simp [OAuthTables.isExpired, htoken]
    exact Bool.or_eq_false_iff.mpr ⟨hvictim, hkept⟩
  | held => rwa [Table.lookup_insert, if_neg hnew]
  | approved event hevent hchosen hold =>
    rwa [Table.lookup_insert, if_neg (unpending hold hheld.2)]
  | declined event hflight hevent hold =>
    rw [Table.lookup_insert, if_neg, hlookup]
    obtain ⟨rfl, -⟩ | ⟨rfl, -⟩ := hflight <;> exact unpending hold hheld.2
  | burned error hflight hold =>
    rw [Table.lookup_insert, if_neg, hlookup]
    obtain rfl | ⟨account, workspace, rfl⟩ := hflight <;> exact notUnused hold hheld.2.2
  | redeemed expiresIn event hevent hold =>
    rwa [Table.lookup_insert, if_neg (notUnused hold hheld.2.2)]
  | ended => rwa [endGrant_authorizations]

/-- A code is redeemed on its unused row. -/
theorem Writes.redeems (h : Writes s draw flight tables answer) (hheld : flight.Held s.tables)
    (hredeems : answer.redeems code = true) :
    ∃ id row, s.tables.authorizations.lookup id = some row ∧ row.codeHash = some code ∧
      row.codeUsedAt = none := by
  cases h with
  | refused | held | approved | burned | rotated | revoked =>
    simp [OAuthAnswer.redeems] at hredeems
  | cleaned event clients hevent hanswer =>
    obtain rfl | ⟨error, rfl⟩ := hanswer <;> simp [OAuthAnswer.redeems] at hredeems
  | declined event hflight =>
    obtain ⟨-, rfl⟩ | ⟨-, rfl⟩ := hflight <;> simp [OAuthAnswer.redeems] at hredeems
  | @redeemed e =>
    obtain rfl : e.code = code := by simpa [OAuthAnswer.redeems] using hredeems
    exact ⟨e.id, e.row, hheld⟩
  | ended now before ended hends =>
    cases hends <;> simp [OAuthAnswer.redeems] at hredeems

/-- A redeemed code leaves its row. -/
theorem Writes.redeemedRow (h : Writes s draw flight tables answer) (hheld : flight.Held s.tables)
    (hcodes : s.CodesOnce) {access refresh : Digest} {expiresIn : ℕ}
    (hanswer : answer = .redeemed code token access expiresIn refresh) :
    RedeemedRow tables code token := by
  cases h with
  | refused | held | approved | burned | rotated | revoked => cases hanswer
  | cleaned event clients hevent hcleaned =>
    obtain rfl | ⟨error, rfl⟩ := hcleaned <;> cases hanswer
  | declined event hflight => obtain ⟨-, rfl⟩ | ⟨-, rfl⟩ := hflight <;> cases hanswer
  | @redeemed e account workspace row grant expiresIn' event hevent hold hclient =>
    cases hanswer
    obtain ⟨hlookup, hcode, hunused⟩ := hheld
    have hdecided : e.row.decidedAt ≠ none := fun hpending => by
      have hnone := hcodes.pending e.id e.row hlookup hpending
      simp [hcode] at hnone
    have hrow : (s.tables.authorizations.insert e.id
        (OAuthState.redeemedRow e draw.id)).lookup e.id =
          some (OAuthState.redeemedRow e draw.id) := AList.lookup_insert _
    have hgrant : (s.tables.grants.insert draw.id grant).lookup draw.id = some grant :=
      AList.lookup_insert _
    exact ⟨e.id, _, grant, hrow, hcode, hdecided,
      by simp [OAuthState.redeemedRow, burnedRow, OAuthAuthorizationRow.burn,
        OAuthAuthorizationRow.redemption], rfl, hgrant, hclient⟩
  | ended now before ended hends => cases hends <;> cases hanswer

/-- A conditional revocation of a token that is there leaves it revoked. -/
theorem endGrant_revoked {row : AccessTokenRow} (hrow : tables.accessTokens.lookup token = some row)
    (now : ℕ) (before : List OAuthEventRow) (ended : OAuthEventRow) :
    (tables.endGrant (some token) now before ended).Revoked token := by
  obtain ⟨heq, hrevoked⟩ | ⟨id, old, hid, hold, -, heq⟩ :=
    tables.endGrant_cases (some token) now before ended
  · rw [heq]
    exact ⟨row, hrow, hrevoked token row rfl hrow⟩
  · obtain rfl := Option.some.inj hid
    have hlookup : (tables.accessTokens.insert token
        ((AccessTokenRow.revocationIfLive now).set old)).lookup token =
          some ((AccessTokenRow.revocationIfLive now).set old) := AList.lookup_insert _
    rw [heq]
    exact ⟨_, hlookup, rfl⟩

/-- A second presentation of a redeemed code revokes its grant. -/
theorem Writes.replay_revokes (h : Writes s draw flight tables answer)
    (hheld : flight.Held s.tables) (hcodes : s.CodesOnce) (hgranted : s.Granted)
    {access refresh : Digest} {expiresIn : ℕ} (hpresents : answer.presents code = true)
    (hmem : .redeemed code token access expiresIn refresh ∈ s.answers) : tables.Revoked token := by
  have used {id : Uuid} {row : OAuthAuthorizationRow}
      (hrow : s.tables.authorizations.lookup id = some row) (hcode : row.codeHash = some code)
      (hunused : row.codeUsedAt = none) : False := by
    have hzero := hcodes.unused id row code hrow hcode hunused
    have hpos := presents_of_mem hmem
    omega
  cases h with
  | refused | held | approved | rotated | revoked => simp [OAuthAnswer.presents] at hpresents
  | cleaned event clients hevent hanswer =>
    obtain rfl | ⟨error, rfl⟩ := hanswer <;> simp [OAuthAnswer.presents] at hpresents
  | declined event hflight =>
    obtain ⟨-, rfl⟩ | ⟨-, rfl⟩ := hflight <;> simp [OAuthAnswer.presents] at hpresents
  | @burned e flight error hflight hold =>
    obtain rfl : e.code = code := by simpa [OAuthAnswer.presents] using hpresents
    obtain rfl | ⟨account, workspace, rfl⟩ := hflight <;>
      exact (used hold hheld.2.1 hheld.2.2).elim
  | @redeemed e account workspace row grant expiresIn' event hevent hold =>
    obtain rfl : e.code = code := by simpa [OAuthAnswer.presents] using hpresents
    exact (used hold hheld.2.1 hheld.2.2).elim
  | ended now before ended hends =>
    cases hends with
    | reused | revoked => simp [OAuthAnswer.presents] at hpresents
    | replayed e =>
      obtain rfl : e.code = code := by simpa [OAuthAnswer.presents] using hpresents
      obtain ⟨id, row, grant, hrow, hcode, -, -, htoken, hgrant, -⟩ :=
        hcodes.redeemed _ _ _ _ _ hmem
      obtain rfl := hcodes.unique id e.id row e.row e.code hrow hheld.1 hcode hheld.2.1
      obtain rfl := Option.some.inj (hrow.symm.trans hheld.1)
      obtain ⟨accessToken, haccess, -⟩ := hgranted.backed token grant hgrant
      rw [htoken]
      exact endGrant_revoked haccess now before ended

/-- A revoked token stays revoked. -/
theorem Writes.revoked_kept (h : Writes s draw flight tables answer) (hs : s.Identified)
    (hfresh : s.isFresh draw = true) (hrevoked : s.tables.Revoked token) :
    tables.Revoked token := by
  obtain ⟨row, hrow, hsome⟩ := hrevoked
  obtain ⟨new, hnew, -, hkept⟩ := h.accessToken_kept hs hfresh hrow
  exact ⟨new, hnew, (hkept hsome).1⟩

end Writes

theorem DecidedOnce.step (hs : s.DecidedOnce) (hlocked : s.Locked) (h : StepCase s a t) :
    t.DecidedOnce := by
  cases h with
  | began | aborted | changed | activated => exact { hs with }
  | moved | failed | issued =>
    have hknown (id id' : Uuid) (hid : id ∉ id' :: s.ids) : id ∉ s.ids :=
      fun hmem => hid (List.mem_cons_of_mem _ hmem)
    exact { hs with known := fun id hid => hs.known id (hknown id _ hid) }
  | @answered p error a hfree =>
    have hcount (id : Uuid) : (s.answers ++ [OAuthAnswer.refused error]).countP
        (OAuthAnswer.decides id) = s.answers.countP (OAuthAnswer.decides id) := by
      rw [countP_concat]
      rfl
    exact
      { pending := fun id row hrow hpending => (hcount id).trans (hs.pending id row hrow hpending)
        known := fun id hid => (hcount id).trans (hs.known id hid)
        once := fun id => (hcount id).trans_le (hs.once id) }
  | @wrote p draw flight tables answer hflight hfresh hwrites =>
    have hheld := hlocked.held p flight hflight
    have hcount (id : Uuid) : ((s.record draw).settle p tables answer).answers.countP
        (OAuthAnswer.decides id) = s.answers.countP (OAuthAnswer.decides id) +
          if answer.decides id then 1 else 0 := countP_concat _ _ _
    refine ⟨fun id row hrow hpending => ?_, fun id hid => ?_, fun id => ?_⟩
    · rw [hcount, if_neg, Nat.add_zero]
      · obtain ⟨rfl, -⟩ | ⟨old, hold, hfollows⟩ := hwrites.authorization_of hheld hrow
        · exact hs.known _ (fresh_of_isFresh hfresh).2.2.2
        · exact hs.pending id old hold (hfollows.decidedAt hpending)
      · intro hdecides
        obtain ⟨-, new, -, -, hnew, hdecided⟩ := hwrites.decides hheld hdecides
        exact hdecided (Option.some.inj (hnew.symm.trans hrow) ▸ hpending)
    · have hid : id ∉ s.ids := fun hmem => hid (List.mem_cons_of_mem _ hmem)
      rw [hcount, if_neg, Nat.add_zero]
      · exact hs.known id hid
      · intro hdecides
        obtain ⟨row, -, hrow, -⟩ := hwrites.decides hheld hdecides
        exact hid (hlocked.identified.authorizations id row hrow)
    · rw [hcount]
      split_ifs with hdecides
      · obtain ⟨row, -, hrow, hpending, -⟩ := hwrites.decides hheld hdecides
        have hzero := hs.pending id row hrow hpending
        omega
      · exact hs.once id

/-- A code after a write was one before, or is the secret that was drawn, in the write's own row. -/
private theorem code_of {p : ℕ} {draw : Draw} {flight : OAuthFlight} {tables : OAuthTables}
    {answer : OAuthAnswer} (hwrites : Writes s draw flight tables answer) (hlocked : s.Locked)
    (hflight : s.flights.lookup p = some flight) (hfresh : s.isFresh draw = true) {id : Uuid}
    {row : OAuthAuthorizationRow} {code : Digest}
    (hrow : tables.authorizations.lookup id = some row) (hcode : row.codeHash = some code) :
    ∃ old, s.tables.authorizations.lookup id = some old ∧ Follows draw old row ∧
      (old.codeHash = some code ∨ code = draw.secret ∧ flight.authorization = some id) := by
  obtain ⟨-, hnone, -⟩ | ⟨old, hold, hfollows⟩ :=
    hwrites.authorization_of (hlocked.held p flight hflight) hrow
  · simp [hcode] at hnone
  · refine ⟨old, hold, hfollows, ?_⟩
    have hnew : id ≠ draw.id := fun heq =>
      (fresh_of_isFresh hfresh).2.2.2 (heq ▸ hlocked.identified.authorizations id old hold)
    by_cases heq : row = old
    · exact .inl (heq ▸ hcode)
    · obtain hkept | ⟨-, -, hnone | hsecret⟩ := hfollows.codeHash
      · exact .inl (hkept ▸ hcode)
      · simp [hcode] at hnone
      · exact .inr ⟨Option.some.inj (hcode.symm.trans hsecret),
          hwrites.authorization_own hrow hold hnew heq⟩

theorem CodesOnce.wrote {p : ℕ} {draw : Draw} {flight : OAuthFlight} {tables : OAuthTables}
    {answer : OAuthAnswer} (hs : s.CodesOnce) (hlocked : s.Locked) (hgranted : s.Granted)
    (hflight : s.flights.lookup p = some flight) (hfresh : s.isFresh draw = true)
    (hwrites : Writes s draw flight tables answer) :
    ((s.record draw).settle p tables answer).CodesOnce := by
  have hheld := hlocked.held p flight hflight
  have hsecret := (fresh_of_isFresh hfresh).1
  have hidentified := hlocked.identified.step hlocked.held (.wrote hflight hfresh hwrites)
  have hcount (q : OAuthAnswer → Bool) :
      ((s.record draw).settle p tables answer).answers.countP q =
        s.answers.countP q + if q answer then 1 else 0 := countP_concat _ _ _
  have hunique (id id' : Uuid) (row row' : OAuthAuthorizationRow) (code : Digest)
      (hrow : tables.authorizations.lookup id = some row)
      (hrow' : tables.authorizations.lookup id' = some row') (hcode : row.codeHash = some code)
      (hcode' : row'.codeHash = some code) : id = id' := by
    obtain ⟨old, hold, -, hfrom⟩ := code_of hwrites hlocked hflight hfresh hrow hcode
    obtain ⟨old', hold', -, hfrom'⟩ := code_of hwrites hlocked hflight hfresh hrow' hcode'
    obtain hkept | ⟨rfl, hown⟩ := hfrom
    · obtain hkept' | ⟨rfl, -⟩ := hfrom'
      · exact hs.unique id id' old old' code hold hold' hkept hkept'
      · exact absurd (hlocked.identified.codes id old _ hold hkept) hsecret
    · obtain hkept' | ⟨-, hown'⟩ := hfrom'
      · exact absurd (hlocked.identified.codes id' old' _ hold' hkept') hsecret
      · exact Option.some.inj (hown.symm.trans hown')
  refine ⟨fun id row hrow hpending => ?_, hunique, fun id row code hrow hcode hunused => ?_,
    fun code hdrawn => ?_, fun code token access expiresIn refresh hmem => ?_, fun code => ?_,
    fun code token access expiresIn refresh hmem htwice => ?_⟩
  · obtain ⟨-, hnone, -⟩ | ⟨old, hold, hfollows⟩ := hwrites.authorization_of hheld hrow
    · exact hnone
    · obtain hkept | ⟨-, hdecided, -⟩ := hfollows.codeHash
      · exact hkept.trans (hs.pending id old hold (hfollows.decidedAt hpending))
      · exact absurd hpending hdecided
  · rw [hcount, if_neg, Nat.add_zero]
    · obtain ⟨old, hold, hfollows, hkept | ⟨rfl, -⟩⟩ :=
        code_of hwrites hlocked hflight hfresh hrow hcode
      · exact hs.unused id old code hold hkept (hfollows.codeUsedAt hunused)
      · exact hs.known _ hsecret
    · intro hpresents
      obtain ⟨id', row', hrow', hcode', hused⟩ := hwrites.presents hheld hpresents
      obtain rfl := hunique id id' row row' code hrow hrow' hcode hcode'
      exact hused (Option.some.inj (hrow'.symm.trans hrow) ▸ hunused)
  · rw [hcount, if_neg, Nat.add_zero]
    · exact hs.known code fun hmem =>
        hdrawn (List.mem_cons_of_mem _ (List.mem_cons_of_mem _ hmem))
    · intro hpresents
      obtain ⟨id, row, hrow, hcode, -⟩ := hwrites.presents hheld hpresents
      exact hdrawn (hidentified.codes id row code hrow hcode)
  · obtain hmem | hmem := List.mem_append.mp hmem
    · exact hwrites.redeemedRow_kept hlocked.identified hheld hfresh (hs.redeemed _ _ _ _ _ hmem)
    · exact hwrites.redeemedRow hheld hs (List.mem_singleton.mp hmem).symm
  · rw [hcount]
    split_ifs with hredeems
    · obtain ⟨id, row, hrow, hcode, hunused⟩ := hwrites.redeems hheld hredeems
      have hzero := hs.unused id row code hrow hcode hunused
      have hle := redeems_le_presents s.answers code
      omega
    · exact hs.once code
  · rw [hcount] at htwice
    obtain hmem | hmem := List.mem_append.mp hmem
    · split_ifs at htwice with hpresents
      · exact hwrites.replay_revokes hheld hs hgranted hpresents hmem
      · exact hwrites.revoked_kept hlocked.identified hfresh
          (hs.replayed code token access expiresIn refresh hmem htwice)
    · obtain rfl := List.mem_singleton.mp hmem
      have hredeems :
          (OAuthAnswer.redeemed code token access expiresIn refresh).redeems code = true := by
        simp [OAuthAnswer.redeems]
      obtain ⟨id, row, hrow, hcode, hunused⟩ := hwrites.redeems hheld hredeems
      have hzero := hs.unused id row code hrow hcode hunused
      split_ifs at htwice <;> omega

theorem CodesOnce.step (hs : s.CodesOnce) (hlocked : s.Locked) (hgranted : s.Granted)
    (h : StepCase s a t) : t.CodesOnce := by
  cases h with
  | began | aborted | changed | activated => exact { hs with }
  | moved | failed =>
    exact { hs with
      known := fun code hcode => hs.known code fun hmem =>
        hcode (List.mem_cons_of_mem _ (List.mem_cons_of_mem _ hmem)) }
  | @answered p error a hfree =>
    have hcount (q : OAuthAnswer → Bool) (hq : q (.refused error) = false) :
        (s.answers ++ [OAuthAnswer.refused error]).countP q = s.answers.countP q := by
      rw [countP_concat, hq]
      rfl
    have hold {code access refresh : Digest} {token : Uuid} {expiresIn : ℕ}
        (hmem : .redeemed code token access expiresIn refresh ∈
          s.answers ++ [OAuthAnswer.refused error]) :
        .redeemed code token access expiresIn refresh ∈ s.answers := by
      simpa using hmem
    exact
      { pending := hs.pending
        unique := hs.unique
        unused := fun id row code hrow hcode hunused =>
          (hcount _ rfl).trans (hs.unused id row code hrow hcode hunused)
        known := fun code hcode => (hcount _ rfl).trans (hs.known code hcode)
        redeemed := fun _ _ _ _ _ hmem => hs.redeemed _ _ _ _ _ (hold hmem)
        once := fun code => (hcount _ rfl).trans_le (hs.once code)
        replayed := fun _ _ _ _ _ hmem htwice =>
          hs.replayed _ _ _ _ _ (hold hmem) (htwice.trans (hcount _ rfl).le) }
  | wrote hflight hfresh hwrites => exact hs.wrote hlocked hgranted hflight hfresh hwrites
  | @issued id row hissued hid hhash =>
    refine
      { hs with
        known := fun code hcode => hs.known code fun hmem => hcode (List.mem_cons_of_mem _ hmem)
        replayed := fun code token access expiresIn refresh hmem htwice => ?_ }
    obtain ⟨row', hrow', hrevoked⟩ := hs.replayed code token access expiresIn refresh hmem htwice
    have hne : token ≠ id := fun heq =>
      hid (heq ▸ hlocked.identified.accessTokens token row' hrow')
    refine ⟨row', ?_, hrevoked⟩
    change (s.tables.accessTokens.insert id row).lookup token = some row'
    rwa [Table.lookup_insert, if_neg hne]

theorem Initial.decidedOnce (h : Initial s) : s.DecidedOnce := by
  refine ⟨?_, ?_, ?_⟩ <;> simp [h.answers]

theorem Initial.codesOnce (h : Initial s) : s.CodesOnce := by
  refine ⟨?_, ?_, ?_, ?_, ?_, ?_, ?_⟩
  · simp [h.authorizations]
  · simp [h.authorizations]
  · simp [h.authorizations]
  · simp [h.answers]
  · simp [h.answers]
  · simp [h.answers]
  · simp [h.answers]

theorem decidedOnce (hs : (machine D R challenge).Reachable s) : s.DecidedOnce :=
  hs.invariant (fun _ => Initial.decidedOnce)
    fun _ _ _ hreach honce hstep => honce.step (locked hreach) (stepCase hreach hstep)

theorem codesOnce (hs : (machine D R challenge).Reachable s) : s.CodesOnce :=
  hs.invariant (fun _ => Initial.codesOnce)
    fun _ _ _ hreach honce hstep =>
      honce.step (locked hreach) (granted hreach) (stepCase hreach hstep)

end OAuthState

end Rheostream
