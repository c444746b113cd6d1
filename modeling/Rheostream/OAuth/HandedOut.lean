import Rheostream.OAuth.Codes

/-!
# What is handed out

Every grant was handed out for a code, every access value is its own grant's, and nothing is
handed out of a grant that was revoked.
-/

namespace Rheostream

namespace OAuthState

variable {D : Digests} {R : Registry} {challenge : String → String} {s t : OAuthState}
  {a : OAuthAction}

/-- An access value that was handed out is a grant's own, and a refresh value that was accepted
is of the grant that the answer names. -/
structure HandedOut (s : OAuthState) : Prop where
  grants : ∀ id grant, s.tables.grants.lookup id = some grant →
    ∃ code access expiresIn refresh, .redeemed code id access expiresIn refresh ∈ s.answers
  values : ∀ value token access expiresIn refresh,
    .refreshed value token access expiresIn refresh ∈ s.answers →
      ∃ row, s.tables.refreshTokens.lookup value = some row ∧ row.tokenId = token
  drawn : ∀ answer ∈ s.answers, ∀ token access, answer.handsOut = some (token, access) →
    access ∈ s.drawn
  own : ∀ answer ∈ s.answers, ∀ token access, answer.handsOut = some (token, access) →
    ∀ id row, s.tables.accessTokens.lookup id = some row → row.tokenHash = access → id = token

section Writes

variable {draw : Draw} {flight : OAuthFlight} {tables : OAuthTables} {answer : OAuthAnswer}

/-- What is handed out is the drawn value, of a grant that is not revoked. -/
theorem Writes.handsOut (h : Writes s draw flight tables answer) (hs : s.Identified)
    (hfresh : s.isFresh draw = true) {token : Uuid} {access : Digest}
    (hhands : answer.handsOut = some (token, access)) :
    access = draw.access ∧ ¬ s.tables.Revoked token := by
  cases h with
  | refused | held | approved | burned | revoked => cases hhands
  | cleaned event clients hevent hanswer =>
    obtain rfl | ⟨error, rfl⟩ := hanswer <;> cases hhands
  | declined event hflight => obtain ⟨-, rfl⟩ | ⟨-, rfl⟩ := hflight <;> cases hhands
  | redeemed =>
    obtain ⟨rfl, rfl⟩ := Prod.mk.inj (Option.some.inj hhands)
    refine ⟨rfl, ?_⟩
    rintro ⟨row, hrow, -⟩
    exact (fresh_of_isFresh hfresh).2.2.2 (hs.accessTokens _ row hrow)
  | rotated expiresAt expiresIn event hevent hrow hlive =>
    obtain ⟨rfl, rfl⟩ := Prod.mk.inj (Option.some.inj hhands)
    refine ⟨rfl, ?_⟩
    rintro ⟨row, hlookup, hrevoked⟩
    obtain rfl := Option.some.inj (hlookup.symm.trans hrow)
    simp [hlive] at hrevoked
  | ended now before ended hends => cases hends <;> cases hhands

/-- A refresh value stays a value of its grant. -/
theorem Writes.value_kept (h : Writes s draw flight tables answer) (hs : s.Identified)
    (hfresh : s.isFresh draw = true) {value : Digest} {token : Uuid}
    (hvalue : ∃ row, s.tables.refreshTokens.lookup value = some row ∧ row.tokenId = token) :
    ∃ row, tables.refreshTokens.lookup value = some row ∧ row.tokenId = token := by
  obtain ⟨row, hrow, htoken⟩ := hvalue
  have hnew : value ≠ draw.secret := fun heq =>
    (fresh_of_isFresh hfresh).1 (heq ▸ hs.values value row hrow)
  by_cases hother : flight.refreshValue = some value
  · cases h with
    | refused | held | approved | declined | burned | revoked => exact ⟨row, hrow, htoken⟩
    | cleaned _ _ _ _ _ _ _ htables =>
      subst htables
      exact ⟨row, hrow, htoken⟩
    | redeemed => exact ⟨row, by rwa [Table.lookup_insert, if_neg hnew], htoken⟩
    | @rotated r _ _ _ expiresAt expiresIn event hevent hold hlive hexpires hpresented =>
      obtain rfl := Option.some.inj hother
      obtain rfl := Option.some.inj (hrow.symm.trans hpresented)
      refine ⟨(OAuthRefreshTokenRow.rotation r.now).set r.row, ?_, htoken⟩
      rw [Table.lookup_insert, if_neg hnew, Table.lookup_insert, if_pos rfl]
    | ended => exact ⟨row, by rwa [endGrant_refreshTokens], htoken⟩
  · exact ⟨row, h.value_frame hs hfresh hrow hother, htoken⟩

/-- A new grant is handed out for a code. -/
theorem Writes.new_answer (h : Writes s draw flight tables answer) (hs : s.Identified)
    (hfresh : s.isFresh draw = true) {grant : OAuthGrantRow}
    (hgrant : tables.grants.lookup draw.id = some grant) :
    ∃ code access expiresIn refresh,
      answer = .redeemed code draw.id access expiresIn refresh := by
  have hnew : s.tables.grants.lookup draw.id ≠ some grant := fun hold =>
    (fresh_of_isFresh hfresh).2.2.2 (hs.grants draw.id grant hold)
  cases h with
  | refused | held | approved | declined | burned | rotated | revoked => exact absurd hgrant hnew
  | cleaned _ _ _ _ _ _ _ htables =>
    subst htables
    exact absurd hgrant hnew
  | redeemed => exact ⟨_, _, _, _, rfl⟩
  | ended =>
    rw [endGrant_grants] at hgrant
    exact absurd hgrant hnew

/-- A rotation answers with the value it was given. -/
theorem Writes.refreshed (h : Writes s draw flight tables answer) (hheld : flight.Held s.tables)
    {value access refresh : Digest} {token : Uuid} {expiresIn : ℕ}
    (hanswer : answer = .refreshed value token access expiresIn refresh) :
    ∃ row, s.tables.refreshTokens.lookup value = some row ∧ row.tokenId = token := by
  cases h with
  | refused | held | approved | burned | redeemed | revoked => cases hanswer
  | cleaned event clients hevent hcleaned =>
    obtain rfl | ⟨error, rfl⟩ := hcleaned <;> cases hanswer
  | declined event hflight => obtain ⟨-, rfl⟩ | ⟨-, rfl⟩ := hflight <;> cases hanswer
  | @rotated r =>
    cases hanswer
    exact ⟨r.row, hheld.1, rfl⟩
  | ended now before ended hends => cases hends <;> cases hanswer

end Writes

theorem HandedOut.wrote {p : ℕ} {draw : Draw} {flight : OAuthFlight} {tables : OAuthTables}
    {answer : OAuthAnswer} (hs : s.HandedOut) (hlocked : s.Locked)
    (hflight : s.flights.lookup p = some flight) (hfresh : s.isFresh draw = true)
    (hwrites : Writes s draw flight tables answer) :
    ((s.record draw).settle p tables answer).HandedOut := by
  have haccess := (fresh_of_isFresh hfresh).2.1
  refine ⟨fun id grant hgrant => ?_, fun value token access expiresIn refresh hmem => ?_,
    fun earlier hmem token access hhands => ?_,
    fun earlier hmem token access hhands id row hrow hhash => ?_⟩
  · obtain rfl | hold := hwrites.grant_of hgrant
    · obtain ⟨code, access, expiresIn, refresh, hanswer⟩ :=
        hwrites.new_answer hlocked.identified hfresh hgrant
      exact ⟨code, access, expiresIn, refresh, by simp [settle, hanswer]⟩
    · obtain ⟨code, access, expiresIn, refresh, hmem⟩ := hs.grants id grant hold
      exact ⟨code, access, expiresIn, refresh, List.mem_append_left _ hmem⟩
  · refine hwrites.value_kept hlocked.identified hfresh ?_
    obtain hmem | hmem := List.mem_append.mp hmem
    · exact hs.values value token access expiresIn refresh hmem
    · exact hwrites.refreshed (hlocked.held p flight hflight) (List.mem_singleton.mp hmem).symm
  · obtain hmem | hmem := List.mem_append.mp hmem
    · have hdrawn := hs.drawn earlier hmem token access hhands
      exact List.mem_cons_of_mem _ (List.mem_cons_of_mem _ hdrawn)
    · obtain rfl := List.mem_singleton.mp hmem
      obtain rfl := (hwrites.handsOut hlocked.identified hfresh hhands).1
      exact List.mem_cons_of_mem _ List.mem_cons_self
  · obtain hmem | hmem := List.mem_append.mp hmem
    · have hdrawn := hs.drawn earlier hmem token access hhands
      obtain ⟨old, hold, hkept⟩ | ⟨hnew, -⟩ := hwrites.accessToken_of hrow
      · exact hs.own earlier hmem token access hhands id old hold (hkept.symm.trans hhash)
      · exact absurd (hnew ▸ hhash ▸ hdrawn) haccess
    · obtain rfl := List.mem_singleton.mp hmem
      obtain rfl := (hwrites.handsOut hlocked.identified hfresh hhands).1
      obtain ⟨old, hold, hkept⟩ | ⟨-, hown, -⟩ := hwrites.accessToken_of hrow
      · have hdrawn := hlocked.identified.hashes id old hold
        exact absurd ((hkept.symm.trans hhash) ▸ hdrawn) haccess
      · exact (Prod.mk.inj (Option.some.inj (hown.symm.trans hhands))).1

theorem HandedOut.step (hs : s.HandedOut) (hlocked : s.Locked) (h : StepCase s a t) :
    t.HandedOut := by
  cases h with
  | began | aborted | changed | activated => exact { hs with }
  | moved | failed =>
    exact { hs with
      drawn := fun answer hmem token access hhands =>
        List.mem_cons_of_mem _ (List.mem_cons_of_mem _ (hs.drawn answer hmem token access hhands)) }
  | @answered p error a hfree =>
    have hold {answer : OAuthAnswer} {token : Uuid} {access : Digest}
        (hmem : answer ∈ s.answers ++ [.refused error])
        (hhands : answer.handsOut = some (token, access)) : answer ∈ s.answers := by
      obtain hmem | hmem := List.mem_append.mp hmem
      · exact hmem
      · obtain rfl := List.mem_singleton.mp hmem
        cases hhands
    refine ⟨fun id grant hgrant => ?_, fun value token access expiresIn refresh hmem => ?_,
      fun answer hmem token access hhands => hs.drawn answer (hold hmem hhands) token access hhands,
      fun answer hmem token access hhands =>
        hs.own answer (hold hmem hhands) token access hhands⟩
    · obtain ⟨code, access, expiresIn, refresh, hmem⟩ := hs.grants id grant hgrant
      exact ⟨code, access, expiresIn, refresh, List.mem_append_left _ hmem⟩
    · exact hs.values value token access expiresIn refresh (hold hmem rfl)
  | wrote hflight hfresh hwrites => exact hs.wrote hlocked hflight hfresh hwrites
  | @issued id row hissued hid hhash =>
    refine
      { hs with
        drawn := fun answer hmem token access hhands =>
          List.mem_cons_of_mem _ (hs.drawn answer hmem token access hhands)
        own := fun answer hmem token access hhands id' row' hrow' hhash' => ?_ }
    have hrow' : (s.tables.accessTokens.insert id row).lookup id' = some row' := hrow'
    rw [Table.lookup_insert] at hrow'
    split_ifs at hrow' with hid'
    · obtain rfl := Option.some.inj hrow'
      exact absurd (hhash' ▸ hs.drawn answer hmem token access hhands) hhash
    · exact hs.own answer hmem token access hhands id' row' hrow' hhash'

theorem Initial.handedOut (h : Initial s) : s.HandedOut := by
  refine ⟨?_, ?_, ?_, ?_⟩
  · simp [h.grants]
  · simp [h.answers]
  · simp [h.answers]
  · simp [h.answers]

theorem handedOut (hs : (machine D R challenge).Reachable s) : s.HandedOut :=
  hs.invariant (fun _ => Initial.handedOut)
    fun _ _ _ hreach hout hstep => hout.step (locked hreach) (stepCase hreach hstep)

/-! ### The end of a grant -/

theorem revoked_step (hlocked : s.Locked) (h : StepCase s a t) {token : Uuid}
    (hrevoked : s.tables.Revoked token) : t.tables.Revoked token := by
  cases h with
  | began | answered | moved | failed | aborted | changed | activated => exact hrevoked
  | wrote hflight hfresh hwrites => exact hwrites.revoked_kept hlocked.identified hfresh hrevoked
  | @issued id row hissued hid hhash =>
    obtain ⟨row', hrow', hsome⟩ := hrevoked
    have hne : token ≠ id := fun heq =>
      hid (heq ▸ hlocked.identified.accessTokens token row' hrow')
    refine ⟨row', ?_, hsome⟩
    change (s.tables.accessTokens.insert id row).lookup token = some row'
    rwa [Table.lookup_insert, if_neg hne]

/-- A step answers at most once, and hands out nothing of a revoked token. -/
theorem answers_step (hlocked : s.Locked) (h : StepCase s a t) {token : Uuid}
    (hrevoked : s.tables.Revoked token) :
    ∃ later, t.answers = s.answers ++ later ∧
      ∀ answer ∈ later, ∀ id access, answer.handsOut = some (id, access) → id ≠ token := by
  have silent : ∃ later : List OAuthAnswer, s.answers = s.answers ++ later ∧
      ∀ answer ∈ later, ∀ id access, answer.handsOut = some (id, access) → id ≠ token :=
    ⟨[], (List.append_nil _).symm, by simp⟩
  cases h with
  | began | moved | failed | aborted | changed | activated | issued => exact silent
  | @answered p error =>
    refine ⟨[.refused error], rfl, fun answer hmem id access hhands => ?_⟩
    obtain rfl := List.mem_singleton.mp hmem
    cases hhands
  | @wrote p draw flight tables answer hflight hfresh hwrites =>
    refine ⟨[answer], rfl, fun answer' hmem id access hhands heq => ?_⟩
    obtain rfl := List.mem_singleton.mp hmem
    exact (hwrites.handsOut hlocked.identified hfresh hhands).2 (heq ▸ hrevoked)

/-- Nothing of the token is accepted in `t`, or was since `s`. -/
structure Over (D : Digests) (s t : OAuthState) (token : Uuid) : Prop where
  revoked : t.tables.Revoked token
  access : ∀ value surface now resolved,
    t.tables.control.resolveToken D value surface now = .ok resolved →
      resolved.tokenId ≠ token ∧ ∀ answer ∈ t.answers, ∀ access,
        answer.handsOut = some (token, access) → D.token value ≠ some access
  refresh : ∃ later, t.answers = s.answers ++ later ∧ ∀ answer ∈ later,
    (∀ id access, answer.handsOut = some (id, access) → id ≠ token) ∧
      ∀ value row, answer.accepts = some value →
        t.tables.refreshTokens.lookup value = some row → row.tokenId ≠ token

theorem over_of_revoked (hs : (machine D R challenge).Reachable s) {token : Uuid}
    (hrevoked : s.tables.Revoked token) (hrun : (machine D R challenge).Reaches s t) :
    Over D s t token := by
  have hkept : t.tables.Revoked token ∧ ∃ later, t.answers = s.answers ++ later ∧
      ∀ answer ∈ later, ∀ id access, answer.handsOut = some (id, access) → id ≠ token := by
    refine hs.stable (P := fun u => u.tables.Revoked token ∧
      ∃ later, u.answers = s.answers ++ later ∧
        ∀ answer ∈ later, ∀ id access, answer.handsOut = some (id, access) → id ≠ token)
      ?_ ⟨hrevoked, [], (List.append_nil _).symm, by simp⟩ hrun
    rintro u b v hreach ⟨hu, later, heq, hlater⟩ hstep
    have hlocked := locked hreach
    have hcase := stepCase hreach hstep
    obtain ⟨last, heq', hlast⟩ := answers_step hlocked hcase hu
    refine ⟨revoked_step hlocked hcase hu, later ++ last, by rw [heq', heq, List.append_assoc],
      fun answer hmem => ?_⟩
    obtain hmem | hmem := List.mem_append.mp hmem
    · exact hlater answer hmem
    · exact hlast answer hmem
  obtain ⟨hrevoked', later, heq, hlater⟩ := hkept
  have hout := handedOut (hs.reaches hrun)
  have hover {row : AccessTokenRow} (hrow : t.tables.accessTokens.lookup token = some row) :
      row.revokedAt ≠ none := by
    obtain ⟨row', hrow', hsome⟩ := hrevoked'
    obtain rfl := Option.some.inj (hrow.symm.trans hrow')
    exact Option.isSome_iff_ne_none.mp hsome
  refine ⟨hrevoked', fun value surface now resolved hresolved => ?_, later, heq,
    fun answer hmem => ⟨hlater answer hmem, fun value row haccepts hrow htoken => ?_⟩⟩
  · obtain ⟨row, hrow, hvalue, -, hlive, -⟩ := ControlTables.resolveToken_ok D hresolved
    have hne : resolved.tokenId ≠ token := fun hid => hover (hid ▸ hrow) hlive
    refine ⟨hne, fun answer hmem access hhands haccess => hne ?_⟩
    have hhash : row.tokenHash = access := Option.some.inj (hvalue.symm.trans haccess)
    exact hout.own answer hmem token access hhands resolved.tokenId row hrow hhash
  · cases answer with
    | refreshed value' id access expiresIn refresh =>
      obtain rfl := Option.some.inj haccepts
      have hin : .refreshed value' id access expiresIn refresh ∈ t.answers :=
        heq ▸ List.mem_append_right _ hmem
      obtain ⟨row', hrow', hid⟩ := hout.values value' id access expiresIn refresh hin
      obtain rfl := Option.some.inj (hrow.symm.trans hrow')
      exact hlater _ hmem id access rfl (hid.symm.trans htoken)
    | _ => cases haccepts

end OAuthState

end Rheostream
