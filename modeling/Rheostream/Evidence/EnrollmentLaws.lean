import Rheostream.Evidence.Enrollment

/-!
# What holds of enrollments in every run

Every enrollment has a token of its own, a pair has one active enrollment, and the calls that
are being made are apart: no two of them mint one token, insert one pair or write one row.
-/

namespace Rheostream.Evidence

variable {D : Digests} {workspace : Uuid} {s t : EnrollmentState} {p : ℕ} {f g : Flight}
  {id : Uuid} {row : EnrollmentRow} {token : Uuid}

theorem Flight.holds_of_owned (h : f.owned = some (id, row)) : f.holds id = true := by
  simp [Flight.holds, h]

theorem Flight.holds_eq_true : f.holds id = true ↔
    ∃ row, f.owned = some (id, row) ∨ f.shared = some (id, row) := by
  simp only [Flight.holds, Bool.or_eq_true, Option.any_eq_true, decide_eq_true_eq, Prod.exists]
  constructor
  · rintro (⟨i, row, h, rfl⟩ | ⟨i, row, h, rfl⟩)
    · exact ⟨row, .inl h⟩
    · exact ⟨row, .inr h⟩
  · rintro ⟨row, h | h⟩
    · exact .inl ⟨id, row, h, rfl⟩
    · exact .inr ⟨id, row, h, rfl⟩

/-- Two calls that do not stand in each other's way. -/
structure Flight.Apart (f g : Flight) : Prop where
  token : ∀ token, f.token = some token → g.token ≠ some token
  newRow : ∀ id row id' row', f.newRow = some (id, row) → g.newRow = some (id', row') →
    id ≠ id' ∧ row.pair ≠ row'.pair
  owned : ∀ id row, f.owned = some (id, row) → g.holds id = false
  yields : ∀ id row, g.owned = some (id, row) → f.holds id = false

theorem Flight.Apart.symm (h : f.Apart g) : g.Apart f where
  token token hg hf := h.token token hf hg
  newRow id row id' row' hg hf := by
    obtain ⟨hid, hpair⟩ := h.newRow id' row' id row hf hg
    exact ⟨hid.symm, hpair.symm⟩
  owned := h.yields
  yields := h.owned

/-- A call stays apart from another one while it mints, inserts and locks nothing new. -/
theorem Flight.Apart.mono {f' : Flight} (h : f.Apart g) (htoken : f'.token = f.token)
    (hnew : f'.newRow = none ∨ f'.newRow = f.newRow) (howned : f'.owned = f.owned)
    (hshared : f'.shared = f.shared) : f'.Apart g where
  token := by
    rw [htoken]
    exact h.token
  newRow id row id' row' hf := by
    obtain hnone | hsame := hnew
    · rw [hnone] at hf
      cases hf
    · rw [hsame] at hf
      exact h.newRow id row id' row' hf
  owned := by
    rw [howned]
    exact h.owned
  yields := by
    simp only [Flight.holds, howned, hshared]
    exact h.yields

/-- A call that only reads is apart from every other one. -/
theorem Flight.Apart.idle (htoken : f.token = none) (hnew : f.newRow = none)
    (howned : f.owned = none) (hshared : f.shared = none) : f.Apart g where
  token token h := by
    rw [htoken] at h
    cases h
  newRow id row id' row' h := by
    rw [hnew] at h
    cases h
  owned id row h := by
    rw [howned] at h
    cases h
  yields id row _ := by simp [Flight.holds, howned, hshared]

/-- What a call relies on in the committed rows. -/
structure Fits (s : EnrollmentState) (f : Flight) : Prop where
  /-- The token that it minted is a row of the control plane that no enrollment holds. -/
  token : ∀ token, f.token = some token → (s.control.accessTokens.lookup token).isSome = true ∧
    ∀ id row, s.enrollments.lookup id = some row → row.tokenId ≠ token
  newRow : ∀ id row, f.newRow = some (id, row) → s.enrollments.lookup id = none ∧
    ∀ id' row', s.enrollments.lookup id' = some row' → row'.state = .active → row'.pair ≠ row.pair
  /-- A locked row is as it was read. -/
  held : ∀ id row, f.owned = some (id, row) ∨ f.shared = some (id, row) →
    s.enrollments.lookup id = some row ∧ row.state = .active
  admitted : ∀ call id row, f = .admitted call id row →
    call.fits row = true ∧ row.tokenId = call.token.tokenId

/-- A call that only reads relies on nothing. -/
theorem Fits.idle (htoken : f.token = none) (hnew : f.newRow = none) (howned : f.owned = none)
    (hshared : f.shared = none) : Fits s f where
  token token h := by
    rw [htoken] at h
    cases h
  newRow id row h := by
    rw [hnew] at h
    cases h
  held id row h := by
    rw [howned, hshared] at h
    obtain h | h := h <;> cases h
  admitted call id row h := by
    rw [h] at hshared
    cases hshared

structure EnrollmentState.Sound (s : EnrollmentState) : Prop where
  /-- A pair has one active enrollment. -/
  onePair : ∀ id row id' row', s.enrollments.lookup id = some row →
    s.enrollments.lookup id' = some row' → row.state = .active → row'.state = .active →
      row.pair = row'.pair → id = id'
  stored : ∀ id row, s.enrollments.lookup id = some row →
    (s.control.accessTokens.lookup row.tokenId).isSome = true
  /-- `evidence_enrollment_token_id`. -/
  distinct : ∀ id row id' row', s.enrollments.lookup id = some row →
    s.enrollments.lookup id' = some row' → row.tokenId = row'.tokenId → id = id'
  flights : ∀ p f, s.flights.lookup p = some f → Fits s f
  apart : ∀ p f q g, s.flights.lookup p = some f → s.flights.lookup q = some g → p ≠ q →
    f.Apart g

theorem revokeIfLive_flights (s : EnrollmentState) (token : Uuid) :
    (s.revokeIfLive token).flights = s.flights := by
  unfold EnrollmentState.revokeIfLive
  split
  · rfl
  · split_ifs <;> rfl

theorem revokeIfLive_enrollments (s : EnrollmentState) (token : Uuid) :
    (s.revokeIfLive token).enrollments = s.enrollments := by
  unfold EnrollmentState.revokeIfLive
  split
  · rfl
  · split_ifs <;> rfl

namespace EnrollmentState.Sound

/-- Tokens are added and revoked, and no row of the workspace changes. -/
theorem grow (hs : s.Sound) (henrollments : t.enrollments = s.enrollments)
    (hflights : t.flights = s.flights)
    (hgrown : ∀ token, (s.control.accessTokens.lookup token).isSome = true →
      (t.control.accessTokens.lookup token).isSome = true) : t.Sound := by
  constructor
  case onePair =>
    rw [henrollments]
    exact hs.onePair
  case stored =>
    intro id row hrow
    rw [henrollments] at hrow
    exact hgrown _ (hs.stored id row hrow)
  case distinct =>
    rw [henrollments]
    exact hs.distinct
  case flights =>
    intro p f hf
    rw [hflights] at hf
    have hfits := hs.flights p f hf
    refine ⟨fun token ht => ?_, ?_, ?_, hfits.admitted⟩
    · rw [henrollments]
      exact ⟨hgrown token (hfits.token token ht).1, (hfits.token token ht).2⟩
    · rw [henrollments]
      exact hfits.newRow
    · rw [henrollments]
      exact hfits.held
  case apart =>
    rw [hflights]
    exact hs.apart

theorem withToken (hs : s.Sound) (token : Uuid) (row : AccessTokenRow) :
    (s.withToken token row).Sound := by
  refine hs.grow rfl rfl fun other hother => ?_
  simp only [EnrollmentState.withToken, Table.lookup_insert]
  split_ifs
  · rfl
  · exact hother

theorem revokeIfLive (hs : s.Sound) (token : Uuid) : (s.revokeIfLive token).Sound := by
  unfold EnrollmentState.revokeIfLive
  split
  · exact hs
  · split_ifs
    · exact hs
    · exact hs.withToken _ _

/-- A call makes its next statement. -/
theorem fly (hs : s.Sound) (hfits : Fits s f)
    (hapart : ∀ q g, s.flights.lookup q = some g → q ≠ p → f.Apart g) : (s.fly p f).Sound := by
  have hlookup (q : ℕ) : (s.fly p f).flights.lookup q =
      if q = p then some f else s.flights.lookup q := Table.lookup_insert ..
  constructor
  case onePair => exact hs.onePair
  case stored => exact hs.stored
  case distinct => exact hs.distinct
  case flights =>
    intro q g hg
    have hstate : Fits s g := by
      rw [hlookup] at hg
      split_ifs at hg with hq
      · rw [← Option.some.inj hg]
        exact hfits
      · exact hs.flights q g hg
    exact ⟨hstate.token, hstate.newRow, hstate.held, hstate.admitted⟩
  case apart =>
    intro q g q' g' hg hg' hne
    rw [hlookup] at hg hg'
    split_ifs at hg hg' with hq hq' hq'
    · exact absurd (hq.trans hq'.symm) hne
    · rw [← Option.some.inj hg]
      exact hapart q' g' hg' hq'
    · rw [← Option.some.inj hg']
      exact (hapart q g hg hq).symm
    · exact hs.apart q g q' g' hg hg' hne

/-- A call ends without a commit. -/
theorem land (hs : s.Sound) (p : ℕ) : (s.land p).Sound := by
  constructor
  case onePair => exact hs.onePair
  case stored => exact hs.stored
  case distinct => exact hs.distinct
  case flights =>
    intro q g hg
    have hstate := hs.flights q g (Table.lookup_erase_eq_some.mp hg).2
    exact ⟨hstate.token, hstate.newRow, hstate.held, hstate.admitted⟩
  case apart =>
    intro q g q' g' hg hg'
    exact hs.apart q g q' g' (Table.lookup_erase_eq_some.mp hg).2
      (Table.lookup_erase_eq_some.mp hg').2

/-- A call commits the row that it inserted or locked. -/
theorem commitRow (hs : s.Sound) (hf : s.flights.lookup p = some f)
    (hself : f.newRow = some (id, row) ∨
      ∃ old, f.owned = some (id, old) ∧ row.pair = old.pair)
    (htoken : f.token = some row.tokenId ∨
      ∃ old, f.owned = some (id, old) ∧ row.tokenId = old.tokenId) :
    (s.commitRow p id row).Sound := by
  have hfits := hs.flights p f hf
  have hlookup (i : Uuid) : (s.commitRow p id row).enrollments.lookup i =
      if i = id then some row else s.enrollments.lookup i := Table.lookup_insert ..
  -- Another row that is active has another pair, and another row has another token.
  have hpair (i : Uuid) (r : EnrollmentRow) (hr : s.enrollments.lookup i = some r)
      (hactive : r.state = .active) (heq : r.pair = row.pair) : i = id := by
    obtain hnew | ⟨old, howned, hsame⟩ := hself
    · exact absurd heq ((hfits.newRow id row hnew).2 i r hr hactive)
    · obtain ⟨hold, holdActive⟩ := hfits.held id old (.inl howned)
      exact hs.onePair i r id old hr hold hactive holdActive (heq.trans hsame)
  have hother (i : Uuid) (r : EnrollmentRow) (hr : s.enrollments.lookup i = some r)
      (heq : r.tokenId = row.tokenId) : i = id := by
    obtain hnew | ⟨old, howned, hsame⟩ := htoken
    · exact absurd heq ((hfits.token _ hnew).2 i r hr)
    · exact hs.distinct i r id old hr (hfits.held id old (.inl howned)).1 (heq.trans hsame)
  constructor
  case onePair =>
    intro i r i' r' hr hr' hactive hactive' heq
    rw [hlookup] at hr hr'
    split_ifs at hr hr' with hi hi' hi'
    · rw [hi, hi']
    · rw [← Option.some.inj hr] at heq
      exact hi.trans (hpair i' r' hr' hactive' heq.symm).symm
    · rw [← Option.some.inj hr'] at heq
      exact (hpair i r hr hactive heq).trans hi'.symm
    · exact hs.onePair i r i' r' hr hr' hactive hactive' heq
  case stored =>
    intro i r hr
    rw [hlookup] at hr
    split_ifs at hr with hi
    · rw [← Option.some.inj hr]
      obtain hnew | ⟨old, howned, hsame⟩ := htoken
      · exact (hfits.token _ hnew).1
      · rw [hsame]
        exact hs.stored id old (hfits.held id old (.inl howned)).1
    · exact hs.stored i r hr
  case distinct =>
    intro i r i' r' hr hr' heq
    rw [hlookup] at hr hr'
    split_ifs at hr hr' with hi hi' hi'
    · rw [hi, hi']
    · rw [← Option.some.inj hr] at heq
      exact hi.trans (hother i' r' hr' heq.symm).symm
    · rw [← Option.some.inj hr'] at heq
      exact (hother i r hr heq).trans hi'.symm
    · exact hs.distinct i r i' r' hr hr' heq
  case flights =>
    intro q g hg
    obtain ⟨hne, hg⟩ := Table.lookup_erase_eq_some.mp hg
    have hgFits := hs.flights q g hg
    have happart := hs.apart p f q g hf hg (Ne.symm hne)
    refine ⟨fun token ht => ⟨(hgFits.token token ht).1, fun i r hr heq => ?_⟩,
      fun i r hr => ⟨?_, fun i' r' hr' hactive heq => ?_⟩, fun i r hr => ?_, hgFits.admitted⟩
    · rw [hlookup] at hr
      split_ifs at hr with hi
      · rw [← Option.some.inj hr] at heq
        obtain hnew | ⟨old, howned, hsame⟩ := htoken
        · exact happart.token _ hnew (by rw [ht, heq])
        · exact (hgFits.token token ht).2 id old (hfits.held id old (.inl howned)).1
            (hsame.symm.trans heq)
      · exact (hgFits.token token ht).2 i r hr heq
    · rw [hlookup]
      split_ifs with hi
      · subst hi
        obtain hnew | ⟨old, howned, -⟩ := hself
        · exact absurd rfl (happart.newRow _ _ _ _ hnew hr).1
        · have hgone := (hgFits.newRow _ _ hr).1
          rw [(hfits.held _ old (.inl howned)).1] at hgone
          cases hgone
      · exact (hgFits.newRow _ _ hr).1
    · rw [hlookup] at hr'
      split_ifs at hr' with hi
      · rw [← Option.some.inj hr'] at heq hactive
        obtain hnew | ⟨old, howned, hsame⟩ := hself
        · exact (happart.newRow _ _ _ _ hnew hr).2 heq
        · obtain ⟨hold, holdActive⟩ := hfits.held id old (.inl howned)
          exact (hgFits.newRow _ _ hr).2 id old hold holdActive (hsame.symm.trans heq)
      · exact (hgFits.newRow _ _ hr).2 i' r' hr' hactive heq
    · obtain ⟨hkept, hactive⟩ := hgFits.held i r hr
      refine ⟨?_, hactive⟩
      rw [hlookup, if_neg, hkept]
      rintro rfl
      obtain hnew | ⟨old, howned, -⟩ := hself
      · rw [(hfits.newRow _ _ hnew).1] at hkept
        cases hkept
      · have hfree := happart.owned _ _ howned
        rw [Flight.holds_eq_true.mpr ⟨r, hr⟩] at hfree
        cases hfree
  case apart =>
    intro q g q' g' hg hg'
    exact hs.apart q g q' g' (Table.lookup_erase_eq_some.mp hg).2
      (Table.lookup_erase_eq_some.mp hg').2

end EnrollmentState.Sound

/-- The account whose enrollment a call opened is the account that it acts for. -/
theorem ownedEnrollment_ok {account : Uuid} (h : s.ownedEnrollment id account = .ok row) :
    s.enrollments.lookup id = some row ∧ row.accountId = account ∧ row.state = .active := by
  unfold EnrollmentState.ownedEnrollment at h
  split at h
  · cases h
  next found hfound =>
  split_ifs at h with haccount hstate
  obtain rfl := Except.ok.inj h
  exact ⟨hfound, not_not.mp haccount, not_not.mp hstate⟩

/-- What a call starts with: the check of a pair, or the lock of an active enrollment. -/
inductive Opened (s : EnrollmentState) (ctx : WorkspaceContext) : EnrollmentRequest → Flight → Prop
  | create (machine project : String) (payload : Option Uuid) (account : Uuid)
      (actor : ctx.actor.kind ≠ .token) (target : targetAccount ctx payload = .ok account)
      (joined : (s.control.memberships.lookup (account, ctx.workspaceId)).isSome = true)
      (free : s.holder (machine, project) = none) :
      Opened s ctx (.create machine project payload) (.creating ctx account (machine, project))
  | rotate (id : Uuid) (payload : Option Uuid) (row : EnrollmentRow)
      (actor : ctx.actor.kind ≠ .token) (target : targetAccount ctx payload = .ok row.accountId)
      (joined : (s.control.memberships.lookup (row.accountId, ctx.workspaceId)).isSome = true)
      (unlocked : s.isLocked id = false) (stored : s.enrollments.lookup id = some row)
      (live : row.state = .active) :
      Opened s ctx (.rotate id payload) (.rotating ctx id row)
  | revoke (id : Uuid) (payload : Option Uuid) (row : EnrollmentRow)
      (target : targetAccount ctx payload = .ok row.accountId)
      (unlocked : s.isLocked id = false) (stored : s.enrollments.lookup id = some row)
      (live : row.state = .active) :
      Opened s ctx (.revoke id payload) (.revoking id row)

theorem requireMembership_ok {account home : Uuid} :
    s.requireMembership account home = .ok () ↔
      (s.control.memberships.lookup (account, home)).isSome = true := by
  unfold EnrollmentState.requireMembership
  cases s.control.memberships.lookup (account, home) <;> simp

theorem refuseHeldPair_ok {account : Uuid} {pair : String × String} :
    s.refuseHeldPair pair account = .ok () ↔ s.holder pair = none := by
  unfold EnrollmentState.refuseHeldPair
  cases s.holder pair with
  | none => simp
  | some found =>
    dsimp only
    split_ifs <;> simp

theorem ownedEnrollment_iff {account : Uuid} :
    s.ownedEnrollment id account = .ok row ↔
      s.enrollments.lookup id = some row ∧ row.accountId = account ∧ row.state = .active := by
  refine ⟨ownedEnrollment_ok, fun ⟨hrow, haccount, hstate⟩ => ?_⟩
  rw [EnrollmentState.ownedEnrollment, hrow]
  simp [haccount, hstate]

theorem bind_ok {α β : Type} {answer : Except String α} {next : α → Except String β} {b : β} :
    (answer >>= next) = .ok b ↔ ∃ a, answer = .ok a ∧ next a = .ok b := by
  cases answer with
  | error refusal => exact ⟨fun h => (by cases h), fun ⟨a, h, _⟩ => (by cases h)⟩
  | ok a =>
    refine ⟨fun h => ⟨a, rfl, h⟩, fun ⟨a', ha, h⟩ => ?_⟩
    rw [Except.ok.inj ha]
    exact h

theorem opens_iff {ctx : WorkspaceContext} {request : EnrollmentRequest} :
    s.opens ctx request = some (.ok f) ↔ Opened s ctx request f := by
  cases request with
  | create machine project payload =>
    rw [EnrollmentState.opens, Option.some.injEq, EnrollmentState.openCreate]
    constructor
    · intro h
      split_ifs at h with hactor
      obtain ⟨account, htarget, h⟩ := bind_ok.mp h
      obtain ⟨_, hjoined, h⟩ := bind_ok.mp h
      obtain ⟨_, hfree, h⟩ := bind_ok.mp h
      rw [← Except.ok.inj h]
      exact .create machine project payload account hactor htarget
        (requireMembership_ok.mp hjoined) (refuseHeldPair_ok.mp hfree)
    · intro h
      cases h with | create _ _ _ account hactor htarget hjoined hfree =>
      rw [if_neg hactor, bind_ok]
      refine ⟨account, htarget, bind_ok.mpr ⟨(), requireMembership_ok.mpr hjoined, ?_⟩⟩
      exact bind_ok.mpr ⟨(), refuseHeldPair_ok.mpr hfree, rfl⟩
  | rotate id payload =>
    rw [EnrollmentState.opens]
    constructor
    · intro h
      split_ifs at h with hlocked
      have hopen := Option.some.inj h
      unfold EnrollmentState.openRotate at hopen
      split_ifs at hopen with hactor
      obtain ⟨account, htarget, hchecks⟩ := bind_ok.mp hopen
      obtain ⟨_, hjoined, hreads⟩ := bind_ok.mp hchecks
      obtain ⟨row, hrow, hends⟩ := bind_ok.mp hreads
      obtain ⟨hstored, rfl, hlive⟩ := ownedEnrollment_iff.mp hrow
      rw [← Except.ok.inj hends]
      exact .rotate id payload row hactor htarget (requireMembership_ok.mp hjoined)
        (by simpa using hlocked) hstored hlive
    · intro h
      cases h with | rotate _ _ row hactor htarget hjoined hlocked hstored hlive =>
      rw [if_neg (by simp [hlocked]), Option.some.injEq, EnrollmentState.openRotate, if_neg hactor]
      refine bind_ok.mpr ⟨row.accountId, htarget, ?_⟩
      refine bind_ok.mpr ⟨(), requireMembership_ok.mpr hjoined, ?_⟩
      exact bind_ok.mpr ⟨row, ownedEnrollment_iff.mpr ⟨hstored, rfl, hlive⟩, rfl⟩
  | revoke id payload =>
    rw [EnrollmentState.opens]
    constructor
    · intro h
      split_ifs at h with hlocked
      have hopen := Option.some.inj h
      unfold EnrollmentState.openRevoke at hopen
      obtain ⟨account, htarget, hreads⟩ := bind_ok.mp hopen
      obtain ⟨row, hrow, hends⟩ := bind_ok.mp hreads
      obtain ⟨hstored, rfl, hlive⟩ := ownedEnrollment_iff.mp hrow
      rw [← Except.ok.inj hends]
      exact .revoke id payload row htarget (by simpa using hlocked) hstored hlive
    · intro h
      cases h with | revoke _ _ row htarget hlocked hstored hlive =>
      rw [if_neg (by simp [hlocked]), Option.some.injEq, EnrollmentState.openRevoke]
      refine bind_ok.mpr ⟨row.accountId, htarget, ?_⟩
      exact bind_ok.mpr ⟨row, ownedEnrollment_iff.mpr ⟨hstored, rfl, hlive⟩, rfl⟩

theorem not_holds_of_unlocked (h : s.isLocked id = false) {q : ℕ}
    (hg : s.flights.lookup q = some g) : g.holds id = false :=
  Table.existsRow_eq_false.mp h q g hg

/-- A call that locks a row that nobody holds stays apart from the others. -/
theorem apart_of_unlocked (h : s.isLocked id = false) {q : ℕ} (hg : s.flights.lookup q = some g)
    (htoken : f.token = none) (hnew : f.newRow = none) (howned : f.owned = some (id, row))
    (hshared : f.shared = none) : f.Apart g where
  token token h := by
    rw [htoken] at h
    cases h
  newRow id row id' row' h := by
    rw [hnew] at h
    cases h
  owned id' row' h' := by
    rw [howned] at h'
    obtain ⟨rfl, rfl⟩ := Prod.mk.inj (Option.some.inj h')
    exact not_holds_of_unlocked h hg
  yields id' row' h' := by
    have hfree := not_holds_of_unlocked h hg
    have hne : id ≠ id' := by
      rintro rfl
      rw [Flight.holds_of_owned h'] at hfree
      cases hfree
    simp [Flight.holds, howned, hshared, hne]

theorem Opened.sound {ctx : WorkspaceContext} {request : EnrollmentRequest} (hs : s.Sound)
    (h : Opened s ctx request f) : (s.fly p f).Sound := by
  cases h with
  | create machine project payload account actor target joined free =>
    exact hs.fly (.idle rfl rfl rfl rfl) fun q g _ _ => .idle rfl rfl rfl rfl
  | rotate id payload row actor target joined unlocked stored live =>
    refine hs.fly ⟨fun token h => (by cases h), fun id row h => (by cases h), fun i r h => ?_,
      fun call id row h => (by cases h)⟩
      fun q g hg _ => apart_of_unlocked unlocked hg rfl rfl rfl rfl
    obtain h | h := h
    · obtain ⟨rfl, rfl⟩ := Prod.mk.inj (Option.some.inj h)
      exact ⟨stored, live⟩
    · cases h
  | revoke id payload row target unlocked stored live =>
    refine hs.fly ⟨fun token h => (by cases h), fun id row h => (by cases h), fun i r h => ?_,
      fun call id row h => (by cases h)⟩
      fun q g hg _ => apart_of_unlocked unlocked hg rfl rfl rfl rfl
    obtain h | h := h
    · obtain ⟨rfl, rfl⟩ := Prod.mk.inj (Option.some.inj h)
      exact ⟨stored, live⟩
    · cases h

/-- A token that nobody has drawn is no call's and no enrollment's. -/
theorem EnrollmentState.Sound.fresh {hash : Digest} (hs : s.Sound)
    (h : s.isFresh token hash = true) :
    (∀ q g, s.flights.lookup q = some g → g.token ≠ some token) ∧
      ∀ id row, s.enrollments.lookup id = some row → row.tokenId ≠ token := by
  have hnone : (s.control.accessTokens.lookup token).isSome = false := by
    simp only [EnrollmentState.isFresh, Bool.and_eq_true] at h
    simpa using h.1
  constructor
  · intro q g hg htoken
    rw [((hs.flights q g hg).token token htoken).1] at hnone
    cases hnone
  · rintro id row hrow rfl
    rw [hs.stored id row hrow] at hnone
    cases hnone

theorem mintStep_sound {hash : Digest} {expiresAt : ℕ} (hs : s.Sound)
    (hfresh : s.isFresh token hash = true) (hf : s.flights.lookup p = some f)
    (h : mintStep s p token hash expiresAt f = some t) : t.Sound := by
  obtain ⟨halone, hunused⟩ := hs.fresh hfresh
  unfold mintStep at h
  split at h
  case h_1 ctx account pair =>
    rw [← Option.some.inj h]
    refine (hs.withToken token _).fly ⟨fun other ho => ?_, fun id row ho => (by cases ho),
      fun id row ho => (by obtain ho | ho := ho <;> cases ho), fun call id row ho => (by cases ho)⟩
      fun q g hg _ => ⟨fun other ho => ?_, fun id row i r ho => (by cases ho),
        fun id row ho => (by cases ho), fun id row _ => rfl⟩
    · rw [← Option.some.inj ho]
      exact ⟨by simp [EnrollmentState.withToken], hunused⟩
    · rw [← Option.some.inj ho]
      exact halone q g hg
  case h_2 ctx id row =>
    rw [← Option.some.inj h]
    have hfits := hs.flights p _ hf
    refine (hs.withToken token _).fly ⟨fun other ho => ?_, fun id row ho => (by cases ho),
      hfits.held, fun call id row ho => (by cases ho)⟩
      fun q g hg hne => ⟨fun other ho => ?_, fun id row i r ho => (by cases ho), ?_, ?_⟩
    · rw [← Option.some.inj ho]
      exact ⟨by simp [EnrollmentState.withToken], hunused⟩
    · rw [← Option.some.inj ho]
      exact halone q g hg
    · exact (hs.apart p _ q g hf hg hne.symm).owned
    · exact (hs.apart p _ q g hf hg hne.symm).yields
  case h_3 => cases h

theorem insertStep_sound (hs : s.Sound) (hf : s.flights.lookup p = some f)
    (h : insertStep s p id f = some t) : t.Sound := by
  unfold insertStep at h
  split at h
  case h_1 account pair token =>
    have hfits := hs.flights p _ hf
    split_ifs at h with hwaits hheld hdrawn
    · rw [← Option.some.inj h]
      refine hs.fly ⟨hfits.token, fun id row ho => (by cases ho),
        fun id row ho => (by obtain ho | ho := ho <;> cases ho),
        fun call id row ho => (by cases ho)⟩
        fun q g hg hne => (hs.apart p _ q g hf hg hne.symm).mono rfl (.inl rfl) rfl rfl
    · rw [← Option.some.inj h]
      rw [Bool.not_eq_true, Table.existsRow_eq_false] at hwaits
      rw [Bool.or_eq_true, not_or, Bool.not_eq_true, Bool.not_eq_true, Table.existsRow_eq_false]
        at hdrawn
      obtain ⟨hunused, halone⟩ := hdrawn
      refine hs.fly ⟨hfits.token, fun i r ho => ?_,
        fun id row ho => (by obtain ho | ho := ho <;> cases ho),
        fun call id row ho => (by cases ho)⟩
        fun q g hg hne => ⟨(hs.apart p _ q g hf hg hne.symm).token, fun i r i' r' ho hg' => ?_,
          fun id row ho => (by cases ho), fun id row _ => rfl⟩
      · obtain ⟨rfl, rfl⟩ := Prod.mk.inj (Option.some.inj ho)
        refine ⟨by simpa using hunused, fun i' r' hr' hactive heq => ?_⟩
        have hnone : s.holder pair = none := by simpa using hheld
        have hsame : r'.pair = pair := heq
        have hnever := Table.findRow_eq_none hnone hr'
        simp [hsame, hactive] at hnever
      · obtain ⟨rfl, rfl⟩ := Prod.mk.inj (Option.some.inj ho)
        have hpair := hwaits q g hg
        have hid := halone q g hg
        simp only [hg', Option.any_some, decide_eq_false_iff_not] at hpair hid
        exact ⟨fun heq => hid heq.symm, fun heq => hpair heq.symm⟩
  case h_2 => cases h

theorem endTokenStep_sound {works : Bool} (hs : s.Sound) (hf : s.flights.lookup p = some f)
    (h : endTokenStep s p works f = some t) : t.Sound := by
  have hended (token : Uuid) : (if works then s.revokeIfLive token else s).Sound := by
    split_ifs
    · exact hs.revokeIfLive token
    · exact hs
  have hflights (token : Uuid) : (if works then s.revokeIfLive token else s).flights =
      s.flights := by
    split_ifs
    · exact revokeIfLive_flights s token
    · rfl
  have hfits (u : EnrollmentState) (hu : u.Sound) (hsame : u.flights = s.flights) : Fits u f := by
    refine hu.flights p f ?_
    rw [hsame]
    exact hf
  unfold endTokenStep at h
  split at h
  case h_1 token =>
    rw [← Option.some.inj h]
    exact (hended token).land p
  case h_2 id row token =>
    rw [← Option.some.inj h]
    have hold := hfits _ (hended row.tokenId) (hflights row.tokenId)
    refine (hended row.tokenId).fly ⟨hold.token, fun id row ho => (by cases ho), hold.held,
      fun call id row ho => (by cases ho)⟩ fun q g hg hne => ?_
    rw [hflights] at hg
    exact (hs.apart p _ q g hf hg hne.symm).mono rfl (.inl rfl) rfl rfl
  case h_3 id row =>
    split_ifs at h with hworks
    · rw [← Option.some.inj h]
      have hsame := revokeIfLive_flights s row.tokenId
      have hold := hfits _ (hs.revokeIfLive row.tokenId) hsame
      refine (hs.revokeIfLive row.tokenId).fly ⟨hold.token, fun id row ho => (by cases ho),
        hold.held, fun call id row ho => (by cases ho)⟩ fun q g hg hne => ?_
      rw [hsame] at hg
      exact (hs.apart p _ q g hf hg hne.symm).mono rfl (.inl rfl) rfl rfl
    · rw [← Option.some.inj h]
      exact hs.land p
  case h_4 => cases h

theorem commitStep_sound (hs : s.Sound) (hf : s.flights.lookup p = some f)
    (h : commitStep s p f = some t) : t.Sound := by
  unfold commitStep at h
  split at h
  case h_1 id row =>
    rw [← Option.some.inj h]
    exact hs.commitRow hf (.inl rfl) (.inl rfl)
  case h_2 id row token =>
    rw [← Option.some.inj h]
    exact hs.commitRow hf (.inr ⟨row, rfl, rfl⟩) (.inl rfl)
  case h_3 id row =>
    rw [← Option.some.inj h]
    exact hs.commitRow hf (.inr ⟨row, rfl, rfl⟩) (.inr ⟨row, rfl, rfl⟩)
  case h_4 call id row =>
    rw [← Option.some.inj h]
    have hlanded := hs.land p
    refine ⟨hlanded.onePair, hlanded.stored, hlanded.distinct, fun q g hg => ?_, hlanded.apart⟩
    have hfits := hlanded.flights q g hg
    exact ⟨hfits.token, hfits.newRow, hfits.held, hfits.admitted⟩
  case h_5 => cases h

theorem activeEnrollment_ok (h : s.activeEnrollment token = some (id, row)) :
    s.enrollments.lookup id = some row ∧ row.tokenId = token ∧ row.state = .active := by
  obtain ⟨hstored, hrow⟩ := Table.findRow_eq_some h
  simp only [Bool.and_eq_true, decide_eq_true_eq] at hrow
  exact ⟨hstored, hrow.1, hrow.2⟩

theorem readStep_sound {allowed : Bool} (hs : s.Sound) (hf : s.flights.lookup p = some f)
    (h : readStep s p allowed f = some t) : t.Sound := by
  unfold readStep at h
  split at h
  case h_1 call =>
    split at h
    · rw [← Option.some.inj h]
      exact hs.land p
    next id row hfound =>
    obtain ⟨hstored, htoken, hactive⟩ := activeEnrollment_ok hfound
    split_ifs at h with hlocked hfit
    · rw [← Option.some.inj h]
      rw [Bool.not_eq_true, Table.existsRow_eq_false] at hlocked
      rw [Bool.and_eq_true] at hfit
      refine hs.fly ⟨fun token ho => (by cases ho), fun id row ho => (by cases ho),
        fun i r ho => ?_, fun c i r ho => ?_⟩
        fun q g hg _ => ⟨fun token ho => (by cases ho), fun id row i r ho => (by cases ho),
          fun id row ho => (by cases ho), fun i r ho => ?_⟩
      · obtain ho | ho := ho
        · cases ho
        · obtain ⟨rfl, rfl⟩ := Prod.mk.inj (Option.some.inj ho)
          exact ⟨hstored, hactive⟩
      · obtain ⟨rfl, rfl, rfl⟩ := Flight.admitted.inj ho
        exact ⟨hfit.1, htoken⟩
      · have hfree := hlocked q g hg
        rw [ho] at hfree
        simp only [Option.any_some, decide_eq_false_iff_not] at hfree
        simpa [Flight.holds, Flight.owned, Flight.shared] using fun heq => hfree heq.symm
    · rw [← Option.some.inj h]
      exact hs.land p
  case h_2 => cases h

theorem presentStep_ok {value machine project : String}
    (h : presentStep D workspace s p value machine project = some t) :
    ∃ resolved, s.control.resolveToken D value "api" s.now = .ok resolved ∧
      resolved.workspaceId = workspace ∧
        t = s.fly p (.ingesting ⟨resolved, machine, project⟩) := by
  unfold presentStep at h
  split at h
  · cases h
  next resolved hresolved =>
  split_ifs at h with hchecks
  exact ⟨resolved, hresolved, hchecks.1, (Option.some.inj h).symm⟩

theorem step_sound {a : EnrollmentAction} (hs : s.Sound) (h : step D workspace s a = some t) :
    t.Sound := by
  cases a with
  | start p ctx request =>
    simp only [step] at h
    split_ifs at h
    split at h
    next f hopens =>
      rw [← Option.some.inj h]
      exact (opens_iff.mp hopens).sound hs
    next => cases h
  | mint p token hash expiresAt =>
    simp only [step] at h
    split_ifs at h with hfresh
    obtain ⟨f, hf, hstep⟩ := Option.bind_eq_some_iff.mp h
    exact mintStep_sound hs hfresh hf hstep
  | insert p id =>
    obtain ⟨f, hf, hstep⟩ := Option.bind_eq_some_iff.mp h
    exact insertStep_sound hs hf hstep
  | endToken p works =>
    obtain ⟨f, hf, hstep⟩ := Option.bind_eq_some_iff.mp h
    exact endTokenStep_sound hs hf hstep
  | commit p =>
    obtain ⟨f, hf, hstep⟩ := Option.bind_eq_some_iff.mp h
    exact commitStep_sound hs hf hstep
  | crash p =>
    obtain ⟨f, -, hstep⟩ := Option.map_eq_some_iff.mp h
    rw [← hstep]
    exact hs.land p
  | present p value machine project =>
    simp only [step] at h
    split_ifs at h
    obtain ⟨resolved, -, -, rfl⟩ := presentStep_ok h
    exact hs.fly (.idle rfl rfl rfl rfl) fun q g _ _ => .idle rfl rfl rfl rfl
  | read p allowed =>
    obtain ⟨f, hf, hstep⟩ := Option.bind_eq_some_iff.mp h
    exact readStep_sound hs hf hstep
  | revokeToken token =>
    rw [← Option.some.inj h]
    exact hs.revokeIfLive token
  | issue token row =>
    simp only [step] at h
    split_ifs at h
    rw [← Option.some.inj h]
    exact hs.withToken token row
  | member account home role =>
    rw [← Option.some.inj h]
    exact hs.grow rfl rfl fun token htoken => htoken
  | tick now =>
    simp only [step] at h
    split_ifs at h
    rw [← Option.some.inj h]
    exact hs.grow rfl rfl fun token htoken => htoken

theorem Initial.sound (h : Initial s) : s.Sound := by
  obtain ⟨henrollments, hflights, -⟩ := h
  constructor
  case onePair =>
    intro id row id' row' hrow
    rw [henrollments] at hrow
    cases hrow
  case stored =>
    intro id row hrow
    rw [henrollments] at hrow
    cases hrow
  case distinct =>
    intro id row id' row' hrow
    rw [henrollments] at hrow
    cases hrow
  case flights =>
    intro p f hf
    rw [hflights] at hf
    cases hf
  case apart =>
    intro p f q g hf
    rw [hflights] at hf
    cases hf

theorem sound (hs : (machine D workspace).Reachable s) : s.Sound :=
  hs.invariant (fun _ => Initial.sound) fun _ _ _ _ => step_sound

end Rheostream.Evidence
