import Rheostream.Evidence.EnrollmentLaws

/-!
# Enrollments fail closed

Over every run of the two databases: which ingests are accepted, what a replaced or a revoked
token can still do, and where a call that is made again ends.
-/

namespace Rheostream.Evidence

/-- The ingest that a call is. -/
def Flight.call : Flight → Option IngestCall
  | .ingesting call | .admitted call _ _ => some call
  | _ => none

section Laws

variable {D : Digests} {workspace : Uuid} {s t u : EnrollmentState} {p : ℕ} {f g : Flight}
  {id : Uuid} {row : EnrollmentRow} {token : Uuid}

/-- `u` is `s` with another control plane, in which no token is lost or live again. -/
structure Controls (s u : EnrollmentState) : Prop where
  enrollments : u.enrollments = s.enrollments
  flights : u.flights = s.flights
  accepted : u.accepted = s.accepted
  kept : ∀ token row, s.control.accessTokens.lookup token = some row →
    ∃ row', u.control.accessTokens.lookup token = some row' ∧
      (row.revokedAt.isSome = true → row'.revokedAt.isSome = true)

theorem Controls.refl (s : EnrollmentState) : Controls s s :=
  ⟨rfl, rfl, rfl, fun _ row h => ⟨row, h, fun hrevoked => hrevoked⟩⟩

theorem isFresh_none {hash : Digest} (h : s.isFresh token hash = true) :
    s.control.accessTokens.lookup token = none := by
  simp only [EnrollmentState.isFresh, Bool.and_eq_true, Option.isNone_iff_eq_none] at h
  exact h.1

theorem Controls.withToken {hash : Digest} (h : s.isFresh token hash = true)
    (new : AccessTokenRow) : Controls s (s.withToken token new) := by
  refine ⟨rfl, rfl, rfl, fun other row hrow => ⟨row, ?_, fun hrevoked => hrevoked⟩⟩
  simp only [EnrollmentState.withToken, Table.lookup_insert]
  split_ifs with heq
  · rw [heq, isFresh_none h] at hrow
    cases hrow
  · exact hrow

theorem Controls.revokeIfLive (s : EnrollmentState) (token : Uuid) :
    Controls s (s.revokeIfLive token) := by
  unfold EnrollmentState.revokeIfLive
  split
  · exact .refl s
  next found hfound =>
    split_ifs with hrevoked
    · exact .refl s
    · refine ⟨rfl, rfl, rfl, fun other row hrow => ?_⟩
      simp only [EnrollmentState.withToken, Table.lookup_insert]
      split_ifs
      · exact ⟨_, rfl, fun _ => rfl⟩
      · exact ⟨row, hrow, fun hold => hold⟩

/-- What one step is, and what it leaves alone. -/
inductive StepCase (D : Digests) (workspace : Uuid) (s : EnrollmentState) :
    EnrollmentAction → EnrollmentState → Prop
  | outside (a : EnrollmentAction) (t : EnrollmentState) (uncommitted : ∀ p, a ≠ .commit p)
      (controls : Controls s t) : StepCase D workspace s a t
  | flies (a : EnrollmentAction) (u : EnrollmentState) (p : ℕ) (f : Flight)
      (uncommitted : ∀ p, a ≠ .commit p) (controls : Controls s u)
      (mints : ∀ token, f.token = some token →
        s.control.accessTokens.lookup token = none ∨
          ∃ g, s.flights.lookup p = some g ∧ g.token = some token)
      (calls : ∀ call, f.call = some call → s.flights.lookup p = some (.ingesting call) ∨
        ∃ value, s.control.resolveToken D value "api" s.now = .ok call.token) :
      StepCase D workspace s a (u.fly p f)
  | lands (a : EnrollmentAction) (u : EnrollmentState) (p : ℕ)
      (uncommitted : ∀ p, a ≠ .commit p) (controls : Controls s u) :
      StepCase D workspace s a (u.land p)
  | inserts (p : ℕ) (id : Uuid) (row : EnrollmentRow)
      (flight : s.flights.lookup p = some (.inserted id row)) :
      StepCase D workspace s (.commit p) (s.commitRow p id row)
  | repoints (p : ℕ) (id : Uuid) (row : EnrollmentRow) (token : Uuid)
      (flight : s.flights.lookup p = some (.rotated id row token)) :
      StepCase D workspace s (.commit p) (s.commitRow p id { row with tokenId := token })
  | ends (p : ℕ) (id : Uuid) (row : EnrollmentRow)
      (flight : s.flights.lookup p = some (.ended id row)) :
      StepCase D workspace s (.commit p) (s.commitRow p id { row with state := .revoked })
  | accepts (p : ℕ) (call : IngestCall) (id : Uuid) (row : EnrollmentRow)
      (flight : s.flights.lookup p = some (.admitted call id row)) :
      StepCase D workspace s (.commit p)
        { s.land p with accepted := s.accepted ++ [(call, id)] }

variable {a : EnrollmentAction}

theorem stepCase (h : step D workspace s a = some t) : StepCase D workspace s a t := by
  cases a with
  | start p ctx request =>
    simp only [step] at h
    split_ifs at h
    split at h
    next f hopens =>
      rw [← Option.some.inj h]
      refine .flies _ s p f (fun q hq => by cases hq) (.refl s) ?_ ?_
      · intro token htoken
        cases opens_iff.mp hopens <;> cases htoken
      · intro call hcall
        cases opens_iff.mp hopens <;> cases hcall
    next => cases h
  | mint p new hash expiresAt =>
    simp only [step] at h
    split_ifs at h with hnew
    obtain ⟨f, hf, hstep⟩ := Option.bind_eq_some_iff.mp h
    have hmints (token : Uuid) (htoken : some new = some token) :
        s.control.accessTokens.lookup token = none := by
      rw [← Option.some.inj htoken]
      exact isFresh_none hnew
    unfold mintStep at hstep
    split at hstep
    case h_1 ctx account pair =>
      rw [← Option.some.inj hstep]
      exact .flies _ _ p _ (fun q hq => by cases hq) (.withToken hnew _)
        (fun token htoken => .inl (hmints token htoken)) fun call hcall => by cases hcall
    case h_2 ctx id row =>
      rw [← Option.some.inj hstep]
      exact .flies _ _ p _ (fun q hq => by cases hq) (.withToken hnew _)
        (fun token htoken => .inl (hmints token htoken)) fun call hcall => by cases hcall
    case h_3 => cases hstep
  | insert p id =>
    obtain ⟨f, hf, hstep⟩ := Option.bind_eq_some_iff.mp h
    unfold insertStep at hstep
    split at hstep
    case h_1 account pair token =>
      split_ifs at hstep <;> rw [← Option.some.inj hstep] <;>
        exact .flies _ s p _ (fun q hq => by cases hq) (.refl s)
          (fun token htoken => .inr ⟨_, hf, htoken⟩) fun call hcall => by cases hcall
    case h_2 => cases hstep
  | endToken p works =>
    obtain ⟨f, hf, hstep⟩ := Option.bind_eq_some_iff.mp h
    have hended (other : Uuid) : Controls s (if works then s.revokeIfLive other else s) := by
      split_ifs
      · exact .revokeIfLive s other
      · exact .refl s
    unfold endTokenStep at hstep
    split at hstep
    case h_1 other =>
      rw [← Option.some.inj hstep]
      exact .lands _ _ p (fun q hq => by cases hq) (hended other)
    case h_2 id row other =>
      rw [← Option.some.inj hstep]
      exact .flies _ _ p _ (fun q hq => by cases hq) (hended row.tokenId)
        (fun token htoken => .inr ⟨_, hf, htoken⟩) fun call hcall => by cases hcall
    case h_3 id row =>
      split_ifs at hstep
      · rw [← Option.some.inj hstep]
        exact .flies _ _ p _ (fun q hq => by cases hq) (.revokeIfLive s row.tokenId)
          (fun token htoken => by cases htoken) fun call hcall => by cases hcall
      · rw [← Option.some.inj hstep]
        exact .lands _ s p (fun q hq => by cases hq) (.refl s)
    case h_4 => cases hstep
  | commit p =>
    obtain ⟨f, hf, hstep⟩ := Option.bind_eq_some_iff.mp h
    unfold commitStep at hstep
    split at hstep
    case h_1 id row =>
      rw [← Option.some.inj hstep]
      exact .inserts p id row hf
    case h_2 id row other =>
      rw [← Option.some.inj hstep]
      exact .repoints p id row other hf
    case h_3 id row =>
      rw [← Option.some.inj hstep]
      exact .ends p id row hf
    case h_4 call id row =>
      rw [← Option.some.inj hstep]
      exact .accepts p call id row hf
    case h_5 => cases hstep
  | crash p =>
    obtain ⟨f, -, hstep⟩ := Option.map_eq_some_iff.mp h
    rw [← hstep]
    exact .lands _ s p (fun q hq => by cases hq) (.refl s)
  | present p value machine project =>
    simp only [step] at h
    split_ifs at h
    obtain ⟨resolved, hresolved, -, rfl⟩ := presentStep_ok h
    refine .flies _ s p _ (fun q hq => by cases hq) (.refl s)
      (fun token htoken => by cases htoken) fun call hcall => .inr ⟨value, ?_⟩
    rw [← Option.some.inj hcall]
    exact hresolved
  | read p allowed =>
    obtain ⟨f, hf, hstep⟩ := Option.bind_eq_some_iff.mp h
    unfold readStep at hstep
    split at hstep
    case h_1 call =>
      split at hstep
      · rw [← Option.some.inj hstep]
        exact .lands _ s p (fun q hq => by cases hq) (.refl s)
      split_ifs at hstep
      · rw [← Option.some.inj hstep]
        refine .flies _ s p _ (fun q hq => by cases hq) (.refl s)
          (fun token htoken => by cases htoken) fun other hcall => .inl ?_
        rw [← Option.some.inj hcall]
        exact hf
      · rw [← Option.some.inj hstep]
        exact .lands _ s p (fun q hq => by cases hq) (.refl s)
    case h_2 => cases hstep
  | revokeToken other =>
    rw [← Option.some.inj h]
    exact .outside _ _ (fun q hq => by cases hq) (.revokeIfLive s other)
  | issue other row =>
    simp only [step] at h
    split_ifs at h with hnew
    rw [← Option.some.inj h]
    exact .outside _ _ (fun q hq => by cases hq) (.withToken hnew row)
  | member account home role =>
    rw [← Option.some.inj h]
    exact .outside _ _ (fun q hq => by cases hq)
      ⟨rfl, rfl, rfl, fun _ row hrow => ⟨row, hrow, fun hrevoked => hrevoked⟩⟩
  | tick now =>
    simp only [step] at h
    split_ifs at h
    rw [← Option.some.inj h]
    exact .outside _ _ (fun q hq => by cases hq)
      ⟨rfl, rfl, rfl, fun _ row hrow => ⟨row, hrow, fun hrevoked => hrevoked⟩⟩

/-- The token is revoked in the control plane. -/
def Dead (s : EnrollmentState) (token : Uuid) : Prop :=
  ∃ row, s.control.accessTokens.lookup token = some row ∧ row.revokedAt.isSome = true

theorem Controls.dead (h : Controls s u) (hdead : Dead s token) : Dead u token := by
  obtain ⟨row, hrow, hrevoked⟩ := hdead
  obtain ⟨row', hrow', hkept⟩ := h.kept token row hrow
  exact ⟨row', hrow', hkept hrevoked⟩

/-- A revoked token stays revoked. -/
theorem dead_step (hdead : Dead s token) (h : step D workspace s a = some t) : Dead t token := by
  cases stepCase h with
  | outside _ _ _ controls => exact controls.dead hdead
  | flies _ u p f _ controls _ _ => exact controls.dead hdead
  | lands _ u p _ controls => exact controls.dead hdead
  | inserts | repoints | ends | accepts => exact hdead

theorem Dead.reaches (hdead : Dead s token) (h : (machine D workspace).Reaches s u) :
    Dead u token := by
  induction h with
  | refl => exact hdead
  | tail _ hnext ih =>
    obtain ⟨a, hnext⟩ := hnext
    exact dead_step ih hnext

/-- A token that no active enrollment holds, and that no call is about to give to one. -/
structure Gone (s : EnrollmentState) (token : Uuid) : Prop where
  stored : (s.control.accessTokens.lookup token).isSome = true
  enrollments : ∀ id row, s.enrollments.lookup id = some row → row.state = .active →
    row.tokenId ≠ token
  flights : ∀ q g, s.flights.lookup q = some g → g.token ≠ some token

namespace Gone

theorem controls (h : Gone s token) (hu : Controls s u) : Gone u token := by
  obtain ⟨row, hrow⟩ := Option.isSome_iff_exists.mp h.stored
  obtain ⟨row', hrow', -⟩ := hu.kept token row hrow
  refine ⟨by rw [hrow']; rfl, ?_, ?_⟩
  · rw [hu.enrollments]
    exact h.enrollments
  · rw [hu.flights]
    exact h.flights

theorem fly (h : Gone s token) (hf : f.token ≠ some token) : Gone (s.fly p f) token := by
  refine ⟨h.stored, h.enrollments, fun q g hg => ?_⟩
  simp only [EnrollmentState.fly, Table.lookup_insert] at hg
  split_ifs at hg
  · rw [← Option.some.inj hg]
    exact hf
  · exact h.flights q g hg

theorem land (h : Gone s token) (p : ℕ) : Gone (s.land p) token :=
  ⟨h.stored, h.enrollments, fun q g hg => h.flights q g (Table.lookup_erase_eq_some.mp hg).2⟩

theorem commitRow (h : Gone s token) (hrow : row.state = .active → row.tokenId ≠ token) :
    Gone (s.commitRow p id row) token := by
  refine ⟨h.stored, fun i r hr => ?_,
    fun q g hg => h.flights q g (Table.lookup_erase_eq_some.mp hg).2⟩
  simp only [EnrollmentState.commitRow, Table.lookup_insert] at hr
  split_ifs at hr
  · rw [← Option.some.inj hr]
    exact hrow
  · exact h.enrollments i r hr

end Gone

/-- A token that is gone stays gone: only a fresh token is minted. -/
theorem gone_step (hgone : Gone s token) (h : step D workspace s a = some t) : Gone t token := by
  cases stepCase h with
  | outside _ _ _ controls => exact hgone.controls controls
  | flies _ u p f _ controls mints _ =>
    refine (hgone.controls controls).fly fun htoken => ?_
    obtain hnone | ⟨g, hg, hsame⟩ := mints token htoken
    · have hstored := hgone.stored
      rw [hnone] at hstored
      cases hstored
    · exact hgone.flights p g hg hsame
  | lands _ u p _ controls => exact (hgone.controls controls).land p
  | inserts p id row flight =>
    exact hgone.commitRow fun _ heq => hgone.flights p _ flight (by rw [← heq]; rfl)
  | repoints p id row other flight =>
    exact hgone.commitRow fun _ heq => hgone.flights p _ flight (by rw [← heq]; rfl)
  | ends p id row flight => exact hgone.commitRow fun hactive => by cases hactive
  | accepts p call id row flight =>
    have hlanded := hgone.land p
    exact ⟨hlanded.stored, hlanded.enrollments, hlanded.flights⟩

/-- The token that a row had before a commit is gone, when the row has it no more or is no
longer active. -/
theorem gone_of_commit {new : EnrollmentRow} (hs : s.Sound)
    (hstored : s.enrollments.lookup id = some row)
    (hnew : new.state = .active → new.tokenId ≠ row.tokenId) :
    Gone (s.commitRow p id new) row.tokenId := by
  have hothers (q : ℕ) (g : Flight) (hg : s.flights.lookup q = some g) :
      g.token ≠ some row.tokenId := fun htoken =>
    ((hs.flights q g hg).token _ htoken).2 id row hstored rfl
  refine ⟨hs.stored id row hstored, fun i r hr hactive heq => ?_,
    fun q g hg => hothers q g (Table.lookup_erase_eq_some.mp hg).2⟩
  simp only [EnrollmentState.commitRow, Table.lookup_insert] at hr
  split_ifs at hr with hi
  · rw [← Option.some.inj hr] at heq hactive
    exact hnew hactive heq
  · exact hi (hs.distinct i r id row hr hstored heq)

/-- Every ingest in flight presented a token that was live then. -/
def Presented (D : Digests) (workspace : Uuid) (s : EnrollmentState) : Prop :=
  ∀ p f call, s.flights.lookup p = some f → f.call = some call →
    ∃ before value, (machine D workspace).Reachable before ∧
      (machine D workspace).Reaches before s ∧
        before.control.resolveToken D value "api" before.now = .ok call.token

theorem presented_step (hs : (machine D workspace).Reachable s)
    (hpresented : Presented D workspace s) (h : step D workspace s a = some t) :
    Presented D workspace t := by
  have hlater (q : ℕ) (g : Flight) (call : IngestCall) (hg : s.flights.lookup q = some g)
      (hcall : g.call = some call) : ∃ before value, (machine D workspace).Reachable before ∧
        (machine D workspace).Reaches before t ∧
          before.control.resolveToken D value "api" before.now = .ok call.token := by
    obtain ⟨before, value, hreachable, hreaches, hresolved⟩ := hpresented q g call hg hcall
    exact ⟨before, value, hreachable, hreaches.trans (.single h), hresolved⟩
  intro q g call hg hcall
  have hcase := stepCase h
  cases hcase with
  | outside _ _ _ controls =>
    rw [controls.flights] at hg
    exact hlater q g call hg hcall
  | flies _ u p f _ controls _ calls =>
    simp only [EnrollmentState.fly, controls.flights, Table.lookup_insert] at hg
    split_ifs at hg
    · rw [← Option.some.inj hg] at hcall
      obtain hold | ⟨value, hresolved⟩ := calls call hcall
      · exact hlater p _ call hold rfl
      · exact ⟨s, value, hs, .single h, hresolved⟩
    · exact hlater q g call hg hcall
  | lands _ u p _ controls =>
    have hold := (Table.lookup_erase_eq_some.mp hg).2
    rw [controls.flights] at hold
    exact hlater q g call hold hcall
  | inserts | repoints | ends | accepts =>
    exact hlater q g call (Table.lookup_erase_eq_some.mp hg).2 hcall

theorem presented (hs : (machine D workspace).Reachable s) : Presented D workspace s := by
  refine hs.invariant (fun s₀ hinit p f call hf => ?_) fun s a t hs hI h =>
    presented_step hs hI h
  rw [hinit.2.1] at hf
  cases hf

/-- The token is a row of the control plane that is not revoked. -/
def Live (s : EnrollmentState) (token : Uuid) : Prop :=
  ∃ row, s.control.accessTokens.lookup token = some row ∧ row.revokedAt = none

theorem revokeIfLive_dead (h : (s.control.accessTokens.lookup token).isSome = true) :
    Dead (s.revokeIfLive token) token := by
  unfold EnrollmentState.revokeIfLive
  split
  next hnone =>
    rw [hnone] at h
    cases h
  next row hrow =>
    split_ifs with hrevoked
    · exact ⟨row, hrow, hrevoked⟩
    · exact ⟨{ row with revokedAt := some s.now }, by simp [EnrollmentState.withToken], rfl⟩

theorem Live.revokeIfLive {other : Uuid} (h : Live s token) (hne : token ≠ other) :
    Live (s.revokeIfLive other) token := by
  obtain ⟨row, hrow, hlive⟩ := h
  unfold EnrollmentState.revokeIfLive
  split
  · exact ⟨row, hrow, hlive⟩
  · split_ifs
    · exact ⟨row, hrow, hlive⟩
    · refine ⟨row, ?_, hlive⟩
      simp only [EnrollmentState.withToken, Table.lookup_insert, if_neg hne]
      exact hrow

/-- The first statements of a call whose checks pass. -/
theorem start_step {ctx : WorkspaceContext} {request : EnrollmentRequest}
    (hfree : s.flights.lookup p = none) (h : Opened s ctx request f) :
    step D workspace s (.start p ctx request) = some (s.fly p f) := by
  simp only [step]
  rw [if_neg (by simp [hfree]), opens_iff.mpr h]

theorem lookup_fly : (s.fly p f).flights.lookup p = some f := by
  simp [EnrollmentState.fly]

variable {ctx : WorkspaceContext} {hash : Digest} {expiresAt : ℕ}

variable {payload : Option Uuid}

/-- A create that nothing interrupts enrolls the pair, under a live token. -/
theorem create_runs {machineKey project : String} {account : Uuid}
    (hfree : s.flights.lookup p = none)
    (hopened : Opened s ctx (.create machineKey project payload)
      (.creating ctx account (machineKey, project)))
    (hfresh : s.isFresh token hash = true) (hid : s.enrollments.lookup id = none)
    (halone : ∀ q g, s.flights.lookup q = some g → ∀ r ∈ g.newRow,
      r.1 ≠ id ∧ r.2.pair ≠ (machineKey, project)) :
    ∃ t, (machine D workspace).run s (EnrollmentRequest.statements p ctx token hash expiresAt id
        (.create machineKey project payload)) = some t ∧
      t.enrollments = s.enrollments.insert id
        ⟨account, token, machineKey, project, bridgePurpose, .active⟩ ∧ Live t token := by
  let opened := s.fly p (.creating ctx account (machineKey, project))
  let drawn := (opened.withToken token (EnrollmentState.bridgeToken ctx account bridgePurpose hash
    expiresAt)).fly p (.minted account (machineKey, project) token)
  let row : EnrollmentRow := ⟨account, token, machineKey, project, bridgePurpose, .active⟩
  have hstart : step D workspace s (.start p ctx (.create machineKey project payload)) =
      some opened := start_step hfree hopened
  have hmint : step D workspace opened (.mint p token hash expiresAt) = some drawn := by
    have hstill : opened.isFresh token hash = true := hfresh
    simp only [step]
    rw [if_pos hstill, lookup_fly]
    rfl
  have hapart (q : ℕ) (g : Flight) (hg : drawn.flights.lookup q = some g) :
      ∀ r ∈ g.newRow, r.1 ≠ id ∧ r.2.pair ≠ (machineKey, project) := by
    simp only [drawn, opened, EnrollmentState.fly, EnrollmentState.withToken,
      Table.lookup_insert] at hg
    split_ifs at hg
    · rw [← Option.some.inj hg]
      intro r hr
      cases hr
    · exact halone q g hg
  have hinsert : step D workspace drawn (.insert p id) = some (drawn.fly p (.inserted id row)) := by
    have hnobody (test : Uuid × EnrollmentRow → Bool)
        (htest : ∀ r : Uuid × EnrollmentRow,
          r.1 ≠ id ∧ r.2.pair ≠ (machineKey, project) → test r = false) :
        drawn.flights.existsRow (fun _ g => g.newRow.any test) = false := by
      rw [Table.existsRow_eq_false]
      intro q g hg
      cases hrow : g.newRow with
      | none => rfl
      | some r => exact htest r (hapart q g hg r hrow)
    have hholder : drawn.holder (machineKey, project) = none := by
      cases hopened with | create _ _ _ _ _ _ _ free => exact free
    have hunused : drawn.enrollments.lookup id = none := hid
    simp only [step]
    rw [lookup_fly, Option.bind_some, insertStep, hnobody _ fun r hr => decide_eq_false hr.2,
      hnobody _ fun r hr => decide_eq_false hr.1, hholder, hunused]
    rfl
  have hcommit : step D workspace (drawn.fly p (.inserted id row)) (.commit p) =
      some ((drawn.fly p (.inserted id row)).commitRow p id row) := by
    simp only [step]
    rw [lookup_fly]
    rfl
  refine ⟨(drawn.fly p (.inserted id row)).commitRow p id row, ?_, rfl, ?_⟩
  · simp only [EnrollmentRequest.statements, Machine.run, machine, hstart, hmint, hinsert, hcommit,
      Option.bind_some]
  · refine ⟨EnrollmentState.bridgeToken ctx account bridgePurpose hash expiresAt, ?_, rfl⟩
    simp [drawn, opened, EnrollmentState.fly, EnrollmentState.withToken, EnrollmentState.commitRow]

/-- A rotate that nothing interrupts leaves its enrollment with a live token, and revokes the
old one. -/
theorem rotate_runs (hs : s.Sound) (hfree : s.flights.lookup p = none)
    (hopened : Opened s ctx (.rotate id payload) (.rotating ctx id row))
    (hfresh : s.isFresh token hash = true) (other : Uuid) :
    ∃ t, (machine D workspace).run s (EnrollmentRequest.statements p ctx token hash expiresAt other
        (.rotate id payload)) = some t ∧
      t.enrollments = s.enrollments.insert id { row with tokenId := token } ∧ Live t token ∧
        Dead t row.tokenId := by
  obtain ⟨hstored, hlive⟩ : s.enrollments.lookup id = some row ∧ row.state = .active := by
    cases hopened with | rotate _ _ _ _ _ _ _ stored live => exact ⟨stored, live⟩
  let opened := s.fly p (.rotating ctx id row)
  let drawn := (opened.withToken token (EnrollmentState.bridgeToken ctx row.accountId row.purpose
    hash expiresAt)).fly p (.repointed id row token)
  let ended := (drawn.revokeIfLive row.tokenId).fly p (.rotated id row token)
  have hstart : step D workspace s (.start p ctx (.rotate id payload)) = some opened :=
    start_step hfree hopened
  have hmint : step D workspace opened (.mint p token hash expiresAt) = some drawn := by
    have hstill : opened.isFresh token hash = true := hfresh
    simp only [step]
    rw [if_pos hstill, lookup_fly]
    rfl
  have hend : step D workspace drawn (.endToken p true) = some ended := by
    simp only [step]
    rw [lookup_fly]
    rfl
  have hcommit : step D workspace ended (.commit p) =
      some (ended.commitRow p id { row with tokenId := token }) := by
    simp only [step]
    rw [lookup_fly]
    rfl
  have hne : token ≠ row.tokenId := by
    rintro rfl
    have hknown := hs.stored id row hstored
    rw [isFresh_none hfresh] at hknown
    cases hknown
  have hnew : Live drawn token := by
    refine ⟨EnrollmentState.bridgeToken ctx row.accountId row.purpose hash expiresAt, ?_, rfl⟩
    simp [drawn, opened, EnrollmentState.fly, EnrollmentState.withToken]
  have hold : (drawn.control.accessTokens.lookup row.tokenId).isSome = true := by
    simp only [drawn, opened, EnrollmentState.fly, EnrollmentState.withToken,
      Table.lookup_insert, if_neg hne.symm]
    exact hs.stored id row hstored
  refine ⟨ended.commitRow p id { row with tokenId := token }, ?_, ?_, hnew.revokeIfLive hne,
    revokeIfLive_dead hold⟩
  · simp only [EnrollmentRequest.statements, Machine.run, machine, hstart, hmint, hend, hcommit,
      Option.bind_some]
  · simp only [EnrollmentState.commitRow, ended, EnrollmentState.fly, revokeIfLive_enrollments]
    rfl

/-- A revoke that nothing interrupts ends its enrollment and its token. -/
theorem revoke_runs (hs : s.Sound) (hfree : s.flights.lookup p = none)
    (hopened : Opened s ctx (.revoke id payload) (.revoking id row)) (other : Uuid) :
    ∃ t, (machine D workspace).run s (EnrollmentRequest.statements p ctx token hash expiresAt other
        (.revoke id payload)) = some t ∧
      t.enrollments = s.enrollments.insert id { row with state := .revoked } ∧
        Dead t row.tokenId := by
  have hstored : s.enrollments.lookup id = some row := by
    cases hopened with | revoke _ _ _ _ _ stored _ => exact stored
  let opened := s.fly p (.revoking id row)
  let ended := (opened.revokeIfLive row.tokenId).fly p (.ended id row)
  have hstart : step D workspace s (.start p ctx (.revoke id payload)) = some opened :=
    start_step hfree hopened
  have hend : step D workspace opened (.endToken p true) = some ended := by
    simp only [step]
    rw [lookup_fly]
    rfl
  have hcommit : step D workspace ended (.commit p) =
      some (ended.commitRow p id { row with state := .revoked }) := by
    simp only [step]
    rw [lookup_fly]
    rfl
  have hold : (opened.control.accessTokens.lookup row.tokenId).isSome = true :=
    hs.stored id row hstored
  refine ⟨ended.commitRow p id { row with state := .revoked }, ?_, ?_, revokeIfLive_dead hold⟩
  · simp only [EnrollmentRequest.statements, Machine.run, machine, hstart, hend, hcommit,
      Option.bind_some]
  · simp only [EnrollmentState.commitRow, ended, EnrollmentState.fly, revokeIfLive_enrollments]
    rfl

end Laws

/-- Whether an action is the commit of a call. -/
def EnrollmentAction.isCommit : EnrollmentAction → Bool
  | .commit _ => true
  | _ => false

/-- What holds of the enrollments of a workspace, over every run of their calls. -/
structure EnrollmentLaw (D : Digests) (workspace : Uuid) : Prop where
  /-- A machine and a project have one active enrollment. -/
  onePair : ∀ s, (machine D workspace).Reachable s → ∀ id row id' row',
    s.enrollments.lookup id = some row → s.enrollments.lookup id' = some row' →
      row.state = .active → row'.state = .active → row.pair = row'.pair → id = id'
  /-- When an ingest is accepted, its enrollment is active, holds its token and fits the call,
  and the token was live when the boundary resolved it. -/
  accepted : ∀ s a t, (machine D workspace).Reachable s → step D workspace s a = some t →
    t.accepted = s.accepted ∨ ∃ call id row, t.accepted = s.accepted ++ [(call, id)] ∧
      s.enrollments.lookup id = some row ∧ row.state = .active ∧
        row.tokenId = call.token.tokenId ∧ call.fits row = true ∧
          ∃ before value, (machine D workspace).Reachable before ∧
            (machine D workspace).Reaches before s ∧
              before.control.resolveToken D value "api" before.now = .ok call.token
  /-- After the commit that replaces a token, or that revokes its enrollment, no ingest is
  accepted with it. -/
  ended : ∀ s a t, (machine D workspace).Reachable s → step D workspace s a = some t →
    ∀ id row, s.enrollments.lookup id = some row → t.enrollments.lookup id ≠ some row →
      ∀ u b v, (machine D workspace).Reaches t u → step D workspace u b = some v →
        ∀ call i, v.accepted = u.accepted ++ [(call, i)] → call.token.tokenId ≠ row.tokenId
  /-- No request that presents a revoked token is resolved. -/
  revoked : ∀ s u v token p value machineKey project, Dead s token →
    (machine D workspace).Reaches s u →
      step D workspace u (.present p value machineKey project) = some v →
        ∀ call, v.flights.lookup p = some (.ingesting call) → call.token.tokenId ≠ token
  /-- Calls that end before their commit, in any number, change no enrollment. -/
  interrupted : ∀ s u, ((machine D workspace).restrict
    fun _ a => a.isCommit = false).Reaches s u → u.enrollments = s.enrollments
  /-- A crash frees the call and the row that it locked. -/
  crashed : ∀ s p t, step D workspace s (.crash p) = some t → t = s.land p
  /-- A create of a pair that no active enrollment holds runs to its end. -/
  created : ∀ s p ctx machineKey project payload account token hash expiresAt id,
    (machine D workspace).Reachable s → s.flights.lookup p = none →
      ctx.actor.kind ≠ .token → targetAccount ctx payload = .ok account →
        (s.control.memberships.lookup (account, ctx.workspaceId)).isSome = true →
          s.holder (machineKey, project) = none → s.isFresh token hash = true →
            s.enrollments.lookup id = none →
              (∀ q g, s.flights.lookup q = some g → ∀ r ∈ g.newRow,
                r.1 ≠ id ∧ r.2.pair ≠ (machineKey, project)) →
                ∃ t, (machine D workspace).run s (EnrollmentRequest.statements p ctx token hash
                  expiresAt id (.create machineKey project payload)) = some t ∧
                    t.enrollments = s.enrollments.insert id
                      ⟨account, token, machineKey, project, bridgePurpose, .active⟩ ∧
                        Live t token
  /-- A rotate of an active enrollment that no call has locked runs to its end. -/
  rotated : ∀ s p ctx payload token hash expiresAt id row other,
    (machine D workspace).Reachable s → s.flights.lookup p = none →
      s.enrollments.lookup id = some row → row.state = .active → s.isLocked id = false →
        ctx.actor.kind ≠ .token → targetAccount ctx payload = .ok row.accountId →
          (s.control.memberships.lookup (row.accountId, ctx.workspaceId)).isSome = true →
            s.isFresh token hash = true →
              ∃ t, (machine D workspace).run s (EnrollmentRequest.statements p ctx token hash
                expiresAt other (.rotate id payload)) = some t ∧
                  t.enrollments = s.enrollments.insert id { row with tokenId := token } ∧
                    Live t token ∧ Dead t row.tokenId
  /-- A revoke of an active enrollment that no call has locked runs to its end. -/
  revokes : ∀ s p ctx payload token hash expiresAt id row other,
    (machine D workspace).Reachable s → s.flights.lookup p = none →
      s.enrollments.lookup id = some row → row.state = .active → s.isLocked id = false →
        targetAccount ctx payload = .ok row.accountId →
          ∃ t, (machine D workspace).run s (EnrollmentRequest.statements p ctx token hash
            expiresAt other (.revoke id payload)) = some t ∧
              t.enrollments = s.enrollments.insert id { row with state := .revoked } ∧
                Dead t row.tokenId

section Law

variable {D : Digests} {workspace : Uuid} {s t : EnrollmentState}

variable {a : EnrollmentAction}

/-- What an accepted ingest had, at its commit. -/
theorem accepted_step (hs : (machine D workspace).Reachable s) (h : step D workspace s a = some t) :
    t.accepted = s.accepted ∨ ∃ call id row, t.accepted = s.accepted ++ [(call, id)] ∧
      s.enrollments.lookup id = some row ∧ row.state = .active ∧
        row.tokenId = call.token.tokenId ∧ call.fits row = true ∧
          ∃ before value, (machine D workspace).Reachable before ∧
            (machine D workspace).Reaches before s ∧
              before.control.resolveToken D value "api" before.now = .ok call.token := by
  cases stepCase h with
  | outside _ _ _ controls => exact .inl controls.accepted
  | flies _ u p f _ controls _ _ => exact .inl controls.accepted
  | lands _ u p _ controls => exact .inl controls.accepted
  | inserts | repoints | ends => exact .inl rfl
  | accepts p call id row flight =>
    have hfits := (sound hs).flights p _ flight
    obtain ⟨hstored, hactive⟩ := hfits.held id row (.inr rfl)
    obtain ⟨hfit, htoken⟩ := hfits.admitted call id row rfl
    exact .inr ⟨call, id, row, rfl, hstored, hactive, htoken, hfit,
      presented hs p _ call flight rfl⟩

/-- A step that changes a row that is stored leaves the token that the row had to nobody. -/
theorem gone_of_changed {id : Uuid} {row : EnrollmentRow} (hs : (machine D workspace).Reachable s)
    (h : step D workspace s a = some t) (hstored : s.enrollments.lookup id = some row)
    (hchanged : t.enrollments.lookup id ≠ some row) : Gone t row.tokenId := by
  have hsound := sound hs
  cases stepCase h with
  | outside _ _ _ controls =>
    rw [controls.enrollments] at hchanged
    exact absurd hstored hchanged
  | flies _ u p f _ controls _ _ =>
    have hsame : (u.fly p f).enrollments = s.enrollments := controls.enrollments
    rw [hsame] at hchanged
    exact absurd hstored hchanged
  | lands _ u p _ controls =>
    have hsame : (u.land p).enrollments = s.enrollments := controls.enrollments
    rw [hsame] at hchanged
    exact absurd hstored hchanged
  | inserts p i new flight =>
    have hnone := ((hsound.flights p _ flight).newRow i new rfl).1
    refine absurd ?_ hchanged
    simp only [EnrollmentState.commitRow, Table.lookup_insert]
    rw [if_neg, hstored]
    rintro rfl
    rw [hnone] at hstored
    cases hstored
  | repoints p i old token flight =>
    have hfits := hsound.flights p _ flight
    have hold := (hfits.held i old (.inl rfl)).1
    by_cases hi : id = i
    · subst hi
      rw [hstored] at hold
      obtain rfl := Option.some.inj hold
      refine gone_of_commit hsound hstored fun _ heq => ?_
      exact (hfits.token token rfl).2 id row hstored heq.symm
    · refine absurd ?_ hchanged
      simp only [EnrollmentState.commitRow, Table.lookup_insert, if_neg hi]
      exact hstored
  | ends p i old flight =>
    have hold := ((hsound.flights p _ flight).held i old (.inl rfl)).1
    by_cases hi : id = i
    · subst hi
      rw [hstored] at hold
      obtain rfl := Option.some.inj hold
      exact gone_of_commit hsound hstored fun hactive => by cases hactive
    · refine absurd ?_ hchanged
      simp only [EnrollmentState.commitRow, Table.lookup_insert, if_neg hi]
      exact hstored
  | accepts p call i r flight => exact absurd hstored hchanged

theorem enrollments_of_uncommitted (h : step D workspace s a = some t) (ha : a.isCommit = false) :
    t.enrollments = s.enrollments := by
  cases stepCase h with
  | outside _ _ _ controls => exact controls.enrollments
  | flies _ u p f _ controls _ _ => exact controls.enrollments
  | lands _ u p _ controls => exact controls.enrollments
  | inserts | repoints | ends => cases ha
  | accepts => rfl

end Law

/-- Enrollments fail closed, up to the token check of a request, which the boundary makes once. -/
theorem enrollment_law (D : Digests) (workspace : Uuid) : EnrollmentLaw D workspace := by
  constructor
  case onePair => exact fun s hs => (sound hs).onePair
  case accepted => exact fun s a t hs h => accepted_step hs h
  case ended =>
    intro s a t hs h id row hstored hchanged u b v hrun hstep call i haccepted heq
    have ht := hs.step h
    have hgone : Gone u row.tokenId :=
      ht.stable (P := fun s => Gone s row.tokenId) (fun _ _ _ _ hgone hnext =>
        gone_step hgone hnext) (gone_of_changed hs h hstored hchanged) hrun
    obtain hsame | ⟨other, id', new, hnew, hactive, hlive, htoken, -⟩ :=
      accepted_step (ht.reaches hrun) hstep
    · rw [hsame] at haccepted
      simp at haccepted
    · rw [hnew] at haccepted
      simp only [List.append_cancel_left_eq, List.cons.injEq, Prod.mk.injEq, and_true]
        at haccepted
      obtain ⟨rfl, rfl⟩ := haccepted
      exact hgone.enrollments id' new hactive hlive (htoken.trans heq)
  case revoked =>
    intro s u v token p value machineKey project hdead hrun hstep call hcall heq
    obtain ⟨row, hrow, hrevoked⟩ := hdead.reaches hrun
    simp only [step] at hstep
    split_ifs at hstep
    obtain ⟨resolved, hresolved, -, rfl⟩ := presentStep_ok hstep
    rw [lookup_fly] at hcall
    obtain rfl := Flight.ingesting.inj (Option.some.inj hcall)
    obtain ⟨found, hfound, -, -, hlive, -⟩ := ControlTables.resolveToken_ok D hresolved
    have hsame : resolved.tokenId = token := heq
    rw [hsame, hrow] at hfound
    rw [Option.some.inj hfound, hlive] at hrevoked
    cases hrevoked
  case interrupted =>
    intro s u hrun
    induction hrun with
    | refl => rfl
    | tail _ hnext ih =>
      obtain ⟨a, hnext⟩ := hnext
      obtain ⟨ha, hstep⟩ := Machine.restrict_step.mp hnext
      exact (enrollments_of_uncommitted hstep ha).trans ih
  case crashed =>
    intro s p t h
    obtain ⟨f, -, hstep⟩ := Option.map_eq_some_iff.mp h
    exact hstep.symm
  case created =>
    intro s p ctx machineKey project payload account token hash expiresAt id hs hfree hactor
      htarget hjoined hholder hfresh hid halone
    exact create_runs hfree (.create _ _ _ account hactor htarget hjoined hholder) hfresh hid halone
  case rotated =>
    intro s p ctx payload token hash expiresAt id row other hs hfree hstored hlive hunlocked
      hactor htarget hjoined hfresh
    exact rotate_runs (sound hs) hfree
      (.rotate id payload row hactor htarget hjoined hunlocked hstored hlive) hfresh other
  case revokes =>
    intro s p ctx payload token hash expiresAt id row other hs hfree hstored hlive hunlocked htarget
    exact revoke_runs (sound hs) hfree (.revoke id payload row htarget hunlocked hstored hlive)
      other

section Sample

private def sampleDigests : Digests where
  token value := if value = "first" then some 1 else if value = "second" then some 2 else none
  sha256 _ := 0

private def laptopOwner : WorkspaceContext where
  workspaceId := 1
  actor := ⟨.account, some 7⟩
  role := .member
  operationSet := .all
  enabledModules := ∅
  accountId := some 7
  boundPurpose := none

private def joinedAlone : EnrollmentState where
  control := ⟨∅, (∅ : Table (Uuid × Uuid) Role).insert (7, 1) .member⟩
  enrollments := ∅
  flights := ∅
  accepted := []
  now := 5

/-- A rotate dies between the revocation of the old token and its own commit, while an ingest
that presented the old token before is still to read its enrollment. -/
private def interruptedRotate : List EnrollmentAction :=
  [.start 0 laptopOwner (.create "m" "d" none), .mint 0 10 1 1000, .insert 0 100, .commit 0,
    .present 1 "first" "m" "d", .start 2 laptopOwner (.rotate 100 none), .mint 2 11 2 1000,
    .endToken 2 true, .crash 2, .read 1 true, .commit 1]

/-- The tokens of the accepted ingests, each with whether it is revoked. -/
private def acceptedTokens (s : EnrollmentState) : List (Uuid × Bool) :=
  s.accepted.map fun a => (a.1.token.tokenId,
    (s.control.accessTokens.lookup a.1.token.tokenId).any fun row => row.revokedAt.isSome)

/-- An ingest is accepted with a token that is revoked by then: the boundary looked at the token
before, and the handler does not look at it again. -/
theorem revoked_token_accepted : Initial joinedAlone ∧
    ((machine sampleDigests 1).run joinedAlone interruptedRotate).map acceptedTokens =
      some [(10, true)] :=
  ⟨⟨rfl, rfl, rfl⟩, by decide +kernel⟩

end Sample

end Rheostream.Evidence
