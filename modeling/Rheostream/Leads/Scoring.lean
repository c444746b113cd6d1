import Mathlib.Data.Finset.Basic
import Rheostream.Foundation.ClaimQueue
import Rheostream.Foundation.Machine
import Rheostream.Foundation.PyText
import Rheostream.Work.Jobs

/-!
# The scoring sweep

`scoring/job.py`, with the operations that set the profile and promote a held job. A sweep
refreshes the rows whose inputs moved, claims one pending job at a time, scores it outside
any transaction and records what came of it. A row stays pending while it is claimed: its
claim is the wait it is given. Any number of sweeps run at once, and each transaction
carries the instant its worker read from the clock.
-/

namespace Rheostream.Leads

inductive ScoreStatus where
  | pending
  | scored
  | failed
  deriving DecidableEq

/-- A row of `job_score_state`. -/
structure ScoreRow where
  inputDigest : String
  state : ScoreStatus
  attempts : ℕ
  retryAfter : Option ℕ
  failureKind : Option String
  updatedAt : ℕ

/-- What scoring reads of a job search opportunity. `isOpen` is the kind of its stage. -/
structure ScoredJob where
  title : String
  fields : List (String × String)
  isOpen : Bool
  createdAt : ℕ
  revision : ℕ

/-- A row of `qualification`. -/
structure Qualification where
  opportunityId : Uuid
  inputRevision : ℕ
  createdAt : ℕ
  fit : Option String
  score : Option ℕ
  lines : List String
  uncertainty : String
  completeness : String
  modelId : Option String
  promptVersion : Option String

/-- What scoring reads of the job-search profile. -/
structure ScoringProfile where
  version : ℕ
  maxProposals : ℕ

/-- The pre-filter's configuration and the fingerprint of its model and threshold. -/
structure PrefilterConfig where
  enabled : Bool
  version : String

/-- `Claimed`, and the version of the profile that the claim's sweep read. -/
structure ScoreClaim where
  id : Uuid
  digest : String
  attempts : ℕ
  revision : ℕ
  promoted : Bool
  profileVersion : ℕ

/-- `Outcome`. -/
structure ScoreOutcome where
  fit : Option String := none
  score : Option ℕ := none
  lines : List String := []
  uncertainty : String := "high"
  completeness : String := "needs_information"
  model : Bool := false
  deferred : Option String := none
  failure : Option String := none
  prefilterModel : Option String := none
  prefilterVersion : Option String := none

/-- The configured model and the name of the fixed prompt text. -/
structure ScoringModel where
  modelId : String
  promptVersion : String

structure ScoringState where
  profile : Option ScoringProfile
  jobs : Table Uuid ScoredJob
  rows : Table Uuid ScoreRow
  /-- The rows of `job_promotion`, by opportunity. -/
  promotions : Table Uuid ℕ
  qualifications : Table Uuid Qualification
  /-- The running sweeps and the version of the profile each one read. -/
  running : Table ℕ ℕ
  /-- The claims that running sweeps have not answered. -/
  claims : Table ℕ ScoreClaim
  /-- The instants at which queued sweeps are due. -/
  sweeps : List ℕ
  /-- The history of the rows. -/
  log : QueueLog
  /-- The version of the profile when a row last became pending anew. -/
  repended : Table Uuid ℕ

/-- `SCORE_ATTEMPTS`. -/
def scoreAttempts : ℕ := 5

/-- `USAGE_DEFER` of the scoring sweep. -/
def scoreDefer : ℕ := seconds 900

/-- `TRIGGER_GRANULARITY`. -/
def scoreGranularity : ℕ := seconds 60

/-- `HELD_LINE` of the client filters. -/
def filterHeldLine : String := "Held back by the client filters before scoring."

/-- `prefilter.HELD_LINE`. -/
def prefilterHeldLine : String := "Held back by the Jev pre-filter before full scoring."

/-- `/profile.` and a version. -/
def profileSuffix (version : ℕ) : String := "/profile." ++ toString version

/-- The minute boundary after an instant. -/
def scoreSweepDue (at_ : ℕ) : ℕ := (at_ + scoreGranularity) / scoreGranularity * scoreGranularity

/-- `queue_sweep`: at most one sweep a minute. -/
def queueScoreSweep (at_ : ℕ) (sweeps : List ℕ) : List ℕ :=
  if sweeps.contains (scoreSweepDue at_) then sweeps else scoreSweepDue at_ :: sweeps

namespace Qualification

def explanation (q : Qualification) : String := "\n".intercalate q.lines

end Qualification

namespace ScoreRow

/-- `_claimable`. -/
def isClaimable (now : ℕ) (row : ScoreRow) : Bool :=
  row.state = .pending && row.retryAfter.all (· ≤ now)

/-- Pending anew, with a fresh attempt count. -/
def repend (now : ℕ) (row : ScoreRow) : ScoreRow :=
  { row with
    state := .pending
    attempts := 0
    retryAfter := none
    failureKind := none
    updatedAt := now }

/-- The row `refresh` writes. -/
def fresh (digest : String) (now : ℕ) : ScoreRow where
  inputDigest := digest
  state := .pending
  attempts := 0
  retryAfter := none
  failureKind := none
  updatedAt := now

/-- The row after a claim of it. -/
def hold (now window : ℕ) (row : ScoreRow) : ScoreRow :=
  { row with
    attempts := row.attempts + 1
    retryAfter := some (now + window)
    failureKind := none
    updatedAt := now }

end ScoreRow

namespace ScoringState

variable (digest : ScoredJob → ℕ → String)

def isOpen (s : ScoringState) (id : Uuid) : Bool := (s.jobs.lookup id).any (·.isOpen)

def isPromoted (s : ScoringState) (id : Uuid) : Bool := (s.promotions.lookup id).isSome

/-- The current assessment: the latest by input revision, instant and identifier. -/
def latest (s : ScoringState) (id : Uuid) : Option Qualification :=
  ((s.qualifications.entries.filter fun e => e.2.opportunityId = id).argmax fun e =>
    toLex (e.2.inputRevision, toLex (e.2.createdAt, e.1))).map (·.2)

/-- The rows that match become pending anew. -/
def rependWhere (s : ScoringState) (p : Uuid → ScoreRow → Bool) (version now : ℕ) : ScoringState :=
  { s with
    rows := s.rows.updateAll fun id row => if p id row then row.repend now else row
    log := .reset (s.rows.select p).keys :: s.log
    repended := s.repended.upsertAll ((s.rows.select p).rowsAs id fun _ => version) }

/-- The open jobs whose inputs are new or moved. -/
def moved (s : ScoringState) (cap : ℕ) : Table Uuid ScoredJob :=
  s.jobs.select fun id job =>
    job.isOpen && !decide ((s.rows.lookup id).map (·.inputDigest) = some (digest job cap))

/-- `refresh`. -/
def refresh (s : ScoringState) (cap version now : ℕ) : ScoringState :=
  { s with
    rows := s.rows.upsertAll
      ((s.moved digest cap).rowsAs id fun job => ScoreRow.fresh (digest job cap) now)
    log := .reset (s.moved digest cap).keys :: s.log
    repended := s.repended.upsertAll ((s.moved digest cap).rowsAs id fun _ => version) }

/-- The row's current assessment is a hold of the pre-filter that is not this configuration's
any more. -/
def isStaleHold (s : ScoringState) (config : PrefilterConfig) (version : ℕ) (id : Uuid) : Bool :=
  (s.latest id).any fun q =>
    q.score.isNone && pyStartsWith prefilterHeldLine q.explanation &&
      (!config.enabled || q.promptVersion.any fun text =>
        !pyStartsWith (config.version ++ "/") text || !pyEndsWith (profileSuffix version) text)

/-- `refresh_prefilter_holds`. -/
def refreshPrefilterHolds (s : ScoringState) (config : PrefilterConfig) (version now : ℕ) :
    ScoringState :=
  s.rependWhere
    (fun id row => row.state = .scored && s.isOpen id && s.isStaleHold config version id)
    version now

/-- The start of a sweep, which ends at once without a profile. -/
def startSweep (s : ScoringState) (k : ℕ) (config : PrefilterConfig) (now : ℕ) : ScoringState :=
  match s.profile with
  | none => s
  | some profile =>
    let s' := (s.refresh digest profile.maxProposals profile.version now).refreshPrefilterHolds
      config profile.version now
    { s' with running := s'.running.insert k profile.version }

/-- The row and its job may be claimed: pending, due, open and not locked. -/
def mayTake (s : ScoringState) (skipped : Finset Uuid) (now : ℕ) (id : Uuid) (row : ScoreRow) :
    Bool :=
  row.isClaimable now && s.isOpen id && !decide (id ∈ skipped)

/-- `o.created_at`. -/
def createdAt (s : ScoringState) (id : Uuid) : ℕ := (s.jobs.lookup id).elim 0 (·.createdAt)

/-- The newest claimable job. -/
def newest (s : ScoringState) (skipped : Finset Uuid) (now : ℕ) : Option (Uuid × ScoreRow) :=
  ((s.rows.entries.filter fun e => s.mayTake skipped now e.1 e.2).argmax fun e =>
    toLex (s.createdAt e.1, e.1)).map fun e => (e.1, e.2)

/-- What a claim of a row carries. -/
def claimOf (s : ScoringState) (version : ℕ) (id : Uuid) (row : ScoreRow) : ScoreClaim where
  id := id
  digest := row.inputDigest
  attempts := row.attempts + 1
  revision := (s.jobs.lookup id).elim 0 (·.revision)
  promoted := s.isPromoted id
  profileVersion := version

/-- `claim`, by a sweep that read this version of the profile. -/
def claim (s : ScoringState) (version : ℕ) (skipped : Finset Uuid) (window now : ℕ) :
    ScoringState :=
  match s.newest skipped now with
  | none => s
  | some (id, row) =>
    { s with
      rows := s.rows.insert id (row.hold now window)
      claims := s.claims.insert s.log.claims (s.claimOf version id row)
      log := .claimed s.log.claims id :: s.log }

/-- The guard of `record`: the inputs did not move, and the job was not promoted since. -/
def mayRecord (s : ScoringState) (c : ScoreClaim) : Bool :=
  (s.rows.lookup c.id).any (fun row => row.inputDigest = c.digest) &&
    (c.promoted || !s.isPromoted c.id)

/-- The rows after a deferral: the attempt is given back, and every claimable job waits with
this one. -/
def deferred (s : ScoringState) (c : ScoreClaim) (kind : String) (now : ℕ) : Table Uuid ScoreRow :=
  (s.rows.updateAll fun id row =>
    if id = c.id then { row with attempts := row.attempts - 1 } else row).updateAll fun id row =>
      if id = c.id ∨ row.isClaimable now then
        { row with
          retryAfter := some (now + scoreDefer)
          failureKind := some kind
          updatedAt := now }
      else row

/-- The assessment of the last counted failure. -/
def exhausted (c : ScoreClaim) (kind : String) : ScoreOutcome where
  fit := some "needs_information"
  lines := ["Scoring failed after " ++ toString c.attempts ++ " attempts (" ++ kind ++ ").",
    "It is tried again when the posting changes."]
  failure := some kind

/-- The row of `qualification` that an outcome leaves. -/
def assessment (c : ScoreClaim) (outcome : ScoreOutcome) (model : ScoringModel) (now : ℕ) :
    Qualification where
  opportunityId := c.id
  inputRevision := c.revision
  createdAt := now
  fit := outcome.fit
  score := outcome.score
  lines := outcome.lines
  uncertainty := outcome.uncertainty
  completeness := outcome.completeness
  modelId := if outcome.model then some model.modelId else outcome.prefilterModel
  promptVersion :=
    if outcome.model then some (model.promptVersion ++ profileSuffix c.profileVersion)
    else outcome.prefilterVersion.map (· ++ profileSuffix c.profileVersion)

/-- The rows after a counted failure that is not the last: the job waits the backoff. -/
def retried (s : ScoringState) (c : ScoreClaim) (kind : String) (now : ℕ) : Table Uuid ScoreRow :=
  s.rows.updateAll fun id row =>
    if id = c.id then
      { row with
        retryAfter := some (now + backoffFor c.attempts none)
        failureKind := some kind
        updatedAt := now }
    else row

/-- The rows after an assessment. -/
def settled (s : ScoringState) (c : ScoreClaim) (failure : Option String) (now : ℕ) :
    Table Uuid ScoreRow :=
  s.rows.updateAll fun id row =>
    if id = c.id then
      { row with
        state := if failure.isSome then .failed else .scored
        retryAfter := none
        failureKind := failure
        updatedAt := now }
    else row

/-- The end of `record`: the assessment, and the row that it settles. -/
def assess (s : ScoringState) (c : ScoreClaim) (outcome : ScoreOutcome) (qualificationId : Uuid)
    (model : ScoringModel) (now : ℕ) : ScoringState :=
  { s with
    qualifications := s.qualifications.insert qualificationId (assessment c outcome model now)
    rows := s.settled c outcome.failure now }

/-- `record`. Nothing is written when the guard fails. -/
def record (s : ScoringState) (n : ℕ) (c : ScoreClaim) (outcome : ScoreOutcome)
    (qualificationId : Uuid) (model : ScoringModel) (now : ℕ) : ScoringState :=
  let left := { s with claims := s.claims.erase n }
  if !s.mayRecord c then left
  else
    match outcome.deferred, outcome.failure with
    | some kind, _ =>
      { left with
        rows := s.deferred c kind now
        log := .answered n c.id .deferred :: s.log }
    | none, some kind =>
      if c.attempts < scoreAttempts then
        { left with
          rows := s.retried c kind now
          log := .answered n c.id .failed :: s.log }
      else
        { left.assess c (exhausted c kind) qualificationId model now with
          log := .answered n c.id .failed :: s.log }
    | none, none =>
      { left.assess c outcome qualificationId model now with
        log := .answered n c.id .finished :: s.log }

/-- `repend_unscored` puts this row back in line: it failed, or its current assessment has no
model score. -/
def isUnscored (s : ScoringState) (id : Uuid) (row : ScoreRow) : Bool :=
  row.state = .failed || ((s.latest id).bind (·.score)).isNone

/-- The version that setting the profile gives it. -/
def nextVersion (s : ScoringState) : ℕ := s.profile.elim 1 fun profile => profile.version + 1

/-- `set_profile`. -/
def setProfile (s : ScoringState) (maxProposals now : ℕ) : ScoringState :=
  let s' := s.rependWhere s.isUnscored s.nextVersion now
  { s' with
    profile := some ⟨s.nextVersion, maxProposals⟩
    sweeps := queueScoreSweep now s.sweeps }

/-- The current assessment is a hold of the client filters or of the pre-filter. -/
def isHeld (s : ScoringState) (id : Uuid) : Bool :=
  (s.latest id).any fun q => q.score.isNone &&
    (pyStartsWith filterHeldLine q.explanation || pyStartsWith prefilterHeldLine q.explanation)

/-- `promote`. -/
def promote (s : ScoringState) (id : Uuid) (now : ℕ) : Except String ScoringState :=
  if (s.jobs.lookup id).isNone then .error "not_found"
  else if s.isPromoted id then .ok s
  else if !s.isOpen id || !s.isHeld id then .error "not_held"
  else
    let s' := s.rependWhere (fun k _ => k = id) (s.profile.elim 0 (·.version)) now
    .ok { s' with
      promotions := s.promotions.insert id now
      sweeps := queueScoreSweep now s.sweeps }

/-- `follow_up_at`. -/
def followUpAt (s : ScoringState) (now : ℕ) : Option ℕ :=
  if s.rows.existsRow fun id row => s.isOpen id && row.isClaimable now then some now
  else ((s.rows.entries.filter fun e => e.2.state = .pending && s.isOpen e.1).filterMap
    fun e => e.2.retryAfter).min?

/-- The end of a sweep: work that is left gets a sweep of its own. -/
def endSweep (s : ScoringState) (k now : ℕ) : ScoringState :=
  let left := { s with running := s.running.erase k }
  match s.followUpAt now with
  | none => left
  | some due => { left with sweeps := queueScoreSweep (max due now) s.sweeps }

end ScoringState

inductive ScoringAction where
  | setJob (id : Uuid) (job : ScoredJob)
  | setProfile (maxProposals now : ℕ)
  | promote (id : Uuid) (now : ℕ)
  /-- An assessment by another operation. -/
  | qualify (qualificationId : Uuid) (q : Qualification)
  /-- The assessments that an erasure takes away. -/
  | eraseAssessments (ids : List Uuid)
  | startSweep (k : ℕ) (config : PrefilterConfig) (now : ℕ)
  | claim (k : ℕ) (skipped : Finset Uuid) (window now : ℕ)
  | record (n : ℕ) (outcome : ScoreOutcome) (qualificationId : Uuid) (model : ScoringModel)
      (now : ℕ)
  /-- The worker of a claim dies. -/
  | crash (n : ℕ)
  | endSweep (k now : ℕ)
  | takeSweep (due : ℕ)

/-- One transaction, or one worker's death. A refused operation is no step. -/
def ScoringState.step (digest : ScoredJob → ℕ → String) (s : ScoringState) :
    ScoringAction → Option ScoringState
  | .setJob id job => some { s with jobs := s.jobs.insert id job }
  | .setProfile maxProposals now => some (s.setProfile maxProposals now)
  | .promote id now => (s.promote id now).toOption
  | .qualify qualificationId q =>
    some { s with qualifications := s.qualifications.insert qualificationId q }
  | .eraseAssessments ids =>
    some { s with
      qualifications := s.qualifications.deleteWhere fun _ q => ids.contains q.opportunityId }
  | .startSweep k config now =>
    if (s.running.lookup k).isSome then none else some (s.startSweep digest k config now)
  | .claim k skipped window now =>
    (s.running.lookup k).map fun version => s.claim version skipped window now
  | .record n outcome qualificationId model now =>
    (s.claims.lookup n).map fun c => s.record n c outcome qualificationId model now
  | .crash n => some { s with claims := s.claims.erase n }
  | .endSweep k now =>
    if (s.running.lookup k).isNone then none else some (s.endSweep k now)
  | .takeSweep due =>
    if s.sweeps.contains due then some { s with sweeps := s.sweeps.erase due } else none

/-- A workspace in which nothing was scored yet. -/
def ScoringState.IsEmpty (s : ScoringState) : Prop :=
  s.profile = none ∧ s.rows = ∅ ∧ s.promotions = ∅ ∧ s.running = ∅ ∧ s.claims = ∅ ∧
    s.sweeps = [] ∧ s.log = [] ∧ s.repended = ∅

/-- The scoring tables under any number of sweeps. -/
def scoring (digest : ScoredJob → ℕ → String) : Machine ScoringState ScoringAction where
  init := ScoringState.IsEmpty
  step := ScoringState.step digest

end Rheostream.Leads
