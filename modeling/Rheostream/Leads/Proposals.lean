import Mathlib.Data.Finset.Basic
import Rheostream.Foundation.ClaimQueue
import Rheostream.Foundation.Machine
import Rheostream.Foundation.PyText
import Rheostream.Work.Jobs

/-!
# Proposals and the drafting sweep

`proposals/job.py`, `proposals/pricing_job.py` and the operations that request, edit and
delete a draft. A sweep claims one queued proposal at a time, drafts it outside any
transaction and records what came of it. A draft waits while its job is being priced, and
pricing requests are claimed the same way. Any number of sweeps run at once, and each
transaction carries the instant its worker read from the clock.
-/

namespace Rheostream.Leads

/-- One stage of a milestone schedule, its amount in cents. -/
structure Stage where
  title : String
  description : String
  amount : ℕ
  dueOn : Option ℕ

/-- A schedule: its stages, or why the posting was too vague to stage. -/
structure Schedule where
  stages : List Stage
  tooVague : Option String

/-- The `kind` of a row of `proposal_section`. -/
inductive SectionKind where
  | coverLetter
  | answer
  deriving DecidableEq

/-- A row of `proposal_section`. -/
structure Section where
  id : Uuid
  kind : SectionKind
  question : Option String
  body : String
  libraryAnswerId : Option Uuid
  updatedAt : ℕ

/-- What else `job_proposal` keeps. -/
structure ProposalText where
  questions : Option String
  separateAnswers : Bool
  findings : Option (List (String × Json))
  generatedAt : Option ℕ
  profileVersion : Option ℕ
  modelId : Option String

/-- What else `job_pricing` keeps. -/
structure PricingText where
  mode : Option String
  tooVague : Option String
  generatedAt : Option ℕ

/-- `Priced`: what a claim reads of the job's pricing. -/
structure Priced where
  mode : Option String
  rows : List (String × ℕ)
  changedAt : Option ℕ

/-- What `claim` reads of the proposal it takes. -/
structure DraftInput where
  questions : Option String
  separateAnswers : Bool
  priced : Priced

/-- What a finished draft holds. -/
structure DraftResult where
  letter : String
  answers : List (String × String)
  findings : List (String × Json)
  schedule : Option Schedule
  seededQuestions : Option String

/-- How a drafting run ends. -/
inductive DraftOutcome where
  | drafted (result : DraftResult) (profileVersion : ℕ) (modelId : String) (ids : List Uuid)
  | deferred (kind : String)
  | failed (kind : String)

/-- How a pricing run ends. -/
inductive PriceOutcome where
  | priced (schedule : Schedule)
  | deferred (kind : String)
  | failed (kind : String)

/-- What the drafting tables read of an opportunity. -/
structure DraftedJob where
  presetId : Uuid
  stageId : String

/-- What the operations read of the proposal profile. -/
structure ProposalProfile where
  version : ℕ
  hasPricing : Bool

/-- The input of `leads.jobproposal.request`. -/
structure RequestInput where
  questions : Option String
  separateAnswers : Option Bool
  force : Bool

structure DraftingState where
  /-- The job-search capability counts and is on. -/
  jobsearch : Bool
  profile : Option ProposalProfile
  opportunities : Table Uuid DraftedJob
  proposals : Queue ProposalText
  /-- The sections of each proposal, in the order of their positions. -/
  sections : Table Uuid (List Section)
  pricing : Queue PricingText
  milestones : Table Uuid (List Stage)
  /-- The claims that running sweeps have not answered. -/
  drafting : Table ℕ (Claim DraftInput)
  running : Table ℕ (Claim Unit)
  /-- The instants at which queued sweeps are due. -/
  sweeps : List ℕ
  /-- The history of the proposals. -/
  log : QueueLog
  /-- The next pricing claim. -/
  priceClaims : ℕ

def jobsearchPresetId : Uuid := 0x019bf0b0000070008000000000000002

/-- `DRAFT_ATTEMPTS`. -/
def draftAttempts : ℕ := 3

/-- `USAGE_DEFER`. -/
def usageDefer : ℕ := seconds 900

/-- `CLAIM_LAPSED`. -/
def claimLapsed : String := "claim_lapsed"

/-- `TRIGGER_GRANULARITY_SECONDS`. -/
def triggerGranularity : ℕ := seconds 10

/-- The instant rounded up to the trigger granularity. -/
def sweepDue (due : ℕ) : ℕ :=
  (due + (triggerGranularity - 1)) / triggerGranularity * triggerGranularity

/-- `queue_sweep`: sweeps due at the same instant share one job. -/
def queueSweep (due : ℕ) (sweeps : List ℕ) : List ℕ :=
  if sweeps.contains (sweepDue due) then sweeps else sweepDue due :: sweeps

namespace DraftingState

/-- The job's milestones are being prepared. -/
def isPricing (s : DraftingState) (id : Uuid) : Bool :=
  (s.pricing.lookup id).any fun row => row.state = .queued || row.state = .held

/-- `_job`: the opportunity, when it is one of job search. -/
def job (s : DraftingState) (id : Uuid) : Except String DraftedJob :=
  match s.opportunities.lookup id with
  | none => .error "not_found"
  | some record =>
    if record.presetId ≠ jobsearchPresetId then .error "not_job_search" else .ok record

def sectionsOf (s : DraftingState) (id : Uuid) : List Section := (s.sections.lookup id).getD []

/-- `_edited`. -/
def isEdited (row : QueueRow ProposalText) (part : Section) : Bool :=
  part.libraryAnswerId.isSome || row.data.generatedAt.any (· < part.updatedAt)

/-- The row `request` writes. -/
def requestedRow (row : Option (QueueRow ProposalText)) (m : RequestInput) (now : ℕ) :
    QueueRow ProposalText where
  state := .queued
  attempts := 0
  retryAfter := none
  failureKind := none
  requestedAt := now
  updatedAt := now
  data :=
    { questions := match m.questions with
        | some text => strippedOrNone text
        | none => row.bind (·.data.questions)
      separateAnswers := m.separateAnswers.getD (row.elim false (·.data.separateAnswers))
      findings := row.bind (·.data.findings)
      generatedAt := row.bind (·.data.generatedAt)
      profileVersion := row.bind (·.data.profileVersion)
      modelId := row.bind (·.data.modelId) }

/-- A proposal that is being drafted and whose claim has not lapsed, or that is queued. -/
def isBusy (row : QueueRow ProposalText) : Bool := row.state = .queued || row.state = .held

/-- `request`: queue a draft and a sweep. -/
def request (s : DraftingState) (id : Uuid) (m : RequestInput) (now : ℕ) :
    Except String DraftingState :=
  if !s.jobsearch then .error "capability_disabled"
  else
    match s.job id with
    | .error kind => .error kind
    | .ok _ =>
      if s.profile.isNone then .error "profile_required"
      else
        let row := s.proposals.lookup id
        if row.any fun row => isBusy row && !(row.state = .held && row.hasLapsed now) then
          .error "draft_in_progress"
        else if row.any fun row => !m.force && (s.sectionsOf id).any (isEdited row) then
          .error "draft_edited"
        else
          .ok { s with
            proposals := s.proposals.insert id (requestedRow row m now)
            sweeps := queueSweep now s.sweeps
            log := .reset [id] :: s.log }

/-- The row `delete_draft` leaves. -/
def idleRow (now : ℕ) (row : QueueRow ProposalText) : QueueRow ProposalText :=
  { row with
    state := .idle
    attempts := 0
    retryAfter := none
    failureKind := none
    updatedAt := now
    data := { row.data with findings := none, generatedAt := none } }

/-- `delete_draft`: idle stops a queued draft and makes a running one's result stale. -/
def deleteDraft (s : DraftingState) (id : Uuid) (now : ℕ) : Except String DraftingState :=
  match s.job id with
  | .error kind => .error kind
  | .ok _ =>
    match s.proposals.lookup id with
    | none => .ok s
    | some row =>
      .ok { s with
        proposals := s.proposals.insert id (idleRow now row)
        sections := s.sections.erase id
        log := .reset [id] :: s.log }

/-- `_editable`. -/
def editable (s : DraftingState) (id : Uuid) : Except String Unit :=
  match s.job id with
  | .error kind => .error kind
  | .ok _ =>
    match s.proposals.lookup id with
    | none => .error "not_found"
    | some row =>
      if (s.sectionsOf id).isEmpty then .error "not_found"
      else if isBusy row then .error "draft_in_progress"
      else .ok ()

/-- Change the one section with this identifier. -/
def editSection (s : DraftingState) (id sectionId : Uuid) (f : Section → Section) : DraftingState :=
  { s with
    sections := s.sections.insert id
      ((s.sectionsOf id).map fun part => if part.id = sectionId then f part else part) }

/-- `set_section`. -/
def setSection (s : DraftingState) (id sectionId : Uuid) (body : String) (now : ℕ) :
    Except String DraftingState :=
  match s.editable id with
  | .error kind => .error kind
  | .ok () =>
    match (s.sectionsOf id).find? fun part => part.id = sectionId with
    | none => .error "not_found"
    | some part =>
      if part.body = body then .ok s
      else .ok (s.editSection id sectionId fun part => { part with body := body, updatedAt := now })

/-- `use_library`, with the library's answer to the section's question. -/
def useLibrary (s : DraftingState) (id sectionId : Uuid) (found : String → Option (Uuid × String))
    (now : ℕ) : Except String DraftingState :=
  match s.editable id with
  | .error kind => .error kind
  | .ok () =>
    match (s.sectionsOf id).find? fun part => part.id = sectionId with
    | none => .error "not_found"
    | some part =>
      match part.question.bind fun text => if text.isEmpty then none else found text with
      | none => .error "not_found"
      | some (answerId, text) =>
        .ok (s.editSection id sectionId fun part =>
          { part with body := text, libraryAnswerId := some answerId, updatedAt := now })

/-- `item.question or UNLABELLED`. -/
def labelled (question : String) : String := if question.isEmpty then "Answers" else question

/-- The answers of `update_draft`: they pair with the answer sections in order, surplus
sections go and further answers are added. -/
def pairAnswers (now : ℕ) : List Section → List (String × String) → List Uuid → List Section
  | part :: parts, (question, text) :: answers, ids =>
    (if part.question = some (labelled question) ∧ part.body = text then part
      else { part with question := some (labelled question), body := text, updatedAt := now }) ::
      pairAnswers now parts answers ids
  | [], (question, text) :: answers, sectionId :: ids =>
    ⟨sectionId, .answer, some (labelled question), text, none, now⟩ ::
      pairAnswers now [] answers ids
  | _, _, _ => []

/-- `update_draft`, on the parsed text. A text without a divider replaces only the letter. -/
def updateDraft (s : DraftingState) (id : Uuid) (letter : String)
    (answers : Option (List (String × String))) (ids : List Uuid) (now : ℕ) :
    Except String DraftingState :=
  match s.editable id with
  | .error kind => .error kind
  | .ok () =>
    let existing := s.sectionsOf id
    let covers := existing.filter fun part => part.kind = .coverLetter
    let parts := existing.filter fun part => part.kind = .answer
    if (covers.any fun part => part.body ≠ letter) && (pyStrip letter).isEmpty then
      .error "input_invalid"
    else
      let surplus := answers.any fun kept => kept.length < parts.length
      let cover := covers.map fun part =>
        if part.body ≠ letter ∨ surplus then { part with body := letter, updatedAt := now }
        else part
      let kept := match answers with
        | none => parts
        | some answers => pairAnswers now parts answers ids
      .ok { s with sections := s.sections.insert id (cover ++ kept) }

/-- `on_observation_deleted`: the proposals, the pricing and the schedules of the opportunities
that the erased observation was linked to go with it. -/
def eraseDerived (s : DraftingState) (ids : List Uuid) : DraftingState :=
  { s with
    proposals := s.proposals.deleteWhere fun k _ => ids.contains k
    sections := s.sections.deleteWhere fun k _ => ids.contains k
    pricing := s.pricing.deleteWhere fun k _ => ids.contains k
    milestones := s.milestones.deleteWhere fun k _ => ids.contains k
    log := .reset ids :: s.log }

/-- The rows a sweep may take: those of an opportunity, not locked by another transaction. -/
def takes (s : DraftingState) (skipped : Finset Uuid) (id : Uuid) : Bool :=
  !s.isPricing id && (s.opportunities.lookup id).isSome && !decide (id ∈ skipped)

/-- `read_priced`. -/
def readPriced (s : DraftingState) (id : Uuid) : Priced where
  mode := (s.pricing.lookup id).bind (·.data.mode)
  rows := ((s.milestones.lookup id).getD []).map fun stage => (stage.title, stage.amount)
  changedAt := (s.pricing.lookup id).map (·.updatedAt)

/-- What `claim` reads of the row it takes. -/
def draftInput (s : DraftingState) (id : Uuid) (row : QueueRow ProposalText) : DraftInput where
  questions := row.data.questions
  separateAnswers := row.data.separateAnswers
  priced := s.readPriced id

/-- The first statement of `claim`. -/
def failLapsed (s : DraftingState) (now : ℕ) : DraftingState :=
  { s with
    proposals := s.proposals.failLapsed draftAttempts claimLapsed now
    log := .lapsed (s.proposals.lapsing draftAttempts now) :: s.log }

/-- The rest of `claim`: hold the oldest claimable proposal. -/
def takeOldest (s : DraftingState) (skipped : Finset Uuid) (window now : ℕ) : DraftingState :=
  match s.proposals.oldest (s.takes skipped) now with
  | none => s
  | some (id, row) =>
    { s with
      proposals := s.proposals.insert id (row.hold now window)
      drafting := s.drafting.insert s.log.claims
        ((row.hold now window).claim id (s.draftInput id row))
      log := .claimed s.log.claims id :: s.log }

/-- `claim`. Rows that another transaction has locked are skipped. -/
def claim (s : DraftingState) (skipped : Finset Uuid) (window now : ℕ) : DraftingState :=
  (s.failLapsed now).takeOldest skipped window now

/-- `progress` and `renew`, before each stage and each model call. -/
def renew (s : DraftingState) (c : Claim DraftInput) (window now : ℕ) : DraftingState :=
  { s with proposals := s.proposals.renew c (now + window) }

/-- The pricing row that a schedule leaves. -/
def pricedRow (row : Option (QueueRow PricingText)) (schedule : Schedule) (now : ℕ) :
    QueueRow PricingText where
  state := .ready
  attempts := row.elim 0 (·.attempts)
  retryAfter := none
  failureKind := none
  requestedAt := row.elim now (·.requestedAt)
  updatedAt := now
  data :=
    { mode := if schedule.stages.isEmpty then row.bind (·.data.mode) else some "milestones"
      tooVague := schedule.tooVague
      generatedAt := some now }

/-- `write_schedule`. -/
def writeSchedule (s : DraftingState) (id : Uuid) (schedule : Schedule) (now : ℕ) :
    DraftingState :=
  { s with
    pricing := s.pricing.insert id (pricedRow (s.pricing.lookup id) schedule now)
    milestones := s.milestones.insert id schedule.stages }

/-- `_write_priced`: only while the pricing is as the draft found it and has no milestones. -/
def writePriced (s : DraftingState) (c : Claim DraftInput) (schedule : Schedule) (now : ℕ) :
    DraftingState × Bool :=
  if (s.pricing.lookup c.id).map (·.updatedAt) = c.read.priced.changedAt ∧
      ((s.milestones.lookup c.id).getD []).isEmpty then
    (s.writeSchedule c.id schedule now, true)
  else (s, false)

/-- The sections of a finished draft. -/
def draftSections (result : DraftResult) (now : ℕ) : List Uuid → List Section
  | [] => []
  | letterId :: ids =>
    ⟨letterId, .coverLetter, none, result.letter, none, now⟩ ::
      (ids.zip result.answers).map fun (sectionId, question, text) =>
        ⟨sectionId, .answer, some question, text, none, now⟩

/-- The row `record_draft` leaves. -/
def draftedRow (c : Claim DraftInput) (result : DraftResult) (stale : Bool) (profileVersion : ℕ)
    (modelId : String) (now : ℕ) (row : QueueRow ProposalText) : QueueRow ProposalText :=
  { row with
    state := .ready
    retryAfter := none
    failureKind := none
    updatedAt := now
    data :=
      { row.data with
        questions :=
          if result.seededQuestions.any (!·.isEmpty) &&
              (c.read.questions.bind strippedOrNone).isNone
          then result.seededQuestions else row.data.questions
        findings := some
          (if stale then
            (result.findings.filter fun item => item.1 ≠ "figures_stale") ++
              [("figures_stale", .bool true)]
          else result.findings)
        generatedAt := some now
        profileVersion := some profileVersion
        modelId := some modelId } }

/-- `record_draft`, on a claim that is still the row's. -/
def writeDraft (s : DraftingState) (c : Claim DraftInput) (result : DraftResult)
    (profileVersion : ℕ) (modelId : String) (ids : List Uuid) (now : ℕ) : DraftingState :=
  let (s', written) := match result.schedule with
    | none => (s, true)
    | some schedule => s.writePriced c schedule now
  { s' with
    sections := s.sections.insert c.id (draftSections result now ids)
    proposals := s.proposals.updateAll fun k row =>
      if k = c.id then draftedRow c result (!written) profileVersion modelId now row else row }

/-- `record_draft`, `record_wait` and `record_failure`, each on the claim of its sweep: nothing
is written when the row is no longer held by the claim. -/
def record (s : DraftingState) (n : ℕ) (c : Claim DraftInput) (outcome : DraftOutcome) (now : ℕ) :
    DraftingState :=
  let left := { s with drafting := s.drafting.erase n }
  if !s.proposals.isMine c then left
  else
    match outcome with
    | .drafted result profileVersion modelId ids =>
      { left.writeDraft c result profileVersion modelId ids now with
        log := .answered n c.id .finished :: s.log }
    | .deferred kind =>
      { left with
        proposals := s.proposals.giveBack c (now + usageDefer) now kind
        log := .answered n c.id .deferred :: s.log }
    | .failed kind =>
      { left with
        proposals := s.proposals.countFailure draftAttempts c (backoffFor c.attempts none) now kind
        log := .answered n c.id .failed :: s.log }

/-- `request` of the pricing operations. -/
def requestPricing (s : DraftingState) (id : Uuid) (now : ℕ) : Except String DraftingState :=
  if !s.jobsearch then .error "capability_disabled"
  else
    match s.job id with
    | .error kind => .error kind
    | .ok _ =>
      if !s.profile.any (·.hasPricing) then .error "pricing_not_set"
      else if s.isPricing id then .error "pricing_in_progress"
      else
        let row := s.pricing.lookup id
        .ok { s with
          pricing := s.pricing.insert id
            { state := .queued
              attempts := 0
              retryAfter := none
              failureKind := none
              requestedAt := now
              updatedAt := now
              data :=
                { mode := some "milestones"
                  tooVague := row.bind (·.data.tooVague)
                  generatedAt := row.bind (·.data.generatedAt) } }
          sweeps := queueSweep now s.sweeps }

/-- `claim` of the pricing sweep. -/
def claimPricing (s : DraftingState) (skipped : Finset Uuid) (window now : ℕ) : DraftingState :=
  let rows := s.pricing.failLapsed draftAttempts claimLapsed now
  let takes := fun id => (s.opportunities.lookup id).isSome && !decide (id ∈ skipped)
  match rows.oldest takes now with
  | none => { s with pricing := rows }
  | some (id, row) =>
    { s with
      pricing := rows.insert id (row.hold now window)
      running := s.running.insert s.priceClaims ((row.hold now window).claim id ())
      priceClaims := s.priceClaims + 1 }

/-- `record_schedule`, `record_wait` and `record_failure` of the pricing sweep. -/
def recordPricing (s : DraftingState) (n : ℕ) (c : Claim Unit) (outcome : PriceOutcome) (now : ℕ) :
    DraftingState :=
  let left := { s with running := s.running.erase n }
  if !s.pricing.isMine c then left
  else
    match outcome with
    | .priced schedule => left.writeSchedule c.id schedule now
    | .deferred kind =>
      { left with pricing := s.pricing.giveBack c (now + usageDefer) now kind }
    | .failed kind =>
      { left with
        pricing := s.pricing.countFailure draftAttempts c (backoffFor c.attempts none) now kind }

/-- `follow_up_at` of the drafting sweep. -/
def followUpAt (s : DraftingState) (now : ℕ) : Option ℕ :=
  s.proposals.followUpAt (fun id => !s.isPricing id) now

/-- `follow_up_at` of the pricing sweep. -/
def pricingFollowUpAt (s : DraftingState) (now : ℕ) : Option ℕ :=
  s.pricing.followUpAt (fun _ => true) now

/-- The earlier of the two follow-ups, as the end of a sweep takes it. -/
def nextSweep (s : DraftingState) (now : ℕ) : Option ℕ :=
  [s.followUpAt now, s.pricingFollowUpAt now].reduceOption.min?

/-- The end of a sweep: work that is left gets a sweep of its own. -/
def endSweep (s : DraftingState) (now : ℕ) : DraftingState :=
  match s.nextSweep now with
  | none => s
  | some due => { s with sweeps := queueSweep (max due now) s.sweeps }

end DraftingState

inductive DraftingAction where
  | configure (jobsearch : Bool) (profile : Option ProposalProfile)
  | create (id : Uuid) (record : DraftedJob)
  | archive (id : Uuid) (stageId : String)
  | request (id : Uuid) (m : RequestInput) (now : ℕ)
  | deleteDraft (id : Uuid) (now : ℕ)
  | setSection (id sectionId : Uuid) (body : String) (now : ℕ)
  | useLibrary (id sectionId : Uuid) (found : String → Option (Uuid × String)) (now : ℕ)
  | updateDraft (id : Uuid) (letter : String) (answers : Option (List (String × String)))
      (ids : List Uuid) (now : ℕ)
  | eraseDerived (ids : List Uuid)
  | claim (skipped : Finset Uuid) (window now : ℕ)
  | renew (n window now : ℕ)
  | record (n : ℕ) (outcome : DraftOutcome) (now : ℕ)
  /-- The worker of a claim dies. -/
  | crash (n : ℕ)
  | requestPricing (id : Uuid) (now : ℕ)
  | claimPricing (skipped : Finset Uuid) (window now : ℕ)
  | renewPricing (n window now : ℕ)
  | recordPricing (n : ℕ) (outcome : PriceOutcome) (now : ℕ)
  | crashPricing (n : ℕ)
  | startSweep (due : ℕ)
  | endSweep (now : ℕ)

/-- One transaction, or one worker's death. A refused operation is no step. -/
def DraftingState.step (s : DraftingState) : DraftingAction → Option DraftingState
  | .configure jobsearch profile => some { s with jobsearch := jobsearch, profile := profile }
  | .create id record =>
    if (s.opportunities.lookup id).isSome then none
    else some { s with opportunities := s.opportunities.insert id record }
  | .archive id stageId =>
    (s.opportunities.lookup id).map fun record =>
      { s with opportunities := s.opportunities.insert id { record with stageId := stageId } }
  | .request id m now => (s.request id m now).toOption
  | .deleteDraft id now => (s.deleteDraft id now).toOption
  | .setSection id sectionId body now => (s.setSection id sectionId body now).toOption
  | .useLibrary id sectionId found now => (s.useLibrary id sectionId found now).toOption
  | .updateDraft id letter answers ids now => (s.updateDraft id letter answers ids now).toOption
  | .eraseDerived ids => some (s.eraseDerived ids)
  | .claim skipped window now => some (s.claim skipped window now)
  | .renew n window now => (s.drafting.lookup n).map fun c => s.renew c window now
  | .record n outcome now => (s.drafting.lookup n).map fun c => s.record n c outcome now
  | .crash n => some { s with drafting := s.drafting.erase n }
  | .requestPricing id now => (s.requestPricing id now).toOption
  | .claimPricing skipped window now => some (s.claimPricing skipped window now)
  | .renewPricing n window now =>
    (s.running.lookup n).map fun c => { s with pricing := s.pricing.renew c (now + window) }
  | .recordPricing n outcome now =>
    (s.running.lookup n).map fun c => s.recordPricing n c outcome now
  | .crashPricing n => some { s with running := s.running.erase n }
  | .startSweep due =>
    if s.sweeps.contains due then some { s with sweeps := s.sweeps.erase due } else none
  | .endSweep now => some (s.endSweep now)

/-- A workspace in which nothing was proposed yet. -/
def DraftingState.IsEmpty (s : DraftingState) : Prop :=
  s.proposals = ∅ ∧ s.sections = ∅ ∧ s.pricing = ∅ ∧ s.milestones = ∅ ∧ s.drafting = ∅ ∧
    s.running = ∅ ∧ s.sweeps = [] ∧ s.log = []

/-- The drafting tables under any number of sweeps. -/
def proposals : Machine DraftingState DraftingAction where
  init := DraftingState.IsEmpty
  step := DraftingState.step

end Rheostream.Leads
