import Rheostream.Relationships.RejectedPairs

/-!
# The second call

Every call keeps rejected pairs barred, and a second call with the same evidence creates nothing
exactly where it finds the organization that the first has made.
-/

namespace Rheostream.Relationships

open Handler

variable {m : Matching} {s t u : PartyState} {party : Uuid} {input : ResolveInput}
  {isService : Bool} {act : CallContext × PartyCall}

/-! ### Runs -/

theorem follow_resolveOrCreate (hs : s.Valid) (hnames : NamesLive m) :
    CandidatesFollow s ((resolveOrCreate m isService input).dispatch s).2 := by
  rcases hdispatch : (resolveOrCreate m isService input).dispatch s with ⟨_ | ⟨own, _, refs⟩, t⟩
  · rw [dispatch_error hdispatch]
    exact (advances_of_eq rfl).follow
  · exact (follow_resolveCleaned hs hnames (dispatch_eq_ok.mp hdispatch)).1

theorem follow_erase {ctx : CallContext} {id : Uuid} {revision : ℕ} :
    CandidatesFollow s ((deleteOwned ctx id revision).dispatch s).2 := by
  rcases hdispatch : (deleteOwned ctx id revision).dispatch s with ⟨_ | removed, t⟩
  · rw [dispatch_error hdispatch]
    exact (advances_of_eq rfl).follow
  · exact follow_deleteOwned (dispatch_eq_ok.mp hdispatch)

theorem follow_of_step (hnames : NamesLive m) (hs : s.Valid)
    (hstep : (partyMachine m).step s act = some t) : CandidatesFollow s t := by
  obtain ⟨ctx, call⟩ := act
  obtain ⟨-, hrun⟩ := Option.ite_none_right_eq_some.mp hstep
  obtain rfl := Option.some.inj hrun
  have hadvances {α : Type} {h : PartyHandler α} (hwithin : Within Advances h) :
      CandidatesFollow s (h.dispatch s).2 := (Advances.of_within (hwithin.dispatch s)).follow
  cases call with
  | create kind name points => exact hadvances advances_partyCreate
  | update id revision name => exact hadvances advances_partyUpdate
  | addContact party revision kind value => exact hadvances advances_contactAdd
  | changeContact party revision contact retire => exact hadvances advances_contactChange
  | addAffiliation person organization revision validFrom validTo =>
    exact hadvances advances_affiliationAdd
  | endAffiliation person revision affiliation validTo => exact hadvances advances_affiliationEnd
  | resolve isService input => exact follow_resolveOrCreate hs hnames
  | merge data => exact hadvances advances_merge
  | unmerge record note rows => exact hadvances advances_unmerge
  | review data => exact hadvances advances_resolveReview
  | erase party revision => exact follow_erase

theorem PartyState.Valid.step (hs : s.Valid) (hnames : NamesLive m)
    (hstep : (partyMachine m).step s act = some t) : t.Valid := by
  have hwrites := writes_of_step hs.sound hstep
  exact (follow_of_step hnames hs hstep).valid hs (hs.sound.of_writes hwrites)
    (NoneReturns.of_writes hwrites).nextId

theorem valid_of_reachable (hnames : NamesLive m) (hs : (partyMachine m).Reachable s) :
    s.Valid := by
  have hinvariant : (partyMachine m).IsInvariant PartyState.Valid := by
    constructor
    case init =>
      rintro s rfl
      have hnone (id : Uuid) : emptyState.candidates.lookup id = none := rfl
      exact ⟨sound_empty, by simp [PartyState.FreshCandidates, hnone], by simp [hnone]⟩
    case step => exact fun s act t hs hstep => hs.step hnames hstep
  exact hinvariant.of_reachable hs

/-- A pair that is barred stays barred on every run. -/
theorem barred_of_reaches {c : CandidateRow} (hnames : NamesLive m)
    (hs : (partyMachine m).Reachable s) (hrun : (partyMachine m).Reaches s t) (hc : s.Barred c) :
    t.Barred c := by
  refine hs.stable (P := fun t => t.Barred c) ?_ hc hrun
  intro r act u hr hbarred hstep
  have hvalid := valid_of_reachable hnames hr
  exact (follow_of_step hnames hvalid hstep).barred hvalid
    (NoneReturns.of_writes (writes_of_step hvalid.sound hstep)) hbarred

theorem PartyState.Barred.congr {c d : CandidateRow} (h : c.Same d) (hd : s.Barred d) :
    s.Barred c := by
  obtain ⟨id, row, hrow, hsame, hstate⟩ | hgone := hd
  · exact .inl ⟨id, row, hrow, ⟨hsame.1.trans h.1.symm, hsame.2.1.trans h.2.1.symm,
      hsame.2.2.trans h.2.2.symm⟩, hstate⟩
  · right
    rw [h.1, h.2.1]
    exact hgone

/-! ### Creating nothing -/

/-- Every party, contact point, affiliation and candidate was there before. -/
structure CreatesNothing (s t : PartyState) : Prop where
  parties : ∀ id, s.parties.lookup id = none → t.parties.lookup id = none
  contacts : ∀ id, s.contacts.lookup id = none → t.contacts.lookup id = none
  affiliations : ∀ id, s.affiliations.lookup id = none → t.affiliations.lookup id = none
  candidates : ∀ id, s.candidates.lookup id = none → t.candidates.lookup id = none

theorem CreatesNothing.refl (s : PartyState) : CreatesNothing s s :=
  ⟨fun _ h => h, fun _ h => h, fun _ h => h, fun _ h => h⟩

/-- The organizations that are found are those of the state. -/
theorem Resolved.found {data : ResolveInput} {r : PartyState} (h : Resolved m s party data r) :
    OrganizationFound m r data.hints ↔ OrganizationFound m s data.hints := by
  have hname (key : String) (id : Uuid) : r.HasName m key id ↔ s.HasName m key id := by
    simp only [PartyState.HasName, h.organizations]
  simp only [OrganizationFound, hname]

variable {refs : List Uuid} {outcome : String}

/-- What a second call answers after a first. -/
theorem second_iff (hs : s.Valid)
    (hverified : input.externalSubjectId.isSome = true ∨ input.verifiedEmail.isSome = true)
    (h : (resolveOrCreate m isService input).Answers s (party, outcome, refs) t) :
    ∃ r, Resolved m s party { input with hints := cleanHints m input.hints } r ∧
      r.FreshCandidates ∧ CandidatesKeep r t ∧
      (candidates m party { input with hints := cleanHints m input.hints }).Answers r refs t ∧
      ∀ own outcome' refs' u,
        (resolveOrCreate m isService input).Answers t (own, outcome', refs') u ↔ own = party ∧
          outcome' = (if input.externalSubjectId.isSome then "linked_subject" else "linked_email") ∧
          (candidates m party { input with hints := cleanHints m input.hints }).Answers t
            refs' u := by
  obtain ⟨hservice, hevidence, r, hresolved, hcandidates⟩ := resolved_of_answers hs.sound h
  have hfresh : r.FreshCandidates := by
    intro id row hrow
    rw [hresolved.candidates] at hrow
    exact (hs.fresh id row hrow).trans_le hresolved.returns.nextId
  have hkeep := candidatesKeep_of_answers hresolved.sound hfresh hcandidates
  have hholds : ∀ new ∈ evidenceContacts { input with hints := cleanHints m input.hints },
      t.Holds m party new :=
    fun new hnew => (hresolved.holds new hnew).kept hkeep.contacts
  exact ⟨r, hresolved, hfresh, hkeep, hcandidates, fun own outcome' refs' u =>
    resolveCleaned_again hkeep.sound hservice hevidence hverified
      (hkeep.live _ _ hresolved.live) hholds⟩

/-- Where the organization is found, a second call answers the party and leaves every row. -/
theorem again_of_found (hs : s.Valid) (hnames : NamesOnly m)
    (hverified : input.externalSubjectId.isSome = true ∨ input.verifiedEmail.isSome = true)
    (h : (resolveOrCreate m isService input).Answers s (party, outcome, refs) t)
    (hfound : OrganizationFound m s (cleanHints m input.hints)) :
    ∃ outcome' refs', (resolveOrCreate m isService input).Answers t (party, outcome', refs') t := by
  obtain ⟨r, hresolved, hfresh, -, hcandidates, hsecond⟩ := second_iff hs hverified h
  have hagain : ∃ refs', (candidates m party
      { input with hints := cleanHints m input.hints }).Answers t refs' t := by
    obtain ⟨email, phone, domain, r', hemail, hphone, hdomain, hpropose, horganization⟩ :=
      answers_candidates.mp hcandidates
    cases hname : newOrganization m r { input with hints := cleanHints m input.hints } domain with
    | none =>
      rw [hname] at horganization
      obtain ⟨-, rfl⟩ := answers_pure.mp horganization
      exact candidates_again_of_none hnames hfresh hemail hphone hdomain hpropose hname
    | some name =>
      rw [hname] at horganization
      exact candidates_again_of_made hresolved.sound hnames hfresh hemail hphone hdomain hpropose
        hname (organizationMade_of_answers horganization) (hresolved.found.mpr hfound)
  obtain ⟨refs', hagain⟩ := hagain
  exact ⟨_, refs', (hsecond _ _ _ _).mpr ⟨rfl, rfl, hagain⟩⟩

/-- Where it is not, a second call that is answered makes another organization. -/
theorem found_of_again {outcome' : String} {refs' : List Uuid} (hs : s.Valid)
    (hverified : input.externalSubjectId.isSome = true ∨ input.verifiedEmail.isSome = true)
    (h : (resolveOrCreate m isService input).Answers s (party, outcome, refs) t)
    (hagain : (resolveOrCreate m isService input).Answers t (party, outcome', refs') u)
    (hnothing : CreatesNothing t u) : OrganizationFound m s (cleanHints m input.hints) := by
  by_contra hlost
  obtain ⟨r, hresolved, hfresh, hkeep, hcandidates, hsecond⟩ := second_iff hs hverified h
  obtain ⟨-, -, hagain⟩ := (hsecond _ _ _ _).mp hagain
  obtain ⟨id, hnone, hnew⟩ := candidates_again_of_lost hkeep.sound hfresh
    hkeep.fresh (mt hresolved.found.mp hlost) hcandidates hagain
  exact hnew (hnothing.parties id hnone)

/-! ### The queries -/

section Queries

variable {rules : TextRules} {settings : MatchSettings}

theorem namesOnly_matching : NamesOnly (rules.matching settings) := by
  intro s t h
  funext key party
  exact similarNames_congr h key party

theorem namesLive_matching : NamesLive (rules.matching settings) := by
  intro s key party id hid
  have hmem := (sortedBy_perm _ _).mem_iff.mp
    ((sortedBy_perm _ _).mem_iff.mp (List.mem_of_mem_take hid))
  obtain ⟨row, -, hrow⟩ := Table.mem_keys_select.mp hmem
  rw [Bool.and_eq_true, Bool.and_eq_true] at hrow
  exact hrow.1.1

/-- After an answered call, the same call answers the same party and creates no row exactly where
the hints name no organization, or name its domain, or have a name that the database has or finds
again. No call proposes a pair again that was rejected for the hint, and a refused call leaves every
row. -/
theorem resolve_again (hs : (partyMachine (rules.matching settings)).Reachable s) :
    (∀ isService input party outcome refs t,
      input.externalSubjectId.isSome = true ∨ input.verifiedEmail.isSome = true →
      (resolveOrCreate (rules.matching settings) isService input).Answers s
        (party, outcome, refs) t →
        ((∃ outcome' refs' u, (resolveOrCreate (rules.matching settings) isService input).Answers t
          (party, outcome', refs') u ∧ CreatesNothing t u) ↔
            OrganizationFound (rules.matching settings) s
              (cleanHints (rules.matching settings) input.hints))) ∧
    (∀ id row, s.candidates.lookup id = some row → row.state = .rejected →
      ∀ t, (partyMachine (rules.matching settings)).Reaches s t →
      ∀ isService input party outcome refs u,
      (resolveOrCreate (rules.matching settings) isService input).Answers t
        (party, outcome, refs) u →
        (∀ id' ∈ refs, ∀ row', u.candidates.lookup id' = some row' → ¬ row'.Same row) ∧
          ∀ id' row', u.candidates.lookup id' = some row' → t.candidates.lookup id' = none →
            ¬ row'.Same row) ∧
    ∀ isService input refusal t,
      (resolveOrCreate (rules.matching settings) isService input).dispatch s = (.error refusal, t) →
        t = s := by
  have hvalid := valid_of_reachable namesLive_matching hs
  refine ⟨?again, ?rejected, ?refused⟩
  case again =>
    intro isService input party outcome refs t hverified h
    constructor
    · rintro ⟨outcome', refs', u, hagain, hnothing⟩
      exact found_of_again hvalid hverified h hagain hnothing
    · intro hfound
      obtain ⟨outcome', refs', hagain⟩ :=
        again_of_found hvalid namesOnly_matching hverified h hfound
      exact ⟨outcome', refs', t, hagain, .refl t⟩
  case rejected =>
    intro id row hrow hstate t hrun isService input party outcome refs u h
    have hbarred : t.Barred row :=
      barred_of_reaches namesLive_matching hs hrun (.inl ⟨id, row, hrow, .refl row, hstate⟩)
    have ht := valid_of_reachable namesLive_matching (hs.reaches hrun)
    obtain ⟨hfollow, hrefs⟩ := follow_resolveCleaned ht namesLive_matching h
    constructor
    · intro id' hid' row' hrow' hsame
      obtain ⟨found, hfound, hnot⟩ := hrefs id' hid'
      obtain rfl := Option.some.inj (hrow'.symm.trans hfound)
      exact hnot (.congr hsame hbarred)
    · intro id' row' hrow' hnone hsame
      exact (hfollow.added id' row' hrow' hnone).2.2.2 (.congr hsame hbarred)
  case refused =>
    intro isService input refusal t hrefused
    exact dispatch_error hrefused

end Queries

/-! ### A name with two normal forms -/

/-- Rules that fold a sharp s as Python does and keep it as the database does. -/
def sharpRules : TextRules where
  casefold c := if c = 'ß' then ['s', 's'] else [c.toLower]
  hostname text := some text
  lower text := String.ofList (text.toList.map Char.toLower)
  isSqlSpace c := c = ' '
  similarity a b := if a = b then 1 else 0

def sharpMatching : Matching := sharpRules.matching ⟨60, 10⟩

/-- A person of a domain, at an organization of the name. -/
def namedInput (name : String) : ResolveInput :=
  ⟨"mail", some "7", none, ⟨none, none, none, some name, none⟩, .ref ⟨"events", "event", 1⟩, 5⟩

theorem reachable_empty : (partyMachine m).Reachable emptyState := ⟨emptyState, rfl, .refl _⟩

/-- The first call of the evidence. -/
def firstCall (name : String) : Except String (Uuid × String × List Uuid) × PartyState :=
  (resolveOrCreate sharpMatching true (namedInput name)).dispatch emptyState

/-- A second call makes a second organization of the name. -/
theorem sharp_name_again : ∃ t,
    (resolveOrCreate sharpMatching true (namedInput "Straße")).Answers emptyState
      (0, "created", []) t ∧
      ¬ ∃ outcome refs u, (resolveOrCreate sharpMatching true (namedInput "Straße")).Answers t
        (0, outcome, refs) u ∧ CreatesNothing t u := by
  have hok : (firstCall "Straße").1 = .ok (0, "created", []) := by decide +kernel
  have hfirst : (resolveOrCreate sharpMatching true (namedInput "Straße")).Answers emptyState
      (0, "created", []) (firstCall "Straße").2 := dispatch_eq_ok.mp (Prod.ext hok rfl)
  refine ⟨(firstCall "Straße").2, hfirst, ?_⟩
  rintro ⟨outcome, refs, u, hagain, hnothing⟩
  have hempty : emptyState.Valid :=
    valid_of_reachable (m := sharpMatching) namesLive_matching reachable_empty
  have hfound := found_of_again hempty (.inl rfl) hfirst hagain hnothing
  have hname : (cleanHints sharpMatching (namedInput "Straße").hints).organizationName =
      some "Straße" := by decide +kernel
  obtain ⟨id, name, hprofile, -⟩ | hkeys := hfound "Straße" hname rfl
  · have hnone : emptyState.profile id = none := rfl
    rw [hnone] at hprofile
    cases hprofile
  · have hne : sharpMatching.displayKey "Straße" ≠ sharpMatching.normalizeName "Straße" := by
      decide +kernel
    exact hne hkeys

/-- A name in one normal form is found again. -/
theorem resolve_again_plain : ∃ t,
    (resolveOrCreate sharpMatching true (namedInput "Acme")).Answers emptyState
      (0, "created", []) t ∧
      ∃ outcome refs u, (resolveOrCreate sharpMatching true (namedInput "Acme")).Answers t
        (0, outcome, refs) u ∧ CreatesNothing t u := by
  have hok : (firstCall "Acme").1 = .ok (0, "created", []) := by decide +kernel
  have hfirst : (resolveOrCreate sharpMatching true (namedInput "Acme")).Answers emptyState
      (0, "created", []) (firstCall "Acme").2 := dispatch_eq_ok.mp (Prod.ext hok rfl)
  refine ⟨(firstCall "Acme").2, hfirst, ?_⟩
  refine ((resolve_again reachable_empty).1 true (namedInput "Acme") 0 "created" [] _ (.inl rfl)
    hfirst).mpr ?_
  intro name hname _
  have hclean : (cleanHints sharpMatching (namedInput "Acme").hints).organizationName =
      some "Acme" := by decide +kernel
  obtain rfl := Option.some.inj (hname.symm.trans hclean)
  right
  decide +kernel

end Rheostream.Relationships
