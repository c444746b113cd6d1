import Rheostream.Relationships.Candidates

/-!
# Resolving twice

A party that is resolved owns every contact point that its evidence has, so a second call with the
same evidence finds the party by its verified identity and has nothing to add.
-/

namespace Rheostream.Relationships

open Handler

variable {m : Matching} {s t r u : PartyState} {party id : Uuid} {data : ResolveInput}

section Answers

variable {α β : Type} {h : PartyHandler α} {f : α → PartyHandler β} {a b : α} {c : β}

/-- A handler answers once. -/
theorem answers_unique (hfirst : h.Answers s a t) (hagain : h.Answers s b u) : a = b ∧ t = u := by
  obtain ⟨ha, ht⟩ := Prod.mk.inj (hfirst.symm.trans hagain)
  exact ⟨Except.ok.inj ha, ht⟩

/-- What follows a call runs at what the call leaves. -/
theorem answers_bind_of (hfirst : h.Answers s a r) :
    (h >>= f).Answers s c t ↔ (f a).Answers r c t := by
  rw [answers_bind]
  constructor
  · rintro ⟨b, r', hagain, hrest⟩
    obtain ⟨rfl, rfl⟩ := answers_unique hfirst hagain
    exact hrest
  · exact fun hrest => ⟨a, r, hfirst, hrest⟩

end Answers

/-! ### Verified identities -/

/-- The verification of a verified identity. -/
def verificationOf (kind : ContactKind) : Verification :=
  if kind = .externalSubject then .authenticated else .sourceVerified

/-- A contact point that is not retired has the verified identity. -/
def PartyState.Identifies (s : PartyState) (source : String) (kind : ContactKind) (form : String)
    (c : Uuid) (row : ContactRow) : Prop :=
  s.contacts.lookup c = some row ∧ row.sourceNamespace = some source ∧ row.kind = kind ∧
    row.verification = verificationOf kind ∧ row.normalizedValue = form ∧ row.retiredAt = none

variable {kind : ContactKind} {row : ContactRow} {source form : String}

theorem PartyState.Identifies.identity {c : Uuid} (h : s.Identifies source kind form c row) :
    row.identity = some (kind, source, form) := by
  obtain ⟨-, hsource, hkind, hverification, hform, hretired⟩ := h
  have hverified : row.verification = .sourceVerified ∨ row.verification = .authenticated := by
    rw [hverification, verificationOf]
    split
    · exact .inr rfl
    · exact .inl rfl
  rw [ContactRow.identity, if_pos ⟨hverified, hretired⟩, hsource, hkind, hform, Option.map_some]

/-- The row that the query of `identity` finds. -/
def PartyState.identified (s : PartyState) (source : String) (kind : ContactKind) (form : String) :
    Option (Uuid × ContactRow) :=
  s.contacts.findRow fun _ row =>
    row.sourceNamespace = some source && row.kind = kind &&
      row.verification = verificationOf kind && row.normalizedValue = form && row.retiredAt = none

theorem identifies_of_identified {c : Uuid} (h : s.identified source kind form = some (c, row)) :
    s.Identifies source kind form c row := by
  obtain ⟨hrow, hmatches⟩ := Table.findRow_eq_some h
  simp only [Bool.and_eq_true, decide_eq_true_eq] at hmatches
  obtain ⟨⟨⟨⟨hsource, hkind⟩, hverification⟩, hform⟩, hretired⟩ := hmatches
  exact ⟨hrow, hsource, hkind, hverification, hform, hretired⟩

theorem not_identifies {c : Uuid} (h : s.identified source kind form = none) :
    ¬ s.Identifies source kind form c row := by
  rintro ⟨hrow, hsource, hkind, hverification, hform, hretired⟩
  have hno := Table.findRow_eq_none h hrow
  simp [hsource, hkind, hverification, hform, hretired] at hno

/-- The index keeps verified identities apart. -/
theorem PartyState.Identifies.identified (hs : Sound s) {c : Uuid}
    (h : s.Identifies source kind form c row) : s.identified source kind form = some (c, row) := by
  cases hfound : s.identified source kind form with
  | none => exact absurd h (not_identifies hfound)
  | some found =>
    obtain ⟨c', row'⟩ := found
    have h' := identifies_of_identified hfound
    obtain rfl := hs.contacts.identities c c' row row' _ h.1 h'.1 h.identity h'.identity
    obtain rfl := Option.some.inj (h.1.symm.trans h'.1)
    rfl

theorem identity_eq {value : String} :
    identity m source kind value = normalized m kind value >>= fun form => get >>= fun s =>
      match s.identified source kind form with
      | some (_, row) => canonical row.partyId >>= fun survivor => pure (some survivor.1)
      | none => pure none :=
  rfl

theorem canonical_answers {row : PartyRow} (hrow : s.parties.lookup id = some row)
    (hlive : row.mergedIntoId = none) : (canonical id).Answers s (id, row) s := by
  rw [canonical, answers_bind_getRow]
  refine ⟨row, hrow, ?_⟩
  rw [hlive]
  exact answers_pure.mpr ⟨rfl, rfl⟩

/-- What `canonical` answers is live. -/
theorem live_of_canonical {survivor : Uuid} {row : PartyRow}
    (h : (canonical id).Answers s (survivor, row) t) :
    t = s ∧ s.parties.lookup survivor = some row ∧ row.mergedIntoId = none := by
  rw [canonical, answers_bind_getRow] at h
  obtain ⟨own, hown, h⟩ := h
  cases hinto : own.mergedIntoId with
  | none =>
    rw [hinto] at h
    obtain ⟨heq, rfl⟩ := answers_pure.mp h
    obtain ⟨rfl, rfl⟩ := Prod.mk.inj heq
    exact ⟨rfl, hown, hinto⟩
  | some into =>
    rw [hinto] at h
    dsimp only at h
    rw [answers_bind_getLive] at h
    obtain ⟨found, hfound, hlive, h⟩ := h
    obtain ⟨heq, rfl⟩ := answers_pure.mp h
    obtain ⟨rfl, rfl⟩ := Prod.mk.inj heq
    exact ⟨rfl, hfound, hlive⟩

/-- An identity is that of a live party. -/
theorem identityOf_spec {value : Option String} {known : Option Uuid}
    (h : (identityOf m source kind value).Answers s known t) :
    t = s ∧ ∀ id ∈ known, ∃ row, s.parties.lookup id = some row ∧ row.mergedIntoId = none := by
  cases value with
  | none =>
    obtain ⟨rfl, rfl⟩ := answers_pure.mp h
    exact ⟨rfl, fun _ hid => by cases hid⟩
  | some value =>
    rw [identityOf, identity_eq, normalized, answers_bind_found] at h
    obtain ⟨form, -, h⟩ := h
    rw [answers_bind_get] at h
    split at h
    · rw [answers_bind] at h
      obtain ⟨⟨survivor, row⟩, r, hcanonical, h⟩ := h
      obtain ⟨rfl, hrow, hlive⟩ := live_of_canonical hcanonical
      obtain ⟨rfl, rfl⟩ := answers_pure.mp h
      refine ⟨rfl, fun id hid => ?_⟩
      obtain rfl := Option.some.inj hid
      exact ⟨row, hrow, hlive⟩
    · obtain ⟨rfl, rfl⟩ := answers_pure.mp h
      exact ⟨rfl, fun _ hid => by cases hid⟩

/-- The party that owns the identity is found by it. -/
theorem identityOf_answers (hs : Sound s) {value : String} {c : Uuid} {owner : PartyRow}
    (hform : m.normalize kind value = some form) (h : s.Identifies source kind form c row)
    (howner : s.parties.lookup row.partyId = some owner) (hlive : owner.mergedIntoId = none) :
    (identityOf m source kind (some value)).Answers s (some row.partyId) s := by
  rw [identityOf, identity_eq, normalized, answers_bind_found]
  refine ⟨form, hform, ?_⟩
  rw [answers_bind_get, h.identified hs]
  exact (answers_bind_of (canonical_answers howner hlive)).mpr (answers_pure.mpr ⟨rfl, rfl⟩)

/-! ### Contact points of the evidence -/

/-- The party owns the contact point, and it is not retired. -/
def PartyState.Holds (m : Matching) (s : PartyState) (party : Uuid) (new : NewContact) : Prop :=
  ∃ form c row, m.normalize new.kind new.value = some form ∧ s.contacts.lookup c = some row ∧
    row.partyId = party ∧ row.kind = new.kind ∧ row.normalizedValue = form ∧
    row.verification = new.verification ∧ row.sourceNamespace = new.sourceNamespace ∧
    row.retiredAt = none

/-- Contact points were added, and nothing else. -/
structure AddsContacts (s t : PartyState) : Prop where
  parties : t.parties = s.parties
  affiliations : t.affiliations = s.affiliations
  candidates : t.candidates = s.candidates
  nextId : s.nextId ≤ t.nextId
  kept : ∀ c row, s.contacts.lookup c = some row → t.contacts.lookup c = some row

theorem AddsContacts.refl (s : PartyState) : AddsContacts s s :=
  ⟨rfl, rfl, rfl, le_rfl, fun _ _ h => h⟩

theorem AddsContacts.trans (hfirst : AddsContacts s t) (hrest : AddsContacts t u) :
    AddsContacts s u where
  parties := hrest.parties.trans hfirst.parties
  affiliations := hrest.affiliations.trans hfirst.affiliations
  candidates := hrest.candidates.trans hfirst.candidates
  nextId := hfirst.nextId.trans hrest.nextId
  kept c row h := hrest.kept c row (hfirst.kept c row h)

variable {new : NewContact}

theorem PartyState.Holds.kept (h : s.Holds m party new)
    (hkept : ∀ c row, s.contacts.lookup c = some row → t.contacts.lookup c = some row) :
    t.Holds m party new := by
  obtain ⟨form, c, row, hform, hrow, hrest⟩ := h
  exact ⟨form, c, row, hform, hkept c row hrow, hrest⟩

theorem addsContacts_of_addContact {c : Uuid} (hs : Sound s)
    (h : (addContact m party new).Answers s c t) : AddsContacts s t ∧ t.Holds m party new := by
  obtain ⟨form, hform, -, -, rfl⟩ := answers_addContact h
  constructor
  · refine ⟨rfl, rfl, rfl, Nat.le_succ _, fun c row hrow => ?_⟩
    rw [Table.lookup_insert, if_neg (hs.contacts.fresh c row hrow).ne]
    exact hrow
  · refine ⟨form, s.nextId, new.row party form, hform, ?_, rfl, rfl, rfl, rfl, rfl, rfl⟩
    rw [Table.lookup_insert, if_pos rfl]

/-- The query of `resolve_or_create` for a contact point of the party. -/
def PartyState.owned (s : PartyState) (party : Uuid) (new : NewContact) (form : String) : Bool :=
  s.contacts.existsRow fun _ row =>
    row.partyId = party && row.kind = new.kind && row.normalizedValue = form &&
      row.verification = new.verification && row.sourceNamespace = new.sourceNamespace &&
      row.retiredAt = none

theorem owned_iff (hform : m.normalize new.kind new.value = some form) :
    s.owned party new form = true ↔ s.Holds m party new := by
  rw [PartyState.owned, Table.existsRow_iff]
  simp only [Bool.and_eq_true, decide_eq_true_eq, and_assoc]
  constructor
  · rintro ⟨c, row, hrow, hrest⟩
    exact ⟨form, c, row, hform, hrow, hrest⟩
  · rintro ⟨form', c, row, hform', hrow, hrest⟩
    obtain rfl := Option.some.inj (hform.symm.trans hform')
    exact ⟨c, row, hrow, hrest⟩

theorem addMissing_cons {rest : List NewContact} :
    addMissing m party (new :: rest) =
      normalized m new.kind new.value >>= fun form => get >>= fun s =>
        if s.owned party new form then addMissing m party rest
        else addContact m party new >>= fun _ => addMissing m party rest >>= fun _ => pure true :=
  rfl

theorem addsContacts_of_addMissing {news : List NewContact} {changed : Bool} (hs : Sound s)
    (h : (addMissing m party news).Answers s changed t) :
    AddsContacts s t ∧ ∀ new ∈ news, t.Holds m party new := by
  induction news generalizing s changed with
  | nil =>
    obtain ⟨-, rfl⟩ := answers_pure.mp h
    exact ⟨.refl _, fun _ hnew => by cases hnew⟩
  | cons new rest ih =>
    rw [addMissing_cons, normalized, answers_bind_found] at h
    obtain ⟨form, hform, h⟩ := h
    rw [answers_bind_get] at h
    by_cases howned : s.owned party new form = true
    · rw [if_pos howned] at h
      obtain ⟨hadds, hrest⟩ := ih hs h
      refine ⟨hadds, fun other hother => ?_⟩
      obtain rfl | hother := List.mem_cons.mp hother
      · exact ((owned_iff hform).mp howned).kept hadds.kept
      · exact hrest other hother
    · rw [if_neg howned, answers_bind] at h
      obtain ⟨c, r, hcontact, h⟩ := h
      rw [answers_bind] at h
      obtain ⟨others, r', hothers, h⟩ := h
      obtain ⟨-, rfl⟩ := answers_pure.mp h
      obtain ⟨hone, hnew⟩ := addsContacts_of_addContact hs hcontact
      have hr : Sound r := hs.of_writes (within_addContact s c r hcontact)
      obtain ⟨hadds, hrest⟩ := ih hr hothers
      refine ⟨hone.trans hadds, fun other hother => ?_⟩
      obtain rfl | hother := List.mem_cons.mp hother
      · exact hnew.kept hadds.kept
      · exact hrest other hother

theorem addMissing_answers {news : List NewContact} (h : ∀ new ∈ news, s.Holds m party new) :
    (addMissing m party news).Answers s false s := by
  induction news with
  | nil => exact answers_pure.mpr ⟨rfl, rfl⟩
  | cons new rest ih =>
    have hnew := h new List.mem_cons_self
    obtain ⟨form, -, -, hform, -⟩ := id hnew
    rw [addMissing_cons, normalized, answers_bind_found]
    refine ⟨form, hform, ?_⟩
    rw [answers_bind_get, if_pos ((owned_iff hform).mpr hnew)]
    exact ih fun other hother => h other (List.mem_cons_of_mem _ hother)

/-! ### The call -/

/-- The contact points that the evidence has. -/
def evidenceContacts (data : ResolveInput) : List NewContact :=
  (data.externalSubjectId.toList.map fun value =>
      ⟨.externalSubject, value, .authenticated, some data.sourceNamespace⟩) ++
    (data.verifiedEmail.toList.map fun value =>
      ⟨.email, value, .sourceVerified, some data.sourceNamespace⟩) ++
    (data.hints.email.toList.map fun value => ⟨.email, value, .unverified, none⟩) ++
    data.hints.phone.toList.map fun value => ⟨.phone, value, .unverified, none⟩

/-- How the party was found. -/
def outcomeOf (subject email : Option Uuid) : String :=
  if subject.isSome then "linked_subject" else if email.isSome then "linked_email" else "created"

variable {isService : Bool}

theorem resolveCleaned_eq : resolveCleaned m isService data =
    require (isService = true) "role_not_permitted" >>= fun _ =>
    require (data.evidenceRef.parse.isSome = true) "input_invalid" >>= fun _ =>
    identityOf m data.sourceNamespace .externalSubject data.externalSubjectId >>= fun subject =>
    identityOf m data.sourceNamespace .email data.verifiedEmail >>= fun email =>
    require (conflicting subject email = false) "identity_conflict" >>= fun _ =>
    partyFor (subject.or email)
      (((data.hints.name.or data.hints.email).or data.verifiedEmail).or data.hints.phone) >>=
      fun party =>
    addMissing m party (evidenceContacts data) >>= fun changed =>
    bumpIf changed party >>= fun _ =>
    candidates m party data >>= fun refs => pure (party, outcomeOf subject email, refs) :=
  rfl

/-- What holds where a call goes on to the candidates. -/
structure Resolved (m : Matching) (s : PartyState) (party : Uuid) (data : ResolveInput)
    (r : PartyState) : Prop where
  sound : Sound r
  live : r.IsLive .person party
  holds : ∀ new ∈ evidenceContacts data, r.Holds m party new
  candidates : r.candidates = s.candidates
  returns : NoneReturns s r
  organizations : ∀ id name, r.profile id = some (.organization, none, name) ↔
    s.profile id = some (.organization, none, name)

/-- The party that a call goes on with is a live person. -/
theorem partyFor_spec {known : Option Uuid} {name : Option String} (hs : Sound s)
    (hknown : ∀ id ∈ known, ∃ row, s.parties.lookup id = some row ∧ row.mergedIntoId = none)
    (h : (partyFor known name).Answers s party t) :
    t.IsLive .person party ∧ t.candidates = s.candidates ∧
      ∀ id name, t.profile id = some (.organization, none, name) ↔
        s.profile id = some (.organization, none, name) := by
  cases known with
  | none =>
    simp only [partyFor, createRow, answers_bind_uuid7, answers_bind_write, answers_pure] at h
    obtain ⟨rfl, rfl⟩ := h
    refine ⟨⟨name.getD "unnamed", ?_⟩, rfl, fun id display => ?_⟩
    · simp [PartyState.profile]
    · by_cases hid : id = s.nextId
      · rw [hid, profile_of_fresh hs le_rfl]
        simp [PartyState.profile]
      · simp [PartyState.profile, hid]
  | some id =>
    rw [partyFor, answers_bind] at h
    obtain ⟨⟨survivor, row⟩, r, hcanonical, h⟩ := h
    rw [answers_bind_require] at h
    obtain ⟨hkind, h⟩ := h
    obtain ⟨rfl, rfl⟩ := answers_pure.mp h
    obtain ⟨own, hown, hlive⟩ := hknown party rfl
    obtain ⟨heq, rfl⟩ := answers_unique (canonical_answers hown hlive) hcanonical
    obtain ⟨-, rfl⟩ := Prod.mk.inj heq
    refine ⟨⟨own.displayName, ?_⟩, rfl, fun _ _ => Iff.rfl⟩
    exact profile_eq_some.mpr ⟨own, hown, hkind, hlive, rfl⟩

variable {refs : List Uuid}

theorem resolved_of_answers {outcome : String} (hs : Sound s)
    (h : (resolveCleaned m isService data).Answers s (party, outcome, refs) t) :
    isService = true ∧ data.evidenceRef.parse.isSome = true ∧
      ∃ r, Resolved m s party data r ∧ (candidates m party data).Answers r refs t := by
  rw [resolveCleaned_eq, answers_bind_require] at h
  obtain ⟨hservice, h⟩ := h
  rw [answers_bind_require] at h
  obtain ⟨hevidence, h⟩ := h
  rw [answers_bind] at h
  obtain ⟨subject, r₁, hsubject, h⟩ := h
  obtain ⟨rfl, hsubjectLive⟩ := identityOf_spec hsubject
  rw [answers_bind] at h
  obtain ⟨email, r₂, hemail, h⟩ := h
  obtain ⟨rfl, hemailLive⟩ := identityOf_spec hemail
  rw [answers_bind_require] at h
  obtain ⟨-, h⟩ := h
  rw [answers_bind] at h
  obtain ⟨own, r₃, hparty, h⟩ := h
  rw [answers_bind] at h
  obtain ⟨changed, r₄, hmissing, h⟩ := h
  rw [answers_bind] at h
  obtain ⟨⟨⟩, r₅, hbump, h⟩ := h
  rw [answers_bind] at h
  obtain ⟨result, r₆, hcandidates, h⟩ := h
  obtain ⟨heq, rfl⟩ := answers_pure.mp h
  obtain ⟨rfl, hrest⟩ := Prod.mk.inj heq
  obtain ⟨-, rfl⟩ := Prod.mk.inj hrest
  have hknown : ∀ id ∈ subject.or email,
      ∃ row, r₂.parties.lookup id = some row ∧ row.mergedIntoId = none := by
    intro id hid
    obtain hid | ⟨-, hid⟩ := Option.or_eq_some_iff.mp hid
    · exact hsubjectLive id hid
    · exact hemailLive id hid
  obtain ⟨hlive, hcandidateRows, horganizations⟩ := partyFor_spec hs hknown hparty
  have hwrites₃ := within_partyFor _ _ _ _ hparty
  have hs₃ : Sound r₃ := hs.of_writes hwrites₃
  obtain ⟨hadds, hholds⟩ := addsContacts_of_addMissing hs₃ hmissing
  have hwrites₅ := (hwrites₃.trans (within_addMissing _ _ _ _ hmissing)).trans
    (within_bumpIf _ _ _ hbump)
  have hrevised : Revised r₄ r₅ := by
    cases changed with
    | false =>
      obtain ⟨-, rfl⟩ := answers_pure.mp hbump
      exact ⟨fun _ => rfl, rfl, rfl, rfl, rfl⟩
    | true =>
      have hwritten : (bump party none >>= fun _ => pure ()).Answers r₄ () r₅ := hbump
      rw [answers_bind] at hwritten
      obtain ⟨revision, r, hone, hrest⟩ := hwritten
      obtain ⟨-, rfl⟩ := answers_pure.mp hrest
      exact revised_of_bump hone
  have hprofile (id : Uuid) : r₅.profile id = r₃.profile id := by
    rw [hrevised.profile, PartyState.profile, hadds.parties, PartyState.profile]
  refine ⟨hservice, hevidence, r₅, ?_, hcandidates⟩
  constructor
  · exact hs.of_writes hwrites₅
  · obtain ⟨name, hname⟩ := hlive
    exact ⟨name, (hprofile party).trans hname⟩
  · intro new hnew
    exact (hholds new hnew).kept fun c row hrow => by rw [hrevised.contacts]; exact hrow
  · rw [hrevised.candidates, hadds.candidates, hcandidateRows]
  · exact NoneReturns.of_writes hwrites₅
  · intro id name
    rw [hprofile]
    exact horganizations id name

/-- What the candidates leave of the rows before them. -/
structure CandidatesKeep (r t : PartyState) : Prop where
  sound : Sound t
  fresh : t.FreshCandidates
  live : ∀ id kind, r.IsLive kind id → t.IsLive kind id
  contacts : ∀ c row, r.contacts.lookup c = some row → t.contacts.lookup c = some row

theorem candidatesKeep_of_answers (hr : Sound r) (hfresh : r.FreshCandidates)
    (h : (candidates m party data).Answers r refs t) : CandidatesKeep r t := by
  have ht : Sound t := hr.of_writes (within_candidates r refs t h)
  obtain ⟨email, phone, domain, r', -, -, -, hpropose, horganization⟩ := answers_candidates.mp h
  obtain ⟨hproposes, -⟩ := proposes_of_proposeAll hfresh hpropose
  cases hname : newOrganization m r data domain with
  | none =>
    rw [hname] at horganization
    obtain ⟨-, rfl⟩ := answers_pure.mp horganization
    refine ⟨ht, hproposes.fresh, ?_, ?_⟩
    · rintro id kind ⟨name, hprofile⟩
      exact ⟨name, (hproposes.profile id).trans hprofile⟩
    · intro c row hrow
      rw [hproposes.contacts]
      exact hrow
  | some name =>
    rw [hname] at horganization
    have hmade := organizationMade_of_answers horganization
    refine ⟨ht, ?_, ?_, ?_⟩
    · intro id row hrow
      rw [hmade.candidates] at hrow
      exact (hproposes.fresh id row hrow).trans_le hmade.nextId
    · rintro id kind ⟨text, hprofile⟩
      have hne : id ≠ r'.nextId := by
        rintro rfl
        rw [profile_of_fresh hr hproposes.nextId] at hprofile
        cases hprofile
      exact ⟨text, by rw [hmade.profile, if_neg hne, hproposes.profile, hprofile]⟩
    · intro c row hrow
      have hrow' : r'.contacts.lookup c = some row := by rw [hproposes.contacts]; exact hrow
      exact hmade.kept c row hrow' ((hr.contacts.fresh c row hrow).trans_le hproposes.nextId)

/-- A party is found by an identity that it holds. -/
theorem identityOf_holds {value : Option String} (ht : Sound t) (hlive : t.IsLive .person party)
    (h : ∀ v ∈ value, t.Holds m party ⟨kind, v, verificationOf kind, some source⟩) :
    (identityOf m source kind value).Answers t (value.map fun _ => party) t := by
  cases value with
  | none => exact answers_pure.mpr ⟨rfl, rfl⟩
  | some value =>
    obtain ⟨form, c, row, hform, hrow, rfl, hkind, hvalue, hverification, hsource, hretired⟩ :=
      h value rfl
    obtain ⟨name, hprofile⟩ := hlive
    obtain ⟨owner, howner, -, hinto, -⟩ := profile_eq_some.mp hprofile
    exact identityOf_answers ht hform ⟨hrow, hsource, hkind, hverification, hvalue, hretired⟩ howner
      hinto

/-- A second call is about the party that holds the evidence, and goes on to its candidates. -/
theorem resolveCleaned_again {own : Uuid} {outcome : String} (ht : Sound t)
    (hservice : isService = true) (hevidence : data.evidenceRef.parse.isSome = true)
    (hverified : data.externalSubjectId.isSome = true ∨ data.verifiedEmail.isSome = true)
    (hlive : t.IsLive .person party) (hholds : ∀ new ∈ evidenceContacts data, t.Holds m party new) :
    (resolveCleaned m isService data).Answers t (own, outcome, refs) u ↔
      own = party ∧ outcome = (if data.externalSubjectId.isSome then "linked_subject"
        else "linked_email") ∧ (candidates m party data).Answers t refs u := by
  have hsubject : (identityOf m data.sourceNamespace .externalSubject
      data.externalSubjectId).Answers t (data.externalSubjectId.map fun _ => party) t := by
    refine identityOf_holds ht hlive fun v hv => hholds _ ?_
    have hv' : data.externalSubjectId = some v := hv
    simp [evidenceContacts, hv', verificationOf]
  have hemail : (identityOf m data.sourceNamespace .email data.verifiedEmail).Answers
      t (data.verifiedEmail.map fun _ => party) t := by
    refine identityOf_holds ht hlive fun v hv => hholds _ ?_
    have hv' : data.verifiedEmail = some v := hv
    simp [evidenceContacts, hv', verificationOf]
  have hagree : conflicting (data.externalSubjectId.map fun _ => party)
      (data.verifiedEmail.map fun _ => party) = false := by
    cases data.externalSubjectId <;> cases data.verifiedEmail <;> simp [conflicting]
  have hknown : ((data.externalSubjectId.map fun _ => party).or
      (data.verifiedEmail.map fun _ => party)) = some party := by
    cases hid : data.externalSubjectId with
    | some value => rfl
    | none =>
      rw [hid] at hverified
      obtain ⟨value, hvalue⟩ := Option.isSome_iff_exists.mp (hverified.resolve_left (by simp))
      rw [hvalue]
      rfl
  have hparty (name : Option String) : (partyFor (some party) name).Answers t party t := by
    obtain ⟨text, hprofile⟩ := hlive
    obtain ⟨row, hrow, hkind, hinto, -⟩ := profile_eq_some.mp hprofile
    rw [partyFor, answers_bind_of (canonical_answers hrow hinto), answers_bind_require]
    exact ⟨hkind, answers_pure.mpr ⟨rfl, rfl⟩⟩
  have hbump : (bumpIf false party).Answers t () t := answers_pure.mpr ⟨rfl, rfl⟩
  have houtcome : outcomeOf (data.externalSubjectId.map fun _ => party)
      (data.verifiedEmail.map fun _ => party) =
        if data.externalSubjectId.isSome then "linked_subject" else "linked_email" := by
    rw [outcomeOf, Option.isSome_map, Option.isSome_map]
    cases hid : data.externalSubjectId with
    | some value => rfl
    | none =>
      rw [hid] at hverified
      rw [hverified.resolve_left (by simp)]
      rfl
  rw [resolveCleaned_eq, answers_bind_require, answers_bind_require, answers_bind_of hsubject,
    answers_bind_of hemail, answers_bind_require, hknown, answers_bind_of (hparty _),
    answers_bind_of (addMissing_answers hholds), answers_bind_of hbump, houtcome]
  constructor
  · rintro ⟨-, -, -, h⟩
    rw [answers_bind] at h
    obtain ⟨result, r, hcandidates, h⟩ := h
    obtain ⟨heq, rfl⟩ := answers_pure.mp h
    obtain ⟨rfl, hrest⟩ := Prod.mk.inj heq
    obtain ⟨rfl, rfl⟩ := Prod.mk.inj hrest
    exact ⟨rfl, rfl, hcandidates⟩
  · rintro ⟨rfl, rfl, hcandidates⟩
    refine ⟨hservice, hevidence, hagree, ?_⟩
    exact (answers_bind_of hcandidates).mpr (answers_pure.mpr ⟨rfl, rfl⟩)

end Rheostream.Relationships
