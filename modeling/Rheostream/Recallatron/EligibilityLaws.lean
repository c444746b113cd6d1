import Mathlib.Data.Finset.Insert
import Mathlib.Data.List.Basic
import Mathlib.Logic.Relation
import Rheostream.Recallatron.Eligibility

/-!
# What a memory is decided to be

The answer that the stored memories give, without a request: a memory is readable when it is
admitted, each of its links has a head and each memory that it names is readable. A request
that is not stopped by a limit answers exactly this, whatever it was asked before.
-/

namespace Rheostream.Recallatron

/-- The memory that an unmarked link names. -/
def MemoryLinkRow.source (link : MemoryLinkRow) : Option Uuid :=
  if link.supersessionLineage then none
  else link.ref.parse.bind fun r => if isMemoryRef r then some r.id else none

/-- The head of a link, when the memory it may name is left out of the question. -/
def headOf (w : MemoryStore) (q : MemoryRequest) (link : MemoryLinkRow) : Option LinkHead :=
  if link.supersessionLineage then some ⟨link.ref, link.relation, true, none⟩
  else match link.ref.parse with
    | none => none
    | some r =>
      if isMemoryRef r then
        (w.memories.lookup r.id).map fun m => ⟨link.ref, link.relation, false, some m.row.title⟩
      else (resolvedHead w q r link).toOption

section Answers

variable (w : MemoryStore) (q : MemoryRequest) (mode : ReadMode)

/-- A memory that the request admits for itself. -/
structure Admitted (id : Uuid) (m : StoredMemory) : Prop where
  stored : w.memories.lookup id = some m
  reader : q.isReader = true
  admits : q.admits mode m = true

/-- The memories that may be read: no chain of their links leads to one that may not, or back
to itself. -/
inductive Readable : Uuid → Prop where
  | intro (id : Uuid) (m : StoredMemory) (admitted : Admitted w q mode id m)
      (heads : ∀ link ∈ m.links, (headOf w q link).isSome = true)
      (sources : ∀ link ∈ m.links, ∀ b, link.source = some b → Readable b) : Readable id

/-- An admitted memory names another one by an unmarked link. -/
def Source (a b : Uuid) : Prop :=
  ∃ m, Admitted w q mode a m ∧ ∃ link ∈ m.links, link.source = some b

/-- A link that does not deny. -/
structure LinkOk (link : MemoryLinkRow) : Prop where
  head : (headOf w q link).isSome = true
  source : ∀ b, link.source = some b → Readable w q mode b

open Classical in
/-- The answer for a memory. -/
noncomputable def verdict (id : Uuid) : Decision :=
  match w.memories.lookup id with
  | none => .denied notFound
  | some m =>
    if Readable w q mode id then .eligible m.row (m.links.filterMap (headOf w q))
    else .denied notFound

/-- The links lead to a memory. -/
def LeadsTo (links : List MemoryLinkRow) (c : Uuid) : Prop :=
  ∃ link ∈ links, ∃ a, link.source = some a ∧ Relation.ReflTransGen (Source w q mode) a c

/-- The way of a decision, the last memory first, with the memories that the links before its own
led to: they are decided by then. It goes on from a memory that is not decided and not on the
way yet, over a link that is come to. -/
inductive IsTrail (first : Uuid) : List Uuid → Set Uuid → Prop where
  | start : IsTrail first [first] ∅
  | step (id b : Uuid) (path : List Uuid) (decided : Set Uuid) (m : StoredMemory)
      (before : List MemoryLinkRow) (link : MemoryLinkRow) (after : List MemoryLinkRow)
      (trail : IsTrail first (id :: path) decided) (undecided : id ∉ decided) (new : id ∉ path)
      (admitted : Admitted w q mode id m) (split : m.links = before ++ link :: after)
      (ok : ∀ l ∈ before, LinkOk w q mode l) (named : link.source = some b) :
      IsTrail first (b :: id :: path) (decided ∪ {c | LeadsTo w q mode before c})

/-- A link that a decision about a memory comes to: those before it do not deny. -/
def Walked (id : Uuid) (link : MemoryLinkRow) : Prop :=
  ∃ m, Admitted w q mode id m ∧
    ∃ before after, m.links = before ++ link :: after ∧ ∀ l ∈ before, LinkOk w q mode l

/-- The references of a link that was come to are charged, and its memory is decided or, in the
mode of the request that goes on, being decided. -/
structure Settled (m : ReadMode) (st : RequestState) (link : MemoryLinkRow) : Prop where
  source : ∀ b, link.source = some b →
    (st.decisions.lookup (b, m)).isSome = true ∨ m = mode ∧ b ∈ st.active
  record : ∀ r, link.supersessionLineage = false → link.ref.parse = some r →
    isMemoryRef r = false → link.ref ∈ st.seen

end Answers

/-- The answers that a request keeps are those that the memories have, with every reference that
led to them charged. -/
structure Known (w : MemoryStore) (q : MemoryRequest) (mode : ReadMode) (st : RequestState) :
    Prop where
  answers : ∀ id m d, st.decisions.lookup (id, m) = some d → d = verdict w q m id
  charged : ∀ id m, (st.decisions.lookup (id, m)).isSome = true →
    memoryReference id ∈ st.seen ∧ ∀ link, Walked w q m id link → Settled mode m st link
  bounded : st.seen.card ≤ q.limit

/-- A request goes on: nothing is uncharged or undecided, and the same memories are being
decided. -/
structure Grows (st t : RequestState) : Prop where
  seen : st.seen ⊆ t.seen
  decisions : ∀ k, (st.decisions.lookup k).isSome = true → (t.decisions.lookup k).isSome = true
  active : t.active = st.active
  exhausted : t.exhausted = false → st.exhausted = false

section Laws

variable {w : MemoryStore} {q : MemoryRequest} {mode : ReadMode} {id : Uuid}
  {st t u : RequestState} {link : MemoryLinkRow} {links : List MemoryLinkRow}
  {visit : Uuid → RequestState → Decision × RequestState}

theorem Grows.refl (st : RequestState) : Grows st st :=
  ⟨Finset.Subset.refl _, fun _ h => h, rfl, id⟩

theorem Grows.trans (h : Grows st t) (h' : Grows t u) : Grows st u where
  seen := h.seen.trans h'.seen
  decisions k hk := h'.decisions k (h.decisions k hk)
  active := h'.active.trans h.active
  exhausted hu := h.exhausted (h'.exhausted hu)

theorem Settled.grows {m : ReadMode} (h : Settled mode m st link) (hgrows : Grows st t) :
    Settled mode m t link where
  source b hb := by
    obtain hdecided | hactive := h.source b hb
    · exact .inl (hgrows.decisions _ hdecided)
    · rw [hgrows.active]
      exact .inr hactive
  record r hunmarked hparse hother := hgrows.seen (h.record r hunmarked hparse hother)

theorem charge_grows (q : MemoryRequest) (st : RequestState) (reference : RefText) :
    Grows st (q.charge st reference).2 := by
  unfold MemoryRequest.charge
  by_cases hseen : reference ∈ st.seen
  · rw [if_pos hseen]
    exact .refl st
  rw [if_neg hseen]
  by_cases hspent : q.limit ≤ st.seen.card
  · rw [if_pos hspent]
    exact ⟨Finset.Subset.refl _, fun _ h => h, rfl, fun h => by cases h⟩
  · rw [if_neg hspent]
    exact ⟨Finset.subset_insert _ _, fun _ h => h, rfl, fun h => h⟩

variable {reference : RefText}

/-- A reference that is charged is among those seen; another one exhausts the request. -/
theorem charge_ok (h : (q.charge st reference).2.exhausted = false) :
    (q.charge st reference).1 = true ∧ reference ∈ (q.charge st reference).2.seen := by
  unfold MemoryRequest.charge at h ⊢
  split_ifs at h ⊢ with hseen hspent
  · exact ⟨rfl, hseen⟩
  · exact ⟨rfl, Finset.mem_insert_self _ _⟩

theorem charge_decisions (q : MemoryRequest) (st : RequestState) (reference : RefText) :
    (q.charge st reference).2.decisions = st.decisions := by
  unfold MemoryRequest.charge
  split_ifs <;> rfl

theorem charge_known (h : Known w q mode st) : Known w q mode (q.charge st reference).2 := by
  have hgrows := charge_grows q st reference
  have hdecisions := charge_decisions q st reference
  constructor
  case answers =>
    rw [hdecisions]
    exact h.answers
  case charged =>
    intro a m hdecided
    rw [hdecisions] at hdecided
    obtain ⟨hself, hlinks⟩ := h.charged a m hdecided
    exact ⟨hgrows.seen hself, fun link hlink => (hlinks link hlink).grows hgrows⟩
  case bounded =>
    unfold MemoryRequest.charge
    split_ifs with hseen hspent
    · exact h.bounded
    · exact h.bounded
    · have hcard := Finset.card_insert_of_notMem hseen
      dsimp only
      omega

/-- A reference of a universe that fits the allowance is charged. -/
theorem charge_within {all : Finset RefText} (hmem : reference ∈ all) (hseen : st.seen ⊆ all)
    (hcard : all.card ≤ q.limit) (hexhausted : st.exhausted = false) :
    (q.charge st reference).2.exhausted = false ∧ (q.charge st reference).2.seen ⊆ all := by
  unfold MemoryRequest.charge
  split_ifs with hold hspent
  · exact ⟨hexhausted, hseen⟩
  · have hlt := Finset.card_lt_card (Finset.ssubset_iff_of_subset hseen |>.mpr
      ⟨reference, hmem, hold⟩)
    omega
  · exact ⟨hexhausted, Finset.insert_subset hmem hseen⟩

theorem readLink_grows (hvisit : ∀ b s, Grows s (visit b s).2) (link : MemoryLinkRow)
    (st : RequestState) : Grows st (readLink w q visit link st).2 := by
  unfold readLink
  split_ifs
  · exact .refl st
  split
  · exact .refl st
  next r hparse =>
  split_ifs
  · have hgrows := hvisit r.id st
    split
    · next state t heq => rwa [heq] at hgrows
    · next row heads t heq => rwa [heq] at hgrows
  · have hgrows := charge_grows q st link.ref
    split
    · next t heq => rwa [heq] at hgrows
    · next t heq => rwa [heq] at hgrows

theorem readLinks_grows (hvisit : ∀ b s, Grows s (visit b s).2) (links : List MemoryLinkRow)
    (st : RequestState) : Grows st (readLinks w q visit links st).2 := by
  induction links generalizing st with
  | nil => exact .refl st
  | cons link rest ih =>
    have hfirst := readLink_grows (w := w) (q := q) hvisit link st
    unfold readLinks
    split
    · next state t heq => rwa [heq] at hfirst
    next head t heq =>
    rw [heq] at hfirst
    have hrest := ih t
    split
    · next state u hlater =>
      rw [hlater] at hrest
      exact hfirst.trans hrest
    · next heads u hlater =>
      rw [hlater] at hrest
      exact hfirst.trans hrest

variable (w q mode) in
theorem decideMemory_grows (hvisit : ∀ b s, Grows s (visit b s).2) (id : Uuid)
    (st : RequestState) : Grows st (decideMemory w q mode visit id st).2 := by
  unfold decideMemory
  split_ifs
  · split
    · exact .refl st
    next m hm =>
    split_ifs
    · have hlinks := readLinks_grows (w := w) (q := q) hvisit m.links st
      split
      · next state t heq => rwa [heq] at hlinks
      · next heads t heq => rwa [heq] at hlinks
    · exact .refl st
  · exact .refl st

/-- What one level of the walk comes to. -/
inductive VisitCase (w : MemoryStore) (q : MemoryRequest) (mode : ReadMode) (room : ℕ) (id : Uuid)
    (st : RequestState) : Decision × RequestState → Prop where
  | refused (spent : (q.charge st (memoryReference id)).1 = false) :
      VisitCase w q mode room id st
        (.denied referenceScanLimit, (q.charge st (memoryReference id)).2)
  | kept (d : Decision) (charged : (q.charge st (memoryReference id)).1 = true)
      (cached : (q.charge st (memoryReference id)).2.decisions.lookup (id, mode) = some d) :
      VisitCase w q mode room id st (d, (q.charge st (memoryReference id)).2)
  | cycle (charged : (q.charge st (memoryReference id)).1 = true)
      (active : id ∈ (q.charge st (memoryReference id)).2.active) :
      VisitCase w q mode room id st (.denied notFound, (q.charge st (memoryReference id)).2)
  | decided (r : Decision × RequestState) (charged : (q.charge st (memoryReference id)).1 = true)
      (uncached : (q.charge st (memoryReference id)).2.decisions.lookup (id, mode) = none)
      (inactive : id ∉ (q.charge st (memoryReference id)).2.active)
      (decides : decideMemory w q mode (eligibleMemory w q mode room) id
        ((q.charge st (memoryReference id)).2.start id) = r) :
      VisitCase w q mode room id st (r.1, r.2.settle id mode r.1)

theorem visitCase (w : MemoryStore) (q : MemoryRequest) (mode : ReadMode) (room : ℕ) (id : Uuid)
    (st : RequestState) :
    VisitCase w q mode room id st (eligibleMemory w q mode (room + 1) id st) := by
  rw [eligibleMemory]
  rcases hq : q.charge st (memoryReference id) with ⟨ok, s⟩
  have hok : (q.charge st (memoryReference id)).1 = ok := by rw [hq]
  have hs : (q.charge st (memoryReference id)).2 = s := by rw [hq]
  subst hs
  cases ok with
  | false => exact .refused hok
  | true =>
    dsimp only
    split
    · next d hcached => exact .kept d hok hcached
    next huncached =>
    split_ifs with hactive
    · exact .cycle hok hactive
    · exact .decided _ hok huncached hactive rfl

theorem eligibleMemory_grows (w : MemoryStore) (q : MemoryRequest) (mode : ReadMode) (room : ℕ)
    (id : Uuid) (st : RequestState) : Grows st (eligibleMemory w q mode room id st).2 := by
  induction room generalizing id st with
  | zero => exact .refl st
  | succ room ih =>
    have hcharge := charge_grows q st (memoryReference id)
    have hcase := visitCase w q mode room id st
    generalize eligibleMemory w q mode (room + 1) id st = answer at hcase ⊢
    cases hcase with
    | refused spent => exact hcharge
    | kept d charged cached => exact hcharge
    | cycle charged active => exact hcharge
    | decided r charged uncached inactive decides =>
      have hdecide := decideMemory_grows w q mode (fun b s => ih b s) id
        ((q.charge st (memoryReference id)).2.start id)
      rw [decides] at hdecide
      refine hcharge.trans ⟨hdecide.seen, fun k hk => ?_, ?_, hdecide.exhausted⟩
      · simp only [RequestState.settle, Table.lookup_insert]
        split_ifs
        · rfl
        · exact hdecide.decisions k hk
      · simp only [RequestState.settle]
        rw [hdecide.active, RequestState.start, Finset.erase_insert inactive]

variable {r : RecordRef}

/-- A record that resolves to no head is answered as not found. -/
theorem resolvedHead_error {state : String} (h : resolvedHead w q r link = .error state) :
    state = notFound := by
  unfold resolvedHead at h
  split at h
  · exact (Except.error.inj h).symm
  · split_ifs at h
    · exact (Except.error.inj h).symm
    · exact (Except.error.inj h).symm

theorem verdict_of_readable {m : StoredMemory} (hstored : w.memories.lookup id = some m)
    (h : Readable w q mode id) :
    verdict w q mode id = .eligible m.row (m.links.filterMap (headOf w q)) := by
  simp only [verdict, hstored]
  rw [if_pos h]

theorem verdict_of_not_readable (h : ¬ Readable w q mode id) :
    verdict w q mode id = .denied notFound := by
  unfold verdict
  split
  · rfl
  · rw [if_neg h]

/-- An answer with a row is that of a readable memory, and the row is its own. -/
theorem readable_of_verdict {row : MemoryRow} {heads : List LinkHead}
    (h : verdict w q mode id = .eligible row heads) :
    Readable w q mode id ∧ ∃ m, w.memories.lookup id = some m ∧ m.row = row := by
  by_cases hreadable : Readable w q mode id
  · refine ⟨hreadable, ?_⟩
    cases hreadable with
    | intro id m admitted heads sources =>
      have hverdict := verdict_of_readable admitted.stored (.intro id m admitted heads sources)
      rw [hverdict] at h
      exact ⟨m, admitted.stored, (Decision.eligible.inj h).1⟩
  · rw [verdict_of_not_readable hreadable] at h
    cases h

theorem not_readable_of_verdict {state : String} (h : verdict w q mode id = .denied state) :
    ¬ Readable w q mode id ∧ state = notFound := by
  by_cases hreadable : Readable w q mode id
  · cases hreadable with
    | intro id m admitted heads sources =>
      have hverdict := verdict_of_readable admitted.stored (.intro id m admitted heads sources)
      rw [hverdict] at h
      cases h
  · rw [verdict_of_not_readable hreadable] at h
    exact ⟨hreadable, (Decision.denied.inj h).symm⟩

/-- What a readable memory names is readable, over links that do not deny. -/
theorem Readable.linkOk {m : StoredMemory} (h : Readable w q mode id)
    (hadmitted : Admitted w q mode id m) (hlink : link ∈ m.links) : LinkOk w q mode link := by
  cases h with
  | intro id m' admitted heads sources =>
    obtain rfl := Option.some.inj (admitted.stored.symm.trans hadmitted.stored)
    exact ⟨heads link hlink, sources link hlink⟩

theorem Readable.leads {a c : Uuid} (h : Readable w q mode a)
    (hlead : Relation.ReflTransGen (Source w q mode) a c) : Readable w q mode c := by
  induction hlead with
  | refl => exact h
  | tail _ hlast ih =>
    obtain ⟨m, hadmitted, link, hlink, hd⟩ := hlast
    exact (ih.linkOk hadmitted hlink).source _ hd

/-- No chain of links leads from a readable memory back to it. -/
theorem Readable.acyclic (h : Readable w q mode id) :
    ¬ Relation.TransGen (Source w q mode) id id := by
  induction h with
  | intro id m admitted heads sources ih =>
    intro hcycle
    obtain ⟨b, hfirst, hback⟩ := Relation.TransGen.head'_iff.mp hcycle
    obtain ⟨m', hadmitted, link, hlink, hb⟩ := hfirst
    have hsame : m = m' := Option.some.inj (admitted.stored.symm.trans hadmitted.stored)
    subst hsame
    exact ih link hlink b hb (.tail' hback ⟨m, hadmitted, link, hlink, hb⟩)

/-- A memory of a chain of links leads to the last one. -/
theorem transGen_of_chain {path : List Uuid} {a b : Uuid}
    (h : (b :: path).IsChain fun y x => Source w q mode x y) (ha : a ∈ path) :
    Relation.TransGen (Source w q mode) a b := by
  induction path generalizing b with
  | nil => cases ha
  | cons c path ih =>
    obtain ⟨hstep, hrest⟩ := List.isChain_cons_cons.mp h
    obtain rfl | hmem := List.mem_cons.mp ha
    · exact .single hstep
    · exact (ih hrest hmem).tail hstep

/-- What a link is come to with: which memories are being decided, some that are decided, and the
links before it. -/
structure Found (w : MemoryStore) (q : MemoryRequest) (mode : ReadMode) (active : Finset Uuid)
    (decided : Set Uuid) (before : List MemoryLinkRow) (st : RequestState) : Prop where
  known : Known w q mode st
  active : st.active = active
  decided : ∀ c ∈ decided, (st.decisions.lookup (c, mode)).isSome = true
  before : ∀ l ∈ before, Settled mode mode st l

/-- A link that was read is one more before the next. -/
theorem Found.read {active : Finset Uuid} {decided : Set Uuid} {before : List MemoryLinkRow}
    (h : Found w q mode active decided before st) (hgrows : Grows st t)
    (hknown : Known w q mode t) (hsettled : Settled mode mode t link) :
    Found w q mode active decided (before ++ [link]) t where
  known := hknown
  active := hgrows.active.trans h.active
  decided c hc := hgrows.decisions _ (h.decided c hc)
  before l hl := by
    obtain hold | hlast := List.mem_append.mp hl
    · exact (h.before l hold).grows hgrows
    · rwa [List.mem_singleton.mp hlast]

/-- What is asked of a visit: that it answers what the memory has and goes on from what is
known. -/
def Visits (w : MemoryStore) (q : MemoryRequest) (mode : ReadMode)
    (visit : Uuid → RequestState → Decision × RequestState) (active : Finset Uuid)
    (decided : Set Uuid) (before : List MemoryLinkRow) (b : Uuid) : Prop :=
  ∀ st, Found w q mode active decided before st → (visit b st).2.exhausted = false →
    (visit b st).1 = verdict w q mode b ∧ Known w q mode (visit b st).2 ∧
      (((visit b st).2.decisions.lookup (b, mode)).isSome = true ∨ b ∈ active)

variable (w q st) in
/-- A link that names a memory. -/
theorem readLink_memory (visit : Uuid → RequestState → Decision × RequestState)
    (hmarked : ¬ link.supersessionLineage = true) (hparse : link.ref.parse = some r)
    (hmemory : isMemoryRef r = true) : (readLink w q visit link st).2 = (visit r.id st).2 ∧
      (∀ row heads, (visit r.id st).1 = .eligible row heads → (readLink w q visit link st).1 =
        .ok ⟨link.ref, link.relation, false, some row.title⟩) ∧
          ∀ state, (visit r.id st).1 = .denied state →
            (readLink w q visit link st).1 = .error state := by
  unfold readLink
  rw [if_neg hmarked, hparse]
  dsimp only
  rw [if_pos hmemory]
  rcases visit r.id st with ⟨⟨row, heads⟩ | state, t⟩
  · refine ⟨rfl, fun row' heads' heq => ?_, fun state heq => (by cases heq)⟩
    obtain ⟨rfl, -⟩ := Decision.eligible.inj heq
    rfl
  · refine ⟨rfl, fun row' heads' heq => (by cases heq), fun state heq => ?_⟩
    obtain rfl := Decision.denied.inj heq
    rfl

variable (w q st) in
/-- A link to a record that is no memory. -/
theorem readLink_other (visit : Uuid → RequestState → Decision × RequestState)
    (hmarked : ¬ link.supersessionLineage = true) (hparse : link.ref.parse = some r)
    (hother : ¬ isMemoryRef r = true) : (readLink w q visit link st).2 = (q.charge st link.ref).2 ∧
      ((q.charge st link.ref).1 = true →
        (readLink w q visit link st).1 = resolvedHead w q r link) := by
  unfold readLink
  rw [if_neg hmarked, hparse]
  dsimp only
  rw [if_neg hother]
  rcases q.charge st link.ref with ⟨_ | _, t⟩
  · exact ⟨rfl, fun h => by cases h⟩
  · exact ⟨rfl, fun _ => rfl⟩

section Reading

variable {active : Finset Uuid} {decided : Set Uuid} {before : List MemoryLinkRow}

theorem readLink_ok (hvisit : ∀ b s, Grows s (visit b s).2)
    (hfound : Found w q mode active decided before st)
    (hsource : ∀ b, link.source = some b → Visits w q mode visit active decided before b)
    (h : (readLink w q visit link st).2.exhausted = false) :
    Known w q mode (readLink w q visit link st).2 ∧
      Settled mode mode (readLink w q visit link st).2 link ∧
      match (readLink w q visit link st).1 with
      | .ok head => LinkOk w q mode link ∧ headOf w q link = some head
      | .error state => ¬ LinkOk w q mode link ∧ state = notFound := by
  by_cases hmarked : link.supersessionLineage = true
  · have hnone : link.source = none := by rw [MemoryLinkRow.source, if_pos hmarked]
    have hhead : headOf w q link = some ⟨link.ref, link.relation, true, none⟩ := by
      rw [headOf, if_pos hmarked]
    rw [readLink, if_pos hmarked]
    refine ⟨hfound.known, ⟨fun b hb => ?_, fun r hunmarked => ?_⟩, ⟨?_, fun b hb => ?_⟩, hhead⟩
    · rw [hnone] at hb
      cases hb
    · rw [hmarked] at hunmarked
      cases hunmarked
    · rw [hhead]
      rfl
    · rw [hnone] at hb
      cases hb
  cases hparse : link.ref.parse with
  | none =>
    have hhead : headOf w q link = none := by
      rw [headOf, if_neg hmarked, hparse]
    have hnone : link.source = none := by
      rw [MemoryLinkRow.source, if_neg hmarked, hparse]
      rfl
    have hread : readLink w q visit link st = (.error notFound, st) := by
      rw [readLink, if_neg hmarked, hparse]
    rw [hread]
    refine ⟨hfound.known, ⟨fun b hb => ?_, fun r _ hr => ?_⟩, fun hok => ?_, rfl⟩
    · rw [hnone] at hb
      cases hb
    · rw [hparse] at hr
      cases hr
    · have hsome := hok.head
      rw [hhead] at hsome
      cases hsome
  | some r =>
    by_cases hmemory : isMemoryRef r = true
    · have hnamed : link.source = some r.id := by
        rw [MemoryLinkRow.source, if_neg hmarked, hparse, Option.bind_some, if_pos hmemory]
      have hhead : headOf w q link = (w.memories.lookup r.id).map fun m =>
          ⟨link.ref, link.relation, false, some m.row.title⟩ := by
        simp only [headOf]
        rw [if_neg hmarked, hparse]
        dsimp only
        rw [if_pos hmemory]
      obtain ⟨hstate, heligible, hdenied⟩ :=
        readLink_memory w q st visit hmarked hparse hmemory
      rw [hstate] at h ⊢
      obtain ⟨hanswer, hafter, hdecided⟩ := hsource r.id hnamed st hfound h
      have hgrows := (hvisit r.id st).active
      refine ⟨hafter, ⟨fun b hb => ?_, fun r' _ hr' hother => ?_⟩, ?_⟩
      · rw [hnamed] at hb
        obtain rfl := Option.some.inj hb
        rw [hgrows, hfound.active]
        exact hdecided.imp_right fun hmem => ⟨rfl, hmem⟩
      · rw [hparse] at hr'
        obtain rfl := Option.some.inj hr'
        rw [hmemory] at hother
        cases hother
      · cases hv : (visit r.id st).1 with
        | eligible row heads =>
          rw [hv] at hanswer
          rw [heligible row heads hv]
          obtain ⟨hreadable, m, hm, hrow⟩ := readable_of_verdict hanswer.symm
          rw [hm, Option.map_some] at hhead
          refine ⟨⟨by rw [hhead]; rfl, fun b hb => ?_⟩, by rw [hhead, hrow]⟩
          rw [hnamed] at hb
          obtain rfl := Option.some.inj hb
          exact hreadable
        | denied state =>
          rw [hv] at hanswer
          rw [hdenied state hv]
          obtain ⟨hunreadable, hstate⟩ := not_readable_of_verdict hanswer.symm
          exact ⟨fun hok => hunreadable (hok.source r.id hnamed), hstate⟩
    · have hnone : link.source = none := by
        rw [MemoryLinkRow.source, if_neg hmarked, hparse, Option.bind_some, if_neg hmemory]
      have hhead : headOf w q link = (resolvedHead w q r link).toOption := by
        simp only [headOf]
        rw [if_neg hmarked, hparse]
        dsimp only
        rw [if_neg hmemory]
      obtain ⟨hstate, hresolves⟩ :=
        readLink_other w q st visit hmarked hparse hmemory
      rw [hstate] at h ⊢
      obtain ⟨hcharged, hmem⟩ := charge_ok h
      refine ⟨charge_known hfound.known, ⟨fun b hb => ?_, fun r' _ hr' hother => hmem⟩, ?_⟩
      · rw [hnone] at hb
        cases hb
      · rw [hresolves hcharged]
        cases hresolved : resolvedHead w q r link with
        | error state =>
          refine ⟨fun hok => ?_, resolvedHead_error hresolved⟩
          have hsome := hok.head
          rw [hhead, hresolved] at hsome
          cases hsome
        | ok head =>
          rw [hresolved] at hhead
          refine ⟨⟨by rw [hhead]; rfl, fun b hb => ?_⟩, hhead⟩
          rw [hnone] at hb
          cases hb

/-- The links of a memory, up to the first that denies. -/
theorem readLinks_ok (hvisit : ∀ b s, Grows s (visit b s).2)
    (hfound : Found w q mode active decided before st)
    (hsource : ∀ between link after, links = between ++ link :: after →
      (∀ l ∈ between, LinkOk w q mode l) → ∀ b, link.source = some b →
        Visits w q mode visit active decided (before ++ between) b)
    (h : (readLinks w q visit links st).2.exhausted = false) :
    Known w q mode (readLinks w q visit links st).2 ∧
      (∀ between link after, links = between ++ link :: after →
        (∀ l ∈ between, LinkOk w q mode l) →
          Settled mode mode (readLinks w q visit links st).2 link) ∧
      match (readLinks w q visit links st).1 with
      | .ok heads => (∀ link ∈ links, LinkOk w q mode link) ∧ heads = links.filterMap (headOf w q)
      | .error state => (∃ link ∈ links, ¬ LinkOk w q mode link) ∧ state = notFound := by
  induction links generalizing st before with
  | nil =>
    refine ⟨hfound.known, fun between link after hsplit => ?_, fun link hlink => ?_, rfl⟩
    · simp at hsplit
    · cases hlink
  | cons link rest ih =>
    have hgrows := readLinks_grows (w := w) (q := q) hvisit rest (readLink w q visit link st).2
    have hcons : readLinks w q visit (link :: rest) st =
        ((match (readLink w q visit link st).1 with
          | .error state => .error state
          | .ok head => (readLinks w q visit rest (readLink w q visit link st).2).1.map
              (head :: ·)),
          match (readLink w q visit link st).1 with
          | .error _ => (readLink w q visit link st).2
          | .ok _ => (readLinks w q visit rest (readLink w q visit link st).2).2) := by
      rw [readLinks]
      rcases readLink w q visit link st with ⟨state | head, t⟩
      · rfl
      · dsimp only
        rcases readLinks w q visit rest t with ⟨state | heads, u⟩ <;> rfl
    have hfirst : (readLink w q visit link st).2.exhausted = false := by
      rw [hcons] at h
      cases hanswer : (readLink w q visit link st).1 with
      | error state =>
        rw [hanswer] at h
        exact h
      | ok head =>
        rw [hanswer] at h
        exact hgrows.exhausted h
    obtain ⟨hafter, hsettled, hlink⟩ := readLink_ok hvisit hfound (fun b hb => by
      simpa using hsource [] link rest rfl (by simp) b hb) hfirst
    rw [hcons] at h ⊢
    cases hanswer : (readLink w q visit link st).1 with
    | error state =>
      rw [hanswer] at hlink
      obtain ⟨hbad, hstate⟩ := hlink
      refine ⟨hafter, fun between l after hsplit hbetween => ?_, ⟨link, List.mem_cons_self, hbad⟩,
        hstate⟩
      cases between with
      | nil =>
        obtain ⟨rfl, -⟩ := List.cons.inj hsplit
        exact hsettled
      | cons first between =>
        obtain ⟨rfl, -⟩ := List.cons.inj hsplit
        exact absurd (hbetween _ List.mem_cons_self) hbad
    | ok head =>
      rw [hanswer] at hlink h
      obtain ⟨hgood, hhead⟩ := hlink
      have hnext := hfound.read (readLink_grows hvisit link st) hafter hsettled
      obtain ⟨hend, hrest, hanswers⟩ := ih hnext (fun between l after hsplit hbetween b hb => by
        rw [List.append_assoc]
        refine hsource (link :: between) l after (by rw [hsplit]; rfl) (fun k hk => ?_) b hb
        obtain rfl | hmem := List.mem_cons.mp hk
        · exact hgood
        · exact hbetween k hmem) h
      refine ⟨hend, fun between l after hsplit hbetween => ?_, ?_⟩
      · cases between with
        | nil =>
          obtain ⟨rfl, -⟩ := List.cons.inj hsplit
          exact hsettled.grows hgrows
        | cons first between =>
          have htail := (List.cons.inj hsplit).2
          obtain rfl := (List.cons.inj hsplit).1
          exact hrest between l after htail fun k hk => hbetween k (List.mem_cons_of_mem _ hk)
      · cases hlater : (readLinks w q visit rest (readLink w q visit link st).2).1 with
        | error state =>
          rw [hlater] at hanswers
          obtain ⟨⟨l, hl, hbad⟩, hstate⟩ := hanswers
          exact ⟨⟨l, List.mem_cons_of_mem _ hl, hbad⟩, hstate⟩
        | ok heads =>
          rw [hlater] at hanswers
          obtain ⟨hall, hheads⟩ := hanswers
          refine ⟨fun l hl => ?_, ?_⟩
          · obtain rfl | hmem := List.mem_cons.mp hl
            · exact hgood
            · exact hall l hmem
          · rw [List.filterMap_cons, hhead, hheads]

/-- A decision about a memory that was not kept yet. -/
theorem decideMemory_ok (hvisit : ∀ b s, Grows s (visit b s).2)
    (hfound : Found w q mode active decided [] st)
    (hsource : ∀ m, Admitted w q mode id m → ∀ before link after,
      m.links = before ++ link :: after → (∀ l ∈ before, LinkOk w q mode l) →
        ∀ b, link.source = some b → Visits w q mode visit active decided before b)
    (h : (decideMemory w q mode visit id st).2.exhausted = false) :
    (decideMemory w q mode visit id st).1 = verdict w q mode id ∧
      Known w q mode (decideMemory w q mode visit id st).2 ∧
        ∀ link, Walked w q mode id link →
          Settled mode mode (decideMemory w q mode visit id st).2 link := by
  have hnone (hbad : ∀ m, ¬ Admitted w q mode id m) :
      (Decision.denied notFound) = verdict w q mode id ∧ Known w q mode st ∧
        ∀ link, Walked w q mode id link → Settled mode mode st link := by
    refine ⟨(verdict_of_not_readable fun hreadable => ?_).symm, hfound.known,
      fun link hlink => ?_⟩
    · cases hreadable with
      | intro id m admitted heads sources => exact hbad m admitted
    · obtain ⟨m, hadmitted, -⟩ := hlink
      exact absurd hadmitted (hbad m)
  by_cases hreader : q.isReader = true
  case neg =>
    rw [decideMemory, if_neg hreader] at h ⊢
    exact hnone fun m hadmitted => hreader hadmitted.reader
  cases hstored : w.memories.lookup id with
  | none =>
    rw [decideMemory, if_pos hreader, hstored] at h ⊢
    refine hnone fun m hadmitted => ?_
    have hm := hadmitted.stored
    rw [hstored] at hm
    cases hm
  | some m =>
    have hsame : ∀ m', Admitted w q mode id m' → m' = m := fun m' hadmitted =>
      Option.some.inj (hadmitted.stored.symm.trans hstored)
    by_cases hadmits : q.admits mode m = true
    case neg =>
      rw [decideMemory, if_pos hreader, hstored] at h ⊢
      dsimp only at h ⊢
      rw [if_neg hadmits] at h ⊢
      refine hnone fun m' hadmitted => hadmits ?_
      rw [← hsame m' hadmitted]
      exact hadmitted.admits
    have hadmitted : Admitted w q mode id m := ⟨hstored, hreader, hadmits⟩
    have hlinks : decideMemory w q mode visit id st =
        ((match (readLinks w q visit m.links st).1 with
          | .error state => .denied state
          | .ok heads => .eligible m.row heads), (readLinks w q visit m.links st).2) := by
      rw [decideMemory, if_pos hreader, hstored]
      dsimp only
      rw [if_pos hadmits]
      rcases readLinks w q visit m.links st with ⟨state | heads, t⟩ <;> rfl
    rw [hlinks] at h ⊢
    obtain ⟨hend, hsettled, hanswer⟩ := readLinks_ok hvisit hfound (hsource m hadmitted) h
    refine ⟨?_, hend, fun link hlink => ?_⟩
    · cases hread : (readLinks w q visit m.links st).1 with
      | error state =>
        rw [hread] at hanswer
        obtain ⟨⟨link, hlink, hbad⟩, rfl⟩ := hanswer
        refine (verdict_of_not_readable fun hreadable => hbad ?_).symm
        cases hreadable with
        | intro id m' admitted heads sources =>
          rw [hsame m' admitted] at heads sources
          exact ⟨heads link hlink, sources link hlink⟩
      | ok heads =>
        rw [hread] at hanswer
        obtain ⟨hall, rfl⟩ := hanswer
        exact (verdict_of_readable hstored (.intro id m hadmitted
          (fun link hlink => (hall link hlink).head)
          fun link hlink => (hall link hlink).source)).symm
    · obtain ⟨m', hadmitted', before, after, hsplit, hbefore⟩ := hlink
      rw [hsame m' hadmitted'] at hsplit
      exact hsettled before link after hsplit hbefore

end Reading

end Laws

end Rheostream.Recallatron
