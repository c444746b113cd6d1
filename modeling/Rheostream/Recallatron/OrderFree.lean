import Rheostream.Recallatron.EligibilityLaws

/-!
# Decisions that do not depend on their order

A request whose allowance lasts, over memories whose decisions never come to the depth limit,
answers each memory as it answers it alone. Otherwise it does not: a denial that only the depth
of the first question caused is kept for the questions after it.
-/

namespace Rheostream.Recallatron

section Laws

variable {w : MemoryStore} {q : MemoryRequest} {mode : ReadMode} {id : Uuid}
  {st t : RequestState} {link : MemoryLinkRow} {links : List MemoryLinkRow}
  {visit : Uuid → RequestState → Decision × RequestState} {all : Finset RefText}

/-- No way of a decision about a memory is longer than the depth limit. -/
def Shallow (w : MemoryStore) (q : MemoryRequest) (a : Uuid × ReadMode) : Prop :=
  ∀ path decided, IsTrail w q a.2 a.1 path decided → path.length ≤ q.depthLimit + 1

theorem IsTrail.chain {first : Uuid} {path : List Uuid} {decided : Set Uuid}
    (h : IsTrail w q mode first path decided) : path.IsChain fun b a => Source w q mode a b := by
  induction h with
  | start => exact List.IsChain.singleton _
  | step id b path decided m before link after trail undecided new admitted split ok named ih =>
    refine List.isChain_cons_cons.mpr ⟨⟨m, admitted, link, ?_, named⟩, ih⟩
    rw [split]
    exact List.mem_append_right _ List.mem_cons_self

/-- The memories that are being decided, the last first, are a way with the next one, and the
memories that the links before it led to are decided. -/
structure Stacked (w : MemoryStore) (q : MemoryRequest) (mode : ReadMode) (first : Uuid)
    (room : ℕ) (stack : List Uuid) (decided : Set Uuid) (id : Uuid) (st : RequestState) :
    Prop where
  active : st.active = stack.toFinset
  trail : IsTrail w q mode first (id :: stack) decided
  decided : ∀ c ∈ decided, (st.decisions.lookup (c, mode)).isSome = true
  room : stack.length + room = q.depthLimit + 1

theorem Stacked.initial (hactive : st.active = ∅) :
    Stacked w q mode id (q.depthLimit + 1) [] ∅ id st where
  active := by rw [hactive, List.toFinset_nil]
  trail := .start
  decided c hc := hc.elim
  room := by simp

section Stack

variable {first : Uuid} {room : ℕ} {stack : List Uuid} {decided : Set Uuid}

/-- With a shallow start there is always room. -/
theorem Stacked.room_pos (h : Stacked w q mode first room stack decided id st)
    (hshallow : Shallow w q (first, mode)) : room ≠ 0 := by
  have hlength := hshallow _ _ h.trail
  have hroom := h.room
  simp only [List.length_cons] at hlength
  omega

/-- A memory that is being decided is on a cycle. -/
theorem Stacked.not_readable (h : Stacked w q mode first room stack decided id st)
    (hactive : id ∈ st.active) : ¬ Readable w q mode id := by
  rw [h.active, List.mem_toFinset] at hactive
  exact fun hreadable => hreadable.acyclic (transGen_of_chain h.trail.chain hactive)

/-- A readable memory that the next one leads to is not being decided. -/
theorem Stacked.not_active {a c : Uuid} (h : Stacked w q mode first room stack decided id st)
    (hsource : Source w q mode id a) (hlead : Relation.ReflTransGen (Source w q mode) a c)
    (hreadable : Readable w q mode c) : c ∉ insert id st.active := by
  intro hactive
  have hpath : Relation.TransGen (Source w q mode) id c := .head' hsource hlead
  rw [h.active, Finset.mem_insert, List.mem_toFinset] at hactive
  obtain rfl | hmem := hactive
  · exact hreadable.acyclic hpath
  · exact hreadable.acyclic ((transGen_of_chain h.trail.chain hmem).trans hpath)

/-- What the links before the one that is come to led to is decided. -/
theorem Stacked.decided_of_leadsTo {m : StoredMemory} {before after : List MemoryLinkRow}
    (h : Stacked w q mode first room stack decided id st) (hadmitted : Admitted w q mode id m)
    (hsplit : m.links = before ++ after) (hok : ∀ l ∈ before, LinkOk w q mode l)
    (hknown : Known w q mode t) (hactive : t.active = insert id st.active)
    (hbefore : ∀ l ∈ before, Settled mode mode t l) {c : Uuid}
    (hc : LeadsTo w q mode before c) : (t.decisions.lookup (c, mode)).isSome = true := by
  obtain ⟨l, hl, a, ha, hlead⟩ := hc
  have hreadable := (hok l hl).source a ha
  have hsource : Source w q mode id a :=
    ⟨m, hadmitted, l, by rw [hsplit]; exact List.mem_append_left _ hl, ha⟩
  have hnot {d : Uuid} (hd : Relation.ReflTransGen (Source w q mode) a d) : d ∉ t.active := by
    rw [hactive]
    exact h.not_active hsource hd (hreadable.leads hd)
  induction hlead with
  | refl => exact ((hbefore l hl).source a ha).resolve_right fun hbeing => hnot .refl hbeing.2
  | @tail c d hfirst hlast ih =>
    obtain ⟨n, hadmits, link, hlink, hd⟩ := hlast
    obtain ⟨between, rest, hn⟩ := List.append_of_mem hlink
    have hwalked : Walked w q mode c link := by
      refine ⟨n, hadmits, between, rest, hn, fun k hk => (hreadable.leads hfirst).linkOk hadmits ?_⟩
      rw [hn]
      exact List.mem_append_left _ hk
    have hsettled := (hknown.charged c mode ih).2 link hwalked
    exact (hsettled.source d hd).resolve_right fun hbeing =>
      hnot (hfirst.tail ⟨n, hadmits, link, hlink, hd⟩) hbeing.2

theorem Stacked.charge (h : Stacked w q mode first room stack decided id st) (reference : RefText) :
    Stacked w q mode first room stack decided id (q.charge st reference).2 where
  active := (charge_grows q st reference).active.trans h.active
  trail := h.trail
  decided c hc := (charge_grows q st reference).decisions _ (h.decided c hc)
  room := h.room

/-- The stack with the memory that is decided next on it. -/
theorem Stacked.push {m : StoredMemory} {before after : List MemoryLinkRow} {b : Uuid}
    (h : Stacked w q mode first (room + 1) stack decided id st)
    (huncached : st.decisions.lookup (id, mode) = none) (hinactive : id ∉ st.active)
    (hadmitted : Admitted w q mode id m)
    (hsplit : m.links = before ++ link :: after) (hok : ∀ l ∈ before, LinkOk w q mode l)
    (hnamed : link.source = some b)
    (hfound : Found w q mode (insert id st.active) decided before t) :
    Stacked w q mode first room (id :: stack) (decided ∪ {c | LeadsTo w q mode before c}) b t where
  active := by rw [hfound.active, h.active, List.toFinset_cons]
  trail := by
    have hundecided : id ∉ decided := fun hid => by simpa [huncached] using h.decided id hid
    rw [h.active, List.mem_toFinset] at hinactive
    exact .step id b stack decided m before link after h.trail hundecided hinactive hadmitted
      hsplit hok hnamed
  decided c hc := by
    obtain hold | hlead := hc
    · exact hfound.decided c hold
    · exact h.decided_of_leadsTo hadmitted hsplit hok hfound.known hfound.active hfound.before hlead
  room := by
    have hroom := h.room
    simp only [List.length_cons]
    omega

end Stack

theorem Known.start (h : Known w q mode t) (id : Uuid) : Known w q mode (t.start id) := by
  refine ⟨h.answers, fun a m ha => ?_, h.bounded⟩
  obtain ⟨hmem, hlinks⟩ := h.charged a m ha
  refine ⟨hmem, fun link hlink => ⟨fun b hb => ?_, (hlinks link hlink).record⟩⟩
  refine ((hlinks link hlink).source b hb).imp_right fun hactive => ⟨hactive.1, ?_⟩
  exact Finset.mem_insert_of_mem hactive.2

/-- A decision that is kept is known. -/
theorem Known.settle {d : Decision} (h : Known w q mode t) (hanswer : d = verdict w q mode id)
    (hself : memoryReference id ∈ t.seen)
    (hwalked : ∀ link, Walked w q mode id link → Settled mode mode t link) :
    Known w q mode (t.settle id mode d) := by
  have hlookup (k : Uuid × ReadMode) : (t.settle id mode d).decisions.lookup k =
      if k = (id, mode) then some d else t.decisions.lookup k := Table.lookup_insert ..
  have hkept (m : ReadMode) (link : MemoryLinkRow) (hsettled : Settled mode m t link) :
      Settled mode m (t.settle id mode d) link := by
    refine ⟨fun b hb => ?_, fun r hunmarked hparse hother =>
      hsettled.record r hunmarked hparse hother⟩
    rw [hlookup]
    by_cases heq : (b, m) = (id, mode)
    · rw [if_pos heq]
      exact .inl rfl
    · rw [if_neg heq]
      obtain hdecided | ⟨rfl, hactive⟩ := hsettled.source b hb
      · exact .inl hdecided
      · have hne : b ≠ id := fun hb => heq (by rw [hb])
        exact .inr ⟨rfl, Finset.mem_erase.mpr ⟨hne, hactive⟩⟩
  constructor
  case answers =>
    intro a m e he
    rw [hlookup] at he
    split_ifs at he with heq
    · obtain ⟨rfl, rfl⟩ := Prod.mk.inj heq
      rw [← Option.some.inj he]
      exact hanswer
    · exact h.answers a m e he
  case charged =>
    intro a m hdecided
    rw [hlookup] at hdecided
    split_ifs at hdecided with heq
    · obtain ⟨rfl, rfl⟩ := Prod.mk.inj heq
      exact ⟨hself, fun link hlink => hkept _ link (hwalked link hlink)⟩
    · obtain ⟨hold, hlinks⟩ := h.charged a m hdecided
      exact ⟨hold, fun link hlink => hkept m link (hlinks link hlink)⟩
  case bounded => exact h.bounded

/-- What a walk finds at the links of a memory that it begins to decide. -/
theorem Found.begin {decided : Set Uuid} (id : Uuid) (hknown : Known w q mode st)
    (hdecided : ∀ c ∈ decided, (st.decisions.lookup (c, mode)).isSome = true) :
    Found w q mode (insert id st.active) decided [] (st.start id) where
  known := hknown.start id
  active := rfl
  decided := hdecided
  before l hl := by cases hl

/-- A walk that is not stopped answers what the memory has. -/
theorem eligibleMemory_ok {first : Uuid} {room : ℕ} {stack : List Uuid} {decided : Set Uuid}
    (hshallow : Shallow w q (first, mode))
    (hstack : Stacked w q mode first room stack decided id st) (hknown : Known w q mode st)
    (h : (eligibleMemory w q mode room id st).2.exhausted = false) :
    (eligibleMemory w q mode room id st).1 = verdict w q mode id ∧
      Known w q mode (eligibleMemory w q mode room id st).2 ∧
        (((eligibleMemory w q mode room id st).2.decisions.lookup (id, mode)).isSome = true ∨
          id ∈ st.active) := by
  induction room generalizing id stack decided st with
  | zero => exact absurd rfl (hstack.room_pos hshallow)
  | succ room ih =>
    have hgrows := charge_grows q st (memoryReference id)
    have hafter : Known w q mode (q.charge st (memoryReference id)).2 := charge_known hknown
    have hcase := visitCase w q mode room id st
    generalize eligibleMemory w q mode (room + 1) id st = answer at hcase h ⊢
    cases hcase with
    | refused spent =>
      obtain ⟨hok, -⟩ := charge_ok h
      rw [spent] at hok
      cases hok
    | kept d charged cached =>
      refine ⟨hafter.answers id mode d cached, hafter, .inl ?_⟩
      rw [cached]
      rfl
    | cycle charged active =>
      rw [hgrows.active] at active
      exact ⟨(verdict_of_not_readable (hstack.not_readable active)).symm, hafter, .inr active⟩
    | decided r charged uncached inactive decides =>
      have hvisit := eligibleMemory_grows w q mode room
      have hdecide := decideMemory_grows w q mode hvisit id
        ((q.charge st (memoryReference id)).2.start id)
      have hcharged : (q.charge st (memoryReference id)).2.exhausted = false := by
        rw [decides] at hdecide
        exact hdecide.exhausted h
      obtain ⟨-, hself⟩ := charge_ok hcharged
      have hnext := hstack.charge (memoryReference id)
      have hfound := Found.begin id hafter hnext.decided
      obtain ⟨hanswer, hend, hwalked⟩ := decideMemory_ok hvisit hfound
        (fun m hadmitted before link after hsplit hok b hb s hs hexhausted => by
          obtain ⟨hanswer, hend, hdecided⟩ :=
            ih (hnext.push uncached inactive hadmitted hsplit hok hb hs) hs.known hexhausted
          rw [hs.active] at hdecided
          exact ⟨hanswer, hend, hdecided⟩) (by rw [decides]; exact h)
      rw [decides] at hanswer hend hwalked hdecide
      refine ⟨hanswer, hend.settle hanswer (hdecide.seen hself) hwalked, .inl ?_⟩
      simp [RequestState.settle]

/-- The references that the decisions about some memories need, when they are all among `all`. -/
structure Covers (w : MemoryStore) (q : MemoryRequest) (mode : ReadMode) (all : Finset RefText)
    (covered : Uuid → Prop) : Prop where
  self : ∀ a, covered a → memoryReference a ∈ all
  source : ∀ a link b, covered a → Walked w q mode a link → link.source = some b → covered b
  record : ∀ a link r, covered a → Walked w q mode a link → link.supersessionLineage = false →
    link.ref.parse = some r → isMemoryRef r = false → link.ref ∈ all

/-- A request that has charged references of a set only, and was not stopped. -/
structure Within (all : Finset RefText) (st : RequestState) : Prop where
  seen : st.seen ⊆ all
  exhausted : st.exhausted = false

/-- What the reading of a link that is come to needs is among the references. -/
structure Needs (w : MemoryStore) (q : MemoryRequest) (mode : ReadMode)
    (visit : Uuid → RequestState → Decision × RequestState) (all : Finset RefText)
    (active : Finset Uuid) (decided : Set Uuid) (before : List MemoryLinkRow)
    (link : MemoryLinkRow) : Prop where
  source : ∀ b, link.source = some b → ∀ s, Found w q mode active decided before s →
    Within all s → Within all (visit b s).2
  record : ∀ r, link.supersessionLineage = false → link.ref.parse = some r →
    isMemoryRef r = false → link.ref ∈ all

section Reading

variable {active : Finset Uuid} {decided : Set Uuid} {before : List MemoryLinkRow}

theorem readLink_within (hcard : all.card ≤ q.limit)
    (hfound : Found w q mode active decided before st) (hwithin : Within all st)
    (hneeds : Needs w q mode visit all active decided before link) :
    Within all (readLink w q visit link st).2 := by
  by_cases hmarked : link.supersessionLineage = true
  · rw [readLink, if_pos hmarked]
    exact hwithin
  cases hparse : link.ref.parse with
  | none =>
    rw [readLink, if_neg hmarked, hparse]
    exact hwithin
  | some r =>
    by_cases hmemory : isMemoryRef r = true
    · have hnamed : link.source = some r.id := by
        rw [MemoryLinkRow.source, if_neg hmarked, hparse, Option.bind_some, if_pos hmemory]
      rw [(readLink_memory w q st visit hmarked hparse hmemory).1]
      exact hneeds.source r.id hnamed st hfound hwithin
    · rw [(readLink_other w q st visit hmarked hparse hmemory).1]
      have hmem := hneeds.record r (by simpa using hmarked) hparse (by simpa using hmemory)
      obtain ⟨hexhausted, hseen⟩ := charge_within hmem hwithin.seen hcard hwithin.exhausted
      exact ⟨hseen, hexhausted⟩

theorem readLinks_within (hcard : all.card ≤ q.limit) (hvisit : ∀ b s, Grows s (visit b s).2)
    (hfound : Found w q mode active decided before st) (hwithin : Within all st)
    (hlinks : ∀ between link after, links = between ++ link :: after →
      (∀ l ∈ between, LinkOk w q mode l) →
        (∀ b, link.source = some b → Visits w q mode visit active decided (before ++ between) b) ∧
          Needs w q mode visit all active decided (before ++ between) link) :
    Within all (readLinks w q visit links st).2 := by
  induction links generalizing st before with
  | nil => exact hwithin
  | cons link rest ih =>
    obtain ⟨hvisits, hneeds⟩ := hlinks [] link rest rfl (by simp)
    rw [List.append_nil] at hvisits hneeds
    have hfirst := readLink_within hcard hfound hwithin hneeds
    obtain ⟨hafter, hsettled, hlink⟩ := readLink_ok hvisit hfound hvisits hfirst.exhausted
    have hnext := hfound.read (readLink_grows hvisit link st) hafter hsettled
    rw [readLinks]
    rcases hread : readLink w q visit link st with ⟨state | head, t⟩
    · rw [hread] at hfirst
      exact hfirst
    · rw [hread] at hfirst hnext hlink
      have hrest : Within all (readLinks w q visit rest t).2 := by
        refine ih hnext hfirst fun between l after hsplit hbetween => ?_
        rw [List.append_assoc]
        refine hlinks (link :: between) l after (by rw [hsplit]; rfl) fun k hk => ?_
        obtain rfl | hmem := List.mem_cons.mp hk
        · exact hlink.1
        · exact hbetween k hmem
      dsimp only
      rcases hlater : readLinks w q visit rest t with ⟨state | heads, u⟩ <;>
        rw [hlater] at hrest <;> exact hrest

theorem decideMemory_within (hcard : all.card ≤ q.limit) (hvisit : ∀ b s, Grows s (visit b s).2)
    (hfound : Found w q mode active decided [] st) (hwithin : Within all st)
    (hlinks : ∀ m, Admitted w q mode id m → ∀ before link after,
      m.links = before ++ link :: after → (∀ l ∈ before, LinkOk w q mode l) →
        (∀ b, link.source = some b → Visits w q mode visit active decided before b) ∧
          Needs w q mode visit all active decided before link) :
    Within all (decideMemory w q mode visit id st).2 := by
  unfold decideMemory
  split_ifs with hreader
  · split
    · exact hwithin
    next m hm =>
    split_ifs with hadmits
    · have hread : Within all (readLinks w q visit m.links st).2 :=
        readLinks_within hcard hvisit hfound hwithin (hlinks m ⟨hm, hreader, hadmits⟩)
      rcases hend : readLinks w q visit m.links st with ⟨state | heads, t⟩ <;>
        rw [hend] at hread <;> exact hread
    · exact hwithin
  · exact hwithin

end Reading

/-- A walk over covered memories is never stopped. -/
theorem eligibleMemory_within {first : Uuid} {room : ℕ} {stack : List Uuid} {decided : Set Uuid}
    {covered : Uuid → Prop} (hshallow : Shallow w q (first, mode))
    (hcovers : Covers w q mode all covered) (hcard : all.card ≤ q.limit)
    (hstack : Stacked w q mode first room stack decided id st) (hknown : Known w q mode st)
    (hwithin : Within all st) (hid : covered id) :
    Within all (eligibleMemory w q mode room id st).2 := by
  induction room generalizing id stack decided st with
  | zero => exact absurd rfl (hstack.room_pos hshallow)
  | succ room ih =>
    have hafter : Known w q mode (q.charge st (memoryReference id)).2 := charge_known hknown
    obtain ⟨hexhausted, hseen⟩ :=
      charge_within (hcovers.self id hid) hwithin.seen hcard hwithin.exhausted
    have hcharged : Within all (q.charge st (memoryReference id)).2 := ⟨hseen, hexhausted⟩
    have hcase := visitCase w q mode room id st
    generalize eligibleMemory w q mode (room + 1) id st = answer at hcase ⊢
    cases hcase with
    | refused spent => exact hcharged
    | kept d charged cached => exact hcharged
    | cycle charged active => exact hcharged
    | decided r charged uncached inactive decides =>
      have hnext := hstack.charge (memoryReference id)
      have hfound := Found.begin id hafter hnext.decided
      have hstarted : Within all ((q.charge st (memoryReference id)).2.start id) :=
        ⟨hcharged.seen, hcharged.exhausted⟩
      have hdecide : Within all (decideMemory w q mode (eligibleMemory w q mode room) id
          ((q.charge st (memoryReference id)).2.start id)).2 := by
        refine decideMemory_within hcard (eligibleMemory_grows w q mode room) hfound hstarted ?_
        intro m hadmitted before link after hsplit hok
        have hlink : Walked w q mode id link := ⟨m, hadmitted, before, after, hsplit, hok⟩
        refine ⟨fun b hb s hs hlasts => ?_, fun b hb s hs hinside => ?_,
          fun r => hcovers.record id link r hid hlink⟩
        · obtain ⟨hanswer, hend, hdecided⟩ := eligibleMemory_ok hshallow
            (hnext.push uncached inactive hadmitted hsplit hok hb hs) hs.known hlasts
          rw [hs.active] at hdecided
          exact ⟨hanswer, hend, hdecided⟩
        · exact ih (hnext.push uncached inactive hadmitted hsplit hok hb hs) hs.known hinside
            (hcovers.source id link b hid hlink hb)
      rw [decides] at hdecide
      exact ⟨hdecide.seen, hdecide.exhausted⟩

/-- A request between two questions. -/
structure Idle (w : MemoryStore) (q : MemoryRequest) (st : RequestState) : Prop where
  known : ∀ mode, Known w q mode st
  active : st.active = ∅

theorem idle_fresh : Idle w q .fresh := by
  refine ⟨fun mode => ⟨fun a m d hd => ?_, fun a m hd => ?_, Nat.zero_le _⟩, rfl⟩
  · cases hd
  · cases hd

/-- A question that is not stopped is answered as the memory is, and kept. -/
theorem ask_ok {a : Uuid × ReadMode} (hshallow : Shallow w q a) (hidle : Idle w q st)
    (h : (ask w q st a).2.exhausted = false) :
    (ask w q st a).1 = verdict w q a.2 a.1 ∧ Idle w q (ask w q st a).2 ∧
      ((ask w q st a).2.decisions.lookup a).isSome = true := by
  have hgrows := eligibleMemory_grows w q a.2 (q.depthLimit + 1) a.1 st
  obtain ⟨hanswer, hend, hdecided⟩ :=
    eligibleMemory_ok hshallow (.initial hidle.active) (hidle.known a.2) h
  have hactive : (ask w q st a).2.active = ∅ := hgrows.active.trans hidle.active
  refine ⟨hanswer, ⟨fun mode => ⟨hend.answers, fun b m hb => ?_, hend.bounded⟩, hactive⟩, ?_⟩
  · obtain ⟨hmem, hlinks⟩ := hend.charged b m hb
    refine ⟨hmem, fun link hlink => ⟨fun c hc => ?_, (hlinks link hlink).record⟩⟩
    obtain hkept | ⟨-, hnever⟩ := (hlinks link hlink).source c hc
    · exact .inl hkept
    · have hempty : c ∈ (ask w q st a).2.active := hnever
      rw [hactive] at hempty
      cases hempty
  · obtain hkept | hnever := hdecided
    · exact hkept
    · rw [hidle.active] at hnever
      cases hnever

theorem answers_grows (asks : List (Uuid × ReadMode)) (st : RequestState) :
    Grows st (answers w q asks st).2 := by
  induction asks generalizing st with
  | nil => exact .refl st
  | cons a rest ih =>
    exact (eligibleMemory_grows w q a.2 (q.depthLimit + 1) a.1 st).trans (ih _)

/-- Questions that are not stopped are answered as their memories are, and kept. -/
theorem answers_ok {asks : List (Uuid × ReadMode)} (hshallow : ∀ a ∈ asks, Shallow w q a)
    (hidle : Idle w q st) (h : (answers w q asks st).2.exhausted = false) :
    (answers w q asks st).1 = asks.map (fun a => verdict w q a.2 a.1) ∧
      Idle w q (answers w q asks st).2 ∧
        ∀ a ∈ asks, ((answers w q asks st).2.decisions.lookup a).isSome = true := by
  induction asks generalizing st with
  | nil => exact ⟨rfl, hidle, fun a ha => by cases ha⟩
  | cons a rest ih =>
    have hrest := answers_grows (w := w) (q := q) rest (ask w q st a).2
    obtain ⟨hfirst, hbetween, hkept⟩ :=
      ask_ok (hshallow a List.mem_cons_self) hidle (hrest.exhausted h)
    obtain ⟨hlater, hend, hall⟩ :=
      ih (fun b hb => hshallow b (List.mem_cons_of_mem _ hb)) hbetween h
    refine ⟨?_, hend, fun b hb => ?_⟩
    · rw [List.map_cons, ← hfirst, ← hlater]
      rfl
    · obtain rfl | hmem := List.mem_cons.mp hb
      · exact hrest.decisions _ hkept
      · exact hall b hmem

/-- A memory that a request decided without being stopped is decided the same alone: the fresh
request needs no reference that the other one did not charge. -/
theorem answerAlone_of_decided {a : Uuid × ReadMode} (hshallow : Shallow w q a)
    (hidle : Idle w q st) (hdecided : (st.decisions.lookup a).isSome = true) :
    answerAlone w q a = verdict w q a.2 a.1 := by
  have hknown := hidle.known a.2
  have hsource (b : Uuid) (link : MemoryLinkRow) (c : Uuid)
      (hb : (st.decisions.lookup (b, a.2)).isSome = true) (hlink : Walked w q a.2 b link)
      (hc : link.source = some c) : (st.decisions.lookup (c, a.2)).isSome = true := by
    obtain hkept | ⟨-, hnever⟩ := ((hknown.charged b a.2 hb).2 link hlink).source c hc
    · exact hkept
    · rw [hidle.active] at hnever
      cases hnever
  have hcovers : Covers w q a.2 st.seen fun b =>
      (st.decisions.lookup (b, a.2)).isSome = true :=
    { self := fun b hb => (hknown.charged b a.2 hb).1
      source := hsource
      record := fun b link r hb hlink =>
        ((hknown.charged b a.2 hb).2 link hlink).record r }
  have hfresh : Within st.seen RequestState.fresh := ⟨Finset.empty_subset _, rfl⟩
  have hend := eligibleMemory_within hshallow hcovers hknown.bounded
    (.initial rfl) (idle_fresh.known a.2) hfresh hdecided
  exact (ask_ok hshallow idle_fresh hend.exhausted).1

/-- The memories that a request keeps as eligible are admitted, whatever stopped the others. -/
def KeepsAdmitted (w : MemoryStore) (q : MemoryRequest) (st : RequestState) : Prop :=
  ∀ a mode row heads, st.decisions.lookup (a, mode) = some (.eligible row heads) →
    ∃ m, Admitted w q mode a m ∧ m.row = row

theorem readLink_keeps (hvisit : ∀ b s, KeepsAdmitted w q s → KeepsAdmitted w q (visit b s).2)
    (h : KeepsAdmitted w q st) : KeepsAdmitted w q (readLink w q visit link st).2 := by
  by_cases hmarked : link.supersessionLineage = true
  · rw [readLink, if_pos hmarked]
    exact h
  cases hparse : link.ref.parse with
  | none =>
    rw [readLink, if_neg hmarked, hparse]
    exact h
  | some r =>
    by_cases hmemory : isMemoryRef r = true
    · rw [(readLink_memory w q st visit hmarked hparse hmemory).1]
      exact hvisit r.id st h
    · rw [(readLink_other w q st visit hmarked hparse hmemory).1, KeepsAdmitted,
        charge_decisions]
      exact h

theorem readLinks_keeps (hvisit : ∀ b s, KeepsAdmitted w q s → KeepsAdmitted w q (visit b s).2)
    (h : KeepsAdmitted w q st) : KeepsAdmitted w q (readLinks w q visit links st).2 := by
  induction links generalizing st with
  | nil => exact h
  | cons link rest ih =>
    have hfirst : KeepsAdmitted w q (readLink w q visit link st).2 := readLink_keeps hvisit h
    rw [readLinks]
    rcases hread : readLink w q visit link st with ⟨state | head, t⟩ <;> rw [hread] at hfirst
    · exact hfirst
    · have hrest := ih hfirst
      dsimp only at hrest ⊢
      rcases hlater : readLinks w q visit rest t with ⟨state | heads, u⟩ <;>
        rw [hlater] at hrest <;> exact hrest

/-- A memory is decided eligible only when it is admitted. -/
theorem decideMemory_keeps (hvisit : ∀ b s, KeepsAdmitted w q s → KeepsAdmitted w q (visit b s).2)
    (h : KeepsAdmitted w q st) :
    KeepsAdmitted w q (decideMemory w q mode visit id st).2 ∧
      ∀ row heads, (decideMemory w q mode visit id st).1 = .eligible row heads →
        ∃ m, Admitted w q mode id m ∧ m.row = row := by
  unfold decideMemory
  split_ifs with hreader
  · split
    · exact ⟨h, fun row heads heq => by cases heq⟩
    next m hm =>
    split_ifs with hadmits
    · have hlinks : KeepsAdmitted w q (readLinks w q visit m.links st).2 :=
        readLinks_keeps hvisit h
      rcases hread : readLinks w q visit m.links st with ⟨state | found, t⟩ <;>
        rw [hread] at hlinks
      · exact ⟨hlinks, fun row heads heq => by cases heq⟩
      · refine ⟨hlinks, fun row heads heq => ?_⟩
        exact ⟨m, ⟨hm, hreader, hadmits⟩, (Decision.eligible.inj heq).1⟩
    · exact ⟨h, fun row heads heq => by cases heq⟩
  · exact ⟨h, fun row heads heq => by cases heq⟩

variable (mode) in
theorem eligibleMemory_keeps (room : ℕ) (id : Uuid) (st : RequestState) (h : KeepsAdmitted w q st) :
    KeepsAdmitted w q (eligibleMemory w q mode room id st).2 ∧
      ∀ row heads, (eligibleMemory w q mode room id st).1 = .eligible row heads →
        ∃ m, Admitted w q mode id m ∧ m.row = row := by
  induction room generalizing id st with
  | zero => exact ⟨h, fun row heads heq => by cases heq⟩
  | succ room ih =>
    have hcharged : KeepsAdmitted w q (q.charge st (memoryReference id)).2 := by
      rw [KeepsAdmitted, charge_decisions]
      exact h
    have hcase := visitCase w q mode room id st
    generalize eligibleMemory w q mode (room + 1) id st = answer at hcase ⊢
    cases hcase with
    | refused spent => exact ⟨hcharged, fun row heads heq => by cases heq⟩
    | kept d charged cached =>
      refine ⟨hcharged, fun row heads heq => hcharged id mode row heads ?_⟩
      rw [cached, ← heq]
    | cycle charged active => exact ⟨hcharged, fun row heads heq => by cases heq⟩
    | decided r charged uncached inactive decides =>
      have hstarted : KeepsAdmitted w q ((q.charge st (memoryReference id)).2.start id) := hcharged
      have hvisit (b : Uuid) (s : RequestState) (hs : KeepsAdmitted w q s) :
          KeepsAdmitted w q (eligibleMemory w q mode room b s).2 := (ih b s hs).1
      obtain ⟨hkeeps, hanswer⟩ : KeepsAdmitted w q (decideMemory w q mode
          (eligibleMemory w q mode room) id _).2 ∧ _ := decideMemory_keeps hvisit hstarted
      rw [decides] at hkeeps hanswer
      refine ⟨fun a m row heads ha => ?_, hanswer⟩
      simp only [RequestState.settle, Table.lookup_insert] at ha
      split_ifs at ha with heq
      · obtain ⟨rfl, rfl⟩ := Prod.mk.inj heq
        exact hanswer row heads (Option.some.inj ha)
      · exact hkeeps a m row heads ha

theorem answers_keeps (asks : List (Uuid × ReadMode)) (h : KeepsAdmitted w q st) :
    KeepsAdmitted w q (answers w q asks st).2 := by
  induction asks generalizing st with
  | nil => exact h
  | cons a rest ih =>
    have hask : KeepsAdmitted w q (ask w q st a).2 :=
      (eligibleMemory_keeps a.2 (q.depthLimit + 1) a.1 st h).1
    exact ih hask

/-- The candidate query takes every memory that is admitted. -/
theorem rowLocal_of_admits {m : StoredMemory} (h : q.admits mode m = true) :
    rowLocalConditions q mode m = true := by
  simp only [MemoryRequest.admits, Bool.and_eq_true, Bool.not_eq_true'] at h
  obtain ⟨⟨⟨haudience, hpurpose⟩, hage⟩, hmode⟩ := h
  simp only [rowLocalConditions, Bool.and_eq_true]
  refine ⟨⟨⟨?_, ?_⟩, hpurpose⟩, ?_⟩
  · cases hkind : m.row.audienceKind with
    | workspace => simp
    | member => simpa [MemoryRequest.audienceAdmits, hkind] using haudience
  · cases hhorizon : q.horizon with
    | none => rfl
    | some horizon =>
      cases hkind : m.row.audienceKind with
      | workspace =>
        simp only [MemoryRequest.ageExpired, hhorizon, MemoryRequest.subjectToAge, hkind] at hage
        simpa using hage
      | member => simp
  · cases mode with
    | current => exact hmode
    | history =>
      cases hreason : m.row.invalidationReason with
      | none => rfl
      | some reason => simpa [MemoryRequest.modeAdmits, hreason] using hmode

end Laws

/-- What holds of the decisions that one request takes. -/
structure DecisionLaw (w : MemoryStore) (q : MemoryRequest) : Prop where
  /-- Within its allowance, a request answers each memory as it is answered alone, when no way of a
  decision about a memory that it asks is longer than the depth limit. -/
  alone : ∀ asks, (∀ a ∈ asks, Shallow w q a) → (answers w q asks .fresh).2.exhausted = false →
    (answers w q asks .fresh).1 = asks.map (answerAlone w q)
  /-- Two orders give a memory the same answer. -/
  orderFree : ∀ (asks others : List (Uuid × ReadMode)) (i j : ℕ) (a : Uuid × ReadMode),
    (∀ b ∈ asks, Shallow w q b) → (∀ b ∈ others, Shallow w q b) →
      (answers w q asks .fresh).2.exhausted = false →
        (answers w q others .fresh).2.exhausted = false →
          asks[i]? = some a → others[j]? = some a →
            (answers w q asks .fresh).1[i]? = (answers w q others .fresh).1[j]?
  /-- The candidate query excludes no memory that is answered eligible, whatever the request
  has decided and however deep it went. -/
  rowLocal : ∀ asks a row heads,
    (ask w q (answers w q asks .fresh).2 a).1 = .eligible row heads →
      ∃ m, w.memories.lookup a.1 = some m ∧ m.row = row ∧ rowLocalConditions q a.2 m = true

/-- A read decision does not depend on what was decided before it, as long as no way of a decision
is longer than the depth limit, and the candidate query takes every eligible memory. -/
theorem decision_law (w : MemoryStore) (q : MemoryRequest) : DecisionLaw w q := by
  have halone : ∀ asks, (∀ a ∈ asks, Shallow w q a) →
      (answers w q asks .fresh).2.exhausted = false →
        (answers w q asks .fresh).1 = asks.map (answerAlone w q) := by
    intro asks hshallow hlasts
    obtain ⟨hanswers, hidle, hall⟩ := answers_ok hshallow idle_fresh hlasts
    rw [hanswers]
    refine List.map_congr_left fun a ha => ?_
    exact (answerAlone_of_decided (hshallow a ha) hidle (hall a ha)).symm
  constructor
  case alone => exact halone
  case orderFree =>
    intro asks others i j a hasks hothers hlasts hlasts' hi hj
    rw [halone asks hasks hlasts, halone others hothers hlasts', List.getElem?_map,
      List.getElem?_map, hi, hj]
  case rowLocal =>
    intro asks a row heads hanswer
    have hkeeps : KeepsAdmitted w q (answers w q asks .fresh).2 :=
      answers_keeps asks fun b mode row heads hb => by cases hb
    obtain ⟨m, hadmitted, hrow⟩ := (eligibleMemory_keeps a.2 _ a.1 _ hkeeps).2 row heads hanswer
    exact ⟨m, hadmitted.stored, hrow, rowLocal_of_admits hadmitted.admits⟩

section Sample

private def plainRow : MemoryRow := ⟨"note", .workspace, none, 0, none, none, none⟩

private def chainMemory (n k : ℕ) : StoredMemory :=
  ⟨plainRow, [], if k < n then [⟨memoryReference (k + 1), .derivedFrom, false⟩] else []⟩

/-- Memories `0` to `n`, each but the last derived from the next one. -/
private def chainStore (n : ℕ) : MemoryStore where
  memories := (List.range (n + 1)).foldl (fun t k => t.insert k (chainMemory n k)) ∅
  resolve _ := .unavailable
  contact := none

private def ownerRequest : MemoryRequest :=
  ⟨["recallatron"], .owner, none, none, 0, ⟨none⟩, maxDistinctReferences, maxReferenceDepth⟩

private def isEligible : Decision → Bool
  | .eligible _ _ => true
  | .denied _ => false

private def views (asks : List Uuid) : List Bool × Bool :=
  let (ds, st) := answers (chainStore 65) ownerRequest (asks.map fun a => (a, .current)) .fresh
  (ds.map isEligible, st.exhausted)

/-- With a chain of sixty-five links, the second memory of the chain is eligible when it is asked
first, and denied when the first memory was asked before it: no allowance is spent in either
order. -/
theorem deep_chain_denies_later : views [1, 0] = ([true, true], false) ∧
    views [0, 1] = ([false, false], false) := by
  decide +kernel

private def goneLink : MemoryLinkRow := ⟨.ref ⟨"leads", "lead", 1⟩, .about, false⟩

/-- Memories `0` to `66` in a chain, where a link of the first one denies before the chain
begins. -/
private def blockedStore : MemoryStore :=
  { chainStore 66 with
    memories := (chainStore 66).memories.insert 0
      ⟨plainRow, [], goneLink :: (chainMemory 66 0).links⟩ }

private theorem lookup_chain {n N id : ℕ} {m : StoredMemory}
    (h : ((List.range N).foldl (fun t k => t.insert k (chainMemory n k))
      (∅ : Table Uuid StoredMemory)).lookup id = some m) : id < N ∧ m = chainMemory n id := by
  induction N with
  | zero => cases h
  | succ N ih =>
    rw [List.range_succ, List.foldl_append, List.foldl_cons, List.foldl_nil,
      Table.lookup_insert] at h
    split_ifs at h with hid
    · exact ⟨by omega, by rw [hid]; exact (Option.some.inj h).symm⟩
    · obtain ⟨hlt, hm⟩ := ih h
      exact ⟨by omega, hm⟩

/-- The walk from the first memory stops at its first link. -/
private theorem blocked_trail {path : List Uuid} {decided : Set Uuid}
    (h : IsTrail blockedStore ownerRequest .current 0 path decided) : path = [0] := by
  induction h with
  | start => rfl
  | step id b path decided m before link after trail undecided new admitted split ok named ih =>
    obtain ⟨rfl, -⟩ := List.cons.inj ih
    obtain rfl : _ = m := Option.some.inj ((AList.lookup_insert _).symm.trans admitted.stored)
    cases before with
    | nil =>
      obtain ⟨rfl, -⟩ := List.cons.inj split
      cases named
    | cons first before =>
      obtain ⟨rfl, -⟩ := List.cons.inj split
      cases (ok goneLink List.mem_cons_self).head

/-- The chain from memory `2` counts up to the last one. -/
private theorem counted_trail {path : List Uuid} {decided : Set Uuid}
    (h : IsTrail blockedStore ownerRequest .current 2 path decided) :
    ∃ (k : ℕ) (rest : List Uuid), path = k :: rest ∧ k = 2 + rest.length ∧ k ≤ 66 := by
  induction h with
  | start => exact ⟨2, [], rfl, rfl, by decide⟩
  | step id b path decided m before link after trail undecided new admitted split ok named ih =>
    obtain ⟨k, rest, heq, hk, -⟩ := ih
    obtain ⟨rfl, rfl⟩ := List.cons.inj heq.symm
    have hne : k ≠ 0 := by omega
    have hlookup := admitted.stored
    rw [show blockedStore.memories.lookup k = _ from AList.lookup_insert_ne hne] at hlookup
    obtain ⟨-, rfl⟩ := lookup_chain hlookup
    by_cases hlt : k < 66
    · rw [chainMemory, if_pos hlt] at split
      obtain ⟨rfl, rfl, rfl⟩ : before = [] ∧ link = _ ∧ after = [] := by
        cases before with
        | nil => exact ⟨rfl, (List.cons.inj split).1.symm, (List.cons.inj split).2.symm⟩
        | cons first before => cases before <;> cases split
      obtain rfl : k + 1 = b := Option.some.inj named
      exact ⟨k + 1, k :: rest, rfl, by rw [List.length_cons]; omega, hlt⟩
    · rw [chainMemory, if_neg hlt] at split
      cases before <;> cases split

private def blockedAsks : List (Uuid × ReadMode) := [(0, .current), (2, .current)]

private theorem blocked_shallow : ∀ a ∈ blockedAsks, Shallow blockedStore ownerRequest a := by
  intro a ha path decided htrail
  rcases List.mem_pair.mp ha with rfl | rfl
  · rw [blocked_trail htrail]
    decide
  · obtain ⟨k, rest, rfl, hk, hle⟩ := counted_trail htrail
    change rest.length + 1 ≤ 64 + 1
    omega

/-- The chain behind the link that denies is longer than the depth limit, and the chain from memory
`2` just as long: both are answered as they are answered alone, in either order. -/
theorem blocked_answers : (answers blockedStore ownerRequest blockedAsks .fresh).1 =
      blockedAsks.map (answerAlone blockedStore ownerRequest) ∧
    (answers blockedStore ownerRequest blockedAsks .fresh).1[1]? =
      (answers blockedStore ownerRequest blockedAsks.reverse .fresh).1[0]? :=
  ⟨(decision_law blockedStore ownerRequest).alone _ blocked_shallow (by decide +kernel),
    (decision_law blockedStore ownerRequest).orderFree _ _ 1 0 (2, .current) blocked_shallow
      (fun b hb => blocked_shallow b (List.mem_reverse.mp hb)) (by decide +kernel)
      (by decide +kernel) rfl rfl⟩

end Sample

end Rheostream.Recallatron
