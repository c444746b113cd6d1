import Rheostream.Bridge.SpoolLaws

/-!
# Passes over the spool

What one pass writes is said session by session, and so is what passes write in turn.
-/

namespace Rheostream.Bridge

variable {D : Type} (py : SpoolLoads D)

/-- What a line says of a session. -/
def sightOf (passAt : ℤ) (sessionHash : PyStr) (raw : List UInt8) : Option Sight :=
  match spoolLocator py raw with
  | .sighted locator =>
    if locator.sessionHash = sessionHash then
      some ⟨locator.isEnd, locator.transcriptPath, locator.lineAt.getD passAt⟩
    else none
  | _ => none

/-- What lines say of a session. -/
def sightsOf (passAt : ℤ) (lines : List (List UInt8)) (sessionHash : PyStr) : List Sight :=
  lines.filterMap (sightOf py passAt sessionHash)

/-- A malformed line. -/
def isMalformed (raw : List UInt8) : Bool :=
  match spoolLocator py raw with
  | .malformed => true
  | _ => false

/-- A line that can be read, and what it says can be stored. -/
def Readable (passAt : ℤ) (raw : List UInt8) : Prop :=
  match spoolLocator py raw with
  | .raised => False
  | .malformed => True
  | .sighted locator =>
    bindable locator.sessionHash = true ∧ bindable locator.transcriptPath = true ∧
      fits (locator.lineAt.getD passAt) = true

/-- The stored times are integers SQLite can store. -/
def Stored (sessions : Table PyStr SessionRow) : Prop :=
  ∀ sessionHash row, sessions.lookup sessionHash = some row →
    ∀ t ∈ row.lastSeenAt, fits t = true

theorem fits_iff {n : ℤ} :
    fits n = true ↔ -9223372036854775808 ≤ n ∧ n ≤ 9223372036854775807 := by
  rw [fits, Bool.and_eq_true, decide_eq_true_eq, decide_eq_true_eq]

theorem fits_max {m n : ℤ} (hm : fits m = true) (hn : fits n = true) : fits (max m n) = true := by
  rw [fits_iff] at hm hn ⊢
  omega

variable {sighting : Sighting}

theorem storable_iff :
    sighting.storable = true ↔ bindable sighting.transcriptPath = true ∧
      fits sighting.seenAt = true ∧ ∀ t ∈ sighting.endedAt, fits t = true := by
  rw [Sighting.storable, Bool.and_eq_true, Bool.and_eq_true, and_assoc]
  cases sighting.endedAt with
  | none => simp
  | some t => simp

/-- What can be stored still can with one more line. -/
theorem storable_join {isEnd : Bool} {path : PyStr} {t : ℤ} {sighting : Option Sighting}
    (hpath : bindable path = true) (ht : fits t = true) (h : ∀ s ∈ sighting, s.storable = true) :
    (Sighting.join isEnd path t sighting).storable = true := by
  have hended : ∀ e ∈ sighting.bind Sighting.endedAt, fits e = true := by
    intro e he
    obtain ⟨s, hs, he⟩ := Option.bind_eq_some_iff.mp he
    exact (storable_iff.mp (h s hs)).2.2 e he
  rw [storable_iff, join_path, join_seen, join_ended]
  refine ⟨hpath, ?_, ?_⟩
  · cases sighting with
    | none => exact ht
    | some s => exact fits_max (storable_iff.mp (h s rfl)).2.1 ht
  · cases isEnd with
    | false => exact hended
    | true =>
      intro e he
      obtain rfl := Option.some.inj he
      refine fits_max ?_ ht
      cases hlast : sighting.bind Sighting.endedAt with
      | none => rfl
      | some e => exact hended e hlast

/-! ## One pass -/

variable {passAt : ℤ}

/-- The sightings of the lines: what each session's lines add up to. -/
theorem sightings_spec {lines : List (List UInt8)}
    (hread : ∀ raw ∈ lines, Readable py passAt raw) {d : List (PyStr × Sighting)} (n : ℕ)
    (hkeys : (d.map Prod.fst).Nodup)
    (hstorable : ∀ k s, d.lookup k = some s → bindable k = true ∧ s.storable = true) :
    ∃ d', sightings py passAt lines (d, n) = some (d', n + lines.countP (isMalformed py)) ∧
      (d'.map Prod.fst).Nodup ∧
      (∀ k s, d'.lookup k = some s → bindable k = true ∧ s.storable = true) ∧
      ∀ k, d'.lookup k = gather (d.lookup k) (sightsOf py passAt lines k) := by
  induction lines generalizing d n with
  | nil => exact ⟨d, rfl, hkeys, hstorable, fun _ => rfl⟩
  | cons raw lines ih =>
    have hraw := hread raw List.mem_cons_self
    have hrest := fun b hb => hread b (List.mem_cons_of_mem _ hb)
    rw [Readable] at hraw
    cases hlocated : spoolLocator py raw with
    | raised =>
      rw [hlocated] at hraw
      exact hraw.elim
    | malformed =>
      obtain ⟨d', heq, hkeys', hstorable', hlookup⟩ := ih hrest (n + 1) hkeys hstorable
      refine ⟨d', ?_, hkeys', hstorable', ?_⟩
      · have hmalformed : isMalformed py raw = true := by rw [isMalformed, hlocated]
        rw [sightings, hlocated, List.countP_cons_of_pos hmalformed]
        dsimp only
        rw [heq, Nat.add_assoc, Nat.add_comm 1]
      · intro k
        have hnone : sightOf py passAt k raw = none := by rw [sightOf, hlocated]
        rw [hlookup, sightsOf, sightsOf, List.filterMap_cons, hnone]
    | sighted locator =>
      rw [hlocated] at hraw
      obtain ⟨hhash, hpath, ht⟩ := hraw
      have hjoined : ∀ k s, (OrderedDict.set d locator.sessionHash
          (Sighting.join locator.isEnd locator.transcriptPath (locator.lineAt.getD passAt)
            (d.lookup locator.sessionHash))).lookup k = some s →
          bindable k = true ∧ s.storable = true := by
        intro k s hs
        rw [OrderedDict.lookup_set] at hs
        split_ifs at hs with hk
        · subst hk
          obtain rfl := Option.some.inj hs
          exact ⟨hhash, storable_join hpath ht fun s hs => (hstorable _ s hs).2⟩
        · exact hstorable k s hs
      obtain ⟨d', heq, hkeys', hstorable', hlookup⟩ :=
        ih hrest n (OrderedDict.nodup_keys_set hkeys) hjoined
      refine ⟨d', ?_, hkeys', hstorable', ?_⟩
      · have hformed : ¬isMalformed py raw = true := by
          rw [isMalformed, hlocated]
          exact Bool.false_ne_true
        rw [sightings, hlocated, List.countP_cons_of_neg hformed]
        exact heq
      · intro k
        rw [hlookup, OrderedDict.lookup_set, sightsOf, sightsOf, List.filterMap_cons, sightOf,
          hlocated]
        dsimp only
        by_cases hk : k = locator.sessionHash
        · subst hk
          rw [if_pos rfl, if_pos rfl]
          rfl
        · rw [if_neg hk, if_neg fun h => hk h.symm]

theorem fits_rowAfter {row : Option SessionRow} (hrow : ∀ r ∈ row, ∀ t ∈ r.lastSeenAt,
      fits t = true) (hseen : fits sighting.seenAt = true) :
    ∀ t ∈ (rowAfter row sighting).lastSeenAt, fits t = true := by
  intro t ht
  cases row with
  | none =>
    obtain rfl := Option.some.inj ht
    exact hseen
  | some r =>
    rw [rowAfter] at ht
    cases hclosed : r.closedAt with
    | none =>
      rw [hclosed] at ht
      obtain rfl := Option.some.inj ht
      cases hlast : r.lastSeenAt with
      | none => exact hseen
      | some last => exact fits_max hseen (hrow r rfl last hlast)
    | some closedAt =>
      rw [hclosed] at ht
      dsimp only at ht
      split at ht
      · exact hrow r rfl t ht
      · obtain rfl := Option.some.inj ht
        exact hseen

variable {sessions : Table PyStr SessionRow}

/-- The writes for one session change its row, as the sighting says. -/
theorem foldSighting_spec (hstored : Stored sessions)
    {sessionHash : PyStr} (hhash : bindable sessionHash = true)
    (hstorable : sighting.storable = true) :
    ∃ sessions', foldSighting sessions sessionHash sighting = some sessions' ∧
      ∀ k, sessions'.lookup k =
        if k = sessionHash then some (rowAfter (sessions.lookup sessionHash) sighting)
        else sessions.lookup k := by
  obtain ⟨hpath, hseen, hended⟩ := storable_iff.mp hstorable
  rw [foldSighting, if_pos hhash]
  cases hrow : sessions.lookup sessionHash with
  | none =>
    dsimp only
    rw [upsertSession, hhash, hstorable, hrow]
    refine ⟨_, rfl, fun k => ?_⟩
    rw [Table.lookup_insert]
    rfl
  | some row =>
    dsimp only
    cases hclosed : row.closedAt with
    | none =>
      dsimp only
      have hseen' : fits (row.lastSeenAt.elim sighting.seenAt (max sighting.seenAt ·)) = true := by
        cases hlast : row.lastSeenAt with
        | none => exact hseen
        | some last => exact fits_max hseen (hstored sessionHash row hrow last hlast)
      have hstorable' : Sighting.storable ⟨sighting.transcriptPath,
          row.lastSeenAt.elim sighting.seenAt (max sighting.seenAt ·), sighting.endedAt⟩ = true :=
        storable_iff.mpr ⟨hpath, hseen', hended⟩
      rw [upsertSession, hhash, hstorable', hrow]
      refine ⟨_, rfl, fun k => ?_⟩
      rw [Table.lookup_insert]
      simp only [rowAfter, hclosed]
    | some closedAt =>
      dsimp only
      rw [reopen]
      by_cases hstale : sighting.seenAt < closedAt
      · refine ⟨sessions, if_pos hstale, fun k => ?_⟩
        by_cases hk : k = sessionHash
        · rw [if_pos hk, hk, hrow]
          simp only [rowAfter, hclosed, hstale, if_true]
        · rw [if_neg hk]
      · have hended' : ∀ t ∈ sighting.endedAt.filter fun endedAt => !decide (endedAt < closedAt),
            fits t = true := fun t ht =>
          hended t (Option.filter_eq_some_iff.mp ht).1
        have hstorable' : Sighting.storable ⟨sighting.transcriptPath, sighting.seenAt,
            sighting.endedAt.filter fun endedAt => !decide (endedAt < closedAt)⟩ = true :=
          storable_iff.mpr ⟨hpath, hseen, hended'⟩
        rw [if_neg hstale, reopenSession, hhash, hstorable']
        refine ⟨_, rfl, fun k => ?_⟩
        rw [Table.updateIf_of_guard hrow rfl, Table.lookup_insert]
        simp only [rowAfter, hclosed, hstale, if_false]

theorem Stored.foldSighting {sessions' : Table PyStr SessionRow}
    (hstored : Stored sessions)
    {sessionHash : PyStr} (hstorable : sighting.storable = true)
    (h : ∀ k, sessions'.lookup k =
      if k = sessionHash then some (rowAfter (sessions.lookup sessionHash) sighting)
      else sessions.lookup k) : Stored sessions' := by
  intro k row hrow
  rw [h] at hrow
  split_ifs at hrow with hk
  · obtain rfl := Option.some.inj hrow
    exact fits_rowAfter (fun r hr => hstored sessionHash r hr) (storable_iff.mp hstorable).2.1
  · exact hstored k row hrow

/-- The writes for every session change its row, as its sighting says. -/
theorem foldSightings_spec {d : List (PyStr × Sighting)} (hkeys : (d.map Prod.fst).Nodup)
    (hstorable : ∀ e ∈ d, bindable e.1 = true ∧ e.2.storable = true)
    (hstored : Stored sessions) :
    ∃ sessions', foldSightings d sessions = some sessions' ∧ Stored sessions' ∧
      ∀ k, sessions'.lookup k = match d.lookup k with
        | none => sessions.lookup k
        | some sighting => some (rowAfter (sessions.lookup k) sighting) := by
  induction d generalizing sessions with
  | nil => exact ⟨sessions, rfl, hstored, fun _ => rfl⟩
  | cons e d ih =>
    obtain ⟨sessionHash, sighting⟩ := e
    obtain ⟨hnew, hkeys⟩ := List.nodup_cons.mp hkeys
    obtain ⟨hhash, hsighting⟩ := hstorable (sessionHash, sighting) List.mem_cons_self
    obtain ⟨next, hnext, hlookup⟩ := foldSighting_spec hstored hhash hsighting
    obtain ⟨last, hlast, hstored', hlookup'⟩ :=
      ih hkeys (fun e he => hstorable e (List.mem_cons_of_mem _ he))
        (hstored.foldSighting hsighting hlookup)
    refine ⟨last, by rw [foldSightings, hnext]; exact hlast, hstored', fun k => ?_⟩
    rw [hlookup', hlookup, List.lookup_cons]
    by_cases hk : k = sessionHash
    · subst hk
      rw [OrderedDict.lookup_eq_none.mpr hnew, beq_self_eq_true]
      exact if_pos rfl
    · have hne : (k == sessionHash) = false := beq_eq_false_iff_ne.mpr hk
      rw [hne, if_neg hk]

theorem complete_whole {data : List UInt8} (h : WholeLines data) : complete data = data := by
  rcases h with rfl | ⟨a, rfl⟩
  · rfl
  · simp [complete]

/-- A pass over whole lines behind what was read: every session's row changes as its lines say. -/
theorem foldFile_spec {past : Bool} {file appended : List UInt8} {s : SpoolState}
    (hoffset : s.offset.getD 0 = file.length) (hwhole : WholeLines appended)
    (hstored : Stored s.sessions) (hread : ∀ raw ∈ bytesLines appended, Readable py passAt raw) :
    ∃ t, foldFile py past passAt (file ++ appended) s = some t ∧ Stored t.sessions ∧
      t.malformed = s.malformed + (bytesLines appended).countP (isMalformed py) ∧
      t.offset = (if past then none else some (file.length + appended.length)) ∧
      ∀ k, t.sessions.lookup k =
        passRow (s.sessions.lookup k) (sightsOf py passAt (bytesLines appended) k) := by
  have hspool : readSpoolFile s.offset (file ++ appended) = (file.length, appended) := by
    rw [readSpoolFile, hoffset, List.length_append, if_neg (by omega), List.drop_left]
  obtain ⟨d, hd, hkeys, hstorable, hlookup⟩ :=
    @sightings_spec _ py passAt _ hread [] 0 List.nodup_nil fun k s hs => by cases hs
  obtain ⟨sessions, hsessions, hstored', hrows⟩ := foldSightings_spec hkeys
    (fun e he => hstorable e.1 e.2 (OrderedDict.lookup_of_mem hkeys he)) hstored
  rw [foldFile, hspool]
  dsimp only
  rw [complete_whole hwhole, hd, Option.bind_some, hsessions, Option.map_some]
  refine ⟨_, rfl, hstored', by rw [Nat.zero_add], ?_, fun k => ?_⟩
  · rw [beq_self_eq_true, Bool.and_true]
  · have hgather : d.lookup k = gather none (sightsOf py passAt (bytesLines appended) k) :=
      hlookup k
    refine (hrows k).trans ?_
    exact hgather ▸ rfl

/-! ## Passes in turn -/

/-- What the passes append. -/
def appendedBy (passes : List SpoolPass) : List UInt8 := passes.flatMap SpoolPass.appended

theorem appendedBy_cons (pass : SpoolPass) (passes : List SpoolPass) :
    appendedBy (pass :: passes) = pass.appended ++ appendedBy passes := List.flatMap_cons

variable {passes : List SpoolPass}

/-- Passes over whole lines: every session's row changes as its lines say, pass by pass. -/
theorem foldPasses_spec {past : Bool} {pass : SpoolPass}
    {file : List UInt8} {s : SpoolState} (hoffset : s.offset.getD 0 = file.length)
    (hwhole : ∀ p ∈ pass :: passes, WholeLines p.appended) (hstored : Stored s.sessions)
    (hread : ∀ p ∈ pass :: passes, ∀ raw ∈ bytesLines p.appended, Readable py p.passAt raw) :
    ∃ t, foldPasses py past file pass passes s = some t ∧
      t.malformed =
        s.malformed + (bytesLines (appendedBy (pass :: passes))).countP (isMalformed py) ∧
      t.offset = (if past then none
        else some (file.length + (appendedBy (pass :: passes)).length)) ∧
      ∀ k, t.sessions.lookup k = passesRow (s.sessions.lookup k)
        ((pass :: passes).map fun p => sightsOf py p.passAt (bytesLines p.appended) k) := by
  induction passes generalizing pass file s with
  | nil =>
    obtain ⟨t, ht, -, hmalformed, hoffset', hrows⟩ := @foldFile_spec _ py _ past _ _ _ hoffset
      (hwhole pass List.mem_cons_self) hstored (hread pass List.mem_cons_self)
    have hone : appendedBy [pass] = pass.appended := List.append_nil _
    exact ⟨t, ht, by rw [hone]; exact hmalformed, by rw [hone]; exact hoffset', hrows⟩
  | cons next passes ih =>
    have hfirst := hwhole pass List.mem_cons_self
    obtain ⟨t, ht, hstored', hmalformed, hoffset', hrows⟩ := @foldFile_spec _ py _ false _ _ _
      hoffset hfirst hstored (hread pass List.mem_cons_self)
    have hnext : t.offset.getD 0 = (file ++ pass.appended).length := by
      rw [hoffset', List.length_append]
      rfl
    obtain ⟨u, hu, hmalformed', hoffset'', hrows'⟩ := ih hnext
      (fun p hp => hwhole p (List.mem_cons_of_mem _ hp)) hstored'
      (fun p hp => hread p (List.mem_cons_of_mem _ hp))
    refine ⟨u, by rw [foldPasses, ht]; exact hu, ?_, ?_, fun k => ?_⟩
    · rw [hmalformed', hmalformed, appendedBy_cons pass, bytesLines_append hfirst,
        List.countP_append, Nat.add_assoc]
    · rw [hoffset'', appendedBy_cons pass, List.length_append, List.length_append, Nat.add_assoc]
    · rw [hrows', hrows]
      rfl

/-- What the lines of passes say of a session, when every line has its time in one pass too. -/
theorem sightsOf_appendedBy (hwhole : ∀ p ∈ passes, WholeLines p.appended)
    (htimes : ∀ p ∈ passes, ∀ raw ∈ bytesLines p.appended, ∀ locator,
      spoolLocator py raw = .sighted locator → locator.lineAt = none → p.passAt = passAt)
    (k : PyStr) :
    sightsOf py passAt (bytesLines (appendedBy passes)) k =
      (passes.map fun p => sightsOf py p.passAt (bytesLines p.appended) k).flatten := by
  induction passes with
  | nil => rfl
  | cons pass passes ih =>
    have hone : sightsOf py passAt (bytesLines pass.appended) k =
        sightsOf py pass.passAt (bytesLines pass.appended) k := by
      refine List.filterMap_congr fun raw hraw => ?_
      rw [sightOf, sightOf]
      cases hlocated : spoolLocator py raw with
      | raised => rfl
      | malformed => rfl
      | sighted locator =>
        have htime : locator.lineAt.getD passAt = locator.lineAt.getD pass.passAt := by
          cases hline : locator.lineAt with
          | some t => rfl
          | none =>
            exact (htimes pass List.mem_cons_self raw hraw locator hlocated hline).symm
        dsimp only
        rw [htime]
    rw [appendedBy_cons, bytesLines_append (hwhole pass List.mem_cons_self), sightsOf,
      List.filterMap_append, List.map_cons, List.flatten_cons]
    rw [← ih (fun p hp => hwhole p (List.mem_cons_of_mem _ hp))
      fun p hp => htimes p (List.mem_cons_of_mem _ hp)]
    exact congrArg₂ _ hone rfl

/-- Passes change no more than one pass over all that they read. -/
theorem readable_appendedBy (hwhole : ∀ p ∈ passes, WholeLines p.appended)
    (hread : ∀ p ∈ passes, ∀ raw ∈ bytesLines p.appended, Readable py p.passAt raw)
    (htimes : ∀ p ∈ passes, ∀ raw ∈ bytesLines p.appended, ∀ locator,
      spoolLocator py raw = .sighted locator → locator.lineAt = none → p.passAt = passAt) :
    WholeLines (appendedBy passes) ∧
      ∀ raw ∈ bytesLines (appendedBy passes), Readable py passAt raw := by
  induction passes with
  | nil => exact ⟨Or.inl rfl, fun raw hraw => by cases hraw⟩
  | cons pass passes ih =>
    have hfirst := hwhole pass List.mem_cons_self
    obtain ⟨hrest, hreadable⟩ := ih (fun p hp => hwhole p (List.mem_cons_of_mem _ hp))
      (fun p hp => hread p (List.mem_cons_of_mem _ hp))
      (fun p hp => htimes p (List.mem_cons_of_mem _ hp))
    rw [appendedBy_cons]
    refine ⟨?_, fun raw hraw => ?_⟩
    · rcases hrest with hnil | ⟨a, ha⟩
      · rw [hnil, List.append_nil]
        exact hfirst
      · exact Or.inr ⟨pass.appended ++ a, by rw [ha, List.append_assoc]⟩
    · rw [bytesLines_append hfirst] at hraw
      rcases List.mem_append.mp hraw with hraw | hraw
      · have hone := hread pass List.mem_cons_self raw hraw
        rw [Readable] at hone ⊢
        cases hlocated : spoolLocator py raw with
        | raised => rw [hlocated] at hone; exact hone
        | malformed => exact True.intro
        | sighted locator =>
          rw [hlocated] at hone
          refine ⟨hone.1, hone.2.1, ?_⟩
          cases hline : locator.lineAt with
          | some t =>
            have ht := hone.2.2
            rw [hline] at ht
            exact ht
          | none =>
            have ht := hone.2.2
            rw [hline, htimes pass List.mem_cons_self raw hraw locator hlocated hline] at ht
            exact ht
      · exact hreadable raw hraw

/-- Folding the spool pass by pass: the malformed count, the offset and every session's row are
those of one pass over the whole, but for when a session that was not there was first seen (the
latest time of its lines in the pass that creates its row), and for when a session ended whose ends
do not come in order. An open session's time does not move back. -/
theorem spool_folded {past : Bool} {passAt : ℤ} {pass : SpoolPass} {passes : List SpoolPass}
    {file : List UInt8} {s : SpoolState} (hoffset : s.offset.getD 0 = file.length)
    (hwhole : ∀ p ∈ pass :: passes, WholeLines p.appended) (hstored : Stored s.sessions)
    (hread : ∀ p ∈ pass :: passes, ∀ raw ∈ bytesLines p.appended, Readable py p.passAt raw)
    (htimes : ∀ p ∈ pass :: passes, ∀ raw ∈ bytesLines p.appended, ∀ locator,
      spoolLocator py raw = .sighted locator → locator.lineAt = none → p.passAt = passAt) :
    ∃ cut whole, foldPasses py past file pass passes s = some cut ∧
      foldFile py past passAt (file ++ appendedBy (pass :: passes)) s = some whole ∧
      cut.malformed = whole.malformed ∧ cut.offset = whole.offset ∧
      ∀ k,
        (cut.sessions.lookup k).map SessionRow.rest =
          (whole.sessions.lookup k).map SessionRow.rest ∧
        (∀ row, s.sessions.lookup k = some row →
          (cut.sessions.lookup k).bind SessionRow.firstSeenAt = row.firstSeenAt ∧
          (whole.sessions.lookup k).bind SessionRow.firstSeenAt = row.firstSeenAt) ∧
        (s.sessions.lookup k = none →
          (cut.sessions.lookup k).bind SessionRow.firstSeenAt =
            ((pass :: passes).map fun p => sightsOf py p.passAt (bytesLines p.appended) k).findSome?
              latestOf ∧
          (whole.sessions.lookup k).bind SessionRow.firstSeenAt =
            latestOf (sightsOf py passAt (bytesLines (appendedBy (pass :: passes))) k)) ∧
        ((∀ closedAt ∈ closedOf (s.sessions.lookup k), 0 < closedAt) →
          EndsInOrder (closedOf (s.sessions.lookup k))
            (sightsOf py passAt (bytesLines (appendedBy (pass :: passes))) k) →
          endedOf (cut.sessions.lookup k) = endedOf (whole.sessions.lookup k)) ∧
        ∀ row t, s.sessions.lookup k = some row → row.closedAt = none → row.lastSeenAt = some t →
          ∃ row' t', cut.sessions.lookup k = some row' ∧ row'.lastSeenAt = some t' ∧ t ≤ t' := by
  obtain ⟨hall, hreadable⟩ := readable_appendedBy py hwhole hread htimes
  obtain ⟨cut, hcut, hmalformed, hoffset', hrows⟩ :=
    @foldPasses_spec _ py _ past _ _ _ hoffset hwhole hstored hread
  obtain ⟨whole, hwhole', -, hmalformed', hoffset'', hrows'⟩ :=
    @foldFile_spec _ py _ past _ _ _ hoffset hall hstored hreadable
  refine ⟨cut, whole, hcut, hwhole', hmalformed.trans hmalformed'.symm,
    hoffset'.trans hoffset''.symm, fun k => ?_⟩
  have hsights := sightsOf_appendedBy py hwhole htimes k
  have hrest : (cut.sessions.lookup k).map SessionRow.rest =
      (whole.sessions.lookup k).map SessionRow.rest := by
    rw [hrows, hrows', rest_passesRow, hsights]
  refine ⟨hrest, fun row hrow => ?_, fun hnone => ?_, fun hpos horder => ?_,
    fun row t hrow hopen hlast => ?_⟩
  · rw [hrows, hrows', hrow]
    obtain ⟨row', hrow', hfirst⟩ := @firstSeen_passesRow row
      ((pass :: passes).map fun p => sightsOf py p.passAt (bytesLines p.appended) k)
    obtain ⟨row'', hrow'', hfirst'⟩ := @firstSeen_passRow row
      (sightsOf py passAt (bytesLines (appendedBy (pass :: passes))) k)
    rw [hrow', hrow'']
    exact ⟨hfirst, hfirst'⟩
  · rw [hrows, hrows', hnone]
    have hone := firstSeen_passesRow_none
      [sightsOf py passAt (bytesLines (appendedBy (pass :: passes))) k]
    rw [List.findSome?_singleton] at hone
    exact ⟨firstSeen_passesRow_none _, hone⟩
  · rw [hsights] at horder
    rw [hrows, hrows', hsights, ended_passesRow hpos horder]
  · obtain ⟨row', hrow', -, t', ht', hle⟩ := lastSeen_passRow hopen hlast
      (sightsOf py passAt (bytesLines (appendedBy (pass :: passes))) k)
    rw [hrows', hrow, hrow', Option.map_some] at hrest
    obtain ⟨cutRow, hcutRow, hsame⟩ := Option.map_eq_some_iff.mp hrest
    refine ⟨cutRow, t', hcutRow, ?_, hle⟩
    have hlastSame := congrArg SessionRow.lastSeenAt hsame
    exact hlastSame.trans ht'

/-! ## Sample lines -/

/-- A spool line of session `a`. -/
def sampleText (event stamp : String) : List UInt8 :=
  ("\x7b\"event\":" ++ event ++ ",\"session_hash\":\"a\",\"transcript_path\":\"/t\",\"at\":" ++
    stamp ++ "\x7d").toList.map fun c => UInt8.ofNat c.toNat

/-- What `json.loads` makes of a spool line of session `a`. -/
def spoolDocument (event : SpoolValue) (stamp : ℤ) : List (String × SpoolValue) :=
  [("event", event), ("session_hash", .str (pyStr "a")), ("transcript_path", .str (pyStr "/t")),
    ("at", .int stamp)]

/-- `json.loads` on four spool lines. -/
def sampleSpool : SpoolLoads (List (String × SpoolValue)) where
  loads raw :=
    if raw = sampleText "\"Stop\"" "10" then some (spoolDocument (.str (pyStr "Stop")) 10)
    else if raw = sampleText "\"SessionEnd\"" "20" then
      some (spoolDocument (.str (pyStr "SessionEnd")) 20)
    else if raw = sampleText "\"SessionEnd\"" "10" then
      some (spoolDocument (.str (pyStr "SessionEnd")) 10)
    else if raw = sampleText "[]" "10" then some (spoolDocument .container 10)
    else none
  members document := some fun name => document.lookup name

/-- A pass that finds one more line. -/
def samplePass (event stamp : String) : SpoolPass := ⟨100, sampleText event stamp ++ [10]⟩

/-- When session `a` was first seen and ended, after a fold from the start. -/
def sampleColumns (t : Option SpoolState) : Option (Option ℤ × Option ℤ) :=
  t.bind fun t => (t.sessions.lookup (pyStr "a")).map fun row => (row.firstSeenAt, row.endedAt)

/-- No session, and nothing read yet. -/
def sampleState : SpoolState := ⟨∅, 0, none⟩

/-- A stop and an end folded in two passes and in one give the same end. -/
theorem spool_folded_sample : ∃ cut whole,
    foldPasses sampleSpool false [] (samplePass "\"Stop\"" "10")
      [samplePass "\"SessionEnd\"" "20"] sampleState = some cut ∧
    foldFile sampleSpool false 100 ([] ++ appendedBy [samplePass "\"Stop\"" "10",
      samplePass "\"SessionEnd\"" "20"]) sampleState = some whole ∧
    cut.malformed = whole.malformed ∧ cut.offset = whole.offset ∧
    endedOf (cut.sessions.lookup (pyStr "a")) = endedOf (whole.sessions.lookup (pyStr "a")) := by
  have hlines : ∀ p ∈ [samplePass "\"Stop\"" "10", samplePass "\"SessionEnd\"" "20"],
      bytesLines p.appended = [sampleText "\"Stop\"" "10"] ∨
        bytesLines p.appended = [sampleText "\"SessionEnd\"" "20"] := by
    intro p hp
    rcases List.mem_pair.mp hp with rfl | rfl
    · exact Or.inl (by decide)
    · exact Or.inr (by decide)
  have hraw : ∀ p ∈ [samplePass "\"Stop\"" "10", samplePass "\"SessionEnd\"" "20"],
      ∀ raw ∈ bytesLines p.appended, raw = sampleText "\"Stop\"" "10" ∨
        raw = sampleText "\"SessionEnd\"" "20" := by
    intro p hp raw hmem
    rcases hlines p hp with h | h
    · rw [h, List.mem_singleton] at hmem
      exact Or.inl hmem
    · rw [h, List.mem_singleton] at hmem
      exact Or.inr hmem
  have hpasses : ∀ p ∈ [samplePass "\"Stop\"" "10", samplePass "\"SessionEnd\"" "20"],
      WholeLines p.appended ∧ p.passAt = 100 := by
    intro p hp
    rcases List.mem_pair.mp hp with rfl | rfl
    · exact ⟨Or.inr ⟨_, rfl⟩, rfl⟩
    · exact ⟨Or.inr ⟨_, rfl⟩, rfl⟩
  have hread : ∀ p ∈ [samplePass "\"Stop\"" "10", samplePass "\"SessionEnd\"" "20"],
      ∀ raw ∈ bytesLines p.appended, Readable sampleSpool p.passAt raw := by
    intro p hp raw hmem
    rw [(hpasses p hp).2]
    rcases hraw p hp raw hmem with rfl | rfl
    · exact ⟨by decide, by decide, by decide⟩
    · exact ⟨by decide, by decide, by decide⟩
  have hstored : Stored sampleState.sessions := fun k row hrow => by cases hrow
  obtain ⟨cut, whole, hcut, hwhole, hmalformed, hoffset, hrows⟩ :=
    @spool_folded _ sampleSpool false 100 (samplePass "\"Stop\"" "10")
      [samplePass "\"SessionEnd\"" "20"] [] sampleState rfl (fun p hp => (hpasses p hp).1) hstored
      hread fun p hp _ _ _ _ _ => (hpasses p hp).2
  have hends : sightsOf sampleSpool 100 (bytesLines (appendedBy
      [samplePass "\"Stop\"" "10", samplePass "\"SessionEnd\"" "20"])) (pyStr "a") =
      [⟨false, pyStr "/t", 10⟩, ⟨true, pyStr "/t", 20⟩] := by rfl
  refine ⟨cut, whole, hcut, hwhole, hmalformed, hoffset, (hrows (pyStr "a")).2.2.2.1 ?_ ?_⟩
  · intro closedAt h
    cases h
  · rw [hends]
    intro last hlast
    obtain rfl : 20 = last := Option.some.inj hlast
    refine ⟨?_, fun _ h => by cases h⟩
    intro e he
    obtain rfl := List.mem_singleton.mp he
    decide

/-- A session first seen in the first of two passes keeps that pass's time, the last of two ends
counts when they come in two passes, and a line whose event is a list makes the pass raise. -/
theorem cut_changes_rows :
    sampleColumns (foldPasses sampleSpool false [] (samplePass "\"Stop\"" "10")
      [samplePass "\"SessionEnd\"" "20"] sampleState) ≠
      sampleColumns (foldFile sampleSpool false 100 (appendedBy [samplePass "\"Stop\"" "10",
        samplePass "\"SessionEnd\"" "20"]) sampleState) ∧
    sampleColumns (foldPasses sampleSpool false [] (samplePass "\"SessionEnd\"" "20")
      [samplePass "\"SessionEnd\"" "10"] sampleState) ≠
      sampleColumns (foldFile sampleSpool false 100 (appendedBy [samplePass "\"SessionEnd\"" "20",
        samplePass "\"SessionEnd\"" "10"]) sampleState) ∧
    (foldFile sampleSpool false 100 (samplePass "[]" "10").appended sampleState).isNone := by
  refine ⟨?_, ?_, ?_⟩
  · decide +kernel
  · decide +kernel
  · decide +kernel

end Rheostream.Bridge
