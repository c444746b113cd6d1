import Mathlib.Data.List.Dedup
import Rheostream.Leads.Evidence

/-!
# What a replay shows

A derived field that is not the user's own is a function of the evidence: the fact that
wins its replay, or nothing. The evidence enters only as a set, because an observation
gives each target at most one fact and its event key tells it from every other observation.
-/

namespace Rheostream.Leads

variable {preset : Preset} {current fields : Fields} {rows rows' : List Fact} {target : String}

/-- The fact a target shows, whoever owned it before. -/
def shownFact (preset : Preset) (rows : List Fact) (target : String) : Option Fact :=
  if target ∈ competitionGroup then competitionFact preset rows target
  else replay (candidates preset rows target)

/-- The row a target shows, whoever owned it before. -/
def shown (preset : Preset) (rows : List Fact) (target : String) : Option FieldState :=
  (shownFact preset rows target).map FieldState.ofFact

theorem lookup_replace (fields : Fields) (target t : String) (fact : Option Fact) :
    (replace fields target fact).lookup t =
      if t = target then fact.map FieldState.ofFact else fields.lookup t := by
  by_cases h : t = target
  · subst h
    cases fact <;> simp [replace]
  · cases fact <;> simp [replace, h, AList.lookup_erase_ne h]

/-- A field that is replayed elsewhere keeps its row. -/
theorem lookup_deriveField (current fields : Fields) (fact : String → Option Fact)
    (target t : String) : (deriveField current fact fields target).lookup t =
      if t = target ∧ replayedElsewhere (current.lookup t) = false
      then (fact t).map FieldState.ofFact else fields.lookup t := by
  unfold deriveField
  by_cases h : t = target
  · subst h
    cases replayedElsewhere (current.lookup t) <;> simp [lookup_replace]
  · split <;> simp [lookup_replace, h]

/-- The loop writes each of its targets from the same facts, in whatever order it runs. -/
theorem lookup_foldl_deriveField (current : Fields) (fact : String → Option Fact)
    (targets : List String) (fields : Fields) (t : String) :
    (targets.foldl (deriveField current fact) fields).lookup t =
      if t ∈ targets ∧ replayedElsewhere (current.lookup t) = false
      then (fact t).map FieldState.ofFact else fields.lookup t := by
  induction targets generalizing fields with
  | nil => simp
  | cons target targets ih =>
    rw [List.foldl_cons, ih, lookup_deriveField]
    by_cases hhere : t = target
    · subst hhere
      cases replayedElsewhere (current.lookup t) <;> simp
    · simp [hhere]

theorem candidates_eq_nil (h : target ∉ (rows.filter preset.admits).map Fact.target) :
    candidates preset rows target = [] := by
  apply List.filter_eq_nil_iff.mpr
  intro fact hfact hadmits
  simp only [Bool.and_eq_true, decide_eq_true_eq] at hadmits
  apply h
  rw [List.mem_map]
  exact ⟨fact, List.mem_filter.mpr ⟨hfact, hadmits.1⟩, hadmits.2⟩

@[simp] theorem replay_nil : replay [] = none := rfl

/-- One field after `derive`. -/
theorem lookup_derive (preset : Preset) (current : Fields) (rows : List Fact) (t : String) :
    (derive preset current rows).1.lookup t =
      if replayedElsewhere (current.lookup t) then current.lookup t else shown preset rows t := by
  simp only [derive, lookup_foldl_deriveField]
  cases helsewhere : replayedElsewhere (current.lookup t) with
  | true => simp
  | false =>
    by_cases hgroup : t ∈ competitionGroup
    · simp [hgroup, shown, shownFact]
    · by_cases hseen : t ∈ current.keys ++ (rows.filter preset.admits).map Fact.target
      · have hother : t ∈ (current.keys ++
            (rows.filter preset.admits).map Fact.target).dedup.filter
              fun target => target ∉ competitionGroup := by
          rw [List.mem_filter, List.mem_dedup]
          exact ⟨hseen, by simpa using hgroup⟩
        rw [if_pos ⟨hother, rfl⟩]
        simp [hgroup, shown, shownFact]
      · -- A target that neither the table nor the evidence names stays without a row.
        have hother : t ∉ (current.keys ++
            (rows.filter preset.admits).map Fact.target).dedup.filter
              fun target => target ∉ competitionGroup := by
          rw [List.mem_filter, List.mem_dedup]
          exact fun h => hseen h.1
        rw [List.mem_append, not_or] at hseen
        have hnone : current.lookup t = none := by
          rw [AList.lookup_eq_none]
          exact fun hmem => hseen.1 (AList.mem_keys.mp hmem)
        rw [if_neg fun h => hother h.1, if_neg fun h => hgroup h.1]
        simp [hgroup, hnone, shown, shownFact, candidates_eq_nil hseen.2]

/-- The title is the one the derived fields call for. -/
theorem derive_title (preset : Preset) (current : Fields) (rows : List Fact) :
    (derive preset current rows).2 = titleOf (derive preset current rows).1 := rfl

theorem titleOf_congr {fields fields' : Fields}
    (h : fields.lookup "subject" = fields'.lookup "subject") :
    titleOf fields = titleOf fields' := by
  rw [titleOf, titleOf, h]

/-- Each target has at most one fact per observation and one per event key. -/
structure Identified (rows : List Fact) : Prop where
  byObservation : Separates (fun f : Fact => (f.target, f.observationId)) rows
  byEvent : Separates (fun f : Fact => (f.target, f.sourceNamespace, f.sourceEventId)) rows

namespace Identified

theorem mem_candidates {fact : Fact} (h : fact ∈ candidates preset rows target) :
    fact ∈ rows ∧ fact.target = target := by
  simp only [candidates, List.mem_filter, Bool.and_eq_true, decide_eq_true_eq] at h
  exact ⟨h.1, h.2.2⟩

theorem candidates_byObservation (h : Identified rows) :
    Separates Fact.observationId (candidates preset rows target) := by
  intro a ha b hb hkey
  obtain ⟨ha, htarget⟩ := mem_candidates ha
  obtain ⟨hb, htarget'⟩ := mem_candidates hb
  exact h.byObservation a ha b hb (by simp only [htarget, htarget', hkey])

theorem candidates_byEvent (h : Identified rows) :
    Separates (fun f => (f.sourceNamespace, f.sourceEventId))
      (candidates preset rows target) := by
  intro a ha b hb hkey
  obtain ⟨ha, htarget⟩ := mem_candidates ha
  obtain ⟨hb, htarget'⟩ := mem_candidates hb
  exact h.byEvent a ha b hb (Prod.ext (htarget.trans htarget'.symm) hkey)

end Identified

theorem candidates_perm (hperm : rows.Perm rows') :
    (candidates preset rows target).Perm (candidates preset rows' target) :=
  hperm.filter _

theorem clearCutoff_eq_of_perm (hperm : rows.Perm rows') : clearCutoff rows = clearCutoff rows' :=
  max?_eq_of_perm ((hperm.filter _).map _)

attribute [local instance] integerOrder integerPreorder

private theorem eventKey_of_replayKey (a b : Fact) (h : replayKey a = replayKey b) :
    (a.sourceNamespace, a.sourceEventId) = (b.sourceNamespace, b.sourceEventId) := by
  simp only [replayKey, EmbeddingLike.apply_eq_iff_eq, Prod.mk.injEq] at h
  simp [h]

private theorem eventKey_of_competitionRank (exactFacts : List Fact) (a b : Fact)
    (h : competitionRank exactFacts a = competitionRank exactFacts b) :
    (a.sourceNamespace, a.sourceEventId) = (b.sourceNamespace, b.sourceEventId) := by
  simp only [competitionRank, EmbeddingLike.apply_eq_iff_eq, Prod.mk.injEq] at h
  simp [h]

theorem replay_eq_of_perm
    (hsep : Separates (fun f : Fact => (f.sourceNamespace, f.sourceEventId)) rows)
    (hperm : rows.Perm rows') : replay rows = replay rows' := by
  have hsorted : sortedBy replayKey (rows.filter (isCurrent (clearCutoff rows))) =
      sortedBy replayKey (rows'.filter (isCurrent (clearCutoff rows'))) := by
    rw [← clearCutoff_eq_of_perm hperm]
    exact sortedBy_eq_of_perm ((hsep.filter _).refine eventKey_of_replayKey) (hperm.filter _)
  rw [replay, replay, hsorted]

theorem competitionWinner_eq_of_perm {counts counts' exactFacts exactFacts' : List Fact}
    (hcounts : Separates (fun f : Fact => (f.sourceNamespace, f.sourceEventId)) counts)
    (hexact : Separates Fact.observationId exactFacts) (hperm : counts.Perm counts')
    (hperm' : exactFacts.Perm exactFacts') :
    competitionWinner counts exactFacts = competitionWinner counts' exactFacts' := by
  have hrank : competitionRank exactFacts = competitionRank exactFacts' := by
    funext v
    simp only [competitionRank, ownFact, lastWith_eq_of_perm hexact hperm']
  rw [competitionWinner, competitionWinner, ← hrank, ← clearCutoff_eq_of_perm hperm]
  exact argmax_eq_of_perm
    ((hcounts.filter _).refine (eventKey_of_competitionRank exactFacts)) (hperm.filter _)

theorem competitionFact_eq_of_perm (hrows : Identified rows) (hperm : rows.Perm rows')
    (target : String) :
    competitionFact preset rows target = competitionFact preset rows' target := by
  have hcounts : Separates (fun f : Fact => (f.sourceNamespace, f.sourceEventId))
      (candidates preset rows count) := hrows.candidates_byEvent
  have hexact : Separates Fact.observationId (candidates preset rows exact) :=
    hrows.candidates_byObservation
  have hpermCount : (candidates preset rows count).Perm (candidates preset rows' count) :=
    candidates_perm hperm
  have hwinner := competitionWinner_eq_of_perm hcounts hexact hpermCount (candidates_perm hperm)
  rw [competitionFact, competitionFact, hwinner]
  simp only [ownFact, lastWith_eq_of_perm hrows.candidates_byObservation (candidates_perm hperm),
    clearCutoff_eq_of_perm (candidates_perm hperm)]

/-- The database may return the evidence in any order. -/
theorem shown_eq_of_perm (hrows : Identified rows) (hperm : rows.Perm rows') (target : String) :
    shown preset rows target = shown preset rows' target := by
  have hsep : Separates (fun f : Fact => (f.sourceNamespace, f.sourceEventId))
      (candidates preset rows target) := hrows.candidates_byEvent
  have hreplay := replay_eq_of_perm hsep (candidates_perm hperm)
  rw [shown, shown, shownFact, shownFact, hreplay, competitionFact_eq_of_perm hrows hperm]

end Rheostream.Leads
