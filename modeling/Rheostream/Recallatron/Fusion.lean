import Mathlib.Algebra.Field.Rat
import Mathlib.Algebra.Order.Field.Basic
import Mathlib.Algebra.Order.Ring.Rat
import Rheostream.Foundation.Ranking
import Rheostream.Foundation.Table

/-!
# Reciprocal rank fusion

`retrieval/hybrid.py`: two ranked lists of memories are fused, and both are first cut to the
memories that the caller may read. The scores are exact here, a float of `fuse` is the sum of the
same one or two terms.
-/

namespace Rheostream.Recallatron

/-- The order of the scores. -/
abbrev scoreOrder : LinearOrder ℚ := Rat.linearOrder

attribute [local instance] scoreOrder

variable {Ref : Type} [LinearOrder Ref]

/-- `RRF_CONSTANT`. -/
def rrfConstant : ℕ := 60

/-- `_rrf`: the fusion term of one arm at a rank. -/
def rrf (rank : ℕ) : ℚ := 1 / ((rrfConstant + rank : ℕ) : ℚ)

/-- `enumerate(arm, start=1)`. -/
def ranked (arm : List Ref) : List (Ref × ℕ) := arm.zipIdx 1

/-- The term of one arm added to the score of a memory. -/
def addTerm (scores : Table Ref ℚ) (entry : Ref × ℕ) : Table Ref ℚ :=
  scores.insert entry.1 ((scores.lookup entry.1).getD 0 + rrf entry.2)

/-- The scores that `fuse` adds up, arm by arm. -/
def fusedScores (arms : List (List Ref)) : Table Ref ℚ :=
  arms.foldl (fun scores arm => (ranked arm).foldl addTerm scores) ∅

/-- `_NOT_READ`, the least instant. -/
def notRead : ℕ := 0

/-- The instant of the rerank. -/
def recency (recordedAt : Ref → Option ℕ) (ref : Ref) : ℕ := (recordedAt ref).getD notRead

/-- `fuse`: three stable sorts, the least significant key first. -/
def fuse (arms : List (List Ref)) (recordedAt : Ref → Option ℕ) : List (Ref × ℚ) :=
  let scores := fusedScores arms
  let score (ref : Ref) : ℚ := (scores.lookup ref).getD 0
  let byId := sortedBy id scores.keys
  let byRecency := sortedBy (fun ref => OrderDual.toDual (recency recordedAt ref)) byId
  let ordered := sortedBy (fun ref => OrderDual.toDual (score ref)) byRecency
  ordered.map fun ref => (ref, score ref)

/-- `record` of `admitted_arms`: the best exact scores, at most `k` of them, the least first. -/
def record (k : ℕ) (best : List ℚ) (score : ℚ) : List ℚ :=
  if best.length < k then best.orderedInsert (· ≤ ·) score
  else match best with
    | [] => []
    | least :: rest => if least < score then rest.orderedInsert (· ≤ ·) score else least :: rest

/-- The walk down the lexical arm: what it kept, the positions that `admits` was asked of, the best
exact scores and the dense ranks that it has yet to reach. -/
structure LexicalWalk (Ref : Type) where
  kept : List Ref
  asked : List Ref
  best : List ℚ
  unreached : List ℕ

/-- Whether nothing undecided can reach the best scores any more. -/
def LexicalWalk.settled (w : LexicalWalk Ref) (k : ℕ) : Bool :=
  w.best.length == k && w.best.head?.any fun floor =>
    let undecided := rrf (w.kept.length + 1)
    decide (undecided < floor) &&
      w.unreached.head?.all fun rank => decide (rrf rank + undecided < floor)

/-- One position of the lexical arm is decided. -/
def LexicalWalk.decided (w : LexicalWalk Ref) (admits : Ref → Bool) (k : ℕ)
    (denseRank : List (Ref × ℕ)) (ref : Ref) : LexicalWalk Ref :=
  let asked := w.asked ++ [ref]
  if admits ref then
    let kept := w.kept ++ [ref]
    match denseRank.lookup ref with
    | none => ⟨kept, asked, record k w.best (rrf kept.length), w.unreached⟩
    | some rank =>
      ⟨kept, asked, record k w.best (rrf kept.length + rrf rank), w.unreached.erase rank⟩
  else { w with asked := asked }

/-- The loop of `admitted_arms`. -/
def lexicalWalk (admits : Ref → Bool) (k : ℕ) (denseRank : List (Ref × ℕ)) :
    LexicalWalk Ref → List Ref → LexicalWalk Ref
  | w, [] => w
  | w, ref :: rest =>
    if w.settled k then w
    else lexicalWalk admits k denseRank (w.decided admits k denseRank ref) rest

/-- Both arms as `admitted_arms` returns them, and the lexical positions it asked `admits` of. -/
structure AdmittedArms (Ref : Type) where
  lexical : List Ref
  dense : List Ref
  asked : List Ref

/-- The walk before the lexical arm: the dense memories that the lexical arm did not return have
their exact scores. -/
def walkStart (lexical denseKept : List Ref) (k : ℕ) : LexicalWalk Ref :=
  let alone := (ranked denseKept).filter fun e => !lexical.contains e.1
  let shared := (ranked denseKept).filter fun e => lexical.contains e.1
  ⟨[], [], alone.foldl (fun best e => record k best (rrf e.2)) [],
    sortedBy id (shared.map Prod.snd)⟩

/-- `admitted_arms`. -/
def admittedArms (lexical dense : List Ref) (admits : Ref → Bool) (k : ℕ) : AdmittedArms Ref :=
  let denseKept := dense.filter admits
  let walked := lexicalWalk admits k (ranked denseKept) (walkStart lexical denseKept k) lexical
  ⟨walked.kept, denseKept, walked.asked⟩

section Terms

theorem rrf_pos (rank : ℕ) : 0 < rrf rank := by
  have hpos : (0 : ℚ) < ((rrfConstant + rank : ℕ) : ℚ) := by
    exact_mod_cast Nat.lt_add_right rank (by decide : 0 < rrfConstant)
  exact one_div_pos.mpr hpos

theorem rrf_lt_rrf {a b : ℕ} (h : a < b) : rrf b < rrf a := by
  have hpos : (0 : ℚ) < ((rrfConstant + a : ℕ) : ℚ) := by
    exact_mod_cast Nat.lt_add_right a (by decide : 0 < rrfConstant)
  have hlt : ((rrfConstant + a : ℕ) : ℚ) < ((rrfConstant + b : ℕ) : ℚ) := by
    exact_mod_cast Nat.add_lt_add_left h rrfConstant
  exact one_div_lt_one_div_of_lt hpos hlt

theorem rrf_le_rrf {a b : ℕ} (h : a ≤ b) : rrf b ≤ rrf a := by
  obtain hlt | rfl := h.lt_or_eq
  · exact (rrf_lt_rrf hlt).le
  · exact le_refl _

/-- The term of an arm for a memory: nothing, when the arm did not return it. -/
def term (arm : List Ref) (ref : Ref) : ℚ := ((ranked arm).lookup ref).elim 0 rrf

variable {arm lexical dense : List Ref} {ref : Ref} {rank : ℕ}

theorem lookup_ranked_isSome : ((ranked arm).lookup ref).isSome = true ↔ ref ∈ arm := by
  rw [List.lookup_isSome_iff]
  constructor
  · rintro ⟨e, he, heq⟩
    rw [eq_of_beq heq]
    exact List.fst_mem_of_mem_zipIdx he
  · intro hmem
    rw [← List.zipIdx_map_fst 1 arm] at hmem
    obtain ⟨e, he, rfl⟩ := List.mem_map.mp hmem
    exact ⟨e, he, beq_self_eq_true _⟩

theorem lookup_ranked_eq_none : (ranked arm).lookup ref = none ↔ ref ∉ arm := by
  rw [← lookup_ranked_isSome, Bool.not_eq_true, Option.isSome_eq_false_iff,
    Option.isNone_iff_eq_none]

theorem term_of_notMem (h : ref ∉ arm) : term arm ref = 0 := by
  rw [term, lookup_ranked_eq_none.mpr h]
  rfl

theorem term_of_rank (h : (ranked arm).lookup ref = some rank) : term arm ref = rrf rank := by
  rw [term, h]
  rfl

omit [LinearOrder Ref] in
theorem ranked_append (arm arm' : List Ref) :
    ranked (arm ++ arm') = ranked arm ++ arm'.zipIdx (1 + arm.length) := by
  rw [ranked, List.zipIdx_append, ranked, Nat.add_comm]

variable {arm' : List Ref}

/-- What an arm goes on to return changes nothing for a memory that it returned. -/
theorem lookup_ranked_append_of_mem (h : ref ∈ arm) :
    (ranked (arm ++ arm')).lookup ref = (ranked arm).lookup ref := by
  obtain ⟨rank, hrank⟩ := Option.isSome_iff_exists.mp (lookup_ranked_isSome.mpr h)
  rw [ranked_append, List.lookup_append, hrank]
  rfl

theorem term_append_of_mem (h : ref ∈ arm) :
    term (arm ++ arm') ref = term arm ref := by
  rw [term, lookup_ranked_append_of_mem h, term]

/-- A memory that an arm returns later has a later rank. -/
theorem rank_of_append (h : ref ∉ arm)
    (hrank : (ranked (arm ++ arm')).lookup ref = some rank) : arm.length + 1 ≤ rank := by
  rw [ranked_append, List.lookup_append, lookup_ranked_eq_none.mpr h, Option.none_or] at hrank
  obtain ⟨before, behind, heq, -⟩ := List.lookup_eq_some_iff.mp hrank
  have hmem : (ref, rank) ∈ arm'.zipIdx (1 + arm.length) := by
    rw [heq]
    exact List.mem_append_right before List.mem_cons_self
  have hle := List.le_snd_of_mem_zipIdx hmem
  omega

/-- The next memory of an arm has the next rank. -/
theorem rank_next (h : ref ∉ arm) :
    (ranked (arm ++ ref :: arm')).lookup ref = some (arm.length + 1) := by
  rw [ranked_append, List.lookup_append, lookup_ranked_eq_none.mpr h, Option.none_or,
    List.zipIdx_cons, List.lookup_cons_self, Nat.add_comm]

theorem mem_ranked (h : (ranked arm).lookup ref = some rank) : (ref, rank) ∈ ranked arm := by
  obtain ⟨before, behind, heq, -⟩ := List.lookup_eq_some_iff.mp h
  rw [heq]
  exact List.mem_append_right before List.mem_cons_self

theorem lookup_of_mem_ranked (harm : arm.Nodup) (h : (ref, rank) ∈ ranked arm) :
    (ranked arm).lookup ref = some rank := by
  obtain ⟨before, behind, heq⟩ := List.append_of_mem h
  have hkeys : ((ranked arm).map Prod.fst).Nodup := by
    rw [ranked, List.zipIdx_map_fst]
    exact harm
  refine List.lookup_eq_some_iff.mpr ⟨before, behind, heq, ?_⟩
  intro e he
  rw [heq, List.map_append, List.map_cons] at hkeys
  have hne : e.1 ≠ ref := by
    intro hsame
    have hdisjoint := (List.nodup_append.mp hkeys).2.2
    exact hdisjoint e.1 (List.mem_map_of_mem he) ref List.mem_cons_self hsame
  simpa using fun h : ref = e.1 => hne h.symm

/-- No two memories of an arm have one rank. -/
theorem eq_of_rank {other : Ref} (h : (ranked arm).lookup ref = some rank)
    (h' : (ranked arm).lookup other = some rank) : ref = other := by
  have hmem := List.mk_mem_zipIdx_iff_le_and_getElem?_sub.mp (mem_ranked h)
  have hmem' := List.mk_mem_zipIdx_iff_le_and_getElem?_sub.mp (mem_ranked h')
  exact Option.some.inj (hmem.2.symm.trans hmem'.2)

end Terms

section Scores

variable {lexical dense : List Ref} {ref : Ref}

/-- The terms of one arm added, each to its memory. -/
theorem lookup_foldl_addTerm {entries : List (Ref × ℕ)} (hkeys : (entries.map Prod.fst).Nodup)
    (scores : Table Ref ℚ) : (entries.foldl addTerm scores).lookup ref =
      match entries.lookup ref with
      | none => scores.lookup ref
      | some rank => some ((scores.lookup ref).getD 0 + rrf rank) := by
  induction entries generalizing scores with
  | nil => rfl
  | cons e entries ih =>
    obtain ⟨hnew, hrest⟩ := List.nodup_cons.mp hkeys
    rw [List.foldl_cons, ih hrest, addTerm, Table.lookup_insert]
    by_cases heq : ref = e.1
    · subst heq
      have hnone : entries.lookup e.1 = none := by
        rw [List.lookup_eq_none_iff]
        intro p hp
        have hne : e.1 ≠ p.1 := fun h => hnew (h ▸ List.mem_map_of_mem hp)
        simpa using hne
      obtain ⟨key, rank⟩ := e
      rw [hnone, List.lookup_cons_self]
      simp
    · have hne : (ref == e.1) = false := by simpa using heq
      obtain ⟨key, rank⟩ := e
      rw [List.lookup_cons, hne, if_neg heq]

/-- A memory of either arm has the sum of its terms, another one has no score. -/
theorem lookup_fusedScores (hlexical : lexical.Nodup) (hdense : dense.Nodup) :
    (fusedScores [lexical, dense]).lookup ref =
      if ref ∈ lexical ∨ ref ∈ dense then some (term lexical ref + term dense ref) else none := by
  have hkeys {arm : List Ref} (harm : arm.Nodup) : ((ranked arm).map Prod.fst).Nodup := by
    rw [ranked, List.zipIdx_map_fst]
    exact harm
  simp only [fusedScores, List.foldl_cons, List.foldl_nil]
  rw [lookup_foldl_addTerm (hkeys hdense), lookup_foldl_addTerm (hkeys hlexical)]
  cases hl : (ranked lexical).lookup ref with
  | none =>
    have hnl := lookup_ranked_eq_none.mp hl
    cases hd : (ranked dense).lookup ref with
    | none =>
      have hnd := lookup_ranked_eq_none.mp hd
      simp [hnl, hnd]
    | some rank =>
      have hmem := lookup_ranked_isSome.mp (by rw [hd]; rfl)
      simp [hnl, hmem, term_of_notMem hnl, term_of_rank hd]
  | some rank =>
    have hmem := lookup_ranked_isSome.mp (by rw [hl]; rfl)
    cases hd : (ranked dense).lookup ref with
    | none =>
      have hnd := lookup_ranked_eq_none.mp hd
      simp [hmem, term_of_notMem hnd, term_of_rank hl]
    | some other => simp [hmem, term_of_rank hl, term_of_rank hd]

/-- The order of the fused list: by score, then newer first, then by identifier. -/
def Outranks (recordedAt : Ref → Option ℕ) : Ref × ℚ → Ref × ℚ → Prop :=
  AheadBy (fun e => OrderDual.toDual e.2)
    (AheadBy (fun e => OrderDual.toDual (recency recordedAt e.1)) fun e e' => e.1 < e'.1)

theorem outranks_asymm {recordedAt : Ref → Option ℕ} {a b : Ref × ℚ}
    (h : Outranks recordedAt a b) : ¬ Outranks recordedAt b a :=
  aheadBy_asymm (fun _ _ => aheadBy_asymm fun _ _ => lt_asymm) h

theorem fuse_pairwise (arms : List (List Ref)) (recordedAt : Ref → Option ℕ) :
    (fuse arms recordedAt).Pairwise (Outranks recordedAt) := by
  have hkeys : (sortedBy id (fusedScores arms).keys).Nodup :=
    (sortedBy_perm id _).nodup_iff.mpr (fusedScores arms).nodupKeys
  have hbyId : (sortedBy id (fusedScores arms).keys).Pairwise (· < ·) := by
    refine (sortedBy_pairwise id _).imp₂ ?_ hkeys
    intro a b hle hne
    exact lt_of_le_of_ne hle hne
  rw [fuse, List.pairwise_map]
  exact sortedBy_stable _ (sortedBy_stable _ hbyId)

theorem mem_fuse (hlexical : lexical.Nodup) (hdense : dense.Nodup)
    {recordedAt : Ref → Option ℕ} {score : ℚ} : (ref, score) ∈ fuse [lexical, dense] recordedAt ↔
      (ref ∈ lexical ∨ ref ∈ dense) ∧ score = term lexical ref + term dense ref := by
  have hkey : ref ∈ (fusedScores [lexical, dense]).keys ↔ ref ∈ lexical ∨ ref ∈ dense := by
    rw [← AList.mem_keys, ← AList.lookup_isSome, lookup_fusedScores hlexical hdense]
    split_ifs with h <;> simp [h]
  simp only [fuse, List.mem_map, (sortedBy_perm _ _).mem_iff, Prod.mk.injEq]
  constructor
  · rintro ⟨found, hfound, rfl, rfl⟩
    have hmem := hkey.mp hfound
    refine ⟨hmem, ?_⟩
    rw [lookup_fusedScores hlexical hdense, if_pos hmem]
    rfl
  · rintro ⟨hmem, rfl⟩
    refine ⟨ref, hkey.mpr hmem, rfl, ?_⟩
    rw [lookup_fusedScores hlexical hdense, if_pos hmem]
    rfl

end Scores

end Rheostream.Recallatron
