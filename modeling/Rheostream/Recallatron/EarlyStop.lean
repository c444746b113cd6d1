import Mathlib.Tactic.Linarith
import Rheostream.Recallatron.Fusion

/-!
# The early stop of the hybrid search

The walk down the lexical arm stops once `k` memories have exact scores that nothing undecided can
reach. What is fused after the stop has the head that fusing everything would have.
-/

namespace Rheostream.Recallatron

attribute [local instance] scoreOrder

variable {Ref : Type} [LinearOrder Ref]

/-- The scores held are those of as many memories with an exact score. -/
structure Held (exact : Ref → Prop) (score : Ref → ℚ) (best : List ℚ) : Prop where
  sorted : best.Pairwise (· ≤ ·)
  scores : ∃ top : List Ref, top.Nodup ∧ (∀ ref ∈ top, exact ref) ∧ best.Perm (top.map score)

section Held

variable {exact exact' : Ref → Prop} {score : Ref → ℚ} {best : List ℚ} {ref : Ref} {k : ℕ}

omit [LinearOrder Ref] in
theorem Held.mono (h : Held exact score best) (hmono : ∀ r, exact r → exact' r) :
    Held exact' score best := by
  obtain ⟨top, hnodup, hexact, hperm⟩ := h.scores
  exact ⟨h.sorted, top, hnodup, fun r hr => hmono r (hexact r hr), hperm⟩

omit [LinearOrder Ref] in
/-- One more score is held. -/
theorem Held.insert (h : Held exact score best) (hnew : ¬ exact ref)
    (hmono : ∀ r, exact r → exact' r) (href : exact' ref) :
    Held exact' score (best.orderedInsert (· ≤ ·) (score ref)) := by
  obtain ⟨top, hnodup, hexact, hperm⟩ := h.scores
  refine ⟨h.sorted.orderedInsert _ _, ref :: top, ?_, ?_, ?_⟩
  · exact List.nodup_cons.mpr ⟨fun hmem => hnew (hexact ref hmem), hnodup⟩
  · intro r hr
    obtain rfl | hr := List.mem_cons.mp hr
    · exact href
    · exact hmono r (hexact r hr)
  · exact (List.perm_orderedInsert _ _ _).trans (hperm.cons _)

/-- The least score is given up. -/
theorem Held.tail {least : ℚ} (h : Held exact score (least :: best)) : Held exact score best := by
  obtain ⟨top, hnodup, hexact, hperm⟩ := h.scores
  have hmem : least ∈ top.map score := hperm.mem_iff.mp List.mem_cons_self
  obtain ⟨r, hr, rfl⟩ := List.mem_map.mp hmem
  refine ⟨(List.pairwise_cons.mp h.sorted).2, top.erase r, hnodup.erase r, ?_, ?_⟩
  · exact fun other hother => hexact other (List.mem_of_mem_erase hother)
  · have hout : (top.map score).Perm (score r :: (top.erase r).map score) :=
      (List.perm_cons_erase hr).map score
    exact (hperm.trans hout).cons_inv

theorem Held.record (h : Held exact score best) (hnew : ¬ exact ref)
    (hmono : ∀ r, exact r → exact' r) (href : exact' ref) :
    Held exact' score (record k best (score ref)) := by
  unfold Recallatron.record
  split_ifs with hroom
  · exact h.insert hnew hmono href
  · cases best with
    | nil => exact h.mono hmono
    | cons least rest =>
      dsimp only
      split_ifs
      · exact h.tail.insert hnew hmono href
      · exact h.mono hmono

/-- The scores of several memories recorded one after another. -/
theorem Held.foldl {entries : List (Ref × ℕ)} (hkeys : (entries.map Prod.fst).Nodup)
    (hscore : ∀ e ∈ entries, score e.1 = rrf e.2) (h : Held exact score best)
    (hnew : ∀ e ∈ entries, ¬ exact e.1) :
    Held (fun r => exact r ∨ r ∈ entries.map Prod.fst) score
      (entries.foldl (fun best e => Recallatron.record k best (rrf e.2)) best) := by
  induction entries generalizing exact best with
  | nil => exact h.mono fun r hr => .inl hr
  | cons e entries ih =>
    obtain ⟨hfirst, hrest⟩ := List.nodup_cons.mp hkeys
    have hstep : Held (fun r => exact r ∨ r = e.1) score
        (Recallatron.record k best (score e.1)) :=
      h.record (hnew e List.mem_cons_self) (fun r hr => .inl hr) (.inr rfl)
    rw [hscore e List.mem_cons_self] at hstep
    refine (ih hrest (fun e' he' => hscore e' (List.mem_cons_of_mem e he')) hstep ?_).mono ?_
    · rintro e' he' (hold | hsame)
      · exact hnew e' (List.mem_cons_of_mem e he') hold
      · exact hfirst (hsame ▸ List.mem_map_of_mem he')
    · rintro r ((hold | rfl) | hlater)
      · exact .inl hold
      · exact .inr List.mem_cons_self
      · exact .inr (List.mem_cons_of_mem _ hlater)

end Held

section Walk

variable {admits : Ref → Bool} {lexical dense seen rest : List Ref} {w : LexicalWalk Ref}
  {ref : Ref} {k : ℕ}

/-- The score of a memory when everything is decided. -/
def fullScore (admits : Ref → Bool) (lexical dense : List Ref) (ref : Ref) : ℚ :=
  term (lexical.filter admits) ref + term dense ref

/-- The memories whose scores are exact: those admitted so far, and those of the dense arm alone. -/
def Exact (admits : Ref → Bool) (lexical dense seen : List Ref) (ref : Ref) : Prop :=
  ref ∈ seen.filter admits ∨ ref ∈ dense ∧ ref ∉ lexical

/-- The walk after the positions `seen`. -/
structure WalkSound (admits : Ref → Bool) (lexical dense seen : List Ref) (w : LexicalWalk Ref) :
    Prop where
  kept : w.kept = seen.filter admits
  asked : w.asked = seen
  held : Held (Exact admits lexical dense seen) (fullScore admits lexical dense) w.best
  sorted : w.unreached.Pairwise (· ≤ ·)
  unreached : ∀ ref rank, (ranked dense).lookup ref = some rank → ref ∈ lexical → ref ∉ seen →
    rank ∈ w.unreached

theorem walkSound_start (hdense : dense.Nodup) :
    WalkSound admits lexical dense [] (walkStart lexical dense k) where
  kept := rfl
  asked := rfl
  held := by
    have hkeys : (((ranked dense).filter fun e => !lexical.contains e.1).map Prod.fst).Nodup := by
      have hall : ((ranked dense).map Prod.fst).Nodup := by
        rw [ranked, List.zipIdx_map_fst]
        exact hdense
      exact hall.sublist (List.filter_sublist.map Prod.fst)
    have hscore : ∀ e ∈ (ranked dense).filter fun e => !lexical.contains e.1,
        fullScore admits lexical dense e.1 = rrf e.2 := by
      rintro ⟨ref, rank⟩ he
      obtain ⟨hmem, halone⟩ := List.mem_filter.mp he
      have hnot : ref ∉ lexical.filter admits := by
        intro hkept
        simp [List.mem_of_mem_filter hkept] at halone
      rw [fullScore, term_of_notMem hnot, zero_add, term_of_rank (lookup_of_mem_ranked hdense hmem)]
    have hnone : Held (fun _ : Ref => False) (fullScore admits lexical dense) [] :=
      ⟨List.Pairwise.nil, [], List.nodup_nil, fun r hr => absurd hr List.not_mem_nil, List.Perm.nil⟩
    refine (hnone.foldl hkeys hscore fun _ _ => id).mono ?_
    rintro r (hfalse | hr)
    · exact hfalse.elim
    · obtain ⟨e, he, rfl⟩ := List.mem_map.mp hr
      obtain ⟨hmem, halone⟩ := List.mem_filter.mp he
      exact .inr ⟨List.fst_mem_of_mem_zipIdx hmem, by simpa using halone⟩
  sorted := sortedBy_pairwise id _
  unreached ref rank hrank hlexical _ := by
    refine (sortedBy_perm id _).mem_iff.mpr (List.mem_map.mpr ⟨(ref, rank), ?_, rfl⟩)
    exact List.mem_filter.mpr ⟨mem_ranked hrank, by simpa using hlexical⟩

/-- One more position is decided. -/
theorem WalkSound.decided (h : WalkSound admits lexical dense seen w)
    (hlexical : lexical.Nodup) (hsplit : lexical = seen ++ ref :: rest) :
    WalkSound admits lexical dense (seen ++ [ref]) (w.decided admits k (ranked dense) ref) := by
  have hfresh : ref ∉ seen := by
    rw [hsplit] at hlexical
    intro hmem
    exact (List.nodup_append.mp hlexical).2.2 ref hmem ref List.mem_cons_self rfl
  have hmem : ref ∈ lexical := by
    rw [hsplit]
    exact List.mem_append_right seen List.mem_cons_self
  have hlater (other : Ref) (hother : other ∉ seen ++ [ref]) : other ∉ seen := by
    intro hseen
    exact hother (List.mem_append_left [ref] hseen)
  unfold LexicalWalk.decided
  split_ifs with hadmits
  · have hkept : (seen ++ [ref]).filter admits = w.kept ++ [ref] := by
      rw [List.filter_append, h.kept, List.filter_cons_of_pos hadmits, List.filter_nil]
    have hmono (r : Ref) (hr : Exact admits lexical dense seen r) :
        Exact admits lexical dense (seen ++ [ref]) r := by
      obtain hr | hr := hr
      · rw [Exact, List.filter_append]
        exact .inl (List.mem_append_left _ hr)
      · exact .inr hr
    have hnew : ¬ Exact admits lexical dense seen ref := by
      rintro (hr | hr)
      · exact hfresh (List.mem_of_mem_filter hr)
      · exact hr.2 hmem
    have hexact : Exact admits lexical dense (seen ++ [ref]) ref := by
      rw [Exact, hkept]
      exact .inl (List.mem_append_right _ (List.mem_singleton_self ref))
    have hterm : term (lexical.filter admits) ref = rrf (w.kept ++ [ref]).length := by
      rw [hsplit, List.filter_append, List.filter_cons_of_pos hadmits, ← h.kept]
      have hnot : ref ∉ w.kept := by
        rw [h.kept]
        exact fun hr => hfresh (List.mem_of_mem_filter hr)
      rw [term_of_rank (rank_next hnot), List.length_append, List.length_singleton]
    have hheld := h.held.record (k := k) hnew hmono hexact
    cases hrank : (ranked dense).lookup ref with
    | none =>
      dsimp only
      rw [fullScore, hterm, term_of_notMem (lookup_ranked_eq_none.mp hrank), add_zero] at hheld
      refine ⟨hkept.symm, ?_, hheld, h.sorted, ?_⟩
      · rw [h.asked]
      · intro other rank hother hin hnot
        exact h.unreached other rank hother hin (hlater other hnot)
    | some position =>
      dsimp only
      rw [fullScore, hterm, term_of_rank hrank] at hheld
      refine ⟨hkept.symm, ?_, hheld, h.sorted.sublist List.erase_sublist, ?_⟩
      · rw [h.asked]
      · intro other rank hother hin hnot
        have hne : rank ≠ position := by
          rintro rfl
          have hsame : other = ref := eq_of_rank hother hrank
          exact hnot (hsame ▸ List.mem_append_right seen (List.mem_singleton_self _))
        rw [List.mem_erase_of_ne hne]
        exact h.unreached other rank hother hin (hlater other hnot)
  · have hkept : (seen ++ [ref]).filter admits = seen.filter admits := by
      rw [List.filter_append, List.filter_cons_of_neg hadmits, List.filter_nil, List.append_nil]
    refine ⟨?_, ?_, ?_, h.sorted, ?_⟩
    · rw [hkept, h.kept]
    · rw [h.asked]
    · refine h.held.mono fun r hr => ?_
      rw [Exact, hkept]
      exact hr
    · intro other rank hother hin hnot
      exact h.unreached other rank hother hin (hlater other hnot)

/-- The walk ends at the end of the arm, or where it is settled. -/
theorem WalkSound.walk (h : WalkSound admits lexical dense seen w) (hlexical : lexical.Nodup)
    (hsplit : lexical = seen ++ rest) :
    ∃ reached left, lexical = reached ++ left ∧
      WalkSound admits lexical dense reached (lexicalWalk admits k (ranked dense) w rest) ∧
        (left = [] ∨ (lexicalWalk admits k (ranked dense) w rest).settled k = true) := by
  induction rest generalizing seen w with
  | nil => exact ⟨seen, [], hsplit, h, .inl rfl⟩
  | cons ref rest ih =>
    rw [lexicalWalk]
    split_ifs with hsettled
    · exact ⟨seen, ref :: rest, hsplit, h, .inr hsettled⟩
    · refine ih (h.decided hlexical hsplit) ?_
      rw [hsplit, List.append_assoc, List.singleton_append]

/-- The scores when the walk has stopped. -/
def stoppedScore (w : LexicalWalk Ref) (dense : List Ref) (ref : Ref) : ℚ :=
  term w.kept ref + term dense ref

/-- The stop leaves the exact scores as they are. -/
theorem WalkSound.stoppedScore_eq (h : WalkSound admits lexical dense seen w)
    (hsplit : lexical = seen ++ rest) (hexact : Exact admits lexical dense seen ref) :
    stoppedScore w dense ref = fullScore admits lexical dense ref := by
  have happend : lexical.filter admits = w.kept ++ rest.filter admits := by
    rw [hsplit, List.filter_append, h.kept]
  have hkept (r : Ref) (hr : r ∈ w.kept) : r ∈ lexical := by
    rw [h.kept] at hr
    rw [hsplit]
    exact List.mem_append_left rest (List.mem_of_mem_filter hr)
  unfold stoppedScore fullScore
  obtain hmem | ⟨-, hnot⟩ := hexact
  · rw [← h.kept] at hmem
    rw [happend, term_append_of_mem hmem]
  · have hadmitted : ref ∉ lexical.filter admits := fun hr => hnot (List.mem_of_mem_filter hr)
    rw [term_of_notMem hadmitted, term_of_notMem fun hr => hnot (hkept ref hr)]

/-- What the walk stops at: `k` exact scores reach the floor, and nothing else does. -/
structure Stopped (admits : Ref → Bool) (lexical dense seen : List Ref) (w : LexicalWalk Ref)
    (k : ℕ) (floor : ℚ) : Prop where
  top : ∃ top : List Ref, top.Nodup ∧ top.length = k ∧
    ∀ ref ∈ top, Exact admits lexical dense seen ref ∧ floor ≤ fullScore admits lexical dense ref
  undecided : ∀ ref ∈ lexical, ref ∉ seen →
    rrf (w.kept.length + 1) + term dense ref < floor

theorem WalkSound.stopped (h : WalkSound admits lexical dense seen w)
    (hsettled : w.settled k = true) : ∃ floor, Stopped admits lexical dense seen w k floor := by
  rw [LexicalWalk.settled, Bool.and_eq_true, beq_iff_eq, Option.any_eq_true] at hsettled
  obtain ⟨hfull, floor, hfloor, hbounds⟩ := hsettled
  dsimp only at hbounds
  rw [Bool.and_eq_true, decide_eq_true_iff] at hbounds
  obtain ⟨hbelow, hreach⟩ := hbounds
  refine ⟨floor, ?_, ?_⟩
  · obtain ⟨top, hnodup, hexact, hperm⟩ := h.held.scores
    refine ⟨top, hnodup, ?_, ?_⟩
    · rw [← hfull, hperm.length_eq, List.length_map]
    · intro ref href
      refine ⟨hexact ref href, ?_⟩
      have hmem : fullScore admits lexical dense ref ∈ w.best :=
        hperm.mem_iff.mpr (List.mem_map_of_mem href)
      have hsorted := h.held.sorted
      cases hbest : w.best with
      | nil => simp [hbest] at hfloor
      | cons least others =>
        rw [hbest] at hfloor hmem hsorted
        obtain rfl : least = floor := Option.some.inj hfloor
        obtain heq | hmem := List.mem_cons.mp hmem
        · exact heq.ge
        · exact (List.pairwise_cons.mp hsorted).1 _ hmem
  · intro ref hlexical hunseen
    cases hrank : (ranked dense).lookup ref with
    | none =>
      rw [term_of_notMem (lookup_ranked_eq_none.mp hrank), add_zero]
      exact hbelow
    | some rank =>
      have hmem := h.unreached ref rank hrank hlexical hunseen
      have hsorted := h.sorted
      rw [term_of_rank hrank]
      cases hleft : w.unreached with
      | nil =>
        rw [hleft] at hmem
        exact absurd hmem List.not_mem_nil
      | cons least others =>
        rw [hleft] at hmem hreach hsorted
        have hle : least ≤ rank := by
          obtain rfl | hmem := List.mem_cons.mp hmem
          · exact le_refl _
          · exact (List.pairwise_cons.mp hsorted).1 rank hmem
        have hfirst : rrf least + rrf (w.kept.length + 1) < floor := by simpa using hreach
        calc rrf (w.kept.length + 1) + rrf rank
            ≤ rrf (w.kept.length + 1) + rrf least := add_le_add_right (rrf_le_rrf hle) _
          _ = rrf least + rrf (w.kept.length + 1) := add_comm _ _
          _ < floor := hfirst

/-- A memory that is not exact is one that the walk did not reach. -/
theorem unreached_of_not_exact (hadmits : ∀ ref ∈ dense, admits ref = true)
    (hmem : ref ∈ lexical.filter admits ∨ ref ∈ dense)
    (hexact : ¬ Exact admits lexical dense seen ref) : ref ∈ lexical ∧ ref ∉ seen := by
  have hadmitted : admits ref = true := by
    obtain hmem | hmem := hmem
    · exact List.of_mem_filter hmem
    · exact hadmits ref hmem
  constructor
  · obtain hmem | hmem := hmem
    · exact List.mem_of_mem_filter hmem
    · by_contra hnot
      exact hexact (.inr ⟨hmem, hnot⟩)
  · intro hseen
    exact hexact (.inl (List.mem_filter.mpr ⟨hseen, hadmitted⟩))

/-- The head is settled at the stop. -/
theorem WalkSound.head {floor : ℚ} {recordedAt : Ref → Option ℕ}
    (h : WalkSound admits lexical dense seen w) (hlexical : lexical.Nodup) (hdense : dense.Nodup)
    (hadmits : ∀ ref ∈ dense, admits ref = true) (hsplit : lexical = seen ++ rest)
    (hstop : Stopped admits lexical dense seen w k floor) :
    (fuse [w.kept, dense] recordedAt).take k =
      (fuse [lexical.filter admits, dense] recordedAt).take k := by
  have happend : lexical.filter admits = w.kept ++ rest.filter admits := by
    rw [hsplit, List.filter_append, h.kept]
  have hadmitted : (lexical.filter admits).Nodup := hlexical.filter admits
  have hkept : w.kept.Nodup := by
    rw [happend] at hadmitted
    exact (List.nodup_append.mp hadmitted).1
  have hpart (ref : Ref) (hr : ref ∈ w.kept) : ref ∈ lexical.filter admits := by
    rw [happend]
    exact List.mem_append_left _ hr
  refine @take_eq_of_high _ _ (fun e => decide (floor ≤ e.2)) _ _ _ (fun _ _ => outranks_asymm)
    (fuse_pairwise _ recordedAt) (fuse_pairwise _ recordedAt) ?_ ?_ ?_
  · intro e e' hahead hbar
    rw [decide_eq_true_iff] at hbar ⊢
    obtain hlt | ⟨heq, -⟩ := hahead
    · exact hbar.trans (OrderDual.toDual_lt_toDual.mp hlt).le
    · exact hbar.trans (OrderDual.toDual.injective heq).ge
  · rintro ⟨ref, score⟩ hbar
    rw [decide_eq_true_iff] at hbar
    rw [mem_fuse hkept hdense, mem_fuse hadmitted hdense]
    change _ ∧ score = stoppedScore w dense ref ↔ _ ∧ score = fullScore admits lexical dense ref
    by_cases hexact : Exact admits lexical dense seen ref
    · rw [h.stoppedScore_eq hsplit hexact]
      have hmem : ref ∈ w.kept ∨ ref ∈ dense := by
        rw [h.kept]
        exact hexact.imp_right And.left
      simp only [hmem, hmem.imp_left (hpart ref), true_and]
    · have hnot : ref ∉ w.kept := by
        rw [h.kept]
        exact fun hr => hexact (.inl hr)
      constructor
      · rintro ⟨hmem, rfl⟩
        obtain ⟨hin, hunseen⟩ :=
          unreached_of_not_exact hadmits (hmem.imp_left (hpart ref)) hexact
        have hbelow := hstop.undecided ref hin hunseen
        have hpos := rrf_pos (w.kept.length + 1)
        rw [stoppedScore, term_of_notMem hnot] at hbar
        linarith
      · rintro ⟨hmem, rfl⟩
        obtain ⟨hin, hunseen⟩ := unreached_of_not_exact hadmits hmem hexact
        have hbelow := hstop.undecided ref hin hunseen
        have hterm : term (lexical.filter admits) ref ≤ rrf (w.kept.length + 1) := by
          cases hrank : (ranked (lexical.filter admits)).lookup ref with
          | none =>
            rw [term_of_notMem (lookup_ranked_eq_none.mp hrank)]
            exact (rrf_pos _).le
          | some rank =>
            rw [term_of_rank hrank]
            rw [happend] at hrank
            exact rrf_le_rrf (rank_of_append hnot hrank)
        rw [fullScore] at hbar
        linarith
  · obtain ⟨top, hnodup, hlength, htop⟩ := hstop.top
    have hentries : (top.map fun ref => (ref, stoppedScore w dense ref)).Nodup :=
      hnodup.map fun a b hab => (Prod.mk.inj hab).1
    have hsub : (top.map fun ref => (ref, stoppedScore w dense ref)) ⊆
        (fuse [w.kept, dense] recordedAt).filter fun e => decide (floor ≤ e.2) := by
      intro e he
      obtain ⟨ref, href, rfl⟩ := List.mem_map.mp he
      obtain ⟨hexact, hfloor⟩ := htop ref href
      rw [List.mem_filter, mem_fuse hkept hdense, decide_eq_true_iff, h.kept]
      refine ⟨⟨hexact.imp_right And.left, ?_⟩, ?_⟩
      · rw [← h.kept]
        rfl
      · rw [h.stoppedScore_eq hsplit hexact]
        exact hfloor
    have hle := (hentries.subperm hsub).length_le
    rw [List.length_map, hlength] at hle
    exact hle

end Walk

section Fused

variable {admits : Ref → Bool} {lexical dense : List Ref} {k : ℕ} {recordedAt : Ref → Option ℕ}

/-- A single arm is fused to itself. -/
theorem fuse_single {arm : List Ref} (harm : arm.Nodup) :
    (fuse [arm, []] recordedAt).map Prod.fst = arm := by
  have hentries : (fuse [arm, []] recordedAt).Perm (arm.map fun ref => (ref, term arm ref)) := by
    have hdistinct : (fuse [arm, []] recordedAt).Nodup := by
      refine (fuse_pairwise _ recordedAt).imp ?_
      rintro e e' h rfl
      exact outranks_asymm h h
    rw [List.perm_ext_iff_of_nodup hdistinct]
    · rintro ⟨ref, score⟩
      rw [mem_fuse harm List.nodup_nil, List.mem_map]
      have hnil : term ([] : List Ref) ref = 0 := term_of_notMem List.not_mem_nil
      simp only [List.not_mem_nil, or_false, hnil, add_zero, Prod.mk.injEq]
      constructor
      · rintro ⟨hmem, rfl⟩
        exact ⟨ref, hmem, rfl, rfl⟩
      · rintro ⟨found, hmem, rfl, rfl⟩
        exact ⟨hmem, rfl⟩
    · exact harm.map fun a b h => (Prod.mk.inj h).1
  have hordered : (arm.map fun ref => (ref, term arm ref)).Pairwise (Outranks recordedAt) := by
    rw [List.pairwise_map, List.pairwise_iff_getElem]
    intro i j hi hj hij
    have hrank (n : ℕ) (hn : n < arm.length) : term arm arm[n] = rrf (n + 1) := by
      refine term_of_rank (lookup_of_mem_ranked harm ?_)
      rw [ranked, List.mk_mem_zipIdx_iff_le_and_getElem?_sub]
      exact ⟨by omega, by simp [hn]⟩
    left
    change term arm arm[j] < term arm arm[i]
    rw [hrank i hi, hrank j hj]
    exact rrf_lt_rrf (by omega)
  have heq := hentries.eq_of_pairwise (fun a b _ _ h h' => absurd h' (outranks_asymm h))
    (fuse_pairwise _ recordedAt) hordered
  rw [heq, List.map_map]
  exact List.map_id arm

/-- What holds of the cut arms. -/
structure HybridLaw (lexical dense : List Ref) (admits : Ref → Bool) (recordedAt : Ref → Option ℕ)
    (k : ℕ) (cut : AdmittedArms Ref) : Prop where
  /-- The first `k` entries are those of the lists that `admits` was asked of in full. -/
  head : (fuse [cut.lexical, cut.dense] recordedAt).take k =
    (fuse [lexical.filter admits, dense.filter admits] recordedAt).take k
  /-- The positions that `admits` is asked of come one after another. -/
  asked : cut.asked <+: lexical
  kept : cut.lexical <+: lexical.filter admits
  /-- Without a dense arm the fused order is the admitted lexical order. -/
  single : dense = [] →
    (fuse [cut.lexical, cut.dense] recordedAt).map Prod.fst = cut.lexical ∧
      (fuse [lexical.filter admits, []] recordedAt).map Prod.fst = lexical.filter admits

/-- The early stop of the hybrid search equals full fusion. -/
theorem early_stop (hlexical : lexical.Nodup) (hdense : dense.Nodup) :
    HybridLaw lexical dense admits recordedAt k (admittedArms lexical dense admits k) := by
  have hadmitted : (lexical.filter admits).Nodup := hlexical.filter admits
  have hdenseKept : (dense.filter admits).Nodup := hdense.filter admits
  obtain ⟨seen, rest, hsplit, hsound, hend⟩ :=
    (@walkSound_start _ _ admits lexical _ k hdenseKept).walk
      (k := k) hlexical (List.nil_append lexical).symm
  have hkept : (admittedArms lexical dense admits k).lexical = seen.filter admits := hsound.kept
  have happend : lexical.filter admits = seen.filter admits ++ rest.filter admits := by
    rw [hsplit, List.filter_append]
  constructor
  case head =>
    obtain rfl | hsettled := hend
    · rw [List.append_nil] at hsplit
      rw [hkept, ← hsplit]
      rfl
    · obtain ⟨floor, hstop⟩ := hsound.stopped hsettled
      exact hsound.head hlexical hdenseKept (fun ref => List.of_mem_filter) hsplit hstop
  case asked =>
    change List.IsPrefix (lexicalWalk admits k _ _ lexical).asked lexical
    rw [hsound.asked]
    exact ⟨rest, hsplit.symm⟩
  case kept =>
    rw [hkept]
    exact ⟨rest.filter admits, happend.symm⟩
  case single =>
    rintro rfl
    have hnodup : (seen.filter admits).Nodup := by
      rw [happend] at hadmitted
      exact (List.nodup_append.mp hadmitted).1
    constructor
    · rw [hkept]
      exact fuse_single hnodup
    · exact fuse_single hadmitted

/-- One memory is found by both arms, and one may not be read. -/
theorem early_stop_sample : HybridLaw [1, 2, 3, 4] [3, 5] (· ≠ 2) (fun ref => some ref) 2
    (admittedArms [1, 2, 3, 4] [3, 5] (· ≠ 2) 2) :=
  early_stop (by decide) (by decide)

end Fused

end Rheostream.Recallatron
