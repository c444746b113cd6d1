import Rheostream.Foundation.Selection

/-!
# Scans that page by key

A scan goes over a class of rows one page at a time, in the order of a key. A page holds the
first rows strictly after the cursor, and the cursor moves to the last of them, or back to
the start when the page is short. The class may change between two pages in any way. The
history of a scan lists its pages, the newest first.
-/

namespace Rheostream

universe u v

variable {κ : Type u} [LinearOrder κ]

/-- A key is strictly after the cursor. -/
def isAfter (cursor : Option κ) (k : κ) : Bool :=
  match cursor with
  | none => true
  | some c => c < k

/-- `WHERE key > cursor ORDER BY key LIMIT size`. -/
def pageRows {α : Type v} (key : α → κ) (cursor : Option κ) (size : ℕ) (rows : List α) : List α :=
  (sortedBy key (rows.filter fun a => isAfter cursor (key a))).take size

/-- One page of a scan: the keys of the class when it was read, the keys it examined in
order, and whether it was short. -/
structure ScanPage (κ : Type u) where
  members : List κ
  examined : List κ
  wrapped : Bool
  deriving DecidableEq

namespace ScanPage

/-- The cursor that a page leaves behind. -/
def cursorAfter (p : ScanPage κ) : Option κ := if p.wrapped then none else p.examined.getLast?

/-- The cursor that the pages of a scan leave behind. -/
def cursorOf : List (ScanPage κ) → Option κ
  | [] => none
  | p :: _ => p.cursorAfter

/-- What a page does: it examines a beginning of the class after the cursor, all of it when
the page is short. -/
structure ReadAt (cursor : Option κ) (p : ScanPage κ) : Prop where
  sorted : p.examined.Pairwise (· < ·)
  mem : ∀ k ∈ p.examined, k ∈ p.members
  after : ∀ k ∈ p.examined, isAfter cursor k = true
  initial : ∀ k ∈ p.members, isAfter cursor k = true → ∀ b ∈ p.examined, k ≤ b → k ∈ p.examined
  whole : p.wrapped = true → ∀ k ∈ p.members, isAfter cursor k = true → k ∈ p.examined
  full : p.wrapped = false → p.examined ≠ []

/-- Every page was read at the cursor that the pages before it left behind. -/
def IsHistory : List (ScanPage κ) → Prop
  | [] => True
  | p :: ps => p.ReadAt (cursorOf ps) ∧ IsHistory ps

/-- The pages end with a wrap, or there are none. -/
def EndsCycle : List (ScanPage κ) → Prop
  | [] => True
  | p :: _ => p.wrapped = true

/-- The keys that some pages examined. -/
def examinedBy (pages : List (ScanPage κ)) : List κ := pages.flatMap ScanPage.examined

omit [LinearOrder κ] in
@[simp] theorem examinedBy_nil : examinedBy ([] : List (ScanPage κ)) = [] := rfl

omit [LinearOrder κ] in
@[simp] theorem examinedBy_cons (p : ScanPage κ) (ps : List (ScanPage κ)) :
    examinedBy (p :: ps) = p.examined ++ examinedBy ps := List.flatMap_cons

/-- How many times some pages examined a key. -/
def timesExamined (pages : List (ScanPage κ)) (k : κ) : ℕ := (examinedBy pages).count k

theorem isAfter_none (k : κ) : isAfter none k = true := rfl

theorem isAfter_some {c k : κ} : isAfter (some c) k = true ↔ c < k := by simp [isAfter]

section ReadAt

variable {cursor : Option κ} {p : ScanPage κ}

/-- A page that does not wrap leaves its greatest key as the cursor. -/
theorem ReadAt.cursorAfter_eq (h : p.ReadAt cursor) (hopen : p.wrapped = false) :
    ∃ c ∈ p.examined, p.cursorAfter = some c ∧ ∀ k ∈ p.examined, k ≤ c := by
  obtain ⟨front, c, hsplit⟩ := (List.eq_nil_or_concat' p.examined).resolve_left (h.full hopen)
  refine ⟨c, by simp [hsplit], ?_, ?_⟩
  · simp [cursorAfter, hopen, hsplit]
  · intro k hk
    have hsorted := h.sorted
    rw [hsplit, List.pairwise_append] at hsorted
    obtain hfront | hlast := List.mem_append.mp (hsplit ▸ hk)
    · exact (hsorted.2.2 k hfront c List.mem_cons_self).le
    · exact (List.mem_singleton.mp hlast).le

/-- The cursor advances: a page that does not wrap leaves a later cursor than it found. -/
theorem ReadAt.advances (h : p.ReadAt cursor) (hopen : p.wrapped = false) :
    ∃ c, p.cursorAfter = some c ∧ isAfter cursor c = true := by
  obtain ⟨c, hmem, hcursor, -⟩ := h.cursorAfter_eq hopen
  exact ⟨c, hcursor, h.after c hmem⟩

/-- What is after the cursor that a page leaves was after the cursor it found. -/
theorem ReadAt.isAfter_of_cursorAfter (h : p.ReadAt cursor) (hopen : p.wrapped = false) {k : κ}
    (hk : isAfter p.cursorAfter k = true) : isAfter cursor k = true := by
  obtain ⟨c, hc, hafter⟩ := h.advances hopen
  rw [hc, isAfter_some] at hk
  cases cursor with
  | none => exact isAfter_none k
  | some d =>
    rw [isAfter_some] at hafter ⊢
    exact hafter.trans hk

theorem ReadAt.nodup (h : p.ReadAt cursor) : p.examined.Nodup :=
  h.sorted.imp fun hlt => hlt.ne

/-- A page that does not wrap examines the members between the two cursors, and no key after
the cursor it leaves. -/
theorem ReadAt.mem_iff (h : p.ReadAt cursor) (hopen : p.wrapped = false) {k : κ}
    (hk : k ∈ p.members) :
    k ∈ p.examined ↔ isAfter cursor k = true ∧ isAfter p.cursorAfter k = false := by
  obtain ⟨c, hc, hcursor, hmax⟩ := h.cursorAfter_eq hopen
  rw [hcursor, ← Bool.not_eq_true, isAfter_some, not_lt]
  constructor
  · intro hmem
    exact ⟨h.after k hmem, hmax k hmem⟩
  · rintro ⟨hafter, hle⟩
    exact h.initial k hk hafter c hc hle

end ReadAt

section Cycle

variable {earlier body : List (ScanPage κ)}

theorem IsHistory.of_append {later : List (ScanPage κ)} (h : IsHistory (later ++ earlier)) :
    IsHistory earlier := by
  induction later with
  | nil => exact h
  | cons p later ih => exact ih h.2

omit [LinearOrder κ] in
theorem cursorOf_of_endsCycle (h : EndsCycle earlier) : cursorOf earlier = none := by
  cases earlier with
  | nil => rfl
  | cons p ps =>
    have hwrapped : p.wrapped = true := h
    simp [cursorOf, cursorAfter, hwrapped]

/-- In a cycle that has not wrapped yet, a key that was a member at every page has been
examined once when the cursor has passed it, and is still to come otherwise. -/
theorem count_of_open (hstart : EndsCycle earlier) (hhistory : IsHistory (body ++ earlier))
    (hopen : ∀ p ∈ body, p.wrapped = false) {k : κ} (hk : ∀ p ∈ body, k ∈ p.members) :
    timesExamined body k =
      if isAfter (cursorOf (body ++ earlier)) k = true then 0 else 1 := by
  induction body with
  | nil =>
    rw [List.nil_append, cursorOf_of_endsCycle hstart, isAfter_none, if_pos rfl]
    rfl
  | cons p body ih =>
    rw [List.cons_append] at hhistory
    obtain ⟨hread, hrest⟩ := hhistory
    have hp := hopen p List.mem_cons_self
    have hkp := hk p List.mem_cons_self
    have hbody := ih hrest (fun q hq => hopen q (List.mem_cons_of_mem p hq))
      fun q hq => hk q (List.mem_cons_of_mem p hq)
    rw [timesExamined, examinedBy_cons, List.count_append, ← timesExamined, hbody,
      List.Nodup.count hread.nodup]
    change _ = if isAfter p.cursorAfter k = true then 0 else 1
    have hiff := hread.mem_iff hp hkp
    have hmono := hread.isAfter_of_cursorAfter hp (k := k)
    cases hnew : isAfter p.cursorAfter k with
    | true => simp [hiff, hmono hnew, hnew]
    | false =>
      cases hold : isAfter (cursorOf (body ++ earlier)) k with
      | true => simp [hiff, hold, hnew]
      | false => simp [hiff, hold]

/-- Between two wraps, a key that is a member at every page is examined exactly once. -/
theorem count_of_cycle {p : ScanPage κ} (hstart : EndsCycle earlier)
    (hhistory : IsHistory (p :: body ++ earlier)) (hwrap : p.wrapped = true)
    (hopen : ∀ q ∈ body, q.wrapped = false) {k : κ} (hk : ∀ q ∈ p :: body, k ∈ q.members) :
    timesExamined (p :: body) k = 1 := by
  rw [List.cons_append] at hhistory
  obtain ⟨hread, hrest⟩ := hhistory
  have hkp := hk p List.mem_cons_self
  have hbody := count_of_open hstart hrest hopen fun q hq => hk q (List.mem_cons_of_mem p hq)
  rw [timesExamined, examinedBy_cons, List.count_append, ← timesExamined, hbody,
    List.Nodup.count hread.nodup]
  cases hafter : isAfter (cursorOf (body ++ earlier)) k with
  | true => simp [hread.whole hwrap k hkp hafter]
  | false =>
    have hnot : k ∉ p.examined := by
      intro hmem
      have hcursor : isAfter (cursorOf (body ++ earlier)) k = true := hread.after k hmem
      rw [hafter] at hcursor
      cases hcursor
    simp [hnot]

/-- In a cycle that has not wrapped yet no key is examined twice, and none after the cursor. -/
theorem nodup_of_open (hhistory : IsHistory (body ++ earlier))
    (hopen : ∀ p ∈ body, p.wrapped = false) : (examinedBy body).Nodup ∧
      ∀ k ∈ examinedBy body, isAfter (cursorOf (body ++ earlier)) k = false := by
  induction body with
  | nil => simp
  | cons p body ih =>
    rw [List.cons_append] at hhistory
    obtain ⟨hread, hrest⟩ := hhistory
    have hp := hopen p List.mem_cons_self
    obtain ⟨hnodup, hpast⟩ := ih hrest fun q hq => hopen q (List.mem_cons_of_mem p hq)
    rw [examinedBy_cons]
    refine ⟨hread.nodup.append hnodup ?_, ?_⟩
    · intro k hnew hold
      have hafter : isAfter (cursorOf (body ++ earlier)) k = true := hread.after k hnew
      rw [hpast k hold] at hafter
      cases hafter
    · intro k hk
      change isAfter p.cursorAfter k = false
      obtain hnew | hold := List.mem_append.mp hk
      · exact ((hread.mem_iff hp (hread.mem k hnew)).mp hnew).2
      · by_contra hafter
        have hbefore : isAfter (cursorOf (body ++ earlier)) k = true :=
          hread.isAfter_of_cursorAfter hp (by simpa using hafter)
        rw [hpast k hold] at hbefore
        cases hbefore

/-- A cycle ends: pages that do not wrap are no more than the keys there are to examine. -/
theorem length_le_of_open (hhistory : IsHistory (body ++ earlier))
    (hopen : ∀ p ∈ body, p.wrapped = false) {keys : Finset κ}
    (hkeys : ∀ p ∈ body, ∀ k ∈ p.members, k ∈ keys) : body.length ≤ keys.card := by
  have hnodup := (nodup_of_open hhistory hopen).1
  have hsub : (examinedBy body).toFinset ⊆ keys := by
    intro k hk
    obtain ⟨p, hp, hkp⟩ := List.mem_flatMap.mp (List.mem_toFinset.mp hk)
    have hread : ∃ cursor, p.ReadAt cursor := by
      obtain ⟨later, before, hsplit⟩ := List.append_of_mem hp
      rw [hsplit, List.append_assoc] at hhistory
      exact ⟨_, hhistory.of_append.1⟩
    obtain ⟨cursor, hread⟩ := hread
    exact hkeys p hp k (hread.mem k hkp)
  have hlength : body.length ≤ (examinedBy body).length := by
    clear hsub hnodup hkeys
    induction body with
    | nil => simp
    | cons p body ih =>
      have hp := hhistory.1.full (hopen p List.mem_cons_self)
      have hpos := List.length_pos_iff.mpr hp
      have hrest := ih hhistory.2 fun q hq => hopen q (List.mem_cons_of_mem p hq)
      rw [examinedBy_cons, List.length_append, List.length_cons]
      omega
  have hcard := Finset.card_le_card hsub
  rw [List.toFinset_card_of_nodup hnodup] at hcard
  omega

end Cycle

section Page

variable {α : Type v} {key : α → κ} {cursor : Option κ} {size : ℕ} {rows : List α}

/-- The page that a scan reads from the rows of its class. -/
def ofRows (key : α → κ) (cursor : Option κ) (size : ℕ) (rows : List α) : ScanPage κ where
  members := rows.map key
  examined := (pageRows key cursor size rows).map key
  wrapped := decide ((pageRows key cursor size rows).length < size)

theorem mem_of_mem_pageRows {a : α} (h : a ∈ pageRows key cursor size rows) :
    a ∈ rows ∧ isAfter cursor (key a) = true := by
  have hsorted := List.mem_of_mem_take h
  have hfilter := (sortedBy_perm key _).mem_iff.mp hsorted
  exact List.mem_filter.mp hfilter

/-- The keys of the rows after the cursor, in order. -/
theorem sorted_keys (hkeys : (rows.map key).Nodup) :
    ((sortedBy key (rows.filter fun a => isAfter cursor (key a))).map key).Pairwise (· < ·) := by
  have hle := sortedBy_pairwise key (rows.filter fun a => isAfter cursor (key a))
  have hperm := (sortedBy_perm key (rows.filter fun a => isAfter cursor (key a))).map key
  have hnodup := hperm.nodup_iff.mpr (hkeys.sublist (List.filter_sublist.map key))
  have hpair := List.pairwise_map.mpr (hle : List.Pairwise (fun a b => key a ≤ key b) _)
  exact (hpair.and hnodup).imp fun h => lt_of_le_of_ne h.1 h.2

/-- A page of rows with distinct keys is read as a page of a scan is. -/
theorem readAt_ofRows (hkeys : (rows.map key).Nodup) (hsize : 1 ≤ size) :
    (ofRows key cursor size rows).ReadAt cursor := by
  have hsorted : ((sortedBy key (rows.filter fun a => isAfter cursor (key a))).map key).Pairwise
      (· < ·) := sorted_keys hkeys
  have hsplit := List.take_append_drop size
    ((sortedBy key (rows.filter fun a => isAfter cursor (key a))).map key)
  have hall : ∀ k ∈ rows.map key, isAfter cursor k = true →
      k ∈ (sortedBy key (rows.filter fun a => isAfter cursor (key a))).map key := by
    intro k hk hafter
    obtain ⟨a, ha, rfl⟩ := List.mem_map.mp hk
    have hfilter : a ∈ rows.filter fun b => isAfter cursor (key b) :=
      List.mem_filter.mpr ⟨ha, hafter⟩
    exact List.mem_map_of_mem ((sortedBy_perm key _).mem_iff.mpr hfilter)
  constructor
  · rw [ofRows, pageRows, List.map_take]
    exact hsorted.sublist (List.take_sublist _ _)
  · intro k hk
    obtain ⟨a, ha, rfl⟩ := List.mem_map.mp hk
    exact List.mem_map_of_mem (mem_of_mem_pageRows ha).1
  · intro k hk
    obtain ⟨a, ha, rfl⟩ := List.mem_map.mp hk
    exact (mem_of_mem_pageRows ha).2
  · intro k hk hafter b hb hle
    simp only [ofRows, pageRows, List.map_take] at hb ⊢
    have hmem := hall k hk hafter
    rw [← hsplit] at hmem hsorted
    obtain hfirst | hlater := List.mem_append.mp hmem
    · exact hfirst
    · have hlt := (List.pairwise_append.mp hsorted).2.2 b hb k hlater
      exact absurd hle (not_le.mpr hlt)
  · intro hwrapped k hk hafter
    have hshort := of_decide_eq_true hwrapped
    rw [pageRows, List.length_take] at hshort
    simp only [ofRows, pageRows]
    rw [List.take_of_length_le (by omega)]
    exact hall k hk hafter
  · intro hopen hnil
    have hlong := of_decide_eq_false hopen
    rw [List.map_eq_nil_iff.mp hnil, List.length_nil] at hlong
    omega

end Page

end ScanPage

end Rheostream
