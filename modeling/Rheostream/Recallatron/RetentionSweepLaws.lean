import Rheostream.Recallatron.RetentionSweep

/-!
# What an expiry takes with it

The closure walk finds the memories that depend on its target. Removing one closure after
another removes the union of the closures in the memories one began with: what a removed
memory would have led to was removed with it.
-/

namespace Rheostream.Recallatron

/-! ### The closure walk -/

section Closure

variable {s t : Memories} {follows : Relation → Bool} {x y target : Uuid}

/-- The memory links to `id` in a way that scheduled expiry follows. -/
def StoredMemory.LinksTo (m : StoredMemory) (follows : Relation → Bool) (id : Uuid) : Prop :=
  ∃ link ∈ m.links, link.ref = memoryReference id ∧ link.supersessionLineage = false ∧
    follows link.relation = true

theorem mem_sorted_select {p : StoredMemory → Bool} :
    y ∈ (sortedBy Sigma.fst (s.select fun _ m => p m).entries).map Sigma.fst ↔
      ∃ m, s.lookup y = some m ∧ p m = true := by
  rw [List.mem_map]
  constructor
  · rintro ⟨⟨y', m⟩, hmem, rfl⟩
    have hlookup := AList.mem_lookup_iff.mpr ((sortedBy_perm _ _).mem_iff.mp hmem)
    rw [Option.mem_def, Table.lookup_select, Option.filter_eq_some_iff] at hlookup
    exact ⟨m, hlookup⟩
  · rintro ⟨m, hm⟩
    refine ⟨⟨y, m⟩, (sortedBy_perm _ _).mem_iff.mpr (AList.mem_lookup_iff.mp ?_), rfl⟩
    rw [Option.mem_def, Table.lookup_select, Option.filter_eq_some_iff]
    exact hm

theorem mem_dependents :
    y ∈ dependents s follows x ↔ ∃ m, s.lookup y = some m ∧ m.LinksTo follows x := by
  simp only [dependents, mem_sorted_select, List.any_eq_true, Bool.and_eq_true,
    decide_eq_true_eq, Bool.not_eq_true', StoredMemory.LinksTo, and_assoc]

/-- What a later hop takes, the first hop takes. -/
theorem firstHop_of_laterHop (h : y ∈ laterHop s x) : y ∈ firstHop s x := by
  obtain ⟨m, hm, link, hlink, href, hmarked, -⟩ := mem_dependents.mp h
  exact mem_dependents.mpr ⟨m, hm, link, hlink, href, hmarked, rfl⟩

/-- A memory depends on the target: a link in either relation, and then links of derivation. -/
def Dependent (s : Memories) (target y : Uuid) : Prop :=
  y ≠ target ∧ ∃ x ∈ firstHop s target,
    Relation.ReflTransGen (fun a b => b ∈ laterHop s a) x y

theorem isSome_of_mem_dependents (h : y ∈ dependents s follows x) : (s.lookup y).isSome = true := by
  obtain ⟨m, hm, -⟩ := mem_dependents.mp h
  rw [hm]
  rfl

theorem Dependent.isSome (h : Dependent s target y) : (s.lookup y).isSome = true := by
  obtain ⟨-, x, hx, hpath⟩ := h
  induction hpath with
  | refl => exact isSome_of_mem_dependents hx
  | tail _ hlast _ => exact isSome_of_mem_dependents hlast

/-- The number of memories. -/
def size (s : Memories) : ℕ := s.keys.toFinset.card

theorem mem_keys_iff : y ∈ s.keys.toFinset ↔ (s.lookup y).isSome = true := by
  rw [List.mem_toFinset, ← AList.mem_keys, AList.lookup_isSome]

theorem size_eq_length (s : Memories) : size s = s.entries.length := by
  rw [size, List.toFinset_card_of_nodup s.keys_nodup, AList.keys, List.keys, List.length_map]

/-- The walk finds what depends on its target. -/
theorem mem_dependentClosure : y ∈ dependentClosure s target ↔ Dependent s target y := by
  let first := Search.unseen (firstHop s target) [target]
  have hfirst (z : Uuid) : z ∈ first ↔ z ∈ firstHop s target ∧ z ≠ target := by
    simp [first, Search.mem_unseen]
  constructor
  · intro hmem
    rcases List.mem_append.mp hmem with hmem | hmem
    · obtain ⟨hhop, hne⟩ := (hfirst y).mp hmem
      exact ⟨hne, y, hhop, .refl⟩
    · obtain ⟨hunseen, x, hx, hpath⟩ := Search.reached_of_mem hmem
      have hne : y ≠ target := by
        rintro rfl
        exact hunseen (by simp)
      exact ⟨hne, x, ((hfirst x).mp hx).1, hpath.to_reflTransGen⟩
  · rintro ⟨hne, x, hx, hpath⟩
    have hnext : ∀ a b, b ∈ laterHop s a → b ∈ s.keys.toFinset := fun a b hb =>
      mem_keys_iff.mpr (isSome_of_mem_dependents hb)
    have hsubset : first.toFinset ⊆ s.keys.toFinset := by
      intro z hz
      have hhop := ((hfirst z).mp (List.mem_toFinset.mp hz)).1
      exact mem_keys_iff.mpr (isSome_of_mem_dependents hhop)
    have hfuel : first.length + (s.keys.toFinset \ (first ++ [target]).toFinset).card ≤
        s.entries.length := by
      have hlength : first.toFinset.card = first.length :=
        List.toFinset_card_of_nodup (Search.nodup_unseen _ _)
      have hcard := Finset.card_sdiff_of_subset hsubset
      have hle := Finset.card_le_card hsubset
      have hdrop : (s.keys.toFinset \ (first ++ [target]).toFinset).card ≤
          (s.keys.toFinset \ first.toFinset).card := by
        apply Finset.card_le_card
        apply Finset.sdiff_subset_sdiff (Finset.Subset.refl _)
        intro z hz
        simp only [List.toFinset_append, Finset.mem_union]
        exact Or.inl hz
      have hsize := size_eq_length s
      unfold size at hsize
      omega
    have hclosed := Search.closed_of_fuel hnext hfuel (by
      intro z hz hout w hw
      rcases List.mem_append.mp hz with hz | hz
      · exact absurd hz hout
      · obtain rfl : z = target := by simpa using hz
        by_cases heq : w = z
        · exact List.mem_append_right _ (by simp [heq])
        · exact List.mem_append_left _ ((hfirst w).mpr ⟨firstHop_of_laterHop hw, heq⟩))
    have hfound : y ∈ (first ++ [target]) ++
        Search.search (laterHop s) s.entries.length first (first ++ [target]) := by
      induction hpath with
      | refl => exact List.mem_append_left _ (List.mem_append_left _ ((hfirst x).mpr ⟨hx, hne⟩))
      | @tail b c _ hlast ih =>
        by_cases hb : b = target
        · subst hb
          have hc := (hfirst c).mpr ⟨firstHop_of_laterHop hlast, hne⟩
          exact List.mem_append_left _ (List.mem_append_left _ hc)
        · exact hclosed b (ih hb) c hlast
    rcases List.mem_append.mp hfound with hseen | hlater
    · rcases List.mem_append.mp hseen with hmem | hmem
      · exact List.mem_append_left _ hmem
      · exact absurd (by simpa using hmem) hne
    · exact List.mem_append_right _ hlater

end Closure

/-! ### Removal -/

section Removal

variable {s t u : Memories} {gone gone' : Finset Uuid} {root x y target : Uuid}

namespace StoredMemory

variable (m : StoredMemory)

@[simp] theorem unpoint_links (gone : Finset Uuid) : (m.unpoint gone).links = m.links := by
  unfold unpoint
  split_ifs <;> rfl

@[simp] theorem unpoint_audienceKind (gone : Finset Uuid) :
    (m.unpoint gone).row.audienceKind = m.row.audienceKind := by
  unfold unpoint
  split_ifs <;> rfl

@[simp] theorem unpoint_recordedAt (gone : Finset Uuid) :
    (m.unpoint gone).row.recordedAt = m.row.recordedAt := by
  unfold unpoint
  split_ifs <;> rfl

theorem unpoint_empty : m.unpoint ∅ = m := by
  unfold unpoint
  cases m.row.supersededById <;> simp

theorem unpoint_unpoint (gone gone' : Finset Uuid) :
    (m.unpoint gone).unpoint gone' = m.unpoint (gone ∪ gone') := by
  unfold unpoint
  cases hsuper : m.row.supersededById with
  | none => simp [hsuper]
  | some successor =>
    by_cases h : successor ∈ gone
    · simp [h]
    · simp [h, hsuper]

end StoredMemory

/-- `t` is `s` without the memories of `gone`, which were there, and with the pointers to them
cleared. -/
structure Without (s t : Memories) (gone : Finset Uuid) : Prop where
  there : ∀ id ∈ gone, (s.lookup id).isSome = true
  rows : ∀ id, t.lookup id =
    if id ∈ gone then none else (s.lookup id).map fun m => m.unpoint gone

theorem Without.refl (s : Memories) : Without s s ∅ where
  there _ hid := absurd hid (Finset.notMem_empty _)
  rows id := by
    simp only [Finset.notMem_empty, if_false, StoredMemory.unpoint_empty, Option.map_id']

theorem Without.isSome (h : Without s t gone) {id : Uuid} :
    (t.lookup id).isSome = true ↔ id ∉ gone ∧ (s.lookup id).isSome = true := by
  rw [h.rows id]
  split_ifs with hid
  · simp [hid]
  · simp [hid]

theorem Without.trans (h : Without s t gone) (h' : Without t u gone') :
    Without s u (gone ∪ gone') where
  there id hid := by
    rcases Finset.mem_union.mp hid with hid | hid
    · exact h.there id hid
    · exact (h.isSome.mp (h'.there id hid)).2
  rows id := by
    rw [h'.rows id, h.rows id]
    by_cases hid : id ∈ gone
    · simp [hid]
    · by_cases hid' : id ∈ gone'
      · simp [hid']
      · rw [if_neg hid', if_neg hid, if_neg (by simp [hid, hid']), Option.map_map]
        congr 1
        funext m
        exact m.unpoint_unpoint gone gone'

theorem deleteMemory_without (s : Memories) (id : Uuid) :
    Without s (deleteMemory s id) (if (s.lookup id).isSome = true then {id} else ∅) := by
  unfold deleteMemory
  cases hrow : s.lookup id with
  | none => simpa using Without.refl s
  | some m =>
    simp only [Option.isSome_some, if_true]
    constructor
    · intro id' hid'
      obtain rfl := Finset.mem_singleton.mp hid'
      simp [hrow]
    · intro id'
      rw [Table.lookup_updateAll]
      by_cases hid : id' = id
      · subst hid
        simp
      · rw [if_neg (by simpa using hid), AList.lookup_erase_ne hid]

theorem foldl_deleteMemory_without (s : Memories) (ids : List Uuid) :
    ∃ gone, Without s (ids.foldl deleteMemory s) gone ∧
      ∀ id, id ∈ gone ↔ id ∈ ids ∧ (s.lookup id).isSome = true := by
  induction ids generalizing s with
  | nil => exact ⟨∅, Without.refl s, by simp⟩
  | cons x ids ih =>
    have hfirst := deleteMemory_without s x
    obtain ⟨gone, hrest, hmem⟩ := ih (deleteMemory s x)
    refine ⟨_, hfirst.trans hrest, fun id => ?_⟩
    rw [Finset.mem_union, hmem, hfirst.isSome, List.mem_cons]
    by_cases hid : id = x
    · subst hid
      by_cases hsome : (s.lookup id).isSome = true
      · simp [hsome]
      · simp [hsome]
    · have hout : id ∉ (if (s.lookup x).isSome = true then ({x} : Finset Uuid) else ∅) := by
        split_ifs <;> simp [hid]
      simp [hid, hout]

theorem eraseMemories_without (s : Memories) (ids : List Uuid) :
    ∃ gone, Without s (eraseMemories s ids) gone ∧
      ∀ id, id ∈ gone ↔ id ∈ ids ∧ (s.lookup id).isSome = true := by
  obtain ⟨gone, hwithout, hmem⟩ := foldl_deleteMemory_without s (sortedBy id ids)
  refine ⟨gone, hwithout, fun id => ?_⟩
  rw [hmem, (sortedBy_perm _ _).mem_iff]

/-! ### Closures in what is left -/

theorem Without.mem_dependents {follows : Relation → Bool} (h : Without s t gone) :
    y ∈ dependents t follows x ↔ y ∉ gone ∧ y ∈ dependents s follows x := by
  rw [Recallatron.mem_dependents, Recallatron.mem_dependents, h.rows y]
  constructor
  · rintro ⟨m, hm, hlinks⟩
    split_ifs at hm with hy
    obtain ⟨old, hold, rfl⟩ := Option.map_eq_some_iff.mp hm
    refine ⟨hy, old, hold, ?_⟩
    simpa [StoredMemory.LinksTo] using hlinks
  · rintro ⟨hy, m, hm, hlinks⟩
    refine ⟨m.unpoint gone, by rw [if_neg hy, hm, Option.map_some], ?_⟩
    simpa [StoredMemory.LinksTo] using hlinks

/-- What depends on a memory in what is left depended on it before. -/
theorem Without.dependent_of (h : Without s t gone) (hdep : Dependent t target y) :
    Dependent s target y ∧ y ∉ gone := by
  have hy : y ∉ gone := by
    have hsome := hdep.isSome
    exact (h.isSome.mp hsome).1
  obtain ⟨hne, x, hx, hpath⟩ := hdep
  refine ⟨⟨hne, x, (h.mem_dependents.mp hx).2, ?_⟩, hy⟩
  exact Relation.ReflTransGen.mono (fun _ _ hstep => (h.mem_dependents.mp hstep).2) _ _ hpath

/-- What depends on a removed memory depends on it after its removal. -/
theorem Without.dependent_of_root (h : Without s t {root}) (hdep : Dependent s root y) :
    Dependent t root y := by
  obtain ⟨hne, x, hx, hpath⟩ := hdep
  have hhop : ∀ {z}, z ≠ root → z ∈ firstHop s root → z ∈ firstHop t root := fun hz hmem =>
    h.mem_dependents.mpr ⟨by simpa using hz, hmem⟩
  refine ⟨hne, ?_⟩
  induction hpath with
  | refl => exact ⟨x, hhop hne hx, .refl⟩
  | @tail b c _ hlast ih =>
    by_cases hb : b = root
    · subst hb
      exact ⟨c, hhop hne (firstHop_of_laterHop hlast), .refl⟩
    · obtain ⟨z, hz, hto⟩ := ih hb
      exact ⟨z, hz, hto.tail (h.mem_dependents.mpr ⟨by simpa using hne, hlast⟩)⟩

/-- Where the removed memories lead to removed memories only, what depends on a memory is removed
or depends on it in what is left. -/
theorem Without.dependent_of_closed (h : Without s t gone)
    (hclosed : ∀ a ∈ gone, ∀ b ∈ laterHop s a, b ∈ gone) (hdep : Dependent s target y)
    (hy : y ∉ gone) : Dependent t target y := by
  obtain ⟨hne, x, hx, hpath⟩ := hdep
  refine ⟨hne, x, ?_⟩
  clear hne
  induction hpath with
  | refl => exact ⟨h.mem_dependents.mpr ⟨hy, hx⟩, .refl⟩
  | @tail b c _ hlast ih =>
    have hb : b ∉ gone := fun hb => hy (hclosed b hb c hlast)
    obtain ⟨hfirst, hto⟩ := ih hb
    exact ⟨hfirst, hto.tail (h.mem_dependents.mpr ⟨hy, hlast⟩)⟩

/-- An expiry removes its root and what depends on it. -/
theorem expireMemory_without (hroot : (s.lookup root).isSome = true) :
    ∃ gone, Without s (expireMemory s root) gone ∧
      ∀ y, y ∈ gone ↔ y = root ∨ Dependent s root y := by
  obtain ⟨first, hfirst, hmem⟩ := eraseMemories_without s [root]
  obtain rfl : first = {root} := by
    ext y
    rw [hmem, Finset.mem_singleton, List.mem_singleton]
    constructor
    · exact fun h => h.1
    · rintro rfl
      exact ⟨rfl, hroot⟩
  obtain ⟨later, hlater, hmem'⟩ := eraseMemories_without (eraseMemories s [root])
    (dependentClosure (eraseMemories s [root]) root)
  refine ⟨{root} ∪ later, hfirst.trans hlater, fun y => ?_⟩
  rw [Finset.mem_union, Finset.mem_singleton, hmem', mem_dependentClosure]
  refine or_congr_right ⟨fun h => (hfirst.dependent_of h.1).1, fun h => ?_⟩
  have hdep := hfirst.dependent_of_root h
  exact ⟨hdep, hdep.isSome⟩

/-- `t` is what is left of `s` after the roots expired, each with what depended on it. -/
def Swept (s t : Memories) (roots : List Uuid) : Prop :=
  ∃ gone, Without s t gone ∧ ∀ y, y ∈ gone ↔ ∃ r ∈ roots, y = r ∨ Dependent s r y

theorem Swept.refl (s : Memories) : Swept s s [] := ⟨∅, Without.refl s, by simp⟩

/-- What is removed from what is left was reached from the beginning: what a removed memory leads
to was removed with it. -/
theorem Swept.trans {roots roots' : List Uuid} (h : Swept s t roots) (h' : Swept t u roots') :
    Swept s u (roots' ++ roots) := by
  obtain ⟨gone, hwithout, hmem⟩ := h
  obtain ⟨more, hmore, hmem'⟩ := h'
  have hclosed : ∀ a ∈ gone, ∀ b ∈ laterHop s a, b ∈ gone := by
    intro a ha b hb
    obtain ⟨r, hr, hcase⟩ := (hmem a).mp ha
    refine (hmem b).mpr ⟨r, hr, ?_⟩
    by_cases hbr : b = r
    · exact Or.inl hbr
    rcases hcase with rfl | ⟨-, x, hx, hpath⟩
    · exact Or.inr ⟨hbr, b, firstHop_of_laterHop hb, .refl⟩
    · exact Or.inr ⟨hbr, x, hx, hpath.tail hb⟩
  refine ⟨gone ∪ more, hwithout.trans hmore, fun y => ?_⟩
  rw [Finset.mem_union, hmem, hmem']
  constructor
  · rintro (⟨r, hr, hcase⟩ | ⟨r, hr, hcase⟩)
    · exact ⟨r, List.mem_append_right _ hr, hcase⟩
    · refine ⟨r, List.mem_append_left _ hr, hcase.imp_right fun hdep => ?_⟩
      exact (hwithout.dependent_of hdep).1
  · rintro ⟨r, hr, hcase⟩
    rcases List.mem_append.mp hr with hr | hr
    · rcases hcase with rfl | hdep
      · exact Or.inr ⟨y, hr, Or.inl rfl⟩
      · by_cases hy : y ∈ gone
        · exact Or.inl ((hmem y).mp hy)
        · exact Or.inr ⟨r, hr, Or.inr (hwithout.dependent_of_closed hclosed hdep hy)⟩
    · exact Or.inl ⟨r, hr, hcase⟩

/-- One more root expires, in what is left. -/
theorem Swept.expire {roots : List Uuid} (h : Swept s t roots)
    (hroot : (t.lookup root).isSome = true) : Swept s (expireMemory t root) (root :: roots) := by
  obtain ⟨gone, hwithout, hmem⟩ := expireMemory_without hroot
  have hone : Swept t (expireMemory t root) [root] := ⟨gone, hwithout, by simpa using hmem⟩
  exact h.trans hone

theorem Without.size_add (h : Without s t gone) : size t + gone.card = size s := by
  have hkeys : t.keys.toFinset = s.keys.toFinset \ gone := by
    ext y
    rw [Finset.mem_sdiff, mem_keys_iff, mem_keys_iff, h.isSome, and_comm]
  have hsubset : gone ⊆ s.keys.toFinset := fun y hy => mem_keys_iff.mpr (h.there y hy)
  have hcard := Finset.card_sdiff_of_subset hsubset
  have hle := Finset.card_le_card hsubset
  unfold size
  rw [hkeys]
  omega

/-- An expiry leaves fewer memories. -/
theorem size_expireMemory (hroot : (s.lookup root).isSome = true) :
    size (expireMemory s root) < size s := by
  obtain ⟨gone, hwithout, hmem⟩ := expireMemory_without hroot
  have hcard := hwithout.size_add
  have hpos : 0 < gone.card := Finset.card_pos.mpr ⟨root, (hmem root).mpr (Or.inl rfl)⟩
  omega

end Removal

/-! ### A batch -/

section Batch

variable {s t : Memories} {b : Batch} {days : ℕ} {root : Uuid}

/-- The memory is the sweep's to remove at the instant at which its expiry is authorized. -/
def ExpiredAt (b : Batch) (root : Uuid) (m : StoredMemory) : Prop :=
  ∃ horizon, (b.attempt root).reading.horizon = some (some horizon) ∧
    m.row.audienceKind = .workspace ∧ m.row.recordedAt < horizon

theorem expiredWorkspaceMemory_iff {horizon : ℤ} {m : StoredMemory} :
    expiredWorkspaceMemory horizon m = true ↔
      m.row.audienceKind = .workspace ∧ m.row.recordedAt < horizon := by
  simp [expiredWorkspaceMemory]

/-- What is left of the memories keeps the columns that the sweep reads. -/
theorem ExpiredAt.of_swept {roots : List Uuid} {m : StoredMemory} (hswept : Swept s t roots)
    (hm : t.lookup root = some m) (h : ExpiredAt b root m) :
    ∃ old, s.lookup root = some old ∧ ExpiredAt b root old := by
  obtain ⟨gone, hwithout, -⟩ := hswept
  obtain ⟨horizon, hhorizon, hexpired⟩ := h
  have hrow := hwithout.rows root
  rw [hm] at hrow
  split_ifs at hrow
  obtain ⟨old, hold, rfl⟩ := Option.map_eq_some_iff.mp hrow.symm
  exact ⟨old, hold, horizon, hhorizon, by simpa using hexpired⟩

/-- What a root that expires was. -/
theorem dispatchMemoryExpiry_ok {t' : Memories}
    (h : dispatchMemoryExpiry (b.attempt root) days t root = some t') :
    t' = expireMemory t root ∧ ∃ m, t.lookup root = some m ∧ ExpiredAt b root m := by
  unfold dispatchMemoryExpiry at h
  split_ifs at h
  split at h
  · cases h
  · rename_i m hm
    split_ifs at h with hadmits
    cases h
    refine ⟨rfl, m, hm, ?_⟩
    simp only [expiryAdmits, Bool.and_eq_true, Option.any_eq_true] at hadmits
    obtain ⟨-, _, hhorizon, horizon, rfl, hexpired⟩ := hadmits
    exact ⟨horizon, hhorizon, expiredWorkspaceMemory_iff.mp hexpired⟩

/-- What the loop over the roots leaves. -/
theorem expireRoots_ok (b : Batch) (days : ℕ) (roots : List Uuid) {removed : List Uuid}
    (hswept : Swept s t removed) :
    Swept s (expireRoots b days roots t removed).1 (expireRoots b days roots t removed).2 ∧
      (∀ r ∈ (expireRoots b days roots t removed).2, r ∈ removed ∨
        ∃ m, s.lookup r = some m ∧ ExpiredAt b r m) ∧
      (expireRoots b days roots t removed).2.length +
        size (expireRoots b days roots t removed).1 ≤ removed.length + size t := by
  induction roots generalizing t removed with
  | nil => exact ⟨hswept, fun _ hr => Or.inl hr, le_refl _⟩
  | cons root roots ih =>
    rw [expireRoots]
    split
    · exact ih hswept
    · rename_i t' hdispatch
      obtain ⟨rfl, m, hm, hexpired⟩ := dispatchMemoryExpiry_ok hdispatch
      have hroot : (t.lookup root).isSome = true := by
        rw [hm]
        rfl
      obtain ⟨hafter, hroots, hsize⟩ := ih (hswept.expire hroot)
      refine ⟨hafter, fun r hr => ?_, ?_⟩
      · rcases hroots r hr with hmem | hold
        · rcases List.mem_cons.mp hmem with rfl | hmem
          · exact Or.inr (hexpired.of_swept hswept hm)
          · exact Or.inl hmem
        · exact Or.inr hold
      · have hless := size_expireMemory hroot
        rw [List.length_cons] at hsize
        omega

end Batch

end Rheostream.Recallatron
