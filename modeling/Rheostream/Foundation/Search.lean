import Mathlib.Data.Finset.Card
import Mathlib.Data.Finset.SDiff
import Mathlib.Logic.Relation

/-!
# Breadth-first search

A search over a successor function that visits every node once. With enough fuel for the
frontier and for the nodes that are still to be seen, what it has seen is closed under the
successors; without any, all that it finds is reached from its frontier. Found from one
node, it tells whether another edge would close a cycle.
-/

namespace Rheostream

namespace Search

variable {α : Type*} [DecidableEq α]

/-- The nodes of a list that were not seen, each once and in order. -/
def unseen : List α → List α → List α
  | [], _ => []
  | x :: xs, seen => if x ∈ seen then unseen xs seen else x :: unseen xs (x :: seen)

/-- What a search finds, in the order in which it finds it. -/
def search (next : α → List α) : ℕ → List α → List α → List α
  | n + 1, x :: frontier, seen =>
    let new := unseen (next x) seen
    new ++ search next n (frontier ++ new) (new ++ seen)
  | _, _, _ => []

variable {seen : List α}

theorem mem_unseen {x : α} {xs : List α} : x ∈ unseen xs seen ↔ x ∈ xs ∧ x ∉ seen := by
  induction xs generalizing seen with
  | nil => simp [unseen]
  | cons y ys ih =>
    by_cases hseen : y ∈ seen
    · rw [unseen, if_pos hseen, ih, List.mem_cons]
      constructor
      · rintro ⟨hmem, hx⟩
        exact ⟨.inr hmem, hx⟩
      · rintro ⟨rfl | hmem, hx⟩
        · exact absurd hseen hx
        · exact ⟨hmem, hx⟩
    · rw [unseen, if_neg hseen, List.mem_cons, ih, List.mem_cons, List.mem_cons, not_or]
      constructor
      · rintro (rfl | ⟨hmem, -, hx⟩)
        · exact ⟨.inl rfl, hseen⟩
        · exact ⟨.inr hmem, hx⟩
      · rintro ⟨rfl | hmem, hx⟩
        · exact .inl rfl
        · by_cases heq : x = y
          · exact .inl heq
          · exact .inr ⟨hmem, heq, hx⟩

theorem nodup_unseen (xs seen : List α) : (unseen xs seen).Nodup := by
  induction xs generalizing seen with
  | nil => exact List.nodup_nil
  | cons x xs ih =>
    unfold unseen
    split_ifs
    · exact ih seen
    · refine List.nodup_cons.mpr ⟨fun hmem => ?_, ih _⟩
      exact (mem_unseen.mp hmem).2 List.mem_cons_self

variable {next : α → List α}

variable {n : ℕ} {y : α}

/-- What a search finds is reached from its frontier. -/
theorem reached_of_mem {frontier : List α} (h : y ∈ search next n frontier seen) :
    y ∉ seen ∧ ∃ x ∈ frontier, Relation.TransGen (fun a b => b ∈ next a) x y := by
  induction n generalizing frontier seen with
  | zero => simp [search] at h
  | succ n ih =>
    cases frontier with
    | nil => simp [search] at h
    | cons x frontier =>
      obtain hnew | hlater := List.mem_append.mp h
      · obtain ⟨hnext, hunseen⟩ := mem_unseen.mp hnew
        exact ⟨hunseen, x, List.mem_cons_self, .single hnext⟩
      · obtain ⟨hunseen, z, hz, hreach⟩ := ih hlater
        have hy : y ∉ seen := fun hmem => hunseen (List.mem_append_right _ hmem)
        obtain hold | hfound := List.mem_append.mp hz
        · exact ⟨hy, z, List.mem_cons_of_mem _ hold, hreach⟩
        · exact ⟨hy, x, List.mem_cons_self, .head (mem_unseen.mp hfound).1 hreach⟩

variable {nodes : Finset α}

/-- With enough fuel, the successors of what was seen and found were seen or found. -/
theorem closed_of_fuel (hnext : ∀ x y, y ∈ next x → y ∈ nodes) {frontier : List α}
    (hfuel : frontier.length + (nodes \ seen.toFinset).card ≤ n)
    (hseen : ∀ z ∈ seen, z ∉ frontier → ∀ y ∈ next z, y ∈ seen) :
    ∀ z ∈ seen ++ search next n frontier seen, ∀ y ∈ next z,
      y ∈ seen ++ search next n frontier seen := by
  induction n generalizing frontier seen with
  | zero =>
    have hempty : frontier = [] := List.length_eq_zero_iff.mp (by omega)
    subst hempty
    simpa [search] using hseen
  | succ n ih =>
    cases frontier with
    | nil => simpa [search] using hseen
    | cons x frontier =>
      let new := unseen (next x) seen
      have hlength : new.toFinset.card = new.length :=
        List.toFinset_card_of_nodup (nodup_unseen _ _)
      have hsplit : (nodes \ (new ++ seen).toFinset).card + new.length =
          (nodes \ seen.toFinset).card := by
        have hsubset : new.toFinset ⊆ nodes \ seen.toFinset := by
          intro y hy
          obtain ⟨hmem, hunseen⟩ := mem_unseen.mp (List.mem_toFinset.mp hy)
          exact Finset.mem_sdiff.mpr ⟨hnext x y hmem, by simpa using hunseen⟩
        have heq : nodes \ (new ++ seen).toFinset = (nodes \ seen.toFinset) \ new.toFinset := by
          ext y
          simp only [List.toFinset_append, Finset.mem_sdiff, Finset.mem_union, not_or]
          constructor
          · rintro ⟨hy, hnew, hold⟩
            exact ⟨⟨hy, hold⟩, hnew⟩
          · rintro ⟨⟨hy, hold⟩, hnew⟩
            exact ⟨hy, hnew, hold⟩
        rw [heq, Finset.card_sdiff_of_subset hsubset, hlength]
        have hle := Finset.card_le_card hsubset
        omega
      have hfuel' : (frontier ++ new).length + (nodes \ (new ++ seen).toFinset).card ≤ n := by
        simp only [List.length_cons] at hfuel
        rw [List.length_append]
        omega
      have hclosed := ih hfuel' fun z hz hfrontier y hy => ?_
      · intro z hz y hy
        have hmem (w : α) : w ∈ seen ++ search next (n + 1) (x :: frontier) seen ↔
            w ∈ (new ++ seen) ++ search next n (frontier ++ new) (new ++ seen) := by
          simp only [search, List.mem_append]
          tauto
        rw [hmem] at hz ⊢
        exact hclosed z hz y hy
      · rw [List.mem_append, not_or] at hfrontier
        have hold : z ∈ seen := (List.mem_append.mp hz).resolve_left hfrontier.2
        by_cases hx : z = x
        · subst hx
          by_cases hyseen : y ∈ seen
          · exact List.mem_append_right _ hyseen
          · exact List.mem_append_left _ (mem_unseen.mpr ⟨hy, hyseen⟩)
        · have hout : z ∉ x :: frontier := by
            rw [List.mem_cons, not_or]
            exact ⟨hx, hfrontier.1⟩
          exact List.mem_append_right _ (hseen z hold hout y hy)

/-- What is found from one node, which itself is found only when a path leads back to it. -/
def closure (next : α → List α) (n : ℕ) (x : α) : List α :=
  let base := unseen (next x) []
  base ++ search next n base base

/-- With enough fuel, what is found from a node is what it reaches. -/
theorem mem_closure_iff (hnext : ∀ x y, y ∈ next x → y ∈ nodes) (hfuel : nodes.card ≤ n) {x : α} :
    y ∈ closure next n x ↔ Relation.TransGen (fun a b => b ∈ next a) x y := by
  have hbase (z : α) : z ∈ unseen (next x) [] ↔ z ∈ next x := by simp [mem_unseen]
  constructor
  · intro hmem
    obtain hfirst | hlater := List.mem_append.mp hmem
    · exact .single ((hbase y).mp hfirst)
    · obtain ⟨-, z, hz, hreach⟩ := reached_of_mem hlater
      exact .head ((hbase z).mp hz) hreach
  · intro hreach
    have hlength : (unseen (next x) []).toFinset.card = (unseen (next x) []).length :=
      List.toFinset_card_of_nodup (nodup_unseen _ _)
    have hsubset : (unseen (next x) []).toFinset ⊆ nodes := by
      intro z hz
      exact hnext x z ((hbase z).mp (List.mem_toFinset.mp hz))
    have hcard := Finset.card_sdiff_of_subset hsubset
    have hle := Finset.card_le_card hsubset
    have hroom : (unseen (next x) []).length +
        (nodes \ (unseen (next x) []).toFinset).card ≤ n := by omega
    have hclosed := closed_of_fuel hnext hroom fun z hz hout => absurd hz hout
    induction hreach with
    | single hstep => exact List.mem_append_left _ ((hbase _).mpr hstep)
    | tail _ hstep ih => exact hclosed _ ih _ hstep

/-- What is found from a first hop of its own, without the nodes that the walk starts at. -/
def closureFrom (next : α → List α) (n : ℕ) (first start : List α) : List α :=
  unseen first start ++ search next n (unseen first start) (unseen first start ++ start)

/-- Where the first hop takes all that the start leads to, what is found is what the first hop
reaches. -/
theorem mem_closureFrom_iff (hnext : ∀ x y, y ∈ next x → y ∈ nodes) (hfuel : nodes.card ≤ n)
    {first start : List α} (hfirst : ∀ x ∈ first, x ∈ nodes)
    (hstart : ∀ x ∈ start, ∀ y ∈ next x, y ∈ first) :
    y ∈ closureFrom next n first start ↔
      y ∉ start ∧ ∃ x ∈ first, Relation.ReflTransGen (fun a b => b ∈ next a) x y := by
  have hbase (z : α) : z ∈ unseen first start ↔ z ∈ first ∧ z ∉ start := mem_unseen
  constructor
  · intro hmem
    rcases List.mem_append.mp hmem with hmem | hmem
    · obtain ⟨hhop, hout⟩ := (hbase y).mp hmem
      exact ⟨hout, y, hhop, .refl⟩
    · obtain ⟨hunseen, x, hx, hpath⟩ := reached_of_mem hmem
      refine ⟨fun hin => hunseen (List.mem_append_right _ hin), x, ((hbase x).mp hx).1, ?_⟩
      exact hpath.to_reflTransGen
  · rintro ⟨hout, x, hx, hpath⟩
    have hroom : (unseen first start).length +
        (nodes \ (unseen first start ++ start).toFinset).card ≤ n := by
      have hlength : (unseen first start).toFinset.card = (unseen first start).length :=
        List.toFinset_card_of_nodup (nodup_unseen _ _)
      have hsubset : (unseen first start).toFinset ⊆ nodes := by
        intro z hz
        exact hfirst z ((hbase z).mp (List.mem_toFinset.mp hz)).1
      have hcard := Finset.card_sdiff_of_subset hsubset
      have hle := Finset.card_le_card hsubset
      have hdrop : (nodes \ (unseen first start ++ start).toFinset).card ≤
          (nodes \ (unseen first start).toFinset).card := by
        apply Finset.card_le_card
        apply Finset.sdiff_subset_sdiff (Finset.Subset.refl _)
        intro z hz
        rw [List.toFinset_append, Finset.mem_union]
        exact .inl hz
      omega
    have hclosed := closed_of_fuel hnext hroom fun z hz hfrontier w hw => by
      have hin : z ∈ start := (List.mem_append.mp hz).resolve_left hfrontier
      by_cases hws : w ∈ start
      · exact List.mem_append_right _ hws
      · exact List.mem_append_left _ ((hbase w).mpr ⟨hstart z hin w hw, hws⟩)
    have hfound : y ∈ (unseen first start ++ start) ++
        search next n (unseen first start) (unseen first start ++ start) := by
      clear hout
      have htake (z : α) (hz : z ∈ first) : z ∈ (unseen first start ++ start) ++
          search next n (unseen first start) (unseen first start ++ start) := by
        by_cases hin : z ∈ start
        · exact List.mem_append_left _ (List.mem_append_right _ hin)
        · exact List.mem_append_left _ (List.mem_append_left _ ((hbase z).mpr ⟨hz, hin⟩))
      induction hpath with
      | refl => exact htake x hx
      | @tail b d _ hlast ih =>
        by_cases hb : b ∈ start
        · exact htake d (hstart b hb d hlast)
        · exact hclosed b ih d hlast
    rcases List.mem_append.mp hfound with hseen | hlater
    · rcases List.mem_append.mp hseen with hmem | hmem
      · exact List.mem_append_left _ hmem
      · exact absurd hmem hout
    · exact List.mem_append_right _ hlater

end Search

section Acyclic

variable {α : Type*} {R : α → α → Prop} {a b : α}

/-- A path that may use one more edge goes without it, or reaches the edge and leaves it. -/
theorem transGen_insert {x y : α} (h : Relation.TransGen (fun u v => R u v ∨ (u = a ∧ v = b)) x y) :
    Relation.TransGen R x y ∨ (Relation.ReflTransGen R x a ∧ Relation.ReflTransGen R b y) := by
  induction h with
  | single hstep =>
    obtain hold | ⟨rfl, rfl⟩ := hstep
    · exact .inl (.single hold)
    · exact .inr ⟨.refl, .refl⟩
  | tail _ hstep ih =>
    obtain hold | ⟨rfl, rfl⟩ := hstep
    · obtain hpath | ⟨hto, hfrom⟩ := ih
      · exact .inl (hpath.tail hold)
      · exact .inr ⟨hto, hfrom.tail hold⟩
    · obtain hpath | ⟨hto, -⟩ := ih
      · exact .inr ⟨hpath.to_reflTransGen, .refl⟩
      · exact .inr ⟨hto, .refl⟩

/-- An edge whose end does not lead back to its start closes no cycle. -/
theorem acyclic_insert (hacyclic : ∀ x, ¬ Relation.TransGen R x x)
    (hback : ¬ Relation.ReflTransGen R b a) (x : α) :
    ¬ Relation.TransGen (fun u v => R u v ∨ (u = a ∧ v = b)) x x := by
  intro hcycle
  obtain hpath | ⟨hto, hfrom⟩ := transGen_insert hcycle
  · exact hacyclic x hpath
  · exact hback (hfrom.trans hto)

end Acyclic

end Rheostream
