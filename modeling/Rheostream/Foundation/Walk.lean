import Mathlib.Data.List.Perm.Subperm
import Mathlib.Logic.Relation

/-!
# Walks along at most one way on

In a graph where every point has at most one successor, a walk is a loop: it stops where it was
told to, where nothing goes on, or where it has been before. It never visits a point twice.
-/

namespace Rheostream

universe u

/-- How a walk ends. -/
inductive WalkEnd (α : Type u) where
  | arrived
  | cycle (point : α)
  | stuck (point : α)
deriving DecidableEq

variable {α : Type u} [DecidableEq α] (next : α → Option α) (stop : α → Bool)

/-- Walk on from a point, `none` when the rounds run out. -/
def walk : ℕ → α → List α → Option (WalkEnd α)
  | 0, _, _ => none
  | rounds + 1, current, visited =>
    if stop current then some .arrived
    else if current ∈ visited then some (.cycle current)
    else match next current with
      | none => some (.stuck current)
      | some point => walk rounds point (current :: visited)

/-- One way on. -/
def Edge (v w : α) : Prop := next v = some w

variable {next stop} {rounds : ℕ} {current : α} {visited : List α}

omit [DecidableEq α] in
/-- Visited points go on, are each there once, and there are not more of them than there are. -/
theorem visited_length_le {points : List α} (hnodup : visited.Nodup)
    (hvisited : ∀ v ∈ visited, v ∈ points) : visited.length ≤ points.length :=
  (List.Nodup.subperm hnodup hvisited).length_le

/-- From where a walk got stuck without stopping, no visited point can be reached. -/
theorem not_visited_of_stuck {point : α}
    (h : walk next (fun _ => false) rounds current visited = some (.stuck point)) {v : α}
    (hreach : Relation.ReflTransGen (Edge next) current v) : v ∉ visited := by
  induction rounds generalizing current visited with
  | zero => cases h
  | succ rounds ih =>
    unfold walk at h
    rw [if_neg (by simp)] at h
    split_ifs at h with hmem
    · cases h
    rcases Relation.ReflTransGen.cases_head hreach with rfl | ⟨w, hedge, hrest⟩
    · exact hmem
    · have hnext : next current = some w := hedge
      rw [hnext] at h
      have hnot := ih h hrest
      exact fun hv => hnot (List.mem_cons_of_mem _ hv)

omit [DecidableEq α] in
/-- One more way on, to where its beginning cannot be reached from, closes no cycle. -/
theorem acyclic_of_new_edge {r r' : α → α → Prop} {a b : α}
    (hnew : ∀ v w, r' v w → r v w ∨ v = a ∧ w = b) (hacyclic : ∀ v, ¬Relation.TransGen r v v)
    (hapart : ¬Relation.ReflTransGen r b a) (v : α) : ¬Relation.TransGen r' v v := by
  have hsplit : ∀ x y, Relation.TransGen r' x y → Relation.TransGen r x y ∨
      Relation.ReflTransGen r x a ∧ Relation.ReflTransGen r b y := by
    intro x y hpath
    induction hpath with
    | single hedge =>
      rcases hnew _ _ hedge with hold | ⟨rfl, rfl⟩
      · exact Or.inl (.single hold)
      · exact Or.inr ⟨.refl, .refl⟩
    | tail _ hedge ih =>
      rcases hnew _ _ hedge with hold | ⟨rfl, rfl⟩
      · rcases ih with hpath | ⟨hto, hfrom⟩
        · exact Or.inl (hpath.tail hold)
        · exact Or.inr ⟨hto, hfrom.tail hold⟩
      · rcases ih with hpath | ⟨hto, -⟩
        · exact Or.inr ⟨hpath.to_reflTransGen, .refl⟩
        · exact Or.inr ⟨hto, .refl⟩
  intro hcycle
  rcases hsplit v v hcycle with hold | ⟨hto, hfrom⟩
  · exact hacyclic v hold
  · exact hapart (hfrom.trans hto)

end Rheostream
