import Mathlib.Logic.Relation
import Mathlib.Tactic.SplitIfs

/-!
# Handlers in a transaction

A handler runs inside an open transaction: its statements write as they run, and it ends with an
answer or a refusal. The dispatcher commits what an answering handler wrote and rolls back what a
refusing one did. What an answering run has read and written is read off its statements.
-/

namespace Rheostream

/-- A handler: what it answers or refuses, and the rows as its statements left them. -/
abbrev Handler (σ α : Type) := ExceptT String (StateM σ) α

namespace Handler

variable {σ α β : Type}

/-- The outcome of a handler and the rows that it leaves in its transaction. -/
def exec (h : Handler σ α) (s : σ) : Except String α × σ := h.run.run s

/-- The handler answers `a`, and leaves the rows as in `t`. -/
def Answers (h : Handler σ α) (s : σ) (a : α) (t : σ) : Prop := h.exec s = (.ok a, t)

/-- `dispatch`: an answer is committed, a refusal is rolled back. -/
def dispatch (h : Handler σ α) (s : σ) : Except String α × σ :=
  match h.exec s with
  | (.ok a, t) => (.ok a, t)
  | (.error refusal, _) => (.error refusal, s)

/-- `raise OperationRefused`. -/
def refuse (refusal : String) : Handler σ α := throw refusal

/-- Refuses where the condition does not hold. -/
def require (p : Prop) [Decidable p] (refusal : String) : Handler σ Unit :=
  if p then pure () else refuse refusal

/-- Refuses where the value is missing. -/
def found (value : Option α) (refusal : String) : Handler σ α :=
  match value with
  | some a => pure a
  | none => refuse refusal

/-- One statement that writes. -/
def write (f : σ → σ) : Handler σ Unit := modify f

variable {h : Handler σ α} {f : α → Handler σ β} {s t : σ} {a : α} {b : β}

@[simp] theorem answers_pure {a' : α} :
    Answers (pure a : Handler σ α) s a' t ↔ a' = a ∧ t = s := by
  change (Except.ok a, s) = (Except.ok a', t) ↔ _
  simp [eq_comm]

theorem exec_bind : exec (h >>= f) s = match h.exec s with
    | (.ok a, r) => (f a).exec r
    | (.error refusal, r) => (.error refusal, r) := by
  unfold exec
  rw [ExceptT.run_bind, StateT.run_bind]
  rcases StateT.run (ExceptT.run h) s with ⟨⟨⟩ | ⟨⟩, r⟩ <;> rfl

@[simp] theorem answers_bind :
    Answers (h >>= f) s b t ↔ ∃ a r, h.Answers s a r ∧ (f a).Answers r b t := by
  unfold Answers
  rw [exec_bind]
  rcases h.exec s with ⟨refusal | a, r⟩
  · simp
  · simp [and_assoc]

variable {refusal : String}

@[simp] theorem answers_refuse : ¬Answers (refuse refusal : Handler σ α) s a t := by
  intro hanswer
  cases (Prod.mk.inj hanswer).1

variable {p : Prop}

@[simp] theorem answers_require [Decidable p] {u : Unit} :
    Answers (require p refusal : Handler σ Unit) s u t ↔ p ∧ t = s := by
  unfold require
  split_ifs with hp
  · simp [hp]
  · simp [hp]

variable {value : Option α}

@[simp] theorem answers_found :
    Answers (found value refusal : Handler σ α) s a t ↔ value = some a ∧ t = s := by
  unfold found
  cases value with
  | none => simp
  | some a' => simp [eq_comm]

@[simp] theorem answers_get {r : σ} : Answers (get : Handler σ σ) s r t ↔ r = s ∧ t = s := by
  change (Except.ok s, s) = (Except.ok r, t) ↔ _
  simp [eq_comm]

variable {g : σ → σ}

@[simp] theorem answers_write {u : Unit} : Answers (write g : Handler σ Unit) s u t ↔ t = g s := by
  change (Except.ok (), g s) = (Except.ok u, t) ↔ _
  simp [eq_comm]

/-! What follows a statement that only reads, or only writes, runs at its rows. -/

theorem answers_bind_require [Decidable p] {k : Unit → Handler σ β} :
    Answers (require p refusal >>= k) s b t ↔ p ∧ (k ()).Answers s b t := by
  simp only [answers_bind, answers_require]
  constructor
  · rintro ⟨⟨⟩, r, ⟨hp, rfl⟩, hrest⟩
    exact ⟨hp, hrest⟩
  · rintro ⟨hp, hrest⟩
    exact ⟨(), s, ⟨hp, rfl⟩, hrest⟩

theorem answers_bind_found :
    Answers (found value refusal >>= f) s b t ↔
      ∃ a, value = some a ∧ (f a).Answers s b t := by
  simp only [answers_bind, answers_found]
  constructor
  · rintro ⟨a, r, ⟨hvalue, rfl⟩, hrest⟩
    exact ⟨a, hvalue, hrest⟩
  · rintro ⟨a, hvalue, hrest⟩
    exact ⟨a, s, ⟨hvalue, rfl⟩, hrest⟩

theorem answers_bind_get {k : σ → Handler σ β} :
    Answers (get >>= k) s b t ↔ (k s).Answers s b t := by
  simp only [answers_bind, answers_get]
  constructor
  · rintro ⟨r, r', ⟨rfl, rfl⟩, hrest⟩
    exact hrest
  · intro hrest
    exact ⟨s, s, ⟨rfl, rfl⟩, hrest⟩

theorem answers_bind_write {k : Unit → Handler σ β} :
    Answers (write g >>= k) s b t ↔ (k ()).Answers (g s) b t := by
  simp only [answers_bind, answers_write]
  constructor
  · rintro ⟨⟨⟩, r, rfl, hrest⟩
    exact hrest
  · intro hrest
    exact ⟨(), g s, rfl, hrest⟩

/-- An answered call leaves what its handler left. -/
theorem dispatch_eq_ok : h.dispatch s = (.ok a, t) ↔ h.Answers s a t := by
  unfold dispatch Answers
  rcases h.exec s with ⟨⟨⟩ | ⟨⟩, r⟩ <;> simp

/-- A refused call leaves every row as it was. -/
theorem dispatch_error (hrefused : h.dispatch s = (.error refusal, t)) : t = s := by
  unfold dispatch at hrefused
  rcases hexec : h.exec s with ⟨⟨⟩ | ⟨⟩, r⟩
  · rw [hexec] at hrefused
    exact (Prod.mk.inj hrefused).2.symm
  · rw [hexec] at hrefused
    cases (Prod.mk.inj hrefused).1

/-- Every answering run takes the rows along steps of the relation. -/
def Within (W : σ → σ → Prop) (h : Handler σ α) : Prop :=
  ∀ s a t, h.Answers s a t → Relation.ReflTransGen W s t

variable {W : σ → σ → Prop}

theorem Within.bind (hfirst : Within W h) (hrest : ∀ a, Within W (f a)) : Within W (h >>= f) := by
  intro s b t hanswers
  obtain ⟨a, r, ha, hb⟩ := answers_bind.mp hanswers
  exact (hfirst s a r ha).trans (hrest a r b t hb)

/-- A handler that reads only leaves the rows. -/
theorem within_of_reads (hreads : ∀ s a t, h.Answers s a t → t = s) : Within W h := by
  intro s a t hanswers
  rw [hreads s a t hanswers]

/-- A handler that takes one step. -/
theorem within_of_step (hstep : ∀ s a t, h.Answers s a t → W s t) : Within W h := by
  intro s a t hanswers
  exact Relation.ReflTransGen.single (hstep s a t hanswers)

theorem within_pure : Within W (pure a : Handler σ α) :=
  within_of_reads fun _ _ _ hanswers => (answers_pure.mp hanswers).2

theorem within_require [Decidable p] : Within W (require p refusal : Handler σ Unit) :=
  within_of_reads fun _ _ _ hanswers => (answers_require.mp hanswers).2

theorem within_found : Within W (found value refusal : Handler σ α) :=
  within_of_reads fun _ _ _ hanswers => (answers_found.mp hanswers).2

theorem within_get : Within W (get : Handler σ σ) :=
  within_of_reads fun _ _ _ hanswers => (answers_get.mp hanswers).2

/-- So does the dispatcher, since it rolls back what is refused. -/
theorem Within.dispatch (hwithin : Within W h) (s : σ) :
    Relation.ReflTransGen W s (h.dispatch s).2 := by
  rcases hexec : h.dispatch s with ⟨_ | a, t⟩
  · rw [dispatch_error hexec]
  · exact hwithin s a t (dispatch_eq_ok.mp hexec)

/-! ### What a handler answers -/

/-- From rows with `P`, a handler that answers keeps `P` and answers with `Q`. -/
def Yields (P : σ → Prop) (h : Handler σ α) (Q : α → Prop) : Prop :=
  ∀ ⦃s a t⦄, P s → h.Answers s a t → P t ∧ Q a

variable {P : σ → Prop} {Q Q' : α → Prop} {R : β → Prop}

theorem Yields.mono (hyields : Yields P h Q) (hmono : ∀ a, Q a → Q' a) : Yields P h Q' := by
  intro s a t hs hanswers
  obtain ⟨ht, ha⟩ := hyields hs hanswers
  exact ⟨ht, hmono a ha⟩

theorem Yields.bind (hfirst : Yields P h Q) (hrest : ∀ a, Q a → Yields P (f a) R) :
    Yields P (h >>= f) R := by
  intro s b t hs hanswers
  obtain ⟨a, r, ha, hb⟩ := answers_bind.mp hanswers
  obtain ⟨hr, hQ⟩ := hfirst hs ha
  exact hrest a hQ hr hb

theorem yields_pure (ha : Q a) : Yields P (pure a : Handler σ α) Q := by
  intro s a' t hs hanswers
  obtain ⟨rfl, rfl⟩ := answers_pure.mp hanswers
  exact ⟨hs, ha⟩

theorem yields_refuse : Yields P (refuse refusal : Handler σ α) Q := by
  intro s a t _ hanswers
  exact absurd hanswers answers_refuse

theorem yields_require [Decidable p] {S : Unit → Prop} (hp : p → S ()) :
    Yields P (require p refusal : Handler σ Unit) S := by
  intro s a t hs hanswers
  obtain ⟨hholds, rfl⟩ := answers_require.mp hanswers
  exact ⟨hs, hp hholds⟩

theorem yields_found (hvalue : ∀ a, value = some a → Q a) :
    Yields P (found value refusal : Handler σ α) Q := by
  intro s a t hs hanswers
  obtain ⟨hsome, rfl⟩ := answers_found.mp hanswers
  exact ⟨hs, hvalue a hsome⟩

theorem yields_get : Yields P (get : Handler σ σ) P := by
  intro s r t hs hanswers
  obtain ⟨rfl, rfl⟩ := answers_get.mp hanswers
  exact ⟨hs, hs⟩

theorem yields_write {S : Unit → Prop} (hkeeps : ∀ s, P s → P (g s)) (hS : S ()) :
    Yields P (write g : Handler σ Unit) S := by
  intro s u t hs hanswers
  obtain rfl := answers_write.mp hanswers
  exact ⟨hkeeps s hs, hS⟩

end Handler

end Rheostream
