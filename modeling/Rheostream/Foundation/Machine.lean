import Mathlib.Logic.Relation

/-!
# Labelled transition machines

A machine is a set of initial states and a partial step function. Every choice
that is not the program's own (which process moves, what its environment answers,
what the clock reads) is part of the action, so a step is a function and a
concrete run can be evaluated. The invariant, stability and refinement rules
below hold for arbitrary state and action types.
-/

namespace Rheostream

universe u v w x

/-- A labelled transition machine. `step s a = none` says that the action `a` is
not enabled in `s`. -/
structure Machine (State : Type u) (Action : Type v) where
  /-- The states in which a run may begin. -/
  init : State → Prop
  /-- One step under one action, or `none` when the action is not enabled. -/
  step : State → Action → Option State

namespace Machine

variable {State : Type u} {Action : Type v} (M : Machine State Action)

/-- Some action leads from `s` to `t` in one step. -/
def Next (s t : State) : Prop := ∃ a, M.step s a = some t

/-- A finite run leads from `s` to `t`. -/
def Reaches : State → State → Prop := Relation.ReflTransGen M.Next

/-- A finite run from an initial state leads to `s`. -/
def Reachable (s : State) : Prop := ∃ s₀, M.init s₀ ∧ M.Reaches s₀ s

/-- Run a list of actions, stopping when one of them is not enabled. -/
def run (s : State) : List Action → Option State
  | [] => some s
  | a :: as => (M.step s a).bind fun t => run t as

variable {M}

theorem Reaches.refl (s : State) : M.Reaches s s := Relation.ReflTransGen.refl

variable {s t : State}

theorem Reaches.trans {u : State} (h : M.Reaches s t) (h' : M.Reaches t u) : M.Reaches s u :=
  Relation.ReflTransGen.trans h h'

theorem Reaches.single {a : Action} (h : M.step s a = some t) : M.Reaches s t :=
  Relation.ReflTransGen.single ⟨a, h⟩

theorem Reachable.step {a : Action} (hs : M.Reachable s) (h : M.step s a = some t) :
    M.Reachable t := by
  obtain ⟨s₀, hinit, hreach⟩ := hs
  exact ⟨s₀, hinit, hreach.tail ⟨a, h⟩⟩

theorem Reachable.reaches (hs : M.Reachable s) (h : M.Reaches s t) : M.Reachable t := by
  obtain ⟨s₀, hinit, hreach⟩ := hs
  exact ⟨s₀, hinit, hreach.trans h⟩

/-- An evaluated run is a run of the step relation. -/
theorem reaches_of_run {as : List Action} (h : M.run s as = some t) : M.Reaches s t := by
  induction as generalizing s with
  | nil =>
    obtain rfl : s = t := by simpa [run] using h
    exact Reaches.refl s
  | cons a as ih =>
    obtain ⟨r, hstep, hrun⟩ := Option.bind_eq_some_iff.mp h
    exact (Reaches.single hstep).trans (ih hrun)

theorem reachable_of_run {s₀ : State} {as : List Action} (hinit : M.init s₀)
    (h : M.run s₀ as = some t) : M.Reachable t :=
  ⟨s₀, hinit, reaches_of_run h⟩

/-- `I` holds initially and every step preserves it. -/
structure IsInvariant (M : Machine State Action) (I : State → Prop) : Prop where
  init : ∀ s, M.init s → I s
  step : ∀ s a t, I s → M.step s a = some t → I t

/-- An invariant holds in every reachable state. -/
theorem IsInvariant.of_reachable {I : State → Prop} (hI : M.IsInvariant I) (hs : M.Reachable s) :
    I s := by
  obtain ⟨s₀, hinit, hreach⟩ := hs
  induction hreach with
  | refl => exact hI.init s₀ hinit
  | tail _ hnext ih =>
    obtain ⟨a, hstep⟩ := hnext
    exact hI.step _ a _ ih hstep

/-- A property preserved in the reachable states is an invariant of them. This is the
rule for an invariant whose step uses others that are already proved. -/
theorem Reachable.invariant {I : State → Prop} (hinit : ∀ s, M.init s → I s)
    (hstep : ∀ s a t, M.Reachable s → I s → M.step s a = some t → I t) (hs : M.Reachable s) :
    I s := by
  obtain ⟨s₀, h₀, hreach⟩ := hs
  induction hreach with
  | refl => exact hinit s₀ h₀
  | tail hprev hnext ih =>
    obtain ⟨a, hnext⟩ := hnext
    exact hstep _ a _ ⟨s₀, h₀, hprev⟩ ih hnext

/-- A property that every step out of a reachable state keeps is kept by every run. -/
theorem Reachable.stable {P : State → Prop}
    (hstep : ∀ s a t, M.Reachable s → P s → M.step s a = some t → P t) (hs : M.Reachable s)
    (hP : P s) (hrun : M.Reaches s t) : P t := by
  induction hrun with
  | refl => exact hP
  | tail hprev hnext ih =>
    obtain ⟨a, hnext⟩ := hnext
    exact hstep _ a _ (hs.reaches hprev) ih hnext

/-- The machine whose steps are those that meet the condition `ok` before they are taken. -/
def restrict (M : Machine State Action) (ok : State → Action → Prop)
    [∀ s a, Decidable (ok s a)] : Machine State Action where
  init := M.init
  step s a := if ok s a then M.step s a else none

section Restrict

variable {ok : State → Action → Prop} [∀ s a, Decidable (ok s a)]

theorem restrict_step {a : Action} :
    (M.restrict ok).step s a = some t ↔ ok s a ∧ M.step s a = some t := by
  simp only [restrict]
  split <;> simp_all

theorem Reachable.of_restrict (hs : (M.restrict ok).Reachable s) : M.Reachable s := by
  obtain ⟨s₀, hinit, hreach⟩ := hs
  refine ⟨s₀, hinit, Relation.ReflTransGen.mono ?_ _ _ hreach⟩
  rintro a b ⟨act, hact⟩
  exact ⟨act, (restrict_step.mp hact).2⟩

/-- A restricted run is a run, with the same end. -/
theorem run_of_restrict {as : List Action} (h : (M.restrict ok).run s as = some t) :
    M.run s as = some t := by
  induction as generalizing s with
  | nil => exact h
  | cons a as ih =>
    obtain ⟨r, hstep, hrun⟩ := Option.bind_eq_some_iff.mp h
    exact Option.bind_eq_some_iff.mpr ⟨r, (restrict_step.mp hstep).2, ih hrun⟩

end Restrict

/-- `abs` maps every run of `M` to a run of `A`: one step becomes any number of steps. -/
structure Refines {AState : Type w} {AAction : Type x} (M : Machine State Action)
    (A : Machine AState AAction) (abs : State → AState) : Prop where
  init : ∀ s, M.init s → A.init (abs s)
  step : ∀ s a t, M.Reachable s → M.step s a = some t → A.Reaches (abs s) (abs t)

section Refines

variable {AState : Type w} {AAction : Type x} {A : Machine AState AAction} {abs : State → AState}

theorem Refines.reaches (href : M.Refines A abs) (hs : M.Reachable s)
    (h : M.Reaches s t) : A.Reaches (abs s) (abs t) := by
  induction h with
  | refl => exact Reaches.refl _
  | tail hprev hnext ih =>
    obtain ⟨a, hstep⟩ := hnext
    exact ih.trans (href.step _ a _ (hs.reaches hprev) hstep)

theorem Refines.reachable (href : M.Refines A abs) (hs : M.Reachable s) :
    A.Reachable (abs s) := by
  obtain ⟨s₀, hinit, hreach⟩ := hs
  exact ⟨abs s₀, href.init s₀ hinit,
    href.reaches ⟨s₀, hinit, Reaches.refl s₀⟩ hreach⟩

end Refines

end Machine

/-- A handler that answers or refuses, as a step: a refused call is none. -/
theorem accepted_iff {ε : Type u} {State : Type v} {answer : Except ε State} {t : State} :
    answer.toOption = some t ↔ answer = .ok t := by
  cases answer <;> simp [Except.toOption]

end Rheostream
