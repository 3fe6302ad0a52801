import Mathlib.Data.List.Induction
import Mathlib.Logic.Function.Basic

/-!
# Labelled machines and the states their runs reach

A machine is an initial state and a partial step function over labels. All
nondeterminism sits in the label: which party moves, which message the network
picks, whether a timer fired. A label whose step answers `none` is not enabled.

`Reach ok` is the set of states reached by runs whose every step meets a
condition `ok` on the state before it and on its label. With the condition that
always holds it is plain reachability (`Reachable`); with another one it says
"in every run whose steps all meet the condition". `Reach.invariant` is the one
induction over runs that safety proofs need, and `run` evaluates a run that is
given as a list of labels. `run_invariant` is the same induction for properties
that speak of those labels too.
-/

namespace Kit

universe u v

/-- An initial state and a partial, labelled step function. -/
structure Machine (σ : Type u) (α : Type v) where
  init : σ
  step : σ → α → Option σ

namespace Machine

variable {σ : Type u} {α : Type v}

/-- The state after a list of labels, if each of them is enabled in turn. -/
def run (m : Machine σ α) : σ → List α → Option σ
  | s, [] => some s
  | s, a :: as => (m.step s a).bind fun s' => m.run s' as

/-- The states of the runs whose every step meets `ok`. -/
inductive Reach (m : Machine σ α) (ok : σ → α → Prop) : σ → Prop
  | init : Reach m ok m.init
  | step {s s' : σ} {a : α} : Reach m ok s → ok s a → m.step s a = some s' → Reach m ok s'

/-- The states of all runs. -/
abbrev Reachable (m : Machine σ α) : σ → Prop := m.Reach fun _ _ => True

variable {m : Machine σ α} {ok : σ → α → Prop}

/-- One more step of a run with no condition on its steps. -/
theorem Reachable.next {s s' : σ} {a : α} (h : m.Reachable s) (hs : m.step s a = some s') :
    m.Reachable s' :=
  .step h trivial hs

/-- A run that meets a condition meets every weaker one. -/
theorem Reach.mono {ok' : σ → α → Prop} {s : σ} (h : m.Reach ok s)
    (hweak : ∀ s a, ok s a → ok' s a) : m.Reach ok' s := by
  induction h with
  | init => exact .init
  | step _ hok hs ih => exact .step ih (hweak _ _ hok) hs

/-- A run that meets a condition is a run. -/
theorem Reach.reachable {s : σ} (h : m.Reach ok s) : m.Reachable s :=
  h.mono fun _ _ _ => trivial

/-- **The invariant rule.** A property of the initial state that every step from a reached
state keeps holds in every reached state. The step may use that its source is reached, so
invariants proved before it are at hand. -/
theorem Reach.invariant {P : σ → Prop} (hinit : P m.init)
    (hstep : ∀ s a s', m.Reach ok s → P s → ok s a → m.step s a = some s' → P s') :
    ∀ {s : σ}, m.Reach ok s → P s := by
  intro s h
  induction h with
  | init => exact hinit
  | step hr hok hs ih => exact hstep _ _ _ hr ih hok hs

/-- Running a list of labels from a reachable state ends in a reachable state. -/
theorem Reachable.run {s s' : σ} {as : List α} (h : m.Reachable s) (hr : m.run s as = some s') :
    m.Reachable s' := by
  induction as generalizing s with
  | nil => cases hr; exact h
  | cons a as ih =>
    obtain ⟨t, ht, hrest⟩ := Option.bind_eq_some_iff.mp hr
    exact ih (h.next ht) hrest

/-- A run may follow a step. -/
theorem run_cons {s t u : σ} {a : α} {as : List α} (hs : m.step s a = some t)
    (ht : m.run t as = some u) : m.run s (a :: as) = some u :=
  Option.bind_eq_some_iff.mpr ⟨t, hs, ht⟩

theorem run_single {s t : σ} {a : α} (hs : m.step s a = some t) : m.run s [a] = some t :=
  run_cons hs rfl

/-- A run may be followed by another one. -/
theorem run_append {s t u : σ} {as bs : List α} (hs : m.run s as = some t)
    (ht : m.run t bs = some u) : m.run s (as ++ bs) = some u := by
  induction as generalizing s with
  | nil => cases hs; exact ht
  | cons a as ih =>
    obtain ⟨s', hstep, hrest⟩ := Option.bind_eq_some_iff.mp hs
    exact run_cons hstep (ih hrest)

/-- The last label of a run. -/
theorem run_concat {s s' : σ} {as : List α} {a : α} (h : m.run s (as ++ [a]) = some s') :
    ∃ t, m.run s as = some t ∧ m.step t a = some s' := by
  induction as generalizing s with
  | nil =>
    obtain ⟨t, ht, hrest⟩ := Option.bind_eq_some_iff.mp h
    cases hrest
    exact ⟨s, rfl, ht⟩
  | cons b as ih =>
    obtain ⟨t, ht, hrest⟩ := Option.bind_eq_some_iff.mp h
    obtain ⟨u, hu, hlast⟩ := ih hrest
    exact ⟨u, run_cons ht hu, hlast⟩

/-- **The invariant rule with its history.** A relation between the labels of a run and the state
it leads to that holds at the start and that every further label keeps holds of every run. -/
theorem run_invariant {P : List α → σ → Prop} (hinit : P [] m.init)
    (hstep : ∀ as s a s', m.run m.init as = some s → P as s → m.step s a = some s' →
      P (as ++ [a]) s') :
    ∀ {as : List α} {s : σ}, m.run m.init as = some s → P as s := by
  intro as
  induction as using List.reverseRecOn with
  | nil => intro s h; cases h; exact hinit
  | append_singleton as a ih =>
    intro s h
    obtain ⟨t, ht, hlast⟩ := run_concat h
    exact hstep as t a s ht (ih ht) hlast

/-- Where a list of labels leads from the initial state; the initial state itself if one of them
is not enabled. -/
def final (m : Machine σ α) (as : List α) : σ := (m.run m.init as).getD m.init

theorem reachable_final (m : Machine σ α) (as : List α) : m.Reachable (m.final as) := by
  unfold final
  cases hr : m.run m.init as with
  | none => exact .init
  | some s => exact Reachable.run .init hr

/-- The labels are enabled one after the other, and each meets `ok` when it is its turn. -/
def Allowed (m : Machine σ α) (ok : σ → α → Prop) : σ → List α → Prop
  | _, [] => True
  | s, a :: as =>
    ok s a ∧
      match m.step s a with
      | some s' => m.Allowed ok s' as
      | none => False

instance Allowed.decidable (m : Machine σ α) (ok : σ → α → Prop)
    [∀ s a, Decidable (ok s a)] : ∀ (s : σ) (as : List α), Decidable (m.Allowed ok s as)
  | _, [] => instDecidableTrue
  | s, a :: as =>
    match h : m.step s a with
    | some s' =>
      have := decidable m ok s' as
      decidable_of_iff (ok s a ∧ m.Allowed ok s' as) (by rw [Allowed, h])
    | none => isFalse fun ha => by rw [Allowed, h] at ha; exact ha.2

/-- An allowed list of labels from a reached state ends in a reached state. -/
theorem Reach.run {s : σ} {as : List α} (h : m.Reach ok s) (ha : m.Allowed ok s as) :
    ∃ s', m.run s as = some s' ∧ m.Reach ok s' := by
  induction as generalizing s with
  | nil => exact ⟨s, rfl, h⟩
  | cons a as ih =>
    obtain ⟨hok, hrest⟩ := ha
    cases hs : m.step s a with
    | none => rw [hs] at hrest; exact hrest.elim
    | some t =>
      rw [hs] at hrest
      obtain ⟨s', hrun, hreach⟩ := ih (h.step hok hs) hrest
      exact ⟨s', run_cons hs hrun, hreach⟩

theorem reach_final {as : List α} (ha : m.Allowed ok m.init as) : m.Reach ok (m.final as) := by
  obtain ⟨s', hrun, hreach⟩ := Reach.run .init ha
  rw [final, hrun]
  exact hreach

end Machine

end Kit
