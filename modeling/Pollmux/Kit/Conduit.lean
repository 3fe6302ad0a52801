import Pollmux.Kit.Machine

/-!
# Simulations, and streams that are carried in order until they are cut

A machine simulates another one when each of its steps is matched by a run of the other, up to a
relation between their states; only the steps that meet a condition need be. What holds of every
state that the abstract machine reaches then holds, through the relation, of every state that such
steps of the concrete one reach (`Simulation.reach`).

A conduit is the abstract machine for a stream that is carried from one place to another by
somebody who may drop it. What is given at the near end is queued there, launched, and lands at the
far end, in order. It may be severed at any time: then what is on its way is cut down to a
beginning of it, and nothing launched later arrives. `Sound` is all there is to say about it: what
has landed is a beginning of what was given, and until the cut nothing is lost.
-/

namespace Kit

universe u v

section Simulation

variable {σ τ : Type u} {α β : Type v}

/-- Every step of `m` that meets `ok` is matched by a run of `n`, up to `rel`. The step may use that
its source is reached. -/
structure Machine.Simulation (m : Machine σ α) (ok : σ → α → Prop) (n : Machine τ β) where
  rel : σ → τ → Prop
  init : rel m.init n.init
  step : ∀ {s s' : σ} {t : τ} {a : α}, m.Reach ok s → rel s t → ok s a → m.step s a = some s' →
    ∃ bs t', n.run t bs = some t' ∧ rel s' t'

/-- **Every reached state of the concrete machine is related to a reached state of the abstract
one.** -/
theorem Machine.Simulation.reach {m : Machine σ α} {ok : σ → α → Prop} {n : Machine τ β}
    (sim : m.Simulation ok n) {s : σ} (h : m.Reach ok s) : ∃ t, n.Reachable t ∧ sim.rel s t := by
  induction h with
  | init => exact ⟨n.init, .init, sim.init⟩
  | step hs hok hstep ih =>
    obtain ⟨t, ht, hrel⟩ := ih
    obtain ⟨bs, t', hrun, hrel'⟩ := sim.step hs hrel hok hstep
    exact ⟨t', ht.run hrun, hrel'⟩

end Simulation

/-- A stream on its way. `given` and `got` record what was ever given and what has landed. -/
structure Conduit (α : Type u) where
  given : List α := []
  queued : List α := []
  flying : List α := []
  got : List α := []
  cut : Bool := false

/-- What can happen to it. -/
inductive ConduitEvent (α : Type u)
  | put (xs : List α)
  | launch (n : Nat)
  | land (n : Nat)
  | sever (n : Nat)

namespace Conduit

variable {α : Type u}

/-- One event. -/
def next (c : Conduit α) : ConduitEvent α → Conduit α
  | .put xs => { c with given := c.given ++ xs, queued := c.queued ++ xs }
  | .launch n =>
    { c with
      queued := c.queued.drop n
      flying := if c.cut then c.flying else c.flying ++ c.queued.take n }
  | .land n => { c with flying := c.flying.drop n, got := c.got ++ c.flying.take n }
  | .sever n => { c with flying := c.flying.take n, cut := true }

/-- The conduit before anything is given. -/
def machine (α : Type u) : Machine (Conduit α) (ConduitEvent α) where
  init := {}
  step c ev := some (c.next ev)

/-- A run of one event. -/
theorem run_single (c : Conduit α) (ev : ConduitEvent α) :
    (machine α).run c [ev] = some (c.next ev) :=
  Machine.run_single rfl

/-- A run from `c` comes to a state with the property `P`. -/
def Reaches (c : Conduit α) (P : Conduit α → Prop) : Prop :=
  ∃ evs c', (machine α).run c evs = some c' ∧ P c'

theorem Reaches.here {c : Conduit α} {P : Conduit α → Prop} (h : P c) : c.Reaches P :=
  ⟨[], c, rfl, h⟩

theorem Reaches.of_next {c : Conduit α} {P : Conduit α → Prop} (ev : ConduitEvent α)
    (h : P (c.next ev)) : c.Reaches P :=
  ⟨[ev], _, run_single c ev, h⟩

/-- **A conduit keeps the order and, until it is cut, everything.** -/
structure Sound (c : Conduit α) : Prop where
  carried : c.got ++ c.flying <+: c.given
  whole : c.cut = false → c.got ++ c.flying ++ c.queued = c.given

namespace Sound

variable {c : Conduit α}

theorem next (h : Sound c) (ev : ConduitEvent α) : Sound (c.next ev) := by
  cases ev with
  | put xs =>
    refine ⟨h.carried.trans (List.prefix_append _ _), fun hcut => ?_⟩
    show c.got ++ c.flying ++ (c.queued ++ xs) = c.given ++ xs
    rw [← h.whole hcut, List.append_assoc (c.got ++ c.flying)]
  | launch n =>
    cases hcut : c.cut with
    | true => exact ⟨by simpa [Conduit.next, hcut] using h.carried, by simp [Conduit.next, hcut]⟩
    | false =>
      have hwhole : c.got ++ (c.flying ++ c.queued.take n) ++ c.queued.drop n = c.given := by
        simpa using h.whole hcut
      refine ⟨?_, fun _ => by simpa [Conduit.next, hcut] using h.whole hcut⟩
      simp only [Conduit.next, hcut, Bool.false_eq_true, if_false]
      exact ⟨_, hwhole⟩
  | land n =>
    have hsame : c.got ++ c.flying.take n ++ c.flying.drop n = c.got ++ c.flying := by
      rw [List.append_assoc, List.take_append_drop]
    refine ⟨?_, fun hcut => ?_⟩
    · simp only [Conduit.next, hsame]
      exact h.carried
    · simp only [Conduit.next, hsame]
      exact h.whole hcut
  | sever n =>
    refine ⟨?_, fun hcut => by cases hcut⟩
    exact ((List.prefix_append_right_inj c.got).mpr (List.take_prefix n c.flying)).trans h.carried

theorem init : Sound (machine α).init :=
  ⟨List.nil_prefix, fun _ => rfl⟩

theorem reachable (h : (machine α).Reachable c) : Sound c :=
  Machine.Reach.invariant (P := Sound) init
    (fun c ev _ _ hc _ hs => by cases hs; exact hc.next ev) h

/-- What has landed is a beginning of what was given. -/
theorem got_prefix (h : Sound c) : c.got <+: c.given :=
  (List.prefix_append _ _).trans h.carried

end Sound

end Conduit

end Kit
