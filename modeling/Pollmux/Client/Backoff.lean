import Pollmux.Client.Accept
import Pollmux.Kit.GoInt
import Pollmux.Kit.History

/-!
# How long the reconnect loop waits

`ReconnectLoop.Run` (`reconnect.go`) over any `Serve`: `Reconnecting` knows of a
call of `Serve` only what it answers and how long it took. The loop of
`Client.Accept`, whose `Serve` is `AcceptLoop`, is a refinement of it
(`forget_run`).

The loop keeps one number, `backoff`. The law says what that number is without
it: a wait after a connect error or a transport failure depends on how many of
them there were since the last reset, and on nothing else in the history.

The cap enters only when the number is doubled. So the first wait after a reset
is `InitialBackoff` whether that lies below `MaxBackoff` or not
(`wait_of_failure`), and the law as one would state it, every wait being the
capped one, holds for the loops whose initial backoff does not exceed the cap.
-/

namespace Pollmux

open Kit

/-- Where `Run` is. -/
inductive ReconnectPhase
  | top
  | connecting
  | serving
  | sleeping (d : Int)
  | stopped (e : RunEnd)
  deriving DecidableEq, Repr

/-- A call of `Run`. -/
structure Reconnecting where
  ctxDone : Bool := false
  phase : ReconnectPhase := .top
  backoff : Int
  deriving DecidableEq, Repr

inductive ReconnectEvent
  | cancel
  | begin
  | answered (r : ConnectResult)
  /-- `Serve` answered `o` after `servedFor`. -/
  | served (o : Outcome) (servedFor : Int)
  | timer
  | ctxWake
  deriving DecidableEq, Repr

/-- The connect errors and the transport failures. -/
def ReconnectEvent.fails : ReconnectEvent → Bool
  | .answered .err | .served .transportFailed _ => true
  | _ => false

namespace ReconnectLoop

/-- `maxBackoff`, with its default. -/
def effectiveMax (l : ReconnectLoop) : Int := orDefault l.maxBackoff defaultMaxBackoff

/-- `peerPause`. -/
def peerPause (l : ReconnectLoop) : Int := orDefault l.peerClosedPause defaultPeerClosedPause

/-- A transport failure after a session that was stable for long enough. -/
def resets (l : ReconnectLoop) : ReconnectEvent → Bool
  | .served .transportFailed servedFor => decide (0 < l.minStable ∧ l.minStable ≤ servedFor)
  | _ => false

/-- Sleep for `backoff`. The doubling that follows the sleep is done with it: nothing reads the
number in between. -/
def sleep (l : ReconnectLoop) (s : Reconnecting) (backoff : Int) : Reconnecting :=
  { s with phase := .sleeping backoff, backoff := l.nextBackoff backoff }

/-- One step of `Run`. -/
def advance (l : ReconnectLoop) (s : Reconnecting) : ReconnectEvent → Option Reconnecting
  | .cancel => some { s with ctxDone := true }
  | .begin =>
    if s.phase = .top then
      if s.ctxDone then some { s with phase := .stopped .ctxErr }
      else some { s with phase := .connecting }
    else none
  | .answered r =>
    if s.phase = .connecting then
      match r with
      | .conn => some { s with phase := .serving }
      | .protocolVersion => some { s with phase := .stopped .protocolVersion }
      | .err =>
        if s.ctxDone then some { s with phase := .stopped .ctxErr } else some (l.sleep s s.backoff)
    else none
  | .served o servedFor =>
    if s.phase = .serving then
      match o with
      | .shutdown => some { s with phase := .stopped .ctxErr }
      | .superseded => some { s with phase := .stopped .superseded }
      | .peerClosed => some { s with phase := .sleeping l.peerPause }
      | .transportFailed =>
        some (l.sleep s (if 0 < l.minStable ∧ l.minStable ≤ servedFor then l.initial else s.backoff))
    else none
  | .timer =>
    match s.phase with
    | .sleeping d =>
      if d ≤ 0 ∧ s.ctxDone = true then some { s with phase := .stopped .ctxErr }
      else some { s with phase := .top }
    | _ => none
  | .ctxWake =>
    match s.phase with
    | .sleeping _ => if s.ctxDone then some { s with phase := .stopped .ctxErr } else none
    | _ => none

/-- `Run` over any `Serve`. -/
def reconnecting (l : ReconnectLoop) : Machine Reconnecting ReconnectEvent where
  init := { backoff := l.initial }
  step := l.advance

/-! ## What a step does to the backoff -/

/-- **What a step can do.** A failure makes the loop sleep for its backoff, or for the initial one
if it resets it, unless the context is done; no other step touches the number. -/
inductive Advances (l : ReconnectLoop) (s : Reconnecting) : ReconnectEvent → Reconnecting → Prop
  | quiet {ev : ReconnectEvent} {ctxDone : Bool} {phase : ReconnectPhase} (hf : ev.fails = false)
      (hstop : ∀ e, s.phase = .stopped e → phase = .stopped e) :
      Advances l s ev { s with ctxDone := ctxDone, phase := phase }
  | gaveUp (hctx : s.ctxDone = true) :
      Advances l s (.answered .err) { s with phase := .stopped .ctxErr }
  | failed {ev : ReconnectEvent} (hf : ev.fails = true) (hlive : ∀ e, s.phase ≠ .stopped e) :
      Advances l s ev (l.sleep s (if l.resets ev then l.initial else s.backoff))

variable {l : ReconnectLoop} {s s' : Reconnecting} {ev : ReconnectEvent}

theorem advances_of_advance (hs : l.advance s ev = some s') : Advances l s ev s' := by
  -- a step that is taken from another phase is not taken by a loop that has stopped
  have live : ∀ {phase phase' : ReconnectPhase}, s.phase = phase → (∀ e, phase ≠ .stopped e) →
      ∀ e, s.phase = .stopped e → phase' = .stopped e := by
    intro phase phase' hp hne e he
    exact absurd (hp.symm.trans he) (hne e)
  cases ev with
  | cancel =>
    cases hs
    exact .quiet rfl fun e he => he
  | begin =>
    simp only [advance] at hs
    split at hs
    next hp =>
      split at hs
      next => cases hs; exact .quiet rfl (live hp (by simp))
      next => cases hs; exact .quiet rfl (live hp (by simp))
    next => cases hs
  | answered r =>
    simp only [advance] at hs
    split at hs
    next hp =>
      cases r with
      | conn => cases hs; exact .quiet rfl (live hp (by simp))
      | protocolVersion => cases hs; exact .quiet rfl (live hp (by simp))
      | err =>
        dsimp only at hs
        split at hs
        next hctx => cases hs; exact .gaveUp hctx
        next => cases hs; exact .failed rfl (by simp [hp])
    next => cases hs
  | served o servedFor =>
    simp only [advance] at hs
    split at hs
    next hp =>
      cases o with
      | shutdown => cases hs; exact .quiet rfl (live hp (by simp))
      | superseded => cases hs; exact .quiet rfl (live hp (by simp))
      | peerClosed => cases hs; exact .quiet rfl (live hp (by simp))
      | transportFailed =>
        cases hs
        have hreset : (if 0 < l.minStable ∧ l.minStable ≤ servedFor then l.initial else s.backoff) =
            if l.resets (.served .transportFailed servedFor) = true then l.initial
            else s.backoff := by
          simp only [resets, decide_eq_true_eq]
        rw [hreset]
        exact .failed rfl (by simp [hp])
    next => cases hs
  | timer =>
    simp only [advance] at hs
    split at hs
    next d hp =>
      split at hs
      next => cases hs; exact .quiet rfl (live hp (by simp))
      next => cases hs; exact .quiet rfl (live hp (by simp))
    next => cases hs
  | ctxWake =>
    simp only [advance] at hs
    split at hs
    next d hp =>
      split at hs
      next => cases hs; exact .quiet rfl (live hp (by simp))
      next => cases hs
    next => cases hs

/-! ## The law -/

/-- The failures since the last one that reset the backoff, that one included. -/
def failures (l : ReconnectLoop) (evs : List ReconnectEvent) : Nat :=
  (since l.resets evs).countP ReconnectEvent.fails

/-- How many failures come before `ev` since the last reset; none if `ev` itself resets. -/
def rank (l : ReconnectLoop) (evs : List ReconnectEvent) (ev : ReconnectEvent) : Nat :=
  if l.resets ev then 0 else l.failures evs

/-- The backoff after `n` failures: doubled `n` times, and capped once it has been doubled. -/
def backoffAt (l : ReconnectLoop) : Nat → Int
  | 0 => l.initial
  | n + 1 => min (l.initial * 2 ^ (n + 1)) l.effectiveMax

theorem fails_of_resets (h : l.resets ev = true) : ev.fails = true := by
  unfold resets at h
  split at h
  next => rfl
  next => cases h

/-- A failure is one more than those it ranks after. -/
theorem failures_concat_of_fails (evs : List ReconnectEvent) (hf : ev.fails = true) :
    l.failures (evs ++ [ev]) = l.rank evs ev + 1 := by
  rw [failures, since_concat, rank]
  split
  next => simp [hf]
  next => simp [hf, failures]

/-- Anything else does not count. -/
theorem failures_concat_of_not_fails (evs : List ReconnectEvent) (hf : ev.fails = false) :
    l.failures (evs ++ [ev]) = l.failures evs := by
  have hr : ¬ l.resets ev = true := by
    intro h
    rw [fails_of_resets h] at hf
    cases hf
  rw [failures, since_concat, if_neg hr, List.countP_append]
  simp [hf, failures]

/-- Without a reset the count does not go down. -/
theorem failures_le_append (xs ys : List ReconnectEvent) (hno : ∀ ev ∈ ys, l.resets ev = false) :
    l.failures xs ≤ l.failures (xs ++ ys) := by
  induction ys using List.reverseRecOn with
  | nil => rw [List.append_nil]
  | append_singleton ys ev ih =>
    have hle := ih fun ev' h => hno ev' (List.mem_append_left _ h)
    have hev : l.resets ev = false := hno ev (by simp)
    rw [← List.append_assoc]
    cases hf : ev.fails with
    | true =>
      rw [failures_concat_of_fails _ hf, rank, hev]
      exact Nat.le_succ_of_le hle
    | false =>
      rw [failures_concat_of_not_fails _ hf]
      exact hle

theorem initial_pos (l : ReconnectLoop) : 0 < l.initial := orDefault_pos (by decide)

theorem effectiveMax_pos (l : ReconnectLoop) : 0 < l.effectiveMax := orDefault_pos (by decide)

section
variable (hI : l.initialBackoff < 2 ^ 62) (hM : l.maxBackoff < 2 ^ 62)
include hI hM

theorem backoffAt_bounds (n : Nat) : 0 < l.backoffAt n ∧ l.backoffAt n < 2 ^ 62 := by
  cases n with
  | zero => exact ⟨l.initial_pos, orDefault_lt hI (by decide)⟩
  | succ n =>
    have hpow : 0 < l.initial * 2 ^ (n + 1) := Int.mul_pos l.initial_pos (Int.pow_pos (by decide))
    have hmax : l.effectiveMax < 2 ^ 62 := orDefault_lt hM (by decide)
    have hpos := l.effectiveMax_pos
    show 0 < min _ _ ∧ min _ _ < 2 ^ 62
    omega

/-- Doubling does not overflow, and doubling under the cap is capping the doubled. -/
theorem nextBackoff_backoffAt (n : Nat) : l.nextBackoff (l.backoffAt n) = l.backoffAt (n + 1) := by
  obtain ⟨hpos, hlt⟩ := backoffAt_bounds hI hM n
  have hexact : int64 (2 * l.backoffAt n) = 2 * l.backoffAt n :=
    int64_of_lt (by omega) (by omega)
  have hmax := l.effectiveMax_pos
  show min (int64 (2 * l.backoffAt n)) l.effectiveMax = min (l.initial * 2 ^ (n + 1)) l.effectiveMax
  rw [hexact]
  cases n with
  | zero =>
    show min (2 * l.initial) _ = _
    rw [Int.pow_succ, Int.pow_zero, Int.one_mul, Int.mul_comm]
  | succ n =>
    show min (2 * min (l.initial * 2 ^ (n + 1)) l.effectiveMax) _ = _
    rw [Int.pow_succ 2 (n + 1), ← Int.mul_assoc]
    omega

/-- The backoff of a loop that has not stopped is that of its failures. -/
theorem backoff_of_run {evs : List ReconnectEvent}
    (hrun : l.reconnecting.run l.reconnecting.init evs = some s) :
    (∃ e, s.phase = .stopped e) ∨ s.backoff = l.backoffAt (l.failures evs) := by
  refine Machine.run_invariant
    (P := fun evs s => (∃ e, s.phase = .stopped e) ∨ s.backoff = l.backoffAt (l.failures evs))
    (.inr rfl) ?_ hrun
  intro evs s ev s' _ ih hs
  cases advances_of_advance hs with
  | quiet hf hstop =>
    rw [failures_concat_of_not_fails _ hf]
    refine ih.imp ?_ id
    rintro ⟨e, he⟩
    exact ⟨e, hstop e he⟩
  | gaveUp _ => exact .inl ⟨_, rfl⟩
  | failed hf hlive =>
    have hb := ih.resolve_left fun ⟨e, he⟩ => hlive e he
    refine .inr ?_
    show l.nextBackoff _ = _
    rw [failures_concat_of_fails _ hf, rank]
    split
    next => exact nextBackoff_backoffAt hI hM 0
    next => rw [hb]; exact nextBackoff_backoffAt hI hM _

/-- **What a failure waits for**, in every loop: the backoff of its rank. -/
theorem wait_of_failure {evs : List ReconnectEvent} {d : Int}
    (hrun : l.reconnecting.run l.reconnecting.init evs = some s) (hf : ev.fails = true)
    (hs : l.reconnecting.step s ev = some s') (hd : s'.phase = .sleeping d) :
    d = l.backoffAt (l.rank evs ev) := by
  cases advances_of_advance hs with
  | quiet hnot _ =>
    rw [hf] at hnot
    cases hnot
  | gaveUp _ => cases hd
  | failed _ hlive =>
    have hb := (backoff_of_run hI hM hrun).resolve_left fun ⟨e, he⟩ => hlive e he
    cases hd
    rw [rank]
    split
    next => rfl
    next => exact hb

end

/-- A failure makes a loop whose context is not done sleep. -/
theorem sleeps_of_failure (hf : ev.fails = true) (hctx : s.ctxDone = false)
    (hs : l.reconnecting.step s ev = some s') : ∃ d, s'.phase = .sleeping d := by
  cases advances_of_advance hs with
  | quiet hnot _ => exact absurd (hf.symm.trans hnot) (by decide)
  | gaveUp hdone => exact absurd (hctx.symm.trans hdone) (by decide)
  | failed _ _ => exact ⟨_, rfl⟩

/-- Below the cap the initial backoff follows the same formula as the others. -/
theorem backoffAt_of_le (hle : l.initial ≤ l.effectiveMax) (n : Nat) :
    l.backoffAt n = min (l.initial * 2 ^ n) l.effectiveMax := by
  cases n with
  | zero =>
    rw [Int.pow_zero, Int.mul_one]
    exact (Int.min_eq_left hle).symm
  | succ n => rfl

/-- The capped backoff grows with the rank. -/
theorem capped_mono (l : ReconnectLoop) {m n : Nat} (h : m ≤ n) :
    min (l.initial * 2 ^ m) l.effectiveMax ≤ min (l.initial * 2 ^ n) l.effectiveMax := by
  have hpow : (2 : Int) ^ m ≤ 2 ^ n := by exact_mod_cast Nat.pow_le_pow_right Nat.two_pos h
  have hmul := Int.mul_le_mul_of_nonneg_left hpow (Int.le_of_lt l.initial_pos)
  omega

/-- **The law.** In every run of a loop whose initial backoff does not exceed its cap, the wait
after a connect error or a transport failure is the initial backoff doubled once for every failure
before it since the last reset, and capped, and unless the context is done there is such a wait; a
peer-closed outcome waits for the pause and changes nothing; and between resets the waits do not
decrease. -/
theorem waits_follow_law (hI : l.initialBackoff < 2 ^ 62) (hM : l.maxBackoff < 2 ^ 62)
    (hle : l.initial ≤ l.effectiveMax) {evs : List ReconnectEvent}
    (hrun : l.reconnecting.run l.reconnecting.init evs = some s) :
    (∀ ev s' d, ev.fails = true → l.reconnecting.step s ev = some s' → s'.phase = .sleeping d →
      d = min (l.initial * 2 ^ l.rank evs ev) l.effectiveMax ∧ d ≤ l.effectiveMax) ∧
    (∀ ev s', ev.fails = true → s.ctxDone = false → l.reconnecting.step s ev = some s' →
      s'.phase = .sleeping (min (l.initial * 2 ^ l.rank evs ev) l.effectiveMax)) ∧
    (∀ servedFor s', l.reconnecting.step s (.served .peerClosed servedFor) = some s' →
      s' = { s with phase := .sleeping l.peerPause }) ∧
    (∀ ev s₁ d₁ evs' s₂ ev' s₃ d₂, ev.fails = true → l.reconnecting.step s ev = some s₁ →
      s₁.phase = .sleeping d₁ → l.reconnecting.run s₁ evs' = some s₂ →
      ev'.fails = true → l.reconnecting.step s₂ ev' = some s₃ → s₃.phase = .sleeping d₂ →
      (∀ x ∈ evs' ++ [ev'], l.resets x = false) → d₁ ≤ d₂) := by
  refine ⟨?_, ?_, ?_, ?_⟩
  · intro ev s' d hf hs hd
    have hwait := (wait_of_failure hI hM hrun hf hs hd).trans (backoffAt_of_le hle _)
    exact ⟨hwait, hwait ▸ Int.min_le_right _ _⟩
  · intro ev s' hf hctx hs
    obtain ⟨d, hd⟩ := sleeps_of_failure hf hctx hs
    rw [hd, wait_of_failure hI hM hrun hf hs hd, backoffAt_of_le hle]
  · intro servedFor s' hs
    simp only [reconnecting, advance] at hs
    split at hs
    next => exact (Option.some.inj hs).symm
    next => cases hs
  · intro ev s₁ d₁ evs' s₂ ev' s₃ d₂ hf hs hd hrun' hf' hs' hd' hno
    have hone : l.reconnecting.run s [ev] = some s₁ := by
      rw [Machine.run, hs]
      rfl
    have hall := Machine.run_append (Machine.run_append hrun hone) hrun'
    rw [wait_of_failure hI hM hrun hf hs hd, wait_of_failure hI hM hall hf' hs' hd',
      backoffAt_of_le hle, backoffAt_of_le hle]
    apply capped_mono
    -- the second failure ranks after the first and all that came between
    have hcount := failures_le_append (l := l) (evs ++ [ev]) evs'
      fun x hx => hno x (List.mem_append_left _ hx)
    rw [failures_concat_of_fails _ hf] at hcount
    have hlast : l.rank (evs ++ [ev] ++ evs') ev' = l.failures (evs ++ [ev] ++ evs') := by
      rw [rank, hno ev' (by simp)]
      rfl
    rw [hlast]
    exact Nat.le_of_succ_le hcount

/-- The second connect error of a loop with nothing configured. -/
theorem waits_follow_law_defaults :
    let l : ReconnectLoop := {}
    let s : Reconnecting := { phase := .connecting, backoff := 2 * second }
    let evs : List ReconnectEvent := [.begin, .answered .err, .timer, .begin]
    l.reconnecting.run l.reconnecting.init evs = some s ∧
      l.reconnecting.step s (.answered .err) =
        some { phase := .sleeping (2 * second), backoff := 4 * second } ∧
      2 * second = min (l.initial * 2 ^ l.rank evs (.answered .err)) l.effectiveMax := by
  intro l s evs
  have hrun : l.reconnecting.run l.reconnecting.init evs = some s := by decide
  have hstep : l.reconnecting.step s (.answered .err) =
      some { phase := .sleeping (2 * second), backoff := 4 * second } := by decide
  refine ⟨hrun, hstep, ?_⟩
  exact ((waits_follow_law (by decide) (by decide) (by decide) hrun).1 _ _ _ rfl hstep rfl).1

/-- **Above the cap the first wait is not capped**, and the second is shorter. Here the initial
backoff is five minutes and the cap is the default one. -/
theorem first_wait_exceeds_cap :
    let l : ReconnectLoop := { initialBackoff := 5 * minute }
    l.effectiveMax = 3 * minute ∧
    l.reconnecting.run l.reconnecting.init [.begin, .answered .err] =
      some { phase := .sleeping (5 * minute), backoff := 3 * minute } ∧
    l.reconnecting.run l.reconnecting.init
      [.begin, .answered .err, .timer, .begin, .answered .err] =
      some { phase := .sleeping (3 * minute), backoff := 3 * minute } := by
  decide

/-! ## The loop over `AcceptLoop` -/

end ReconnectLoop

/-- What the loop over any `Serve` sees of the one whose `Serve` is `AcceptLoop`. -/
def RunPhase.forget : RunPhase → ReconnectPhase
  | .top => .top
  | .connecting => .connecting
  | .serving _ => .serving
  | .sleeping d => .sleeping d
  | .stopped e => .stopped e

def Running.forget (s : Running) : Reconnecting :=
  { ctxDone := s.ctxDone, phase := s.phase.forget, backoff := s.backoff }

namespace ReconnectLoop

variable {l : ReconnectLoop} {r r' : Running}

/-- A step of the loop over `AcceptLoop` is a step of the loop, or one inside `Serve`. -/
theorem forget_step {ev : RunEvent} (hs : l.step r ev = some r') :
    r'.forget = r.forget ∨ ∃ ev', l.advance r.forget ev' = some r'.forget := by
  cases ev with
  | cancel =>
    refine .inr ⟨.cancel, ?_⟩
    simp only [step] at hs
    split at hs
    next loop hp => cases hs; simp [advance, Running.forget, RunPhase.forget, hp]
    next => cases hs; rfl
  | begin =>
    refine .inr ⟨.begin, ?_⟩
    simp only [step] at hs
    split at hs
    next hp =>
      split at hs
      next hd => cases hs; simp [advance, Running.forget, RunPhase.forget, hp, hd]
      next hd => cases hs; simp [advance, Running.forget, RunPhase.forget, hp, hd]
    next => cases hs
  | answered res =>
    refine .inr ⟨.answered res, ?_⟩
    simp only [step] at hs
    split at hs
    next hp =>
      cases res with
      | conn => cases hs; simp [advance, Running.forget, RunPhase.forget, hp]
      | protocolVersion => cases hs; simp [advance, Running.forget, RunPhase.forget, hp]
      | err =>
        dsimp only at hs
        split at hs
        next hd => cases hs; simp [advance, Running.forget, RunPhase.forget, hp, hd]
        next hd => cases hs; simp [advance, sleep, Running.forget, RunPhase.forget, hp, hd]
    next => cases hs
  | accept ev =>
    simp only [step] at hs
    split at hs
    next loop hp =>
      split at hs
      next => cases hs
      next =>
        obtain ⟨loop', -, rfl⟩ := Option.map_eq_some_iff.mp hs
        exact .inl (by simp [Running.forget, RunPhase.forget, hp])
    next => cases hs
  | served servedFor =>
    simp only [step] at hs
    split at hs
    next loop hp =>
      split at hs
      next o failed superseded hret =>
        cases hs
        refine .inr ⟨.served o servedFor, ?_⟩
        have hserving : r.forget.phase = .serving := by rw [Running.forget, hp]; rfl
        simp only [advance, hserving, if_true]
        cases o <;> rfl
      next => cases hs
    next => cases hs
  | timer =>
    refine .inr ⟨.timer, ?_⟩
    simp only [step] at hs
    split at hs
    next d hp =>
      split at hs
      next hd => cases hs; simp [advance, Running.forget, RunPhase.forget, hp, hd]
      next hd =>
        cases hs
        simp only [advance, Running.forget, RunPhase.forget, hp, hd, if_false]
    next => cases hs
  | ctxWake =>
    refine .inr ⟨.ctxWake, ?_⟩
    simp only [step] at hs
    split at hs
    next d hp =>
      split at hs
      next hd => cases hs; simp [advance, Running.forget, RunPhase.forget, hp, hd]
      next => cases hs
    next => cases hs

/-- **Refinement.** Every state of the loop over `AcceptLoop` is one that the loop over any `Serve`
runs into, so its waits follow the law. -/
theorem forget_run (h : l.machine.Reachable r) :
    ∃ evs, l.reconnecting.run l.reconnecting.init evs = some r.forget := by
  refine h.invariant
    (P := fun r => ∃ evs, l.reconnecting.run l.reconnecting.init evs = some r.forget) ⟨[], rfl⟩ ?_
  rintro r ev r' - ⟨evs, hrun⟩ - hs
  rcases forget_step hs with heq | ⟨ev', hadv⟩
  · exact ⟨evs, heq ▸ hrun⟩
  · have hone : l.reconnecting.run r.forget [ev'] = some r'.forget := by
      rw [Machine.run, show l.reconnecting.step r.forget ev' = some r'.forget from hadv]
      rfl
    exact ⟨evs ++ [ev'], Machine.run_append hrun hone⟩

end ReconnectLoop

end Pollmux
