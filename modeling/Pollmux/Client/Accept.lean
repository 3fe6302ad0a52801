import Pollmux.Config
import Pollmux.Kit.Machine

/-!
# Why a session ended, and whether to connect again

`AcceptLoop` (`accept.go`) watches five things in one `select` and reports an
`Outcome`; `ReconnectLoop.Run` (`reconnect.go`) connects again or stops on it.

`Accepting` is one call of `AcceptLoop` with everything it watches: the context,
the two signal channels of its `Conn`, the yamux session and the goroutine that
accepts streams. A `Conn` that meets a problem asks whether its session is still
the connector's active one (`session_guard.go`) and signals failure or
supersession accordingly, and only then closes its read pipe; the yamux session
ends some time after. A label that picks a case of the `select` is enabled when
the case is ready, so a run is any choice that Go may make. What the loop returns
is kept with the state of the two channels at that moment.

`classifyClose` looks at `TransportFailed` and not at `SessionSuperseded`. So
`peerClosed` is never reported over a failed transport, but it may be reported over
a superseded session as soon as the end of the yamux session is ready as well
(`overlooked`), or when the session is superseded while its end is being classified
(`superseded_late`). `Heeds` is the condition on the states of a run under which
neither happens, and `superseded_heeded` says what holds then.
-/

namespace Pollmux

open Kit

def defaultInitialBackoff : Int := 1 * second
def defaultMaxBackoff : Int := 3 * minute
def defaultPeerClosedPause : Int := 500 * millisecond
def defaultMinStableDuration : Int := 5 * second

/-- `Outcome`. -/
inductive Outcome
  | transportFailed
  | peerClosed
  | superseded
  | shutdown
  deriving DecidableEq, Repr

/-- What `sess.Accept` answers. -/
inductive AcceptResult
  | stream
  | err
  deriving DecidableEq, Repr

/-- Where `AcceptLoop` is. A return carries whether `TransportFailed` and `SessionSuperseded` were
closed when it was decided. -/
inductive LoopPhase
  | selecting
  | classifying
  | returned (outcome : Outcome) (failed superseded : Bool)
  deriving DecidableEq, Repr

/-- A call of `AcceptLoop` and what it watches. -/
structure Accepting where
  ctxDone : Bool := false
  /-- The session is still the active one of its `Connector`. -/
  active : Bool := true
  /-- `TransportFailed` is closed. -/
  transportFailed : Bool := false
  /-- `SessionSuperseded` is closed. -/
  superseded : Bool := false
  /-- A `fail` or `supersede` has signalled and not closed the read pipe yet. -/
  closing : Bool := false
  readClosed : Bool := false
  /-- `sess.CloseChan` is closed. -/
  yamuxClosed : Bool := false
  /-- What the accepting goroutine has and not sent yet, and what is in `acceptCh`. -/
  inHand : Option AcceptResult := none
  acceptCh : Option AcceptResult := none
  acceptDone : Bool := false
  handled : Nat := 0
  phase : LoopPhase := .selecting
  /-- The session was superseded while yamux had not ended. -/
  supersededFirst : Bool := false
  deriving DecidableEq, Repr

inductive AcceptEvent
  | cancel
  /-- A newer connect of the same `Connector` makes its own session the active one. -/
  | replaced
  /-- A loop of the `Conn` meets a closed session or a transport problem. -/
  | problem
  /-- The read pipe is closed after the signal. -/
  | closeRead
  /-- `Conn.Close` closes the read pipe without a signal. -/
  | closeConn
  /-- The yamux session ends on the `io.EOF` of its read. -/
  | yamuxEnd
  /-- The yamux session ends for a reason of its own. -/
  | peerEnds
  | acceptReturn (r : AcceptResult)
  | acceptSend
  | pickCtx
  | pickFailed
  | pickSuperseded
  | pickClosed
  | pickAccept
  | classify
  deriving DecidableEq, Repr

namespace Accepting

/-- The loop returns, and the two channels are as they are. -/
def ret (s : Accepting) (o : Outcome) : Accepting :=
  { s with phase := .returned o s.transportFailed s.superseded }

/-- `classifyClose`. -/
def classifyClose (s : Accepting) : Outcome := if s.transportFailed then .transportFailed else .peerClosed

/-- `onSessionClosed` and `onTransportProblem`, up to the signal: `supersede` for a session that is
no longer the active one, `fail` otherwise. -/
def problem (s : Accepting) : Accepting :=
  if s.active then { s with transportFailed := true, closing := true }
  else
    { s with
      superseded := true
      closing := true
      supersededFirst := s.supersededFirst || (!s.superseded && !s.yamuxClosed) }

def step (s : Accepting) : AcceptEvent → Option Accepting
  | .cancel => some { s with ctxDone := true }
  | .replaced => some { s with active := false }
  | .problem => some s.problem
  | .closeRead => if s.closing then some { s with readClosed := true } else none
  | .closeConn => some { s with readClosed := true }
  | .yamuxEnd => if s.readClosed then some { s with yamuxClosed := true } else none
  | .peerEnds => some { s with yamuxClosed := true }
  | .acceptReturn r =>
    if s.inHand = none ∧ s.acceptDone = false ∧ (r = .err → s.yamuxClosed = true) then
      some { s with inHand := some r }
    else none
  | .acceptSend =>
    match s.inHand, s.acceptCh with
    | some r, none =>
      some { s with inHand := none, acceptCh := some r, acceptDone := decide (r = .err) }
    | _, _ => none
  | .pickCtx => if s.phase = .selecting ∧ s.ctxDone = true then some (s.ret .shutdown) else none
  | .pickFailed =>
    if s.phase = .selecting ∧ s.transportFailed = true then some (s.ret .transportFailed) else none
  | .pickSuperseded =>
    if s.phase = .selecting ∧ s.superseded = true then some (s.ret .superseded) else none
  | .pickClosed =>
    if s.phase = .selecting ∧ s.yamuxClosed = true then some { s with phase := .classifying }
    else none
  | .pickAccept =>
    if s.phase = .selecting ∧ s.acceptCh = some .stream then
      some { s with acceptCh := none, handled := s.handled + 1 }
    else if s.phase = .selecting ∧ s.acceptCh = some .err then
      some { s with acceptCh := none, phase := .classifying }
    else none
  | .classify => if s.phase = .classifying then some (s.ret s.classifyClose) else none

def machine : Machine Accepting AcceptEvent where
  init := {}
  step := step

/-- No end of the session but its supersession is ready for the `select`. -/
def OnlySuperseded (s : Accepting) : Prop :=
  s.yamuxClosed = false ∧ s.acceptCh ≠ some .err ∧ s.transportFailed = false

instance (s : Accepting) : Decidable s.OnlySuperseded := inferInstanceAs (Decidable (_ ∧ _))

/-- **The condition**, on the state that a step starts in. When the `select` takes a case, whichever
it is, `SessionSuperseded` is not closed together with another end of the session; and once the
`select` is left, no loop of the `Conn` meets a problem that would supersede the session. -/
def Heeds (s : Accepting) : AcceptEvent → Prop
  | .pickCtx | .pickFailed | .pickSuperseded | .pickClosed | .pickAccept =>
    s.superseded = true → s.OnlySuperseded
  | .problem => s.active = true ∨ s.superseded = true ∨ s.phase = .selecting
  | _ => True

instance (s : Accepting) : DecidablePred s.Heeds
  | .pickCtx | .pickFailed | .pickSuperseded | .pickClosed | .pickAccept =>
    inferInstanceAs (Decidable (s.superseded = true → s.OnlySuperseded))
  | .problem =>
    inferInstanceAs (Decidable (s.active = true ∨ s.superseded = true ∨ s.phase = .selecting))
  | .cancel | .replaced | .closeRead | .closeConn | .yamuxEnd | .peerEnds | .acceptReturn _
  | .acceptSend | .classify => inferInstanceAs (Decidable True)

variable {s s' : Accepting} {ev : AcceptEvent}

/-- **What a step may do** to the loop and to the supersession of its session: nothing, supersede
the session, leave the `select`, or classify. -/
inductive Moves (s s' : Accepting) (ev : AcceptEvent) : Prop
  | quiet (hphase : s'.phase = s.phase) (hsup : s'.superseded = s.superseded)
      (hfirst : s'.supersededFirst = s.supersededFirst)
  | supersede (hev : ev = .problem) (hactive : s.active = false) (hphase : s'.phase = s.phase)
      (hsup : s'.superseded = true)
      (hfirst : s'.supersededFirst = true → s.supersededFirst = true ∨ s.superseded = false)
  | leave (hphase : s.phase = .selecting) (hsup : s'.superseded = s.superseded)
      (hfirst : s'.supersededFirst = s.supersededFirst)
      (hpick : (ev = .pickCtx ∧ s' = s.ret .shutdown) ∨
        (ev = .pickSuperseded ∧ s' = s.ret .superseded) ∨
        (ev = .pickFailed ∧ s.transportFailed = true ∧ s' = s.ret .transportFailed) ∨
        (ev = .pickClosed ∧ s.yamuxClosed = true ∨ ev = .pickAccept ∧ s.acceptCh = some .err) ∧
          s'.phase = .classifying)
  | classify (hphase : s.phase = .classifying) (hs' : s' = s.ret s.classifyClose)

theorem moves_of_step (h : s.step ev = some s') : Moves s s' ev := by
  cases ev with
  | cancel => cases h; exact .quiet rfl rfl rfl
  | replaced => cases h; exact .quiet rfl rfl rfl
  | problem =>
    cases h
    unfold problem
    split
    next => exact .quiet rfl rfl rfl
    next hactive =>
      refine .supersede rfl (Bool.not_eq_true _ ▸ hactive) rfl rfl ?_
      simp only [Bool.or_eq_true, Bool.and_eq_true, Bool.not_eq_true']
      exact Or.imp_right And.left
  | closeRead =>
    simp only [step] at h
    split at h <;> cases h
    exact .quiet rfl rfl rfl
  | closeConn => cases h; exact .quiet rfl rfl rfl
  | yamuxEnd =>
    simp only [step] at h
    split at h <;> cases h
    exact .quiet rfl rfl rfl
  | peerEnds => cases h; exact .quiet rfl rfl rfl
  | acceptReturn r =>
    simp only [step] at h
    split at h <;> cases h
    exact .quiet rfl rfl rfl
  | acceptSend =>
    simp only [step] at h
    split at h <;> cases h
    exact .quiet rfl rfl rfl
  | pickCtx =>
    simp only [step] at h
    split at h
    next hc => cases h; exact .leave hc.1 rfl rfl (.inl ⟨rfl, rfl⟩)
    next => cases h
  | pickFailed =>
    simp only [step] at h
    split at h
    next hc => cases h; exact .leave hc.1 rfl rfl (.inr (.inr (.inl ⟨rfl, hc.2, rfl⟩)))
    next => cases h
  | pickSuperseded =>
    simp only [step] at h
    split at h
    next hc => cases h; exact .leave hc.1 rfl rfl (.inr (.inl ⟨rfl, rfl⟩))
    next => cases h
  | pickClosed =>
    simp only [step] at h
    split at h
    next hc => cases h; exact .leave hc.1 rfl rfl (.inr (.inr (.inr ⟨.inl ⟨rfl, hc.2⟩, rfl⟩)))
    next => cases h
  | pickAccept =>
    simp only [step] at h
    split at h
    next => cases h; exact .quiet rfl rfl rfl
    next =>
      split at h
      next hc =>
        cases h
        exact .leave hc.1 rfl rfl (.inr (.inr (.inr ⟨.inr ⟨rfl, hc.2⟩, rfl⟩)))
      next => cases h
  | classify =>
    simp only [step] at h
    split at h
    next hc => cases h; exact .classify hc rfl
    next => cases h

/-- A `select` that is left for a reason other than the supersession and the context had that reason
ready, so under the condition the session is not superseded. -/
theorem Heeds.not_superseded (hheeds : s.Heeds ev)
    (hpick : (ev = .pickFailed ∧ s.transportFailed = true) ∨
      (ev = .pickClosed ∧ s.yamuxClosed = true ∨ ev = .pickAccept ∧ s.acceptCh = some .err)) :
    s.superseded = false := by
  by_contra hsup
  rw [Bool.not_eq_false] at hsup
  rcases hpick with ⟨rfl, hfailed⟩ | ⟨rfl, hyamux⟩ | ⟨rfl, herr⟩
  · exact Bool.noConfusion ((hheeds hsup).2.2.symm.trans hfailed)
  · exact Bool.noConfusion ((hheeds hsup).1.symm.trans hyamux)
  · exact (hheeds hsup).2.1 herr

/-- `peerClosed` is reported only while `TransportFailed` is open, whatever the `select` picks. -/
theorem peerClosed_not_failed (h : machine.Reachable s) {failed superseded : Bool}
    (hr : s.phase = .returned .peerClosed failed superseded) : failed = false := by
  refine Machine.Reach.invariant
    (P := fun s => ∀ f g, s.phase = .returned .peerClosed f g → f = false) ?_ ?_ h failed superseded hr
  · intro f g hinit
    cases hinit
  · intro s ev s' _ ih _ hs f g hret
    cases moves_of_step hs with
    | quiet hphase _ _ => exact ih f g (hphase ▸ hret)
    | supersede _ _ hphase _ _ => exact ih f g (hphase ▸ hret)
    | leave _ _ _ hpick =>
      rcases hpick with ⟨_, rfl⟩ | ⟨_, rfl⟩ | ⟨_, _, rfl⟩ | ⟨_, hclass⟩
      · cases hret
      · cases hret
      · cases hret
      · rw [hclass] at hret
        cases hret
    | classify _ hs' =>
      subst hs'
      have heq : LoopPhase.returned s.classifyClose s.transportFailed s.superseded =
        .returned .peerClosed f g := hret
      cases hf : s.transportFailed with
      | false =>
        rw [hf] at heq
        injection heq with _ hfalse _
        exact hfalse.symm
      | true =>
        have hclose : s.classifyClose = .transportFailed := by
          rw [classifyClose, hf]
          rfl
        rw [hclose] at heq
        cases heq

/-- A superseded session is not classified, and was not when `peerClosed` was reported. -/
structure Heeded (s : Accepting) : Prop where
  classifying : s.phase = .classifying → s.superseded = false
  returned : ∀ failed superseded, s.phase = .returned .peerClosed failed superseded →
    superseded = false

/-- A loop that returned anything else is out of it. -/
theorem Heeded.of_returned {o : Outcome} {failed superseded : Bool} (ho : o ≠ .peerClosed)
    (hphase : s.phase = .returned o failed superseded) : Heeded s where
  classifying := fun hclass => by
    rw [hphase] at hclass
    cases hclass
  returned := fun f g hret => by
    rw [hphase] at hret
    injection hret with heq
    exact absurd heq ho

theorem Heeded.step (h : Heeded s) (hheeds : s.Heeds ev) (hs : s.step ev = some s') : Heeded s' := by
  cases moves_of_step hs with
  | quiet hphase hsup _ => exact ⟨by rw [hphase, hsup]; exact h.classifying, hphase ▸ h.returned⟩
  | supersede hev hactive hphase _ _ =>
    subst hev
    refine ⟨fun hclass => ?_, hphase ▸ h.returned⟩
    rw [hphase] at hclass
    rcases hheeds with hac | hsup | hsel
    · exact Bool.noConfusion (hactive.symm.trans hac)
    · exact Bool.noConfusion (hsup.symm.trans (h.classifying hclass))
    · rw [hsel] at hclass
      cases hclass
  | leave _ hsup _ hpick =>
    rcases hpick with ⟨_, rfl⟩ | ⟨_, rfl⟩ | ⟨_, _, rfl⟩ | ⟨hev, hclass⟩
    · exact .of_returned (o := .shutdown) (by decide) rfl
    · exact .of_returned (o := .superseded) (by decide) rfl
    · exact .of_returned (o := .transportFailed) (by decide) rfl
    · refine ⟨fun _ => ?_, fun _ _ hc => by rw [hclass] at hc; cases hc⟩
      rw [hsup]
      exact hheeds.not_superseded (.inr hev)
  | classify hphase hs' =>
    subst hs'
    refine ⟨fun hc => absurd hc (by simp [ret]), fun f g hret => ?_⟩
    injection hret with _ _ hg
    exact hg.symm.trans (h.classifying hphase)

theorem Heeded.reach (h : machine.Reach Heeds s) : Heeded s := by
  refine Machine.Reach.invariant ?_ (fun s ev s' _ ih hheeds hs => ih.step hheeds hs) h
  exact ⟨fun hc => (by cases hc), fun _ _ hc => (by cases hc)⟩

/-- The step that supersedes a session before yamux has ended finds the loop in its `select`. -/
theorem Heeds.superseded_selecting (hheeds : s.Heeds ev) (hs : s.step ev = some s')
    (hbefore : s.supersededFirst = false) (hafter : s'.supersededFirst = true) :
    s'.superseded = true ∧ s'.phase = .selecting := by
  cases moves_of_step hs with
  | quiet _ _ hkeep => exact Bool.noConfusion ((hafter.symm.trans hkeep).trans hbefore)
  | leave _ _ hkeep _ => exact Bool.noConfusion ((hafter.symm.trans hkeep).trans hbefore)
  | classify _ hs' =>
    subst hs'
    exact Bool.noConfusion (hbefore.symm.trans hafter)
  | supersede hev hactive hkeep hsup hwas =>
    subst hev
    have hnot : s.superseded = false :=
      (hwas hafter).resolve_left fun hf => Bool.noConfusion (hbefore.symm.trans hf)
    refine ⟨hsup, hkeep.trans ?_⟩
    rcases hheeds with hac | hsup' | hsel
    · exact Bool.noConfusion (hactive.symm.trans hac)
    · exact Bool.noConfusion (hnot.symm.trans hsup')
    · exact hsel

/-- The loop of a superseded session stays in its `select`, or reports what makes `Run` stop. -/
theorem Heeds.stays_superseded (hheeds : s.Heeds ev) (hs : s.step ev = some s')
    (hsup : s.superseded = true)
    (hwhere : s.phase = .selecting ∨ (∃ f g, s.phase = .returned .shutdown f g) ∨
      ∃ f g, s.phase = .returned .superseded f g) :
    s'.superseded = true ∧ (s'.phase = .selecting ∨ (∃ f g, s'.phase = .returned .shutdown f g) ∨
      ∃ f g, s'.phase = .returned .superseded f g) := by
  cases moves_of_step hs with
  | quiet hkeep hsup' _ => exact ⟨hsup'.trans hsup, by rw [hkeep]; exact hwhere⟩
  | supersede _ _ hkeep hsup' _ => exact ⟨hsup', by rw [hkeep]; exact hwhere⟩
  | leave _ hsup' _ hpick =>
    refine ⟨hsup'.trans hsup, .inr ?_⟩
    rcases hpick with ⟨_, rfl⟩ | ⟨_, rfl⟩ | ⟨hev, hfailed, _⟩ | ⟨hev, _⟩
    · exact .inl ⟨_, _, rfl⟩
    · exact .inr ⟨_, _, rfl⟩
    · exact Bool.noConfusion (hsup.symm.trans (hheeds.not_superseded (.inl ⟨hev, hfailed⟩)))
    · exact Bool.noConfusion (hsup.symm.trans (hheeds.not_superseded (.inr hev)))
  | classify hclass _ =>
    rcases hwhere with hsel | ⟨f, g, hret⟩ | ⟨f, g, hret⟩
    · rw [hsel] at hclass; cases hclass
    · rw [hret] at hclass; cases hclass
    · rw [hret] at hclass; cases hclass

/-- The other way round: whenever a superseded session has ended and its transport has not failed,
the `select` may take the end, and then the loop reports `peerClosed`. -/
theorem overlooked (hsel : s.phase = .selecting) (hsup : s.superseded = true)
    (hyamux : s.yamuxClosed = true) (hopen : s.transportFailed = false) :
    ∃ s', machine.run s [.pickClosed, .classify] = some s' ∧
      s'.phase = .returned .peerClosed false true := by
  refine ⟨{ s with phase := .returned .peerClosed false true }, ?_, rfl⟩
  simp only [Machine.run, machine, step, hsel, hyamux, ret, classifyClose, hopen, hsup, and_self,
    if_true, Option.bind_some, Bool.false_eq_true, if_false]

/-- And whenever a superseded session's transport has failed as well, the `select` may report that. -/
theorem failure_first (hsel : s.phase = .selecting) (hsup : s.superseded = true)
    (hfailed : s.transportFailed = true) :
    ∃ s', machine.step s .pickFailed = some s' ∧ s'.phase = .returned .transportFailed true true :=
  ⟨s.ret .transportFailed, if_pos ⟨hsel, hfailed⟩, by rw [ret, hfailed, hsup]⟩

/-- A session that is superseded while its end is being classified is reported as one whose peer has
left. -/
theorem superseded_late (hclass : s.phase = .classifying) (hactive : s.active = false)
    (hopen : s.transportFailed = false) :
    ∃ s', machine.run s [.problem, .classify] = some s' ∧
      s'.phase = .returned .peerClosed false true := by
  refine ⟨{ s.problem with phase := .returned .peerClosed false true }, ?_, rfl⟩
  simp only [Machine.run, machine, step, problem, hactive, hclass, ret, classifyClose, hopen,
    Bool.false_eq_true, if_false, if_true, Option.bind_some]

end Accepting

/-! ## The reconnect loop -/

/-- The durations of a `ReconnectLoop`. -/
structure ReconnectLoop where
  initialBackoff : Int := 0
  maxBackoff : Int := 0
  peerClosedPause : Int := 0
  minStableDuration : Int := 0
  deriving DecidableEq, Repr

/-- How `Run` ends: with `ctx.Err()`, with `ErrProtocolVersion`, or with `nil`. -/
inductive RunEnd
  | ctxErr
  | protocolVersion
  | superseded
  deriving DecidableEq, Repr

/-- What a call of `Connect` answers. -/
inductive ConnectResult
  | conn
  | protocolVersion
  | err
  deriving DecidableEq, Repr

/-- Where `Run` is: at the top of its loop, in `Connect`, in `Serve`, asleep, or done. -/
inductive RunPhase
  | top
  | connecting
  | serving (loop : Accepting)
  | sleeping (d : Int)
  | stopped (e : RunEnd)
  deriving DecidableEq, Repr

/-- A call of `Run` whose `Serve` is `AcceptLoop`. `connects` counts the calls of `Connect`, and
`hushed` is that count as of the first session that was superseded before its yamux session
ended. -/
structure Running where
  ctxDone : Bool := false
  phase : RunPhase := .top
  backoff : Int
  connects : Nat := 0
  hushed : Option Nat := none
  deriving DecidableEq, Repr

inductive RunEvent
  | cancel
  | begin
  | answered (r : ConnectResult)
  /-- Anything but a cancellation in the session that is served. -/
  | accept (ev : AcceptEvent)
  /-- `Serve` returned after `servedFor`. -/
  | served (servedFor : Int)
  | timer
  | ctxWake
  deriving DecidableEq, Repr

namespace ReconnectLoop

def initial (l : ReconnectLoop) : Int := orDefault l.initialBackoff defaultInitialBackoff

/-- `min(backoff*2, maxBackoff)`. -/
def nextBackoff (l : ReconnectLoop) (backoff : Int) : Int :=
  min (int64 (2 * backoff)) (orDefault l.maxBackoff defaultMaxBackoff)

def minStable (l : ReconnectLoop) : Int :=
  max (if l.minStableDuration ≠ 0 then l.minStableDuration else defaultMinStableDuration) 0

/-- The `switch` on the outcome of `Serve`. -/
def onOutcome (l : ReconnectLoop) (s : Running) (servedFor : Int) : Outcome → Running
  | .shutdown => { s with phase := .stopped .ctxErr }
  | .superseded => { s with phase := .stopped .superseded }
  | .peerClosed => { s with phase := .sleeping (orDefault l.peerClosedPause defaultPeerClosedPause) }
  | .transportFailed =>
    let backoff := if 0 < l.minStable ∧ l.minStable ≤ servedFor then l.initial else s.backoff
    { s with phase := .sleeping backoff, backoff := l.nextBackoff backoff }

def step (l : ReconnectLoop) (s : Running) : RunEvent → Option Running
  | .cancel =>
    match s.phase with
    | .serving loop =>
      some { s with ctxDone := true, phase := .serving { loop with ctxDone := true } }
    | _ => some { s with ctxDone := true }
  | .begin =>
    if s.phase = .top then
      if s.ctxDone then some { s with phase := .stopped .ctxErr }
      else some { s with phase := .connecting, connects := s.connects + 1 }
    else none
  | .answered r =>
    if s.phase = .connecting then
      match r with
      | .conn => some { s with phase := .serving { ctxDone := s.ctxDone } }
      | .protocolVersion => some { s with phase := .stopped .protocolVersion }
      | .err =>
        if s.ctxDone then some { s with phase := .stopped .ctxErr }
        else some { s with phase := .sleeping s.backoff, backoff := l.nextBackoff s.backoff }
    else none
  | .accept ev =>
    match s.phase with
    | .serving loop =>
      if ev = .cancel then none
      else
        (loop.step ev).map fun loop' =>
          { s with
            phase := .serving loop'
            hushed := if loop'.supersededFirst ∧ s.hushed = none then some s.connects
              else s.hushed }
    | _ => none
  | .served servedFor =>
    match s.phase with
    | .serving loop =>
      match loop.phase with
      | .returned o _ _ => some (l.onOutcome s servedFor o)
      | _ => none
    | _ => none
  | .timer =>
    match s.phase with
    | .sleeping d =>
      if d ≤ 0 ∧ s.ctxDone = true then some { s with phase := .stopped .ctxErr }
      else some { s with phase := .top }
    | _ => none
  | .ctxWake =>
    match s.phase with
    | .sleeping _ => if s.ctxDone then some { s with phase := .stopped .ctxErr } else none
    | _ => none

def machine (l : ReconnectLoop) : Machine Running RunEvent where
  init := { backoff := l.initial }
  step := l.step

end ReconnectLoop

/-- A run of `Run` in which every session heeds its supersession. -/
def Running.Heeds (s : Running) : RunEvent → Prop
  | .accept ev => ∀ loop, s.phase = .serving loop → loop.Heeds ev
  | _ => True

instance (s : Running) : DecidablePred s.Heeds
  | .accept ev =>
    match h : s.phase with
    | .serving loop =>
      decidable_of_iff (loop.Heeds ev)
        ⟨fun hheeds loop' hs => by rw [h] at hs; cases hs; exact hheeds, fun hall => hall loop h⟩
    | .top | .connecting | .sleeping _ | .stopped _ =>
      isTrue fun loop hs => by rw [h] at hs; cases hs
  | .cancel | .begin | .answered _ | .served _ | .timer | .ctxWake =>
    inferInstanceAs (Decidable True)

/-- `Run` has nothing left to do but to stop: it has stopped, or the session it serves is
superseded and its loop still has to notice or has reported a reason to stop. -/
def Running.Stopping (s : Running) : Prop :=
  (∃ e, s.phase = .stopped e) ∨
    ∃ loop, s.phase = .serving loop ∧ loop.superseded = true ∧
      (loop.phase = .selecting ∨ (∃ f g, loop.phase = .returned .shutdown f g) ∨
        ∃ f g, loop.phase = .returned .superseded f g)

namespace ReconnectLoop

/-- Once a session was superseded in time, `Run` is stopping and calls `Connect` no more. -/
structure Hushed (s : Running) : Prop where
  noted : ∀ loop, s.phase = .serving loop → loop.supersededFirst = true → s.hushed ≠ none
  stops : ∀ n, s.hushed = some n → s.connects = n ∧ s.Stopping

variable {l : ReconnectLoop} {s s' : Running}

/-- A step that leaves `hushed` empty and serves no superseded session. -/
theorem Hushed.of_none (hnone : s.hushed = none)
    (hserve : ∀ loop, s.phase = .serving loop → loop.supersededFirst = false) : Hushed s where
  noted := fun loop hphase hfirst => Bool.noConfusion (hfirst.symm.trans (hserve loop hphase))
  stops := fun n hn => by
    rw [hnone] at hn
    cases hn

/-- A step that stops. -/
theorem Hushed.stopped (h : Hushed s) {e : RunEnd} : Hushed { s with phase := .stopped e } where
  noted := fun _ hphase => by cases hphase
  stops := fun n hn => ⟨(h.stops n hn).1, .inl ⟨e, rfl⟩⟩

/-- A step from a phase in which `Run` is not stopping to one in which it serves nothing. -/
theorem Hushed.elsewhere (h : Hushed s) (hgo : ¬ s.Stopping) (hsame : s'.hushed = s.hushed)
    (hserve : ∀ loop, s'.phase = .serving loop → loop.supersededFirst = false) : Hushed s' := by
  apply Hushed.of_none _ hserve
  rw [hsame]
  cases hn : s.hushed with
  | none => rfl
  | some n => exact absurd (h.stops n hn).2 hgo

/-- A step of the session that is served. -/
theorem Hushed.accept (h : Hushed s) {loop loop' : Accepting} {ev : AcceptEvent}
    (hphase : s.phase = .serving loop) (hheeds : loop.Heeds ev) (hs : loop.step ev = some loop') :
    Hushed { s with
      phase := .serving loop'
      hushed := if loop'.supersededFirst ∧ s.hushed = none then some s.connects
        else s.hushed } := by
  cases hn : s.hushed with
  | none =>
    have hbefore : loop.supersededFirst = false :=
      Bool.not_eq_true _ ▸ fun hfirst => h.noted loop hphase hfirst hn
    cases hafter : loop'.supersededFirst with
    | false =>
      apply Hushed.of_none
      · simp
      · intro loop'' hserve
        cases hserve
        exact hafter
    | true =>
      obtain ⟨hsup, hsel⟩ := hheeds.superseded_selecting hs hbefore hafter
      refine ⟨fun _ _ _ => by simp, fun n hsome => ?_⟩
      have hsome' : some s.connects = some n := hsome
      cases hsome'
      exact ⟨rfl, .inr ⟨loop', rfl, hsup, .inl hsel⟩⟩
  | some n =>
    obtain ⟨hconnects, hstop⟩ := h.stops n hn
    refine ⟨fun _ _ _ => by simp, fun m hm => ?_⟩
    have hm' : some n = some m := by simpa using hm
    cases hm'
    refine ⟨hconnects, .inr ⟨loop', rfl, ?_⟩⟩
    rcases hstop with ⟨e, hstopped⟩ | ⟨loop'', hserve, hsup, hwhere⟩
    · rw [hphase] at hstopped
      cases hstopped
    · rw [hphase] at hserve
      cases hserve
      exact hheeds.stays_superseded hs hsup hwhere

/-- The context of the session that is served is done, too. -/
theorem Hushed.cancelled (h : Hushed s) {loop : Accepting} (hphase : s.phase = .serving loop) :
    Hushed { s with ctxDone := true, phase := .serving { loop with ctxDone := true } } := by
  refine ⟨fun loop' hserve => ?_, fun n hn => ?_⟩
  · cases hserve
    exact h.noted loop hphase
  · obtain ⟨hconnects, hstop⟩ := h.stops n hn
    refine ⟨hconnects, ?_⟩
    rcases hstop with ⟨e, hstopped⟩ | ⟨loop', hserve, hrest⟩
    · rw [hphase] at hstopped
      cases hstopped
    · rw [hphase] at hserve
      cases hserve
      exact .inr ⟨_, rfl, hrest⟩

/-- A loop that reports no reason to stop leaves `Run` going. -/
theorem not_stopping_of_returned {loop : Accepting} {o : Outcome} {f g : Bool}
    (hphase : s.phase = .serving loop) (hret : loop.phase = .returned o f g)
    (ho : o = .peerClosed ∨ o = .transportFailed) : ¬ s.Stopping := by
  rintro (⟨e, hstopped⟩ | ⟨loop', hserve, _, hwhere⟩)
  · rw [hphase] at hstopped
    cases hstopped
  · rw [hphase] at hserve
    cases hserve
    rw [hret] at hwhere
    rcases hwhere with hw | ⟨_, _, hw⟩ | ⟨_, _, hw⟩
    · cases hw
    · cases hw
      rcases ho with ho | ho <;> cases ho
    · cases hw
      rcases ho with ho | ho <;> cases ho

/-- `Run` acts on what the loop reports. -/
theorem Hushed.served (h : Hushed s) {loop : Accepting} {o : Outcome} {f g : Bool}
    (hphase : s.phase = .serving loop) (hret : loop.phase = .returned o f g) (servedFor : Int) :
    Hushed (l.onOutcome s servedFor o) := by
  have hgo := not_stopping_of_returned hphase hret
  cases o with
  | shutdown => exact h.stopped
  | superseded => exact h.stopped
  | peerClosed => exact h.elsewhere (hgo (.inl rfl)) rfl (fun _ hserve => by cases hserve)
  | transportFailed => exact h.elsewhere (hgo (.inr rfl)) rfl (fun _ hserve => by cases hserve)

theorem Hushed.step (h : Hushed s) {ev : RunEvent} (hheeds : s.Heeds ev)
    (hs : l.step s ev = some s') : Hushed s' := by
  cases ev with
  | cancel =>
    simp only [ReconnectLoop.step] at hs
    split at hs
    next loop hphase =>
      cases hs
      exact h.cancelled hphase
    next =>
      cases hs
      exact ⟨h.noted, h.stops⟩
  | begin =>
    simp only [ReconnectLoop.step] at hs
    split at hs
    next htop =>
      split at hs
      next =>
        cases hs
        exact h.stopped
      next =>
        cases hs
        refine h.elsewhere ?_ rfl (fun _ hserve => by cases hserve)
        simp [Running.Stopping, htop]
    next => cases hs
  | answered r =>
    simp only [ReconnectLoop.step] at hs
    split at hs
    next hconn =>
      have hgo : ¬ s.Stopping := by simp [Running.Stopping, hconn]
      cases r with
      | conn =>
        cases hs
        refine h.elsewhere hgo rfl ?_
        intro loop hserve
        cases hserve
        rfl
      | protocolVersion =>
        cases hs
        exact h.stopped
      | err =>
        simp only at hs
        split at hs
        next =>
          cases hs
          exact h.stopped
        next =>
          cases hs
          exact h.elsewhere hgo rfl (fun _ hserve => by cases hserve)
    next => cases hs
  | accept ev =>
    simp only [ReconnectLoop.step] at hs
    split at hs
    next loop hphase =>
      split at hs
      next => cases hs
      next =>
        obtain ⟨loop', hstep, rfl⟩ := Option.map_eq_some_iff.mp hs
        exact h.accept hphase (hheeds loop hphase) hstep
    next => cases hs
  | served servedFor =>
    simp only [ReconnectLoop.step] at hs
    split at hs
    next loop hphase =>
      split at hs
      next o f g hret =>
        cases hs
        exact h.served hphase hret servedFor
      next => cases hs
    next => cases hs
  | timer =>
    simp only [ReconnectLoop.step] at hs
    split at hs
    next d hphase =>
      split at hs
      next =>
        cases hs
        exact h.stopped
      next =>
        cases hs
        refine h.elsewhere ?_ rfl (fun _ hserve => by cases hserve)
        simp [Running.Stopping, hphase]
    next => cases hs
  | ctxWake =>
    simp only [ReconnectLoop.step] at hs
    split at hs
    next =>
      split at hs
      next =>
        cases hs
        exact h.stopped
      next => cases hs
    next => cases hs

theorem Hushed.reach (h : l.machine.Reach Running.Heeds s) : Hushed s := by
  refine Machine.Reach.invariant ?_ (fun s ev s' _ ih hheeds hs => ih.step hheeds hs) h
  exact .of_none rfl fun _ hserve => by cases hserve

/-- **A heeded supersession is never taken for a peer that left.** `AcceptLoop` reports `peerClosed`
only while `TransportFailed` is open, in every run. In a run whose `select` never finds
`SessionSuperseded` ready together with another end of the session, and in which the session is not
superseded after the `select`, it does so only while `SessionSuperseded` is open too, and then `Run`
calls `Connect` no more once a session was superseded before yamux ended. Each part of the condition
is needed: wherever a superseded session has ended or its transport has failed, the `select` may
report that instead, and wherever a session is superseded while its end is being classified,
`peerClosed` is reported. -/
theorem superseded_heeded (l : ReconnectLoop) (a : Accepting) (s : Running) :
    (∀ failed superseded, Accepting.machine.Reachable a →
      a.phase = .returned .peerClosed failed superseded → failed = false) ∧
    (∀ failed superseded, Accepting.machine.Reach Accepting.Heeds a →
      a.phase = .returned .peerClosed failed superseded → superseded = false) ∧
    (∀ n, l.machine.Reach Running.Heeds s → s.hushed = some n → s.connects = n) ∧
    (a.phase = .selecting → a.superseded = true → a.yamuxClosed = true →
      a.transportFailed = false → ∃ a', Accepting.machine.run a [.pickClosed, .classify] = some a' ∧
        a'.phase = .returned .peerClosed false true) ∧
    (a.phase = .selecting → a.superseded = true → a.transportFailed = true →
      ∃ a', Accepting.machine.step a .pickFailed = some a' ∧
        a'.phase = .returned .transportFailed true true) ∧
    (a.phase = .classifying → a.active = false → a.transportFailed = false →
      ∃ a', Accepting.machine.run a [.problem, .classify] = some a' ∧
        a'.phase = .returned .peerClosed false true) :=
  ⟨fun _ _ h hr => Accepting.peerClosed_not_failed h hr,
    fun _ _ h hr => (Accepting.Heeded.reach h).returned _ _ hr,
    fun n h hn => ((Hushed.reach h).stops n hn).1,
    Accepting.overlooked, Accepting.failure_first, Accepting.superseded_late⟩

/-- A session is superseded by a newer connect. -/
def supersession : List RunEvent :=
  [.begin, .answered .conn, .accept .replaced, .accept .problem]

/-- The `select` is awake before yamux has ended: `Run` stops after one `Connect`. -/
theorem superseded_heeded_run :
    (ReconnectLoop.machine {}).Allowed Running.Heeds (ReconnectLoop.machine {}).init
        (supersession ++ [.accept .pickSuperseded, .accept .closeRead, .accept .yamuxEnd, .served 1]) ∧
      ((ReconnectLoop.machine {}).final
        (supersession ++
          [.accept .pickSuperseded, .accept .closeRead, .accept .yamuxEnd, .served 1])).connects = 1 :=
  ⟨by decide, (superseded_heeded {} {} _).2.2.1 1 (Machine.reach_final (by decide)) (by decide)⟩

/-- The read pipe is closed and yamux ends before the `select` looks. -/
def supersessionMissed : List RunEvent := supersession ++ [.accept .closeRead, .accept .yamuxEnd]

/-- The `select` takes `CloseChan`, which is ready as well: the loop reports that the peer closed
while `SessionSuperseded` is closed, and `Run` calls `Connect` a second time. -/
theorem supersession_overlooked :
    ((ReconnectLoop.machine {}).final
        (supersessionMissed ++ [.accept .pickClosed, .accept .classify])).phase =
      .serving
        { active := false, superseded := true, closing := true, readClosed := true,
          yamuxClosed := true, supersededFirst := true,
          phase := .returned .peerClosed false true } ∧
    ((ReconnectLoop.machine {}).final (supersessionMissed ++ [.accept .pickClosed, .accept .classify,
      .served 1, .timer, .begin])).hushed = some 1 ∧
    ((ReconnectLoop.machine {}).final (supersessionMissed ++ [.accept .pickClosed, .accept .classify,
      .served 1, .timer, .begin])).connects = 2 := by
  decide

end ReconnectLoop

end Pollmux
