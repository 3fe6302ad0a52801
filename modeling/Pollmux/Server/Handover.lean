import Pollmux.Reliable.Endpoint
import Pollmux.Server.Attachments

/-!
# How a kicked owner of the downstream direction lets go

The three handlers that call `nextOut` on a resumable session, as loops over its
byte layer: `pollStreamResumable`, `pollBatchResumable` and the write pump
`wsWritePumpResumable`. `Serving` runs any number of them, with uploads that only
attach and detach, on top of `Ownership`: a handler serves once its `attach` has
succeeded and detaches once its loop has returned. Upstream frames, acks, pipe
interrupts and whatever the application does are environment steps at any time.

A kick interrupts the pipe. For a batch poll and a WebSocket it also cancels the
context they check; for a stream poll it only sets a write deadline, and the
request's own context may live on. A write after the kick fails.

`returns` counts how often `nextOut` returned to a handler since its first kick.
-/

namespace Pollmux

open Kit

/-- What a handler does with the session. -/
inductive Mode
  /-- `pollStreamResumable`. -/
  | stream
  /-- `pollBatchResumable` without a body. -/
  | batch
  /-- `WebSocketHandler`; its write pump is `wsWritePumpResumable`. -/
  | webSocket
  /-- An upload: it owns the upstream direction and never calls `nextOut`. -/
  | upload
  deriving DecidableEq, Repr

/-- The directions it attaches to. -/
def Mode.kind : Mode → AttachKind
  | .stream | .batch => .down
  | .webSocket => .both
  | .upload => .up

/-- Where a handler's loop is. `n` are the bytes to write and `intr` says that the wait was
interrupted. -/
inductive Pc
  /-- Not in the loop yet. -/
  | idle
  /-- A batch poll about to take the request's ack. -/
  | admitting
  /-- A batch poll about to call `rewindToAcked`. -/
  | rewinding
  /-- A stream poll about to check its request's context. -/
  | top
  /-- About to call `nextOut`. -/
  | calling
  | inNext
  | got (res : NextResult)
  /-- About to call `takeAck`. -/
  | acking (n : Bytes) (intr : Bool)
  /-- About to write the ack. -/
  | writingAck (n : Bytes) (intr : Bool)
  /-- About to write the data or the heartbeat, or neither. -/
  | writing (n : Bytes) (intr : Bool)
  /-- A stream poll about to check its deadline. -/
  | ending
  /-- The loop has returned and the deferred `detach` is next. -/
  | returned
  deriving DecidableEq, Repr

/-- The loop is entered and has not returned. -/
def Pc.Active (pc : Pc) : Prop := pc ≠ .idle ∧ pc ≠ .returned

/-- One handler's loop: the context it checks, its deadline, and what happened since it was
kicked. -/
structure Pump where
  pc : Pc := .idle
  ctxDone : Bool := false
  expired : Bool := false
  kicked : Bool := false
  returns : Nat := 0
  deriving DecidableEq, Repr

/-- A resumable session on the server and its handlers. -/
structure Serving where
  own : Ownership := {}
  ep : Endpoint
  pump : Nat → Pump := fun _ => {}

/-- One step. -/
inductive ServeEvent
  /-- A step of the attachment protocol. -/
  | own (ev : AttachEvent)
  /-- An attached handler enters its loop. -/
  | start (h : Nat)
  /-- It gives up before, as a WebSocket whose upgrade fails does. -/
  | quit (h : Nat)
  | ackRequest (h n : Nat)
  | rewind (h : Nat)
  | checkContext (h : Nat)
  | call (h dst : Nat)
  | advance (h : Nat) (fired : Bool)
  | receive (h : Nat)
  | react (h : Nat)
  | takeAck (h : Nat)
  | write (h : Nat) (ok : Bool)
  | checkDeadline (h : Nat)
  /-- The context that `h` checks is done. -/
  | cancel (h : Nat)
  /-- The deadline of `h` passes. -/
  | expire (h : Nat)
  | env (op : EndOp)
  deriving DecidableEq, Repr

/-- What goes on around the handlers: frames and acks arrive, handshakes rewind, the application
reads, writes and closes. -/
def EndOp.fromOutside : EndOp → Bool
  | .nextOut _ | .advance _ | .control .takeAck | .control .resetAck => false
  | _ => true

/-- Nothing outside the handlers takes an interrupt out of the pipe or touches the call. -/
theorem Endpoint.perform_fromOutside {e e' : Endpoint} {op : EndOp} (hop : op.fromOutside = true)
    (hp : e.perform op = some e') :
    (e.out.intr = true → e'.out.intr = true) ∧ e'.call = e.call := by
  cases performs hp with
  | aside _ _ hintr _ => exact ⟨hintr, rfl⟩
  | nextOut => cases hop
  | advance => cases hop
  | control => exact ⟨id, rfl⟩
  | hear => exact ⟨id, rfl⟩

/-- A region of a `nextOut` call that takes the interrupt ends the call, and a call that has
returned has no more regions. -/
theorem Endpoint.advance_intr {e e' : Endpoint} {fired : Bool}
    (hp : e.perform (.advance fired) = some e') :
    (e.out.intr = true → e'.out.intr = true ∨ ∃ res, e'.call = some (.returned res)) ∧
      ∀ res, e.call = some (.returned res) → e'.call = some (.returned res) := by
  simp only [perform, Option.bind_eq_bind, Option.bind_eq_some_iff] at hp
  obtain ⟨call, hcall, ⟨call', rl, out⟩, hadv, heq⟩ := hp
  cases heq
  -- a read that does not return interrupted keeps the flag
  have hread : ∀ {dst : Nat} {st : ReadState} {p : BufferedPipe}, e.out.Reads dst st p →
      e.out.intr = true → p.intr = true ∨ ∃ res, NextOut.ofRead dst st = .returned res := by
    intro dst st p hr hi
    by_cases hst : st = .returned .interrupted
    · exact .inr ⟨_, by rw [hst]; rfl⟩
    · exact .inl ((hr.intr hst).trans hi)
  cases call with
  | entering dst =>
    cases hadv
    refine ⟨fun hi => (hread (e.out.enter_reads dst) hi).imp id ?_,
      fun res hres => absurd (hcall.symm.trans hres) (by simp)⟩
    rintro ⟨res, hres⟩
    exact ⟨res, congrArg some hres⟩
  | reading dst wait =>
    cases hadv
    refine ⟨fun hi => (hread (e.out.resume_reads dst _) hi).imp id ?_,
      fun res hres => absurd (hcall.symm.trans hres) (by simp)⟩
    rintro ⟨res, hres⟩
    exact ⟨res, congrArg some hres⟩
  | taken bs =>
    cases hadv
    exact ⟨fun _ => .inr ⟨_, rfl⟩, fun res hres => absurd (hcall.symm.trans hres) (by simp)⟩
  | returned res => cases hadv

namespace Serving

/-- Whose kick a step of the attachment protocol invokes. -/
def kickTarget (o : Ownership) : AttachEvent → Option Nat
  | .kick h =>
    match (o.handler h).phase with
    | .kicking old _ => some old
    | _ => none
  | .resumeKick r =>
    match o.resume r with
    | .kicking (old :: _) => some old
    | _ => none
  | _ => none

section
variable (mode : Nat → Mode)

/-- Replace one handler's loop. -/
def setPump (s : Serving) (h : Nat) (p : Pump) : Serving :=
  { s with pump := Function.update s.pump h p }

/-- Move one handler's loop. -/
def goto (s : Serving) (h : Nat) (pc : Pc) : Serving := s.setPump h { s.pump h with pc := pc }

/-- The `kick` functions that the handlers pass to `attach`. -/
def kick (s : Serving) (h : Nat) : Serving :=
  match mode h with
  | .upload => s
  | .stream =>
    { s.setPump h { s.pump h with kicked := true } with
      ep := { s.ep with out := s.ep.out.interrupt } }
  | .batch | .webSocket =>
    { s.setPump h { s.pump h with kicked := true, ctxDone := true } with
      ep := { s.ep with out := s.ep.out.interrupt } }

/-- A handler may start the step: `attach` asks for the kind of its mode, and a handler that has
attached detaches after its loop has returned. -/
def permits (s : Serving) : AttachEvent → Bool
  | .attach h kind => kind == (mode h).kind
  | .detach h =>
    (s.own.handler h).phase != .attached || mode h == .upload || (s.pump h).pc == .returned
  | _ => true

/-- What a handler does with what `nextOut` returned. -/
def reaction (s : Serving) (h : Nat) (res : NextResult) : Pc :=
  match mode h with
  | .batch | .upload => .returned
  | .webSocket =>
    if res.err = some .eof then .returned
    else if res.err = some .pipeInterrupted then
      if (s.pump h).ctxDone then .returned
      else if s.own.att.isCurrent h then .acking [] true
      else .returned
    else .acking res.bytes false
  | .stream =>
    if res.err = some .eof then .returned
    else if res.err = some .pipeInterrupted then
      if s.own.att.isCurrent h then .acking [] true else .returned
    else .acking res.bytes false

/-- A handler leaves, or writes what it was given, or was interrupted with its own state to check:
a WebSocket only while its context lives, a batch poll never. -/
theorem reaction_cases (s : Serving) (h : Nat) (res : NextResult) :
    s.reaction mode h res = .returned ∨ s.reaction mode h res = .acking res.bytes false ∨
      (s.reaction mode h res = .acking [] true ∧
        (mode h = .stream ∨ (mode h = .webSocket ∧ (s.pump h).ctxDone = false))) := by
  unfold reaction
  cases hm : mode h with
  | batch => exact .inl rfl
  | upload => exact .inl rfl
  | stream =>
    dsimp only
    by_cases heof : res.err = some .eof
    · exact .inl (if_pos heof)
    · rw [if_neg heof]
      by_cases hintr : res.err = some .pipeInterrupted
      · rw [if_pos hintr]
        cases s.own.att.isCurrent h with
        | true => exact .inr (.inr ⟨rfl, .inl rfl⟩)
        | false => exact .inl rfl
      · exact .inr (.inl (if_neg hintr))
  | webSocket =>
    dsimp only
    by_cases heof : res.err = some .eof
    · exact .inl (if_pos heof)
    · rw [if_neg heof]
      by_cases hintr : res.err = some .pipeInterrupted
      · rw [if_pos hintr]
        cases hctx : (s.pump h).ctxDone with
        | true => exact .inl rfl
        | false =>
          cases s.own.att.isCurrent h with
          | true => exact .inr (.inr ⟨rfl, .inr ⟨rfl, rfl⟩⟩)
          | false => exact .inl rfl
      · exact .inr (.inl (if_neg hintr))

/-- Where a loop goes on after its writes. -/
def afterWrites (h : Nat) : Pc := if mode h = .stream then .ending else .calling

/-- One step. -/
def step (s : Serving) : ServeEvent → Option Serving
  | .own ev =>
    if s.permits mode ev then
      (s.own.step ev).map fun o =>
        match kickTarget s.own ev with
        | some h => { s.kick mode h with own := o }
        | none => { s with own := o }
    else none
  | .start h =>
    if (s.own.handler h).phase = .attached ∧ (s.pump h).pc = .idle then
      match mode h with
      | .upload => none
      | .batch => some (s.goto h .admitting)
      | .stream => some { s.goto h .top with ep := { s.ep with rl := s.ep.rl.resetAck } }
      | .webSocket =>
        if s.own.att.isCurrent h then
          some { s.goto h .calling with ep := { s.ep with rl := s.ep.rl.resetAck } }
        else some (s.goto h .returned)
    else none
  | .quit h =>
    if (s.own.handler h).phase = .attached ∧ (s.pump h).pc = .idle then some (s.goto h .returned)
    else none
  | .ackRequest h n =>
    if (s.pump h).pc = .admitting then
      if (s.pump h).ctxDone then some (s.goto h .returned)
      else (s.ep.rl.ack n).map fun (err, rl) =>
        { s.goto h (if err = none then .rewinding else .returned) with ep := { s.ep with rl := rl } }
    else none
  | .rewind h =>
    if (s.pump h).pc = .rewinding then
      some { s.goto h .calling with ep := { s.ep with rl := s.ep.rl.rewindToAcked } }
    else none
  | .checkContext h =>
    if (s.pump h).pc = .top then
      some (s.goto h (if (s.pump h).ctxDone then .returned else .calling))
    else none
  | .call h dst =>
    if (s.pump h).pc = .calling then
      (s.ep.perform (.nextOut dst)).map fun ep => { s.goto h .inNext with ep := ep }
    else none
  | .advance h fired =>
    if (s.pump h).pc = .inNext then
      (s.ep.perform (.advance fired)).map fun ep => { s with ep := ep }
    else none
  | .receive h =>
    if (s.pump h).pc = .inNext then
      s.ep.collect.map fun (res, ep) =>
        { s.setPump h { s.pump h with
            pc := .got res
            returns := if (s.pump h).kicked then (s.pump h).returns + 1 else 0 } with ep := ep }
    else none
  | .react h =>
    match (s.pump h).pc with
    | .got res => some (s.goto h (s.reaction mode h res))
    | _ => none
  | .takeAck h =>
    match (s.pump h).pc with
    | .acking n intr =>
      let (ack, rl) := s.ep.rl.takeAck
      some { s.goto h (if ack = none then .writing n intr else .writingAck n intr) with
        ep := { s.ep with rl := rl } }
    | _ => none
  | .write h ok =>
    match (s.pump h).pc with
    | .writingAck n intr =>
      some (s.goto h (if ok ∧ (s.pump h).kicked = false then .writing n intr else .returned))
    | .writing n intr =>
      some (s.goto h (if n = [] ∧ intr = true then afterWrites mode h
        else if ok ∧ (s.pump h).kicked = false then afterWrites mode h else .returned))
    | _ => none
  | .checkDeadline h =>
    if (s.pump h).pc = .ending then
      some (s.goto h (if (s.pump h).expired then .returned else .top))
    else none
  | .cancel h => some (s.setPump h { s.pump h with ctxDone := true })
  | .expire h => some (s.setPump h { s.pump h with expired := true })
  | .env op =>
    if op.fromOutside then (s.ep.perform op).map fun ep => { s with ep := ep } else none

/-- A new resumable session whose handler `h` has the mode `mode h`. -/
def machine (maxReplay : Int) (eager : Bool) : Machine Serving ServeEvent where
  init := { ep := .new maxReplay eager }
  step := step mode

/-! ## What a step does -/

/-- **A turn of the loop of `h`** outside `nextOut`: where it goes, and the layer it leaves. Of the
two turns at the entrance only where they come from is said: no proof reads more. -/
inductive Turn (s : Serving) (h : Nat) : ServeEvent → Pc → Reliable → Prop
  /-- The loop begins, or the handler finds at once that it has to leave. -/
  | start {pc : Pc} {rl : Reliable} (hatt : (s.own.handler h).phase = .attached)
      (hp : (s.pump h).pc = .idle) (hm : mode h ≠ .upload) : Turn s h (.start h) pc rl
  | quit (hatt : (s.own.handler h).phase = .attached) (hp : (s.pump h).pc = .idle) :
      Turn s h (.quit h) .returned s.ep.rl
  /-- A batch poll reads the ack of its request. -/
  | ackRequest {n : Nat} {pc : Pc} {rl : Reliable} (hp : (s.pump h).pc = .admitting) :
      Turn s h (.ackRequest h n) pc rl
  | rewind (hp : (s.pump h).pc = .rewinding) :
      Turn s h (.rewind h) .calling s.ep.rl.rewindToAcked
  | checkContext (hp : (s.pump h).pc = .top) :
      Turn s h (.checkContext h) (if (s.pump h).ctxDone then .returned else .calling) s.ep.rl
  | react {res : NextResult} (hp : (s.pump h).pc = .got res) :
      Turn s h (.react h) (s.reaction mode h res) s.ep.rl
  | takeAck {n : Bytes} {intr : Bool} (hp : (s.pump h).pc = .acking n intr) :
      Turn s h (.takeAck h)
        (if s.ep.rl.takeAck.1 = none then .writing n intr else .writingAck n intr)
        s.ep.rl.takeAck.2
  | writeAck {n : Bytes} {intr : Bool} (ok : Bool) (hp : (s.pump h).pc = .writingAck n intr) :
      Turn s h (.write h ok)
        (if ok ∧ (s.pump h).kicked = false then .writing n intr else .returned) s.ep.rl
  | write {n : Bytes} {intr : Bool} (ok : Bool) (hp : (s.pump h).pc = .writing n intr) :
      Turn s h (.write h ok)
        (if n = [] ∧ intr = true then afterWrites mode h
          else if ok ∧ (s.pump h).kicked = false then afterWrites mode h else .returned) s.ep.rl
  | checkDeadline (hp : (s.pump h).pc = .ending) :
      Turn s h (.checkDeadline h) (if (s.pump h).expired then .returned else .top) s.ep.rl

/-- **What a step does**: the attachment protocol moves and may kick, a loop takes a turn, calls
`nextOut` or goes on in it, a flag is set, or something outside acts on the endpoint. -/
inductive Steps (s : Serving) : ServeEvent → Serving → Prop
  | own {ev : AttachEvent} {o : Ownership} (hpermits : s.permits mode ev = true)
      (ho : s.own.step ev = some o) :
      Steps s (.own ev) (match kickTarget s.own ev with
        | some h => { s.kick mode h with own := o }
        | none => { s with own := o })
  | turn {h : Nat} {ev : ServeEvent} {pc : Pc} {rl : Reliable} (ht : Turn mode s h ev pc rl) :
      Steps s ev { s.goto h pc with ep := { s.ep with rl := rl } }
  | call {h dst : Nat} {ep : Endpoint} (hp : (s.pump h).pc = .calling)
      (hep : s.ep.perform (.nextOut dst) = some ep) :
      Steps s (.call h dst) { s.goto h .inNext with ep := ep }
  | advance {h : Nat} {fired : Bool} {ep : Endpoint} (hp : (s.pump h).pc = .inNext)
      (hep : s.ep.perform (.advance fired) = some ep) :
      Steps s (.advance h fired) { s with ep := ep }
  | receive {h : Nat} {res : NextResult} {ep : Endpoint} (hp : (s.pump h).pc = .inNext)
      (hep : s.ep.collect = some (res, ep)) :
      Steps s (.receive h) { s.setPump h { s.pump h with
        pc := .got res
        returns := if (s.pump h).kicked then (s.pump h).returns + 1 else 0 } with ep := ep }
  | cancel (h : Nat) : Steps s (.cancel h) (s.setPump h { s.pump h with ctxDone := true })
  | expire (h : Nat) : Steps s (.expire h) (s.setPump h { s.pump h with expired := true })
  | env {op : EndOp} {ep : Endpoint} (hop : op.fromOutside = true)
      (hep : s.ep.perform op = some ep) : Steps s (.env op) { s with ep := ep }

theorem steps_of_step {s s' : Serving} {ev : ServeEvent} (hs : s.step mode ev = some s') :
    Steps mode s ev s' := by
  cases ev with
  | own ev =>
    simp only [step] at hs
    split at hs
    next hpermits =>
      obtain ⟨o, ho, rfl⟩ := Option.map_eq_some_iff.mp hs
      exact .own hpermits ho
    next => cases hs
  | start h =>
    simp only [step] at hs
    split at hs
    next hc =>
      split at hs
      next => cases hs
      next hm => cases hs; exact .turn (.start hc.1 hc.2 (by rw [hm]; simp))
      next hm => cases hs; exact .turn (.start hc.1 hc.2 (by rw [hm]; simp))
      next hm => split at hs <;> cases hs <;> exact .turn (.start hc.1 hc.2 (by rw [hm]; simp))
    next => cases hs
  | quit h =>
    simp only [step] at hs
    split at hs
    next hc => cases hs; exact .turn (.quit hc.1 hc.2)
    next => cases hs
  | ackRequest h n =>
    simp only [step] at hs
    split at hs
    next hc =>
      split at hs
      next => cases hs; exact .turn (.ackRequest hc)
      next =>
        obtain ⟨⟨err, rl⟩, _, rfl⟩ := Option.map_eq_some_iff.mp hs
        exact .turn (.ackRequest hc)
    next => cases hs
  | rewind h =>
    simp only [step] at hs
    split at hs
    next hc => cases hs; exact .turn (.rewind hc)
    next => cases hs
  | checkContext h =>
    simp only [step] at hs
    split at hs
    next hc => cases hs; exact .turn (.checkContext hc)
    next => cases hs
  | call h dst =>
    simp only [step] at hs
    split at hs
    next hc =>
      obtain ⟨ep, hep, rfl⟩ := Option.map_eq_some_iff.mp hs
      exact .call hc hep
    next => cases hs
  | advance h fired =>
    simp only [step] at hs
    split at hs
    next hc =>
      obtain ⟨ep, hep, rfl⟩ := Option.map_eq_some_iff.mp hs
      exact .advance hc hep
    next => cases hs
  | receive h =>
    simp only [step] at hs
    split at hs
    next hc =>
      obtain ⟨⟨res, ep⟩, hep, rfl⟩ := Option.map_eq_some_iff.mp hs
      exact .receive hc hep
    next => cases hs
  | react h =>
    simp only [step] at hs
    split at hs
    next hc => cases hs; exact .turn (.react hc)
    next => cases hs
  | takeAck h =>
    simp only [step] at hs
    split at hs
    next hc => cases hs; exact .turn (.takeAck hc)
    next => cases hs
  | write h ok =>
    simp only [step] at hs
    split at hs
    next hc => cases hs; exact .turn (.writeAck ok hc)
    next hc => cases hs; exact .turn (.write ok hc)
    next => cases hs
  | checkDeadline h =>
    simp only [step] at hs
    split at hs
    next hc => cases hs; exact .turn (.checkDeadline hc)
    next => cases hs
  | cancel h => cases hs; exact .cancel h
  | expire h => cases hs; exact .expire h
  | env op =>
    simp only [step] at hs
    split at hs
    next hop =>
      obtain ⟨ep, hep, rfl⟩ := Option.map_eq_some_iff.mp hs
      exact .env hop hep
    next => cases hs

/-! ## Letting go -/

/-- Where a handler may be after `nextOut` has returned to it past its kick: on the way out. -/
def LeavePc (m : Mode) (p : Pump) : Prop :=
  match p.pc with
  | .idle | .admitting | .rewinding | .calling | .inNext => False
  | .top => p.ctxDone = true
  | .acking _ intr => intr = true → m = .stream
  | .writing n intr => n = [] ∧ intr = true →
      m = .stream ∧ (p.expired = true ∨ p.ctxDone = true)
  | .ending => p.expired = true ∨ p.ctxDone = true
  | .got _ | .writingAck _ _ | .returned => True

/-- **A handler that lets go**: past its kick `nextOut` returns to it at most once, and from then
on it is on the way out. -/
structure LetsGo (m : Mode) (p : Pump) : Prop where
  cancelled : p.kicked = true → m ≠ .stream → p.ctxDone = true
  counted : 0 < p.returns → p.kicked = true
  once : p.returns ≤ 1
  leaves : p.returns = 1 → LeavePc m p

/-- The steps that let a kicked owner go: a stream poll that wakes up interrupted after its kick
finds an ack due, or its deadline passed, or its request's context done. -/
def AckDueOrOver (s : Serving) : ServeEvent → Prop
  | .takeAck h => (s.pump h).returns = 1 → (s.pump h).pc = .acking [] true →
      s.ep.rl.recvOffset ≠ s.ep.rl.lastAck ∨ (s.pump h).expired = true ∨ (s.pump h).ctxDone = true
  | _ => True

instance (s : Serving) : ∀ ev : ServeEvent, Decidable (AckDueOrOver s ev)
  | .takeAck h => inferInstanceAs (Decidable ((s.pump h).returns = 1 →
      (s.pump h).pc = .acking [] true → s.ep.rl.recvOffset ≠ s.ep.rl.lastAck ∨
        (s.pump h).expired = true ∨ (s.pump h).ctxDone = true))
  | .own _ | .start _ | .quit _ | .ackRequest _ _ | .rewind _ | .checkContext _ | .call _ _
  | .advance _ _ | .receive _ | .react _ | .write _ _ | .checkDeadline _ | .cancel _ | .expire _
  | .env _ => inferInstanceAs (Decidable True)

namespace LetsGo

variable {m : Mode} {p : Pump}

theorem fresh (m : Mode) : LetsGo m {} := ⟨nofun, nofun, Nat.zero_le _, nofun⟩

/-- The loop moves on. -/
theorem goto (h : LetsGo m p) (pc : Pc) (hpc : p.returns = 1 → LeavePc m { p with pc := pc }) :
    LetsGo m { p with pc := pc } :=
  ⟨h.cancelled, h.counted, h.once, hpc⟩

/-- A handler that `nextOut` has not returned to since its kick may move anywhere. -/
theorem goto_of_ne (h : LetsGo m p) (pc : Pc) (hne : p.returns ≠ 1) :
    LetsGo m { p with pc := pc } :=
  h.goto pc fun h1 => absurd h1 hne

/-- A handler about to call `nextOut`, or in it, has not seen it return since its kick. -/
theorem returns_ne (h : LetsGo m p) (hpc : ¬ LeavePc m p) : p.returns ≠ 1 :=
  fun h1 => hpc (h.leaves h1)

theorem kick_stream (h : LetsGo .stream p) : LetsGo .stream { p with kicked := true } :=
  ⟨fun _ hne => absurd rfl hne, fun _ => rfl, h.once, h.leaves⟩

/-- A context that is done only helps. -/
theorem cancel (h : LetsGo m p) : LetsGo m { p with ctxDone := true } := by
  refine ⟨fun _ _ => rfl, h.counted, h.once, fun h1 => ?_⟩
  have hl := h.leaves h1
  rcases p with ⟨pc, _, _, _, _⟩
  cases pc with
  | top => exact rfl
  | writing n intr => exact fun hq => ⟨(hl hq).1, .inr rfl⟩
  | ending => exact .inr rfl
  | _ => exact hl

/-- So does a deadline that has passed. -/
theorem expire (h : LetsGo m p) : LetsGo m { p with expired := true } := by
  refine ⟨h.cancelled, h.counted, h.once, fun h1 => ?_⟩
  have hl := h.leaves h1
  rcases p with ⟨pc, _, _, _, _⟩
  cases pc with
  | writing n intr => exact fun hq => ⟨(hl hq).1, .inl rfl⟩
  | ending => exact .inl rfl
  | _ => exact hl

theorem kick_cancel (h : LetsGo m p) : LetsGo m { p with kicked := true, ctxDone := true } :=
  ⟨fun _ _ => rfl, fun _ => rfl, h.once, h.cancel.leaves⟩

/-- `nextOut` returns: at most the first time since the kick. -/
theorem receive (h : LetsGo m p) (hpc : p.pc = .inNext) (res : NextResult) :
    LetsGo m { p with
      pc := .got res
      returns := if p.kicked then p.returns + 1 else 0 } := by
  have hne : p.returns ≠ 1 := h.returns_ne (by rw [LeavePc, hpc]; exact id)
  have honce := h.once
  refine ⟨h.cancelled, ?_, ?_, fun _ => trivial⟩
  · intro hpos
    dsimp only at hpos ⊢
    split at hpos
    next hk => exact hk
    next => cases hpos
  · dsimp only
    split <;> omega

/-- What it does with the result: an interrupted WebSocket sees its context done and leaves. -/
theorem react {mode : Nat → Mode} {s : Serving} {x : Nat} (h : LetsGo (mode x) (s.pump x))
    (res : NextResult) :
    LetsGo (mode x) { s.pump x with pc := s.reaction mode x res } := by
  refine h.goto _ fun h1 => ?_
  have hdone := h.cancelled (h.counted (by omega))
  rcases s.reaction_cases mode x res with heq | heq | ⟨heq, hm⟩
  · rw [heq]
    trivial
  · rw [heq]
    exact nofun
  · rw [heq]
    exact fun _ => hm.resolve_right fun hw => by
      rw [hdone (by rw [hw.1]; nofun)] at hw
      exact absurd hw.2 nofun

/-- The ack: with none due an interrupted stream poll writes nothing, so something else must end
it. -/
theorem takeAck (h : LetsGo m p) {n : Bytes} {intr : Bool} (hpc : p.pc = .acking n intr)
    {ack : Option Nat}
    (hok : p.returns = 1 → n = [] → intr = true → ack = none →
      p.expired = true ∨ p.ctxDone = true) :
    LetsGo m { p with pc := if ack = none then .writing n intr else .writingAck n intr } := by
  refine h.goto _ fun h1 => ?_
  have hl := h.leaves h1
  rw [LeavePc, hpc] at hl
  split
  next hnone => exact fun hq => ⟨hl hq.2, hok h1 hq.1 hq.2 hnone⟩
  next => trivial

/-- A write past the kick fails, and a stream poll with nothing to write goes on to its
deadline. -/
theorem write {mode : Nat → Mode} {x : Nat} (h : LetsGo (mode x) p) {n : Bytes} {intr : Bool}
    (hpc : p.pc = .writing n intr) (ok : Bool) :
    LetsGo (mode x) { p with pc := if n = [] ∧ intr = true then afterWrites mode x
      else if ok ∧ p.kicked = false then afterWrites mode x else .returned } := by
  refine h.goto _ fun h1 => ?_
  have hl := h.leaves h1
  have hkicked := h.counted (by omega)
  rw [LeavePc, hpc] at hl
  split
  next hq =>
    obtain ⟨hm, hover⟩ := hl hq
    rw [afterWrites, if_pos hm]
    exact hover
  next =>
    rw [if_neg (by rw [hkicked]; nofun)]
    trivial

theorem writeAck (h : LetsGo m p) (n : Bytes) (intr ok : Bool) :
    LetsGo m { p with pc := if ok ∧ p.kicked = false then .writing n intr else .returned } := by
  refine h.goto _ fun h1 => ?_
  rw [if_neg (by rw [h.counted (by omega)]; nofun)]
  trivial

theorem checkDeadline (h : LetsGo m p) (hpc : p.pc = .ending) :
    LetsGo m { p with pc := if p.expired then .returned else .top } := by
  refine h.goto _ fun h1 => ?_
  have hl := h.leaves h1
  rw [LeavePc, hpc] at hl
  split
  next => trivial
  next hne => exact hl.resolve_left hne

theorem checkContext (h : LetsGo m p) (hpc : p.pc = .top) :
    LetsGo m { p with pc := if p.ctxDone then .returned else .calling } := by
  refine h.goto _ fun h1 => ?_
  have hl := h.leaves h1
  rw [LeavePc, hpc] at hl
  rw [if_pos hl]
  trivial

end LetsGo

variable {mode}

/-- All handlers let go if the one that moves does. -/
theorem letsGo_set {s : Serving} (hs : ∀ x, LetsGo (mode x) (s.pump x)) (h : Nat) {p : Pump}
    (hp : LetsGo (mode h) p) : ∀ x, LetsGo (mode x) ((s.setPump h p).pump x) :=
  (Function.forall_update_iff s.pump fun x p => LetsGo (mode x) p).mpr ⟨hp, fun x _ => hs x⟩

theorem letsGo_kick {s : Serving} (hs : ∀ x, LetsGo (mode x) (s.pump x)) (h : Nat) :
    ∀ x, LetsGo (mode x) ((s.kick mode h).pump x) := by
  have hh := hs h
  unfold kick
  cases hm : mode h with
  | upload => exact hs
  | stream =>
    rw [hm] at hh
    exact letsGo_set hs h (hm ▸ hh.kick_stream)
  | batch => exact letsGo_set hs h hh.kick_cancel
  | webSocket => exact letsGo_set hs h hh.kick_cancel

/-- **Every step keeps every handler letting go**, as long as a kicked stream poll that wakes
interrupted has an ack due or is over. -/
theorem letsGo_step {s s' : Serving} {ev : ServeEvent} (hs : ∀ x, LetsGo (mode x) (s.pump x))
    (hok : AckDueOrOver s ev) (hstep : s.step mode ev = some s') :
    ∀ x, LetsGo (mode x) (s'.pump x) := by
  -- a handler on its way to `nextOut` is not on its way out
  have hfree : ∀ {h : Nat} (pc : Pc), ¬ LeavePc (mode h) (s.pump h) →
      LetsGo (mode h) { s.pump h with pc := pc } :=
    fun pc hne => (hs _).goto_of_ne pc ((hs _).returns_ne hne)
  cases steps_of_step mode hstep with
  | own hpermits ho =>
    split
    next h _ => exact letsGo_kick hs h
    next => exact hs
  | @turn h _ _ _ ht =>
    refine letsGo_set hs h ?_
    cases ht with
    | start _ hp _ => exact hfree _ (by rw [LeavePc, hp]; exact id)
    | quit _ hp => exact hfree _ (by rw [LeavePc, hp]; exact id)
    | ackRequest hp => exact hfree _ (by rw [LeavePc, hp]; exact id)
    | rewind hp => exact hfree _ (by rw [LeavePc, hp]; exact id)
    | checkContext hp => exact (hs h).checkContext hp
    | @react res _ => exact (hs h).react res
    | takeAck hp =>
      refine (hs h).takeAck hp ?_
      rintro h1 rfl rfl hnone
      refine (hok h1 hp).resolve_left (not_not.mpr ?_)
      -- no ack is due exactly when `recvOffset` was handed out already
      unfold Reliable.takeAck at hnone
      split at hnone
      next heq => exact heq
      next => cases hnone
    | @writeAck n intr ok _ => exact (hs h).writeAck n intr ok
    | write ok hp => exact (hs h).write hp ok
    | checkDeadline hp => exact (hs h).checkDeadline hp
  | call hp _ => exact letsGo_set hs _ (hfree _ (by rw [LeavePc, hp]; exact id))
  | advance _ _ => exact hs
  | receive hp _ => exact letsGo_set hs _ ((hs _).receive hp _)
  | cancel h => exact letsGo_set hs h (hs h).cancel
  | expire h => exact letsGo_set hs h (hs h).expire
  | env _ _ => exact hs

theorem letsGo_reach {maxReplay : Int} {eager : Bool} {s : Serving}
    (h : (machine mode maxReplay eager).Reach AckDueOrOver s) :
    ∀ x, LetsGo (mode x) (s.pump x) :=
  Machine.Reach.invariant (P := fun s : Serving => ∀ x, LetsGo (mode x) (s.pump x))
    (fun x => LetsGo.fresh (mode x)) (fun _ _ _ _ hs hok hstep => letsGo_step hs hok hstep) h

/-! ## What is pending

A kick leaves an interrupt in the pipe, and only the `nextOut` call of the handler that owns the
downstream direction can take it out again. -/

/-- `nextOut` has returned to the kicked handler `x` once more. -/
def Returns (s : Serving) (x : Nat) (p : Pump) : Prop :=
  (s.pump x).kicked = true → p.returns = (s.pump x).returns + 1

/-- What a step of a loop or of the environment leaves of the loop of `x`. -/
structure PumpMoves (mode : Nat → Mode) (s : Serving) (x : Nat) (p : Pump) : Prop where
  kicked : p.kicked = (s.pump x).kicked
  starts : p.pc ≠ .idle → (s.pump x).pc ≠ .idle ∨ (s.own.handler x).phase = .attached
  enters : p.pc.Active →
    (s.pump x).pc.Active ∨ ((s.own.handler x).phase = .attached ∧ mode x ≠ .upload)
  returns : p.returns = (s.pump x).returns ∨ s.Returns x p
  stays : (s.pump x).pc = .inNext → p.pc = .inNext ∨ s.Returns x p

/-- **What a step of a loop or of the environment does**: the attachments stay, and an interrupt
or a result is taken out of the endpoint only by a handler inside `nextOut`. -/
structure Moves (mode : Nat → Mode) (s s' : Serving) : Prop where
  own : s'.own = s.own
  pump : ∀ x, PumpMoves mode s x (s'.pump x)
  intr : s.ep.out.intr = true → s'.ep.out.intr = true ∨
    ∃ y res, (s.pump y).pc = .inNext ∧ s'.ep.call = some (.returned res)
  result : ∀ res, s.ep.call = some (.returned res) → s'.ep.call = some (.returned res) ∨
    ∃ y, (s.pump y).pc = .inNext ∧ s.Returns y (s'.pump y)

theorem PumpMoves.refl (mode : Nat → Mode) (s : Serving) (x : Nat) :
    PumpMoves mode s x (s.pump x) :=
  ⟨rfl, .inl, .inl, .inl rfl, .inl⟩

namespace Moves

variable {mode : Nat → Mode} {s : Serving}

/-- One loop moves, and the layer with it. -/
theorem setPump {h : Nat} {p : Pump} (hp : PumpMoves mode s h p) (rl : Reliable) :
    Moves mode s { s.setPump h p with ep := { s.ep with rl := rl } } where
  own := rfl
  pump := (Function.forall_update_iff s.pump (PumpMoves mode s)).mpr ⟨hp, fun x _ => .refl mode s x⟩
  intr := .inl
  result _ := .inl

/-- A loop that is not inside `nextOut` goes on. -/
theorem goto {h : Nat} (pc : Pc) (hout : (s.pump h).pc ≠ .inNext)
    (henter : (s.pump h).pc.Active ∨ ((s.own.handler h).phase = .attached ∧ mode h ≠ .upload))
    (rl : Reliable) : Moves mode s { s.goto h pc with ep := { s.ep with rl := rl } } :=
  setPump (p := { s.pump h with pc := pc })
    ⟨rfl, fun _ => henter.imp And.left And.left, fun _ => henter, .inl rfl,
      fun hin => absurd hin hout⟩ rl

/-- It returns before it was entered. -/
theorem quit {h : Nat} (hout : (s.pump h).pc ≠ .inNext)
    (hstart : (s.pump h).pc ≠ .idle ∨ (s.own.handler h).phase = .attached) :
    Moves mode s (s.goto h .returned) :=
  setPump (p := { s.pump h with pc := .returned })
    ⟨rfl, fun _ => hstart, fun hact => absurd rfl hact.2, .inl rfl,
      fun hin => absurd hin hout⟩ s.ep.rl

/-- Only the endpoint changes. -/
theorem endpoint {ep : Endpoint}
    (hintr : s.ep.out.intr = true → ep.out.intr = true ∨
      ∃ y res, (s.pump y).pc = .inNext ∧ ep.call = some (.returned res))
    (hresult : ∀ res, s.ep.call = some (.returned res) → ep.call = some (.returned res)) :
    Moves mode s { s with ep := ep } :=
  ⟨rfl, PumpMoves.refl mode s, hintr, fun res hres => .inl (hresult res hres)⟩

end Moves

/-- A turn of a loop. -/
theorem Turn.moves {s : Serving} {h : Nat} {ev : ServeEvent} {pc : Pc} {rl : Reliable}
    (ht : Turn mode s h ev pc rl) :
    Moves mode s { s.goto h pc with ep := { s.ep with rl := rl } } := by
  have running : ∀ {q : Pc}, (s.pump h).pc = q → q ≠ .inNext → q.Active →
      Moves mode s { s.goto h pc with ep := { s.ep with rl := rl } } :=
    fun hp hout hact => .goto _ (hp ▸ hout) (.inl (hp ▸ hact)) rl
  cases ht with
  | start hatt hp hm => exact .goto _ (by rw [hp]; simp) (.inr ⟨hatt, hm⟩) rl
  | quit hatt hp => exact .quit (by rw [hp]; simp) (.inr hatt)
  | ackRequest hp => exact running hp (by simp) ⟨by simp, by simp⟩
  | rewind hp => exact running hp (by simp) ⟨by simp, by simp⟩
  | checkContext hp => exact running hp (by simp) ⟨by simp, by simp⟩
  | react hp => exact running hp (by simp) ⟨by simp, by simp⟩
  | takeAck hp => exact running hp (by simp) ⟨by simp, by simp⟩
  | writeAck _ hp => exact running hp (by simp) ⟨by simp, by simp⟩
  | write _ hp => exact running hp (by simp) ⟨by simp, by simp⟩
  | checkDeadline hp => exact running hp (by simp) ⟨by simp, by simp⟩

/-- **Every step but one of the attachment protocol moves one loop.** -/
theorem moves_of_step {s s' : Serving} {ev : ServeEvent} (hown : ∀ a, ev ≠ .own a)
    (hstep : s.step mode ev = some s') : Moves mode s s' := by
  cases steps_of_step mode hstep with
  | @own a _ _ _ => exact absurd rfl (hown a)
  | turn ht => exact ht.moves
  | call hp hep =>
    have hm : Moves mode s (s.goto _ .inNext) :=
      .goto _ (by rw [hp]; simp) (.inl (by rw [hp]; exact ⟨by simp, by simp⟩)) s.ep.rl
    simp only [Endpoint.perform] at hep
    split at hep
    next hcall =>
      obtain ⟨⟨call, rl⟩, _, rfl⟩ := Option.map_eq_some_iff.mp hep
      exact ⟨rfl, hm.pump, .inl, fun res hres => absurd (hcall.symm.trans hres) (by simp)⟩
    next => cases hep
  | @advance h _ _ hp hep =>
    obtain ⟨hintr, hresult⟩ := Endpoint.advance_intr hep
    refine .endpoint (fun hi => ?_) hresult
    refine (hintr hi).imp id ?_
    rintro ⟨res, hres⟩
    exact ⟨h, res, hp, hres⟩
  | @receive h res _ hp hep =>
    obtain ⟨-, rfl⟩ := Endpoint.collected hep
    have hret : s.Returns h { s.pump h with
        pc := .got res
        returns := if (s.pump h).kicked then (s.pump h).returns + 1 else 0 } :=
      fun hk => if_pos hk
    refine ⟨rfl, ?_, .inl, fun _ _ => .inr ⟨h, hp, ?_⟩⟩
    · exact (Function.forall_update_iff s.pump (PumpMoves mode s)).mpr
        ⟨⟨rfl, fun _ => .inl (by rw [hp]; simp),
          fun _ => .inl (by rw [hp]; exact ⟨by simp, by simp⟩), .inr hret, fun _ => .inr hret⟩,
          fun x _ => .refl mode s x⟩
    · simpa only [setPump, Function.update_self] using hret
  | cancel h =>
    exact .setPump (p := { s.pump h with ctxDone := true })
      ⟨rfl, .inl, .inl, .inl rfl, .inl⟩ s.ep.rl
  | expire h =>
    exact .setPump (p := { s.pump h with expired := true })
      ⟨rfl, .inl, .inl, .inl rfl, .inl⟩ s.ep.rl
  | env hop hep =>
    obtain ⟨hintr, hcall⟩ := Endpoint.perform_fromOutside hop hep
    exact .endpoint (fun hi => .inl (hintr hi)) fun res hres => hcall.trans hres

/-- What a kick does: it leaves the loops where they are, marks its target and interrupts the
pipe. An upload has nothing to interrupt. -/
theorem kick_spec (mode : Nat → Mode) (s : Serving) (h : Nat) :
    (∀ x, ((s.kick mode h).pump x).pc = (s.pump x).pc ∧
      ((s.kick mode h).pump x).returns = (s.pump x).returns ∧
      (((s.kick mode h).pump x).kicked = true → (s.pump x).kicked = true ∨ x = h)) ∧
    (s.kick mode h = s ∨ (s.kick mode h).ep.out.intr = true) := by
  have hset : ∀ p : Pump, p.pc = (s.pump h).pc → p.returns = (s.pump h).returns →
      ∀ x, ((s.setPump h p).pump x).pc = (s.pump x).pc ∧
        ((s.setPump h p).pump x).returns = (s.pump x).returns ∧
        (((s.setPump h p).pump x).kicked = true → (s.pump x).kicked = true ∨ x = h) := by
    intro p hpc hret
    exact (Function.forall_update_iff s.pump fun x q => q.pc = (s.pump x).pc ∧
      q.returns = (s.pump x).returns ∧ (q.kicked = true → (s.pump x).kicked = true ∨ x = h)).mpr
        ⟨⟨hpc, hret, fun _ => .inr rfl⟩, fun x _ => ⟨rfl, rfl, .inl⟩⟩
  unfold kick
  cases mode h with
  | upload => exact ⟨fun x => ⟨rfl, rfl, .inl⟩, .inl rfl⟩
  | stream => exact ⟨hset _ rfl rfl, .inr rfl⟩
  | batch => exact ⟨hset _ rfl rfl, .inr rfl⟩
  | webSocket => exact ⟨hset _ rfl rfl, .inr rfl⟩

theorem kickTarget_claimed {o : Ownership} (hk : o.Kickable) {ev : AttachEvent} {t : Nat}
    (ht : kickTarget o ev = some t) : (o.handler t).Claimed := by
  unfold kickTarget at ht
  split at ht
  next h =>
    split at ht
    next old ks hp => exact hk.byHandler h t (by rw [hp]; exact ht)
    next => cases ht
  next r =>
    split at ht
    next old olds hp =>
      refine hk.byResume r t ?_
      rw [hp]
      exact Option.some.inj ht ▸ List.mem_cons_self
    next => cases ht
  next => cases ht

/-- **Who serves and what is pending.** A running loop is that of an attached handler, a kicked
handler has claimed something, and until `nextOut` returns to a kicked owner of the downstream
direction, either the interrupt is still in the pipe or its call has just returned. -/
structure Seated (mode : Nat → Mode) (s : Serving) : Prop where
  inv : s.own.Inv
  kickable : s.own.Kickable
  kind : ∀ x, (s.own.handler x).phase ≠ .new → (s.own.handler x).kind = (mode x).kind
  served : ∀ x, (s.pump x).pc ≠ .idle → (s.own.handler x).Served
  active : ∀ x, (s.pump x).pc.Active → (s.own.handler x).phase = .attached ∧ mode x ≠ .upload
  claimed : ∀ x, (s.pump x).kicked = true → (s.own.handler x).Claimed
  pending : ∀ x, (s.pump x).kicked = true → (s.pump x).returns = 0 →
    (s.own.handler x).Holds .down → s.ep.out.intr = true ∨
      ((s.pump x).pc = .inNext ∧ ∃ res, s.ep.call = some (.returned res))

namespace Seated

variable {s s' : Serving}

theorem init (mode : Nat → Mode) (ep : Endpoint) : Seated mode { ep := ep } where
  inv := Ownership.Inv.init
  kickable := ⟨nofun, nofun⟩
  kind _ h := absurd rfl h
  served _ h := absurd rfl h
  active _ h := absurd rfl h.1
  claimed := nofun
  pending := nofun

/-- A handler inside `nextOut` owns the downstream direction. -/
theorem owner_of_active (h : Seated mode s) {y : Nat} (hact : (s.pump y).pc.Active) :
    s.own.att.slot .down = some y := by
  obtain ⟨hatt, hmode⟩ := h.active y hact
  refine h.inv.attached_owns hatt ?_
  rw [h.kind y (by rw [hatt]; nofun)]
  cases hm : mode y with
  | upload => exact absurd hm hmode
  | stream => exact List.mem_cons_self
  | batch => exact List.mem_cons_self
  | webSocket => exact List.mem_cons_self

/-- So nobody else holds that direction. -/
theorem eq_of_inNext (h : Seated mode s) {x y : Nat} (hx : (s.own.handler x).Holds .down)
    (hy : (s.pump y).pc = .inNext) : y = x := by
  have hslot := h.owner_of_active (y := y) (by rw [hy]; exact ⟨nofun, nofun⟩)
  rw [(h.inv.slots .down x).mpr hx] at hslot
  exact (Option.some.inj hslot).symm

/-- A step of the attachment protocol keeps it. -/
theorem own_step (h : Seated mode s) {ev : AttachEvent} {o : Ownership}
    (hpermits : s.permits mode ev = true) (hs : s.own.step ev = some o) :
    Seated mode (match kickTarget s.own ev with
      | some t => { s.kick mode t with own := o }
      | none => { s with own := o }) := by
  have hkind : ∀ x, (o.handler x).phase ≠ .new → (o.handler x).kind = (mode x).kind := by
    intro x hx
    rcases Ownership.kind_step hs x hx with ⟨hx', heq⟩ | hev
    · exact heq.trans (h.kind x hx')
    · rw [hev] at hpermits
      exact eq_of_beq hpermits
  have hactive : ∀ x, (s.pump x).pc.Active → (o.handler x).phase = .attached ∧ mode x ≠ .upload := by
    intro x hx
    obtain ⟨hatt, hmode⟩ := h.active x hx
    rw [Ownership.attached_step hatt ?_ hs]
    · exact ⟨hatt, hmode⟩
    · rintro rfl
      simp only [permits, Bool.or_eq_true, bne_iff_ne, beq_iff_eq] at hpermits
      rcases hpermits with (hne | hup) | hret
      · exact hne hatt
      · exact hmode hup
      · exact hx.2 hret
  have hclaimed : ∀ x, (s.own.handler x).Claimed → (o.handler x).Claimed := fun x hx =>
    (h.inv.claimed_step hx hs).1
  have hpending : ∀ x, (s.pump x).kicked = true → (s.pump x).returns = 0 →
      (o.handler x).Holds .down → s.ep.out.intr = true ∨
        ((s.pump x).pc = .inNext ∧ ∃ res, s.ep.call = some (.returned res)) := fun x hk h0 hx =>
    h.pending x hk h0 ((h.inv.claimed_step (h.claimed x hk) hs).2 hx)
  split
  next t ht =>
    obtain ⟨hpump, hintr⟩ := kick_spec mode s t
    refine ⟨h.inv.step hs, h.kickable.step h.inv hs, hkind, fun x hx => ?_, fun x hx => ?_,
      fun x hx => ?_, fun x hk h0 hx => ?_⟩
    · exact Ownership.served_step (h.served x ((hpump x).1 ▸ hx)) hs
    · exact hactive x ((hpump x).1 ▸ hx)
    · rcases (hpump x).2.2 hx with hk | rfl
      · exact hclaimed x (h.claimed x hk)
      · exact hclaimed x (kickTarget_claimed h.kickable ht)
    · rcases hintr with heq | hintr
      · rw [heq] at hk h0 ⊢
        exact hpending x hk h0 hx
      · exact .inl hintr
  next =>
    exact ⟨h.inv.step hs, h.kickable.step h.inv hs, hkind,
      fun x hx => Ownership.served_step (h.served x hx) hs, hactive,
      fun x hk => hclaimed x (h.claimed x hk), hpending⟩

/-- So does a step of a loop. -/
theorem moves (h : Seated mode s) (hm : Moves mode s s') : Seated mode s' where
  inv := hm.own ▸ h.inv
  kickable := hm.own ▸ h.kickable
  kind := hm.own ▸ h.kind
  served x hx := by
    rw [hm.own]
    exact ((hm.pump x).starts hx).elim (h.served x) .inl
  active x hx := by
    rw [hm.own]
    exact ((hm.pump x).enters hx).elim (h.active x) id
  claimed x hk := by
    rw [hm.own]
    exact h.claimed x ((hm.pump x).kicked ▸ hk)
  pending x hk h0 hx := by
    rw [hm.own] at hx
    have hk' : (s.pump x).kicked = true := (hm.pump x).kicked ▸ hk
    have hnot : ¬ s.Returns x (s'.pump x) := fun hr => by
      have hplus := hr hk'
      omega
    have hstays : (s.pump x).pc = .inNext → (s'.pump x).pc = .inNext := fun hin =>
      ((hm.pump x).stays hin).resolve_right hnot
    have h0' : (s.pump x).returns = 0 := by
      have hsame := (hm.pump x).returns.resolve_right hnot
      omega
    rcases h.pending x hk' h0' hx with hi | ⟨hin, res, hres⟩
    · refine (hm.intr hi).imp id fun ⟨y, res, hy, hres⟩ => ?_
      have heq := h.eq_of_inNext hx hy
      exact ⟨hstays (heq ▸ hy), res, hres⟩
    · refine .inr ⟨hstays hin, res, (hm.result res hres).resolve_right fun ⟨y, hy, hr⟩ => ?_⟩
      have heq := h.eq_of_inNext hx hy
      exact hnot (heq ▸ hr)

theorem step (h : Seated mode s) {ev : ServeEvent} (hs : s.step mode ev = some s') :
    Seated mode s' := by
  cases ev with
  | own ev =>
    simp only [Serving.step] at hs
    split at hs
    next hpermits =>
      obtain ⟨o, ho, rfl⟩ := Option.map_eq_some_iff.mp hs
      exact h.own_step hpermits ho
    next => cases hs
  | _ => exact h.moves (moves_of_step (by nofun) hs)

theorem reachable {maxReplay : Int} {eager : Bool}
    (h : (machine mode maxReplay eager).Reachable s) : Seated mode s :=
  Machine.Reach.invariant (P := Seated mode) (init mode _) (fun _ _ _ _ hs _ => hs.step) h

end Seated

end

end Serving

end Pollmux
