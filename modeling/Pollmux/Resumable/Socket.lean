import Pollmux.Client.Supervise
import Pollmux.Frame.Messages
import Pollmux.Server.LateResume

/-!
# A resumable session over WebSockets, loop by loop

Both ends of a resumable session whose transport is a WebSocket: `wsReadLoop`, `wsWriteLoop`,
`runLegs`, `resume` and `dialWS` at the client, `wsReadPump`, `wsWritePumpResumable`,
`WebSocketHandler` and `ResumeHandler` at the server. The two ends run the same two loops, up to
what their readers do with one frame, so there is one model of an end. What travels between them
are encoded messages, in order; a connection may be lost at any moment with any end of what is in
flight, and a write that fails may have sent its message all the same.

**Each direction stays in order** (`Ordered`): what an end's reader has written to `in` is a
beginning of what the other application wrote to `out`, and everything in flight is a slice of it.

A context may be done at any time: `runLegs` and `WebSocketHandler` cancel theirs when one loop has
returned, a kick and `Close` whenever they like. What the client has given up on may reach the
server later: a resume request that it has repeated before it was processed (`stale`), and a dial
that failed before it was served (`late`). The client ends the session by the rules of `supervise`:
its loops met an inconsistency, a resume was refused, its stability guard had enough, or it leaves,
which stands for a `Close`, for a session that is gone and for a grace that is spent.

`ResumeHandler` runs in one step, once the server's loops have let go; a request that it answers
with 503, because another one is in progress or because they have not, is one that got lost. The end
of the session at the server, by DELETE or a sweep, only shows in closed pipes. The server's write
pump also asks whether it is still the current attachment; while its handler serves, it is.
-/

namespace Pollmux

open Kit

/-- What a write to a connection comes to. One that fails may have sent its message. -/
inductive WriteResult
  | ok
  | lost
  | sent
  deriving DecidableEq, Repr

/-- One direction of a connection: the messages in flight, and whether the rest is lost. -/
structure Channel where
  queue : List WsMessage := []
  cut : Bool := false
  deriving DecidableEq, Repr

namespace Channel

/-- One that nobody reads any more. -/
def dead : Channel := { cut := true }

/-- What is sent on a cut channel is lost. -/
def send (c : Channel) (m : WsMessage) : Channel :=
  if c.cut then c else { c with queue := c.queue ++ [m] }

/-- Nothing sent from now on arrives. -/
def sever (c : Channel) : Channel := { c with cut := true }

/-- One write; one that fails is the last. -/
def put (c : Channel) (m : WsMessage) : WriteResult → Channel
  | .ok => c.send m
  | .lost => c.sever
  | .sent => (c.send m).sever

/-- A channel holds no message but those it held and the one just written. -/
theorem mem_put {c : Channel} {m m' : WsMessage} {r : WriteResult} (h : m' ∈ (c.put m r).queue) :
    m' ∈ c.queue ∨ m' = m := by
  have hsend : ∀ {q}, q = (c.send m).queue → m' ∈ q → m' ∈ c.queue ∨ m' = m := by
    rintro q rfl hmem
    unfold send at hmem
    split at hmem
    next => exact .inl hmem
    next => exact (List.mem_append.mp hmem).imp id List.mem_singleton.mp
  cases r with
  | ok => exact hsend rfl h
  | lost => exact .inl h
  | sent => exact hsend rfl h

end Channel

/-- `frameAck`, as the writers send it. -/
def ackMessage (n : Nat) : WsMessage := ⟨true, wsEncode frameAck (encodeOffset n)⟩

/-- `frameSeqData`. -/
def seqMessage (c : Chunk) : WsMessage := ⟨true, wsEncodeSeq c.off c.bytes⟩

/-- `frameHeartbeat`. -/
def heartbeatMessage : WsMessage := ⟨true, wsEncode frameHeartbeat []⟩

/-- What a writer sends for what `nextOut` returned: an interrupted wait with nothing to send
sends nothing. -/
def NextResult.message (res : NextResult) (interrupted : Bool) : Option WsMessage :=
  if res.bytes ≠ [] then some (seqMessage ⟨res.off, res.bytes⟩)
  else if interrupted then none
  else some heartbeatMessage

/-- Where a writer is. The result of its `nextOut` call stays with the call until the writer is
through with it. -/
inductive WriterPc
  /-- About to call `resetAck`. -/
  | starting
  | calling
  | inNext
  /-- About to call `takeAck`. -/
  | acking (interrupted : Bool)
  | writingAck (n : Nat) (interrupted : Bool)
  /-- About to write the data or the heartbeat, or neither. -/
  | writing (interrupted : Bool)
  | returned
  deriving DecidableEq, Repr

/-- Why a reader has returned. -/
inductive ReadEnd
  /-- `Read` failed. -/
  | connection
  | malformed (e : MessageErr)
  | client (e : PollEnd)
  | server (e : PumpEnd)
  deriving DecidableEq, Repr

/-- The errors after which `supervise` does not resume. -/
def ReadEnd.inconsistent : ReadEnd → Bool
  | .client (.rejected (.io .replayGap)) | .client (.rejected (.io .badAck)) => true
  | _ => false

/-- One end of the session. `written` and `delivered` record what its application wrote into `out`
and what its reader wrote into `in`; `ended` is `none` while the reader runs. -/
structure WsEnd where
  ep : Endpoint
  written : Bytes := []
  delivered : Bytes := []
  up : Bool := true
  cancelled : Bool := false
  writer : WriterPc := .starting
  ended : Option ReadEnd := none
  deriving DecidableEq, Repr

/-- Both loops are started on a new connection. -/
def WsEnd.start (x : WsEnd) : WsEnd :=
  { x with up := true, cancelled := false, writer := .starting, ended := none }

/-- `supervise` gives the session up once the loops have returned. -/
def WsEnd.hopeless (x : WsEnd) : Bool :=
  x.ep.rl.isBroken || x.ended.any ReadEnd.inconsistent

/-- What a reader does with one frame: `wsReadLoop` or `wsReadPump`. -/
def readFrame (e : Side) (ep : Endpoint) (f : Frame) : Endpoint × Option ReadEnd :=
  match e with
  | .client => ((resumableWsReadFrame ep f).1, (resumableWsReadFrame ep f).2.map .client)
  | .server =>
    match wsPumpFrame (.resumable ep) f with
    | (.resumable ep', r) => (ep', r.map .server)
    | (.plain _, r) => (ep, r.map .server)

/-- The client's `dialWS`: not in progress, not yet served, or served and not yet returned. -/
inductive Dial
  | none
  | sent
  | served
  deriving DecidableEq, Repr

/-- Why the client has given the session up. -/
inductive GivingUp
  /-- Its loops ended with a gap, a bad ack or a broken layer. -/
  | inconsistent
  /-- The server refused to resume, or answered what the client cannot honour. -/
  | refused
  /-- `resumeStabilityGuard`. -/
  | unstable
  /-- Its connection was closed, the session is gone, or the grace is spent. -/
  | left
  deriving DecidableEq, Repr

/-- The session. `chan e` carries what `e` sends on the current connection. Of a handshake,
`refusal` says that a 409 is on its way to the client; `stale` are the requests that the client has
given up on and the server has not processed, and `late` counts such dials. `guard` and `before`,
the progress when the loops began, are the supervisor's; `givenUp` says how it has ended, and
`overflowed` that a replay buffer has outgrown its bound. -/
structure WsSession where
  ends : Side → WsEnd
  chan : Side → Channel := fun _ => {}
  shake : Handshake := {}
  refusal : Bool := false
  stale : List Nat := []
  dial : Dial := .none
  late : Nat := 0
  guard : ResumeStabilityGuard := {}
  before : ReliableProgress := ⟨0, 0⟩
  givenUp : Option GivingUp := none
  overflowed : Bool := false

/-- What the two ends are built with: the bound of their replay buffers, the length of their
writers' buffers and the `SetReadLimit` of their readers. `lateDials` says whether a dial that the
client has given up on may be served after another resume request has been processed, `lateResumes`
whether a resume request that it has given up on may be processed after the connection that
followed has been served. -/
structure WsSetting where
  maxReplay : Side → Int
  buf : Side → Nat
  limit : Side → Nat
  lateDials : Bool
  lateResumes : Bool

/-- What can happen next. -/
inductive WsEvent
  /-- The application writes, reads or closes, or the writer is interrupted. -/
  | app (e : Side) (op : EndOp)
  /-- The context that the loops of `e` watch is done. -/
  | cancel (e : Side)
  | reset (e : Side)
  | call (e : Side)
  | advance (e : Side) (fired : Bool)
  | react (e : Side)
  | takeAck (e : Side)
  | write (e : Side) (r : WriteResult)
  /-- The reader of `e` takes the next message. -/
  | read (e : Side)
  /-- Its `Read` fails: the connection, the context or the idle deadline. -/
  | readFails (e : Side)
  /-- The connection loses what `e` sent after its first `k` messages. -/
  | cut (e : Side) (k : Nat)
  /-- Both loops of `e` have returned. -/
  | stop (e : Side)
  /-- The client posts a resume request. It has given up on the one before. -/
  | ask
  | answer
  /-- The server processes the `i`th of the requests that the client has given up on. -/
  | answerLate (i : Nat)
  /-- The client rewinds to the answer and dials. -/
  | accept
  /-- The client is told that it cannot resume. -/
  | refused
  /-- The server accepts the dial. -/
  | serve
  /-- The dial returns at the client. The loops before the resume had lasted `lasted`. -/
  | connected (lasted : Int)
  /-- The dial fails at the client. -/
  | giveUp
  /-- The server accepts a dial that the client has given up on. -/
  | serveLate
  /-- The client stops resuming. -/
  | leave
  deriving DecidableEq, Repr

namespace WsSession

/-- Replace one end. -/
def setEnd (s : WsSession) (e : Side) (x : WsEnd) : WsSession :=
  { s with ends := Function.update s.ends e x }

/-- Replace one channel. -/
def setChan (s : WsSession) (e : Side) (c : Channel) : WsSession :=
  { s with chan := Function.update s.chan e c }

@[simp] theorem setEnd_ends (s : WsSession) (e : Side) (x : WsEnd) : (s.setEnd e x).ends e = x :=
  Function.update_self ..
@[simp] theorem setEnd_peer (s : WsSession) (e : Side) (x : WsEnd) :
    (s.setEnd e x).ends e.peer = s.ends e.peer :=
  Function.update_of_ne e.peer_ne ..
@[simp] theorem setEnd_chan (s : WsSession) (e : Side) (x : WsEnd) : (s.setEnd e x).chan = s.chan :=
  rfl
@[simp] theorem setChan_ends (s : WsSession) (e : Side) (c : Channel) :
    (s.setChan e c).ends = s.ends := rfl
@[simp] theorem setChan_chan (s : WsSession) (e : Side) (c : Channel) : (s.setChan e c).chan e = c :=
  Function.update_self ..
@[simp] theorem setChan_peer (s : WsSession) (e : Side) (c : Channel) :
    (s.setChan e c).chan e.peer = s.chan e.peer :=
  Function.update_of_ne e.peer_ne ..
@[simp] theorem setChan_of_peer (s : WsSession) (e : Side) (c : Channel) :
    (s.setChan e.peer c).chan e = s.chan e :=
  Function.update_of_ne e.ne_peer ..

/-- The reader of `e` returns; nobody reads what its peer has sent or sends. -/
def readEnds (s : WsSession) (e : Side) (r : ReadEnd) : WsSession :=
  (s.setEnd e { s.ends e with ended := some r }).setChan e.peer .dead

/-- The reader of `e` handles a frame. -/
def handle (s : WsSession) (e : Side) (f : Frame) (rest : List WsMessage) : WsSession :=
  let x := s.ends e
  let (ep, r) := readFrame e x.ep f
  let s := s.setEnd e { x with
    ep := ep
    delivered := x.delivered ++ x.ep.inp.added ep.inp }
  match r with
  | none => s.setChan e.peer { s.chan e.peer with queue := rest }
  | some r => s.readEnds e r

/-- One pass through the reader of `e`. A message past the limit makes `Read` fail. -/
def read (limit : Nat) (s : WsSession) (e : Side) : Option WsSession :=
  match (s.chan e.peer).queue with
  | [] => none
  | m :: rest =>
    if limit < m.data.length then some (s.readEnds e .connection)
    else if m.binary = false then some (s.setChan e.peer { s.chan e.peer with queue := rest })
    else
      match wsDecode m.data with
      | .error err => some (s.readEnds e (.malformed err))
      | .ok f => some (s.handle e f rest)

/-- The writer of `e` reacts to what `nextOut` returned. -/
def react (s : WsSession) (e : Side) : Option WsSession :=
  let x := s.ends e
  match x.ep.call with
  | some (.returned res) =>
    if res.err = some .eof ∨ (res.err = some .pipeInterrupted ∧ x.cancelled = true) then
      some (s.setEnd e { x with ep := { x.ep with call := none }, writer := .returned })
    else
      some (s.setEnd e { x with writer := .acking (res.err == some .pipeInterrupted) })
  | _ => none

/-- The writer of `e` writes what is next. -/
def write (s : WsSession) (e : Side) (r : WriteResult) : Option WsSession :=
  let x := s.ends e
  match x.writer with
  | .writingAck n i =>
    if r = .ok then
      some ((s.setEnd e { x with writer := .writing i }).setChan e ((s.chan e).put (ackMessage n) r))
    else
      x.ep.collect.map fun (_, ep) =>
        (s.setEnd e { x with ep := ep, writer := .returned }).setChan e
          ((s.chan e).put (ackMessage n) r)
  | .writing i => do
    let (res, ep) ← x.ep.collect
    match res.message i with
    | none =>
      if r = .ok then some (s.setEnd e { x with ep := ep, writer := .calling }) else none
    | some m =>
      some ((s.setEnd e { x with
        ep := ep
        writer := if r = .ok then .calling else .returned }).setChan e ((s.chan e).put m r))
  | _ => none

/-- The server's layer after a resume request has been processed. A dial that may not be served late
is not served after it. -/
def resumedAt (lateDials : Bool) (s : WsSession) (rl : Reliable) : WsSession :=
  { s.setEnd .server { s.ends .server with ep := { (s.ends .server).ep with rl := rl } } with
    late := if lateDials then s.late else 0 }

/-- `ResumeHandler` processes the request that the client is waiting for. -/
def answer (lateDials : Bool) (s : WsSession) : Option WsSession := do
  let n ← s.shake.asked
  let (reply, rl) ← (s.ends .server).ep.rl.resumeHandler n
  match reply with
  | .resumed off =>
    some { s.resumedAt lateDials rl with shake := { s.shake with answered := some off } }
  | .conflict _ => some { s.resumedAt lateDials rl with refusal := true }

/-- `ResumeHandler` processes a request whose answer nobody reads. -/
def answerLate (lateDials : Bool) (s : WsSession) (i : Nat) : Option WsSession := do
  let n ← s.stale[i]?
  let (_, rl) ← (s.ends .server).ep.rl.resumeHandler n
  some { s.resumedAt lateDials rl with stale := s.stale.eraseIdx i }

/-- The request that the client is waiting for, if the server has not processed it. -/
def waitedFor (s : WsSession) : List Nat :=
  if s.shake.answered = none ∧ s.refusal = false then s.shake.asked.toList else []

/-- `resume`, with the offset of the server's answer. -/
def accept (s : WsSession) : Option WsSession := do
  let x := s.ends .client
  let n ← s.shake.answered
  let (ok, rl) ← x.ep.rl.resumeOut n
  if ok then
    some { s.setEnd .client { x with ep := { x.ep with rl := rl } } with
      shake := { s.shake with completed := true }
      dial := .sent }
  else some { s with givenUp := some .refused }

/-- `resume` has returned, and `supervise` starts both loops on the new connection, or gives the
session up and lets it be. -/
def connected (s : WsSession) (lasted : Int) : WsSession :=
  let x := s.ends .client
  let recorded := s.guard.record lasted (x.ep.rl.progress != s.before)
  if recorded.1 then
    { s with chan := fun _ => .dead, dial := .none, guard := recorded.2, givenUp := some .unstable }
  else
    { s.setEnd .client x.start with
      dial := .none, guard := recorded.2, before := x.ep.rl.progress }

/-- The client's loops are down, no dial is in progress and the session is not given up. -/
def Resuming (s : WsSession) : Prop :=
  (s.ends .client).up = false ∧ s.dial = .none ∧ s.givenUp = none

instance (s : WsSession) : Decidable s.Resuming := inferInstanceAs (Decidable (_ ∧ _))

/-- One step. A stream is shorter than the offsets of the format can say. -/
def step (p : WsSetting) (s : WsSession) : WsEvent → Option WsSession
  | .app e op =>
    let x := s.ends e
    if op.aside ∧ (x.written ++ x.ep.wrote op).length < 2 ^ 64 then
      (x.ep.perform op).map fun ep =>
        s.setEnd e { x with ep := ep, written := x.written ++ x.ep.wrote op }
    else none
  | .cancel e => some (s.setEnd e { s.ends e with cancelled := true })
  | .reset e =>
    let x := s.ends e
    if x.up ∧ x.writer = .starting then
      some (s.setEnd e { x with
        ep := { x.ep with rl := x.ep.rl.resetAck }
        writer := .calling })
    else none
  | .call e =>
    let x := s.ends e
    if x.up ∧ x.writer = .calling then
      (x.ep.perform (.nextOut (p.buf e))).map fun ep =>
        s.setEnd e { x with ep := ep, writer := .inNext }
    else none
  | .advance e fired =>
    let x := s.ends e
    if x.up ∧ x.writer = .inNext then
      (x.ep.perform (.advance fired)).map fun ep =>
        { s.setEnd e { x with ep := ep } with
          overflowed := s.overflowed || x.ep.overflows (.advance fired) }
    else none
  | .react e => if (s.ends e).up ∧ (s.ends e).writer = .inNext then s.react e else none
  | .takeAck e =>
    let x := s.ends e
    match x.writer with
    | .acking i =>
      let (ack, rl) := x.ep.rl.takeAck
      if x.up then
        some (s.setEnd e { x with
          ep := { x.ep with rl := rl }
          writer := ack.elim (.writing i) (.writingAck · i) })
      else none
    | _ => none
  | .write e r => if (s.ends e).up then s.write e r else none
  | .read e => if (s.ends e).up ∧ (s.ends e).ended = none then s.read (p.limit e) e else none
  | .readFails e =>
    if (s.ends e).up ∧ (s.ends e).ended = none then some (s.readEnds e .connection) else none
  | .cut e k => some (s.setChan e { queue := (s.chan e).queue.take k, cut := true })
  | .stop e =>
    let x := s.ends e
    if x.up ∧ x.writer = .returned ∧ x.ended.isSome then
      some { ((s.setEnd e { x with up := false }).setChan e (s.chan e).sever).setChan e.peer .dead with
        givenUp := if e = .client ∧ x.hopeless then some .inconsistent else s.givenUp }
    else none
  | .ask =>
    if s.Resuming then
      some { s with
        shake := { asked := some (s.ends .client).ep.rl.recvOffsetNow }
        refusal := false
        stale := s.stale ++ s.waitedFor }
    else none
  | .answer =>
    if (s.ends .server).up = false ∧ s.shake.answered = none ∧ s.refusal = false then
      s.answer p.lateDials
    else none
  | .answerLate i => if (s.ends .server).up = false then s.answerLate p.lateDials i else none
  | .accept => if s.Resuming then s.accept else none
  | .refused =>
    if s.Resuming ∧ s.refusal = true then some { s with givenUp := some .refused } else none
  | .serve =>
    if s.dial = .sent ∧ (s.ends .server).up = false then
      some { s.setEnd .server (s.ends .server).start with
        chan := fun _ => {}
        shake := {}
        stale := if p.lateResumes then s.stale else []
        dial := .served }
    else none
  | .connected lasted => if s.dial = .served then some (s.connected lasted) else none
  | .giveUp =>
    if s.dial = .none then none
    else some { s with
      chan := fun _ => .dead
      shake := {}
      dial := .none
      late := if s.dial = .sent then s.late + 1 else s.late }
  | .serveLate =>
    if 0 < s.late ∧ (s.ends .server).up = false then
      some { s.setEnd .server (s.ends .server).start with late := s.late - 1 }
    else none
  | .leave => if s.Resuming then some { s with givenUp := some .left } else none

/-- A session between two new endpoints on its first connection. -/
def machine (p : WsSetting) : Machine WsSession WsEvent where
  init := { ends := fun e => { ep := .new (p.maxReplay e) true } }
  step := step p

/-- **What one step does.** -/
inductive Moves (p : WsSetting) (s : WsSession) : WsEvent → WsSession → Prop
  | app {e : Side} {op : EndOp} {ep : Endpoint} (hop : op.aside = true)
      (hshort : ((s.ends e).written ++ (s.ends e).ep.wrote op).length < 2 ^ 64)
      (hp : (s.ends e).ep.perform op = some ep) :
      Moves p s (.app e op) (s.setEnd e { s.ends e with
        ep := ep
        written := (s.ends e).written ++ (s.ends e).ep.wrote op })
  | cancel {e : Side} : Moves p s (.cancel e) (s.setEnd e { s.ends e with cancelled := true })
  | reset {e : Side} (hup : (s.ends e).up = true) (hpc : (s.ends e).writer = .starting) :
      Moves p s (.reset e) (s.setEnd e { s.ends e with
        ep := { (s.ends e).ep with rl := (s.ends e).ep.rl.resetAck }
        writer := .calling })
  | call {e : Side} {ep : Endpoint} (hup : (s.ends e).up = true)
      (hpc : (s.ends e).writer = .calling)
      (hp : (s.ends e).ep.perform (.nextOut (p.buf e)) = some ep) :
      Moves p s (.call e) (s.setEnd e { s.ends e with ep := ep, writer := .inNext })
  | advance {e : Side} {fired : Bool} {ep : Endpoint} (hup : (s.ends e).up = true)
      (hpc : (s.ends e).writer = .inNext)
      (hp : (s.ends e).ep.perform (.advance fired) = some ep) :
      Moves p s (.advance e fired) { s.setEnd e { s.ends e with ep := ep } with
        overflowed := s.overflowed || (s.ends e).ep.overflows (.advance fired) }
  /-- `nextOut` is at its end, or interrupted with the context done. -/
  | leaves {e : Side} {res : NextResult} (hup : (s.ends e).up = true)
      (hpc : (s.ends e).writer = .inNext) (hcall : (s.ends e).ep.call = some (.returned res))
      (herr : res.err ≠ none) :
      Moves p s (.react e) (s.setEnd e { s.ends e with
        ep := { (s.ends e).ep with call := none }
        writer := .returned })
  | goesOn {e : Side} {res : NextResult} {i : Bool} (hup : (s.ends e).up = true)
      (hpc : (s.ends e).writer = .inNext) (hcall : (s.ends e).ep.call = some (.returned res)) :
      Moves p s (.react e) (s.setEnd e { s.ends e with writer := .acking i })
  | takeAck {e : Side} {i : Bool} (hup : (s.ends e).up = true)
      (hpc : (s.ends e).writer = .acking i) :
      Moves p s (.takeAck e) (s.setEnd e { s.ends e with
        ep := { (s.ends e).ep with rl := (s.ends e).ep.rl.takeAck.2 }
        writer := (s.ends e).ep.rl.takeAck.1.elim (.writing i) (.writingAck · i) })
  | ackOut {e : Side} {n : Nat} {i : Bool} (hup : (s.ends e).up = true)
      (hpc : (s.ends e).writer = .writingAck n i) :
      Moves p s (.write e .ok) ((s.setEnd e { s.ends e with writer := .writing i }).setChan e
        ((s.chan e).send (ackMessage n)))
  | ackFails {e : Side} {r : WriteResult} {n : Nat} {i : Bool} {res : NextResult} {ep : Endpoint}
      (hup : (s.ends e).up = true) (hr : r ≠ .ok) (hpc : (s.ends e).writer = .writingAck n i)
      (hc : (s.ends e).ep.collect = some (res, ep)) :
      Moves p s (.write e r) ((s.setEnd e { s.ends e with ep := ep, writer := .returned }).setChan e
        ((s.chan e).put (ackMessage n) r))
  /-- There is nothing to write. -/
  | skips {e : Side} {i : Bool} {res : NextResult} {ep : Endpoint} (hup : (s.ends e).up = true)
      (hpc : (s.ends e).writer = .writing i) (hc : (s.ends e).ep.collect = some (res, ep))
      (hm : res.message i = none) :
      Moves p s (.write e .ok) (s.setEnd e { s.ends e with ep := ep, writer := .calling })
  | writes {e : Side} {r : WriteResult} {i : Bool} {res : NextResult} {ep : Endpoint}
      {m : WsMessage} (hup : (s.ends e).up = true) (hpc : (s.ends e).writer = .writing i)
      (hc : (s.ends e).ep.collect = some (res, ep)) (hm : res.message i = some m) :
      Moves p s (.write e r) ((s.setEnd e { s.ends e with
        ep := ep
        writer := if r = .ok then .calling else .returned }).setChan e ((s.chan e).put m r))
  /-- A message that is not binary. -/
  | drops {e : Side} {m : WsMessage} {rest : List WsMessage} (hup : (s.ends e).up = true)
      (hq : (s.chan e.peer).queue = m :: rest) (hm : m.binary = false) :
      Moves p s (.read e) (s.setChan e.peer { s.chan e.peer with queue := rest })
  | handles {e : Side} {m : WsMessage} {rest : List WsMessage} {f : Frame}
      (hup : (s.ends e).up = true) (hq : (s.chan e.peer).queue = m :: rest)
      (hf : wsDecode m.data = .ok f) : Moves p s (.read e) (s.handle e f rest)
  /-- `wsDecode` fails. -/
  | malformed {e : Side} {m : WsMessage} {rest : List WsMessage} {err : MessageErr}
      (hup : (s.ends e).up = true) (hq : (s.chan e.peer).queue = m :: rest)
      (hf : wsDecode m.data = .error err) : Moves p s (.read e) (s.readEnds e (.malformed err))
  | disconnects {ev : WsEvent} {e : Side} (hup : (s.ends e).up = true) :
      Moves p s ev (s.readEnds e .connection)
  | cut {e : Side} {k : Nat} :
      Moves p s (.cut e k) (s.setChan e { queue := (s.chan e).queue.take k, cut := true })
  | stop {e : Side} (hup : (s.ends e).up = true) (hpc : (s.ends e).writer = .returned)
      (hended : (s.ends e).ended.isSome = true) :
      Moves p s (.stop e)
        { ((s.setEnd e { s.ends e with up := false }).setChan e (s.chan e).sever).setChan e.peer
            .dead with
          givenUp := if e = .client ∧ (s.ends e).hopeless then some .inconsistent else s.givenUp }
  | ask (hres : s.Resuming) :
      Moves p s .ask { s with
        shake := { asked := some (s.ends .client).ep.rl.recvOffsetNow }
        refusal := false
        stale := s.stale ++ s.waitedFor }
  | answer {n off : Nat} {rl : Reliable} (hup : (s.ends .server).up = false)
      (hasked : s.shake.asked = some n)
      (hr : (s.ends .server).ep.rl.resumeHandler n = some (.resumed off, rl)) :
      Moves p s .answer { s.resumedAt p.lateDials rl with
        shake := { s.shake with answered := some off } }
  | conflicts {n : Nat} {text : String} {rl : Reliable} (hup : (s.ends .server).up = false)
      (hasked : s.shake.asked = some n)
      (hr : (s.ends .server).ep.rl.resumeHandler n = some (.conflict text, rl)) :
      Moves p s .answer { s.resumedAt p.lateDials rl with refusal := true }
  | answerLate {i n : Nat} {reply : ResumeAnswer} {rl : Reliable}
      (hup : (s.ends .server).up = false) (hstale : s.stale[i]? = some n)
      (hr : (s.ends .server).ep.rl.resumeHandler n = some (reply, rl)) :
      Moves p s (.answerLate i) { s.resumedAt p.lateDials rl with stale := s.stale.eraseIdx i }
  | accept {n : Nat} {rl : Reliable} (hres : s.Resuming) (hanswered : s.shake.answered = some n)
      (hr : (s.ends .client).ep.rl.resumeOut n = some (true, rl)) :
      Moves p s .accept
        { s.setEnd .client { s.ends .client with ep := { (s.ends .client).ep with rl := rl } } with
          shake := { s.shake with completed := true }
          dial := .sent }
  | declines {n : Nat} {rl : Reliable} (hres : s.Resuming) (hanswered : s.shake.answered = some n)
      (hr : (s.ends .client).ep.rl.resumeOut n = some (false, rl)) :
      Moves p s .accept { s with givenUp := some .refused }
  | refused (hres : s.Resuming) (hrefusal : s.refusal = true) :
      Moves p s .refused { s with givenUp := some .refused }
  | serve (hdial : s.dial = .sent) (hup : (s.ends .server).up = false) :
      Moves p s .serve { s.setEnd .server (s.ends .server).start with
        chan := fun _ => {}
        shake := {}
        stale := if p.lateResumes then s.stale else []
        dial := .served }
  | connected {lasted : Int} (hdial : s.dial = .served) :
      Moves p s (.connected lasted) (s.connected lasted)
  | giveUp (hdial : s.dial ≠ .none) :
      Moves p s .giveUp { s with
        chan := fun _ => .dead
        shake := {}
        dial := .none
        late := if s.dial = .sent then s.late + 1 else s.late }
  | serveLate (hlate : 0 < s.late) (hup : (s.ends .server).up = false) :
      Moves p s .serveLate { s.setEnd .server (s.ends .server).start with late := s.late - 1 }
  | leave (hres : s.Resuming) : Moves p s .leave { s with givenUp := some .left }

theorem react_cases {p : WsSetting} {s s' : WsSession} {e : Side} (hup : (s.ends e).up = true)
    (hpc : (s.ends e).writer = .inNext) (hs : s.react e = some s') : Moves p s (.react e) s' := by
  unfold react at hs
  dsimp only at hs
  split at hs
  next res hcall =>
    split at hs
    next herr =>
      cases hs
      refine .leaves hup hpc hcall ?_
      rcases herr with heof | ⟨hintr, _⟩
      · rw [heof]
        nofun
      · rw [hintr]
        nofun
    next =>
      cases hs
      exact .goesOn hup hpc hcall
  next => cases hs

theorem write_cases {p : WsSetting} {s s' : WsSession} {e : Side} {r : WriteResult}
    (hup : (s.ends e).up = true) (hs : s.write e r = some s') : Moves p s (.write e r) s' := by
  unfold write at hs
  dsimp only at hs
  split at hs
  next n i hpc =>
    split at hs
    next hr =>
      cases hs
      cases hr
      exact .ackOut hup hpc
    next hr =>
      obtain ⟨⟨res, ep⟩, hc, rfl⟩ := Option.map_eq_some_iff.mp hs
      exact .ackFails hup hr hpc hc
  next i hpc =>
    obtain ⟨⟨res, ep⟩, hc, hs⟩ := Option.bind_eq_some_iff.mp hs
    dsimp only at hs
    split at hs
    next hm =>
      obtain ⟨rfl, ⟨⟩⟩ := Option.ite_none_right_eq_some.mp hs
      exact .skips hup hpc hc hm
    next m hm =>
      cases hs
      exact .writes hup hpc hc hm
  next => cases hs

theorem read_cases {p : WsSetting} {s s' : WsSession} {e : Side} (hup : (s.ends e).up = true)
    (hs : s.read (p.limit e) e = some s') : Moves p s (.read e) s' := by
  unfold read at hs
  split at hs
  next => cases hs
  next m rest hq =>
    split at hs
    next =>
      cases hs
      exact .disconnects hup
    next =>
      split at hs
      next hm =>
        cases hs
        exact .drops hup hq hm
      next =>
        split at hs
        next err hf =>
          cases hs
          exact .malformed hup hq hf
        next f hf =>
          cases hs
          exact .handles hup hq hf

theorem moves_of_step {p : WsSetting} {s s' : WsSession} {ev : WsEvent}
    (hs : s.step p ev = some s') : Moves p s ev s' := by
  cases ev with
  | app e op =>
    obtain ⟨⟨hop, hshort⟩, hs⟩ := Option.ite_none_right_eq_some.mp hs
    obtain ⟨ep, hp, rfl⟩ := Option.map_eq_some_iff.mp hs
    exact .app hop hshort hp
  | cancel e => cases hs; exact .cancel
  | reset e =>
    obtain ⟨⟨hup, hpc⟩, ⟨⟩⟩ := Option.ite_none_right_eq_some.mp hs
    exact .reset hup hpc
  | call e =>
    obtain ⟨⟨hup, hpc⟩, hs⟩ := Option.ite_none_right_eq_some.mp hs
    obtain ⟨ep, hp, rfl⟩ := Option.map_eq_some_iff.mp hs
    exact .call hup hpc hp
  | advance e fired =>
    obtain ⟨⟨hup, hpc⟩, hs⟩ := Option.ite_none_right_eq_some.mp hs
    obtain ⟨ep, hp, rfl⟩ := Option.map_eq_some_iff.mp hs
    exact .advance hup hpc hp
  | react e =>
    obtain ⟨⟨hup, hpc⟩, hs⟩ := Option.ite_none_right_eq_some.mp hs
    exact react_cases hup hpc hs
  | takeAck e =>
    simp only [step] at hs
    split at hs
    next i hpc =>
      obtain ⟨hup, ⟨⟩⟩ := Option.ite_none_right_eq_some.mp hs
      exact .takeAck hup hpc
    next => cases hs
  | write e r =>
    obtain ⟨hup, hs⟩ := Option.ite_none_right_eq_some.mp hs
    exact write_cases hup hs
  | read e =>
    obtain ⟨⟨hup, _⟩, hs⟩ := Option.ite_none_right_eq_some.mp hs
    exact read_cases hup hs
  | readFails e =>
    obtain ⟨⟨hup, _⟩, ⟨⟩⟩ := Option.ite_none_right_eq_some.mp hs
    exact .disconnects hup
  | cut e k => cases hs; exact .cut
  | stop e =>
    obtain ⟨⟨hup, hpc, hended⟩, ⟨⟩⟩ := Option.ite_none_right_eq_some.mp hs
    exact .stop hup hpc hended
  | ask =>
    obtain ⟨hres, ⟨⟩⟩ := Option.ite_none_right_eq_some.mp hs
    exact .ask hres
  | answer =>
    obtain ⟨⟨hup, -⟩, hs⟩ := Option.ite_none_right_eq_some.mp hs
    simp only [WsSession.answer, Option.bind_eq_bind, Option.bind_eq_some_iff] at hs
    obtain ⟨n, hasked, ⟨reply, rl⟩, hr, hs⟩ := hs
    cases reply with
    | resumed off => cases hs; exact .answer hup hasked hr
    | conflict text => cases hs; exact .conflicts hup hasked hr
  | answerLate i =>
    obtain ⟨hup, hs⟩ := Option.ite_none_right_eq_some.mp hs
    simp only [WsSession.answerLate, Option.bind_eq_bind, Option.bind_eq_some_iff] at hs
    obtain ⟨n, hstale, ⟨reply, rl⟩, hr, ⟨⟩⟩ := hs
    exact .answerLate hup hstale hr
  | accept =>
    obtain ⟨hres, hs⟩ := Option.ite_none_right_eq_some.mp hs
    simp only [WsSession.accept, Option.bind_eq_bind, Option.bind_eq_some_iff] at hs
    obtain ⟨n, hanswered, ⟨ok, rl⟩, hr, hs⟩ := hs
    cases ok with
    | true => cases hs; exact .accept hres hanswered hr
    | false => cases hs; exact .declines hres hanswered hr
  | refused =>
    obtain ⟨⟨hres, hrefusal⟩, ⟨⟩⟩ := Option.ite_none_right_eq_some.mp hs
    exact .refused hres hrefusal
  | serve =>
    obtain ⟨⟨hdial, hup⟩, ⟨⟩⟩ := Option.ite_none_right_eq_some.mp hs
    exact .serve hdial hup
  | connected lasted =>
    obtain ⟨hdial, ⟨⟩⟩ := Option.ite_none_right_eq_some.mp hs
    exact .connected hdial
  | giveUp =>
    obtain ⟨hdial, ⟨⟩⟩ := Option.ite_none_left_eq_some.mp hs
    exact .giveUp hdial
  | serveLate =>
    obtain ⟨⟨hlate, hup⟩, ⟨⟩⟩ := Option.ite_none_right_eq_some.mp hs
    exact .serveLate hlate hup
  | leave =>
    obtain ⟨hres, ⟨⟩⟩ := Option.ite_none_right_eq_some.mp hs
    exact .leave hres

end WsSession

/-! ## What the readers do with what the writers send -/

/-- A frame that is malformed or that the byte layer refuses, as each reader returns it. -/
def ReadEnd.rejected (e : Side) (err : FrameErr) : ReadEnd :=
  match e with
  | .client => .client (.rejected err)
  | .server => .server (.rejected err)

/-- A fault of the byte layer. -/
def ReadEnd.fault : Side → ReadEnd
  | .client => .client .fault
  | .server => .server .fault

/-- What a reader makes of the byte layer's answer. -/
def passOn (e : Side) (ep : Endpoint) :
    Option (Option FrameErr × Endpoint) → Endpoint × Option ReadEnd
  | none => (ep, some (.fault e))
  | some (err, ep') => (ep', err.map (.rejected e))

theorem readFrame_seq (e : Side) (ep : Endpoint) (payload : Bytes) :
    readFrame e ep ⟨frameSeqData, payload⟩ = passOn e ep (ep.seqFrame payload) := by
  rcases hseq : ep.seqFrame payload with _ | ⟨_ | err, ep'⟩ <;> cases e <;>
    simp [readFrame, resumableWsReadFrame, wsPumpFrame, hseq, frameSeqData, frameData, passOn,
      ReadEnd.fault, ReadEnd.rejected]

theorem readFrame_ack (e : Side) (ep : Endpoint) (payload : Bytes) :
    readFrame e ep ⟨frameAck, payload⟩ = passOn e ep (ep.ackFrame payload) := by
  rcases hack : ep.ackFrame payload with _ | ⟨_ | err, ep'⟩ <;> cases e <;>
    simp [readFrame, resumableWsReadFrame, wsPumpFrame, hack, frameSeqData, frameData, frameAck,
      passOn, ReadEnd.fault, ReadEnd.rejected]

theorem readFrame_heartbeat (e : Side) (ep : Endpoint) (payload : Bytes) :
    readFrame e ep ⟨frameHeartbeat, payload⟩ = (ep, none) := by
  cases e <;> rfl

theorem Endpoint.seqFrame_encode (ep : Endpoint) {off : Nat} (h : off < 2 ^ 64) (data : Bytes) :
    ep.seqFrame (encodeOffset off ++ data) =
      (ep.hear off data).map fun (err, ep') => (err.map .io, ep') := by
  have hlen : (encodeOffset off).length = seqHeaderLen := length_putBigEndian _ _
  have hsplit : splitSeq (encodeOffset off ++ data) = .ok (off, data) := by
    rw [splitSeq, if_neg (by rw [List.length_append, hlen]; omega), List.take_left' hlen,
      List.drop_left' hlen, encodeOffset, bigEndian_put_of_lt h]
  rw [seqFrame, hsplit]

theorem Endpoint.ackFrame_encode (ep : Endpoint) {n : Nat} (h : n < 2 ^ 64) :
    ep.ackFrame (encodeOffset n) =
      (ep.rl.ack n).map fun (err, rl) => (err.map .io, { ep with rl := rl }) := by
  have hdecode : decodeAck (encodeOffset n) = .ok n := by
    rw [decodeAck, if_neg (by rw [encodeOffset, length_putBigEndian]; decide), encodeOffset,
      bigEndian_put_of_lt h]
  rw [ackFrame, hdecode]

/-- What the writers send is read as what it is. -/
theorem wsDecode_heartbeat : wsDecode heartbeatMessage.data = .ok ⟨frameHeartbeat, []⟩ := rfl

theorem wsDecode_ack (n : Nat) :
    wsDecode (ackMessage n).data = .ok ⟨frameAck, encodeOffset n⟩ := rfl

theorem wsDecode_seq (c : Chunk) :
    wsDecode (seqMessage c).data = .ok ⟨frameSeqData, encodeOffset c.off ++ c.bytes⟩ := rfl

/-- Whatever an ack frame says, it is a control operation of the layer or nothing. -/
theorem Endpoint.ackFrame_control {ep ep' : Endpoint} {payload : Bytes} {err : Option FrameErr}
    (h : ep.ackFrame payload = some (err, ep')) :
    ep' = ep ∨ ∃ n, ep.perform (.control (.ack n)) = some ep' := by
  unfold ackFrame at h
  split at h
  next => cases h; exact .inl rfl
  next n hdecode =>
    obtain ⟨⟨err', rl⟩, hack, heq⟩ := Option.map_eq_some_iff.mp h
    cases heq
    refine .inr ⟨n, ?_⟩
    rw [perform, Reliable.control, hack]
    rfl

namespace WsSession

/-! ## Each direction in order -/

/-- A message as an honest end sends it: data only from the stream `w`. -/
inductive Honest (w : Bytes) : WsMessage → Prop
  | heartbeat : Honest w heartbeatMessage
  | ack (n : Nat) : Honest w (ackMessage n)
  | data {c : Chunk} (h : SliceAt w c.off c.bytes) : Honest w (seqMessage c)

theorem Honest.append_stream {w : Bytes} {m : WsMessage} (h : Honest w m) (t : Bytes) :
    Honest (w ++ t) m := by
  cases h with
  | heartbeat => exact .heartbeat
  | ack n => exact .ack n
  | data h => exact .data (h.append_stream t)

theorem honest_message {w : Bytes} {res : NextResult} {i : Bool} {m : WsMessage}
    (hs : SliceAt w res.off res.bytes) (hm : res.message i = some m) : Honest w m := by
  unfold NextResult.message at hm
  split at hm
  next => cases hm; exact .data hs
  next =>
    split at hm
    next => cases hm
    next => cases hm; exact .heartbeat

/-- **The direction from `e` is in order**: `e` sends the stream its application wrote, what is in
flight are slices of it, and its peer holds its beginning. -/
structure Ordered (s : WsSession) (e : Side) : Prop where
  sending : (s.ends e).ep.Sending (s.ends e).written
  short : (s.ends e).written.length < 2 ^ 64
  honest : ∀ m ∈ (s.chan e).queue, Honest (s.ends e).written m
  holds : Holds (s.ends e).written (s.ends e.peer).ep.rl (s.ends e.peer).delivered

namespace Ordered

variable {p : WsSetting} {s s' : WsSession}

theorem init (p : WsSetting) (e : Side) : Ordered (machine p).init e where
  sending := .new _ true
  short := Nat.two_pow_pos 64
  honest := nofun
  holds := .fresh (Endpoint.new_wf _ true) (Endpoint.new_zero _ true).2.1

/-- One end changes. It goes on sending its stream, which may have grown, and holds what it holds
of its peer's. -/
theorem setEnd (h : ∀ e, Ordered s e) {e : Side} {x : WsEnd} (t : Bytes)
    (hwritten : x.written = (s.ends e).written ++ t) (hshort : x.written.length < 2 ^ 64)
    (hsending : x.ep.Sending x.written)
    (hholds : Holds (s.ends e.peer).written (s.ends e).ep.rl (s.ends e).delivered →
      Holds (s.ends e.peer).written x.ep.rl x.delivered) :
    ∀ e', Ordered (s.setEnd e x) e' := by
  intro e'
  rcases e.eq_or_peer e' with rfl | rfl
  · refine ⟨?_, ?_, ?_, ?_⟩ <;> simp only [setEnd_ends, setEnd_peer, setEnd_chan]
    · exact hsending
    · exact hshort
    · intro m hm
      rw [hwritten]
      exact ((h e').honest m hm).append_stream t
    · rw [hwritten]
      exact (h e').holds.append_stream t
  · refine ⟨?_, ?_, ?_, ?_⟩ <;> simp only [setEnd_ends, setEnd_peer, setEnd_chan, Side.peer_peer]
    · exact (h e.peer).sending
    · exact (h e.peer).short
    · exact (h e.peer).honest
    · have hback := (h e.peer).holds
      rw [Side.peer_peer] at hback
      exact hholds hback

/-- Only the ends and what is in flight matter. -/
theorem congr (h : ∀ e, Ordered s e) (hends : s'.ends = s.ends)
    (hchan : ∀ e, ∀ m ∈ (s'.chan e).queue, m ∈ (s.chan e).queue) : ∀ e, Ordered s' e := by
  intro e
  refine ⟨?_, ?_, ?_, ?_⟩ <;> rw [hends]
  · exact (h e).sending
  · exact (h e).short
  · exact fun m hm => (h e).honest m (hchan e m hm)
  · exact (h e).holds

/-- One end changes and leaves its stream and its layer alone. -/
theorem setEnd_same (h : ∀ e, Ordered s e) {e : Side} {x : WsEnd} (hep : x.ep = (s.ends e).ep)
    (hwritten : x.written = (s.ends e).written) (hdelivered : x.delivered = (s.ends e).delivered) :
    ∀ e', Ordered (s.setEnd e x) e' := by
  refine setEnd h [] (by rw [hwritten, List.append_nil]) ?_ ?_ ?_
  · rw [hwritten]
    exact (h e).short
  · rw [hep, hwritten]
    exact (h e).sending
  · intro hw
    rwa [hep, hdelivered]

/-- One end performs an operation that is not a write and not a data frame. -/
theorem performs (h : ∀ e, Ordered s e) {e : Side} (op : EndOp) {ep : Endpoint} {x : WsEnd}
    (hwrite : ∀ data, op ≠ .write data) (hhear : ∀ off p, op ≠ .hear off p)
    (hp : (s.ends e).ep.perform op = some ep) (hep : x.ep = ep)
    (hwritten : x.written = (s.ends e).written) (hdelivered : x.delivered = (s.ends e).delivered) :
    ∀ e', Ordered (s.setEnd e x) e' := by
  refine setEnd h [] (by rw [hwritten, List.append_nil]) ?_ ?_ ?_
  · rw [hwritten]
    exact (h e).short
  · rw [hep, hwritten]
    exact (h e).sending.perform_of_ne hwrite hp
  · intro hw
    obtain ⟨hwf, hrecv⟩ := Endpoint.perform_recvOffset hw.wf hhear hp
    rw [hep, hdelivered]
    exact hw.congr hwf hrecv

/-- A handshake moves what one end sends next. -/
theorem trims (h : ∀ e, Ordered s e) {e : Side} {rl : Reliable} (ht : (s.ends e).ep.rl.Trims rl)
    (hrecv : rl.recvOffset = (s.ends e).ep.rl.recvOffset) :
    ∀ e', Ordered (s.setEnd e { s.ends e with ep := { (s.ends e).ep with rl := rl } }) e' :=
  setEnd h [] (List.append_nil _).symm (h e).short ((h e).sending.trims ht)
    fun hw => hw.congr ht.wf hrecv

/-- The server processes a resume request, whatever it answers. -/
theorem resumed (h : ∀ e, Ordered s e) {n : Nat} {reply : ResumeAnswer} {rl : Reliable}
    (hr : (s.ends .server).ep.rl.resumeHandler n = some (reply, rl)) :
    ∀ e', Ordered (s.setEnd .server { s.ends .server with
      ep := { (s.ends .server).ep with rl := rl } }) e' := by
  have hwf := (h .server).sending.sends.wf
  exact trims h (Reliable.resumeHandler_trims hwf hr) (Reliable.resumeHandler_recvOffset hwf hr)

/-- A writer is through with what `nextOut` returned. -/
theorem collects (h : ∀ e, Ordered s e) {e : Side} {res : NextResult} {ep : Endpoint} {x : WsEnd}
    (hc : (s.ends e).ep.collect = some (res, ep)) (hep : x.ep = ep)
    (hwritten : x.written = (s.ends e).written) (hdelivered : x.delivered = (s.ends e).delivered) :
    (∀ e', Ordered (s.setEnd e x) e') ∧ SliceAt (s.ends e).written res.off res.bytes := by
  obtain ⟨hsending, hslice⟩ := (h e).sending.collect hc
  obtain ⟨_, rfl⟩ := Endpoint.collected hc
  refine ⟨setEnd h [] (by rw [hwritten, List.append_nil]) ?_ ?_ ?_, hslice⟩
  · rw [hwritten]
    exact (h e).short
  · rw [hep, hwritten]
    exact hsending
  · intro hw
    rwa [hep, hdelivered]

/-- A channel changes and carries honest messages only. -/
theorem setChan (h : ∀ e, Ordered s e) {e : Side} {c : Channel}
    (hc : ∀ m ∈ c.queue, Honest (s.ends e).written m) : ∀ e', Ordered (s.setChan e c) e' := by
  intro e'
  rcases e.eq_or_peer e' with rfl | rfl
  · refine ⟨(h e').sending, (h e').short, ?_, (h e').holds⟩
    rw [setChan_chan]
    exact hc
  · refine ⟨(h e.peer).sending, (h e.peer).short, ?_, (h e.peer).holds⟩
    rw [setChan_peer]
    exact (h e.peer).honest

/-- A write puts nothing but its message on the channel. -/
theorem put (h : ∀ e, Ordered s e) {e : Side} {m : WsMessage} (r : WriteResult)
    (hm : Honest (s.ends e).written m) : ∀ e', Ordered (s.setChan e ((s.chan e).put m r)) e' := by
  refine setChan h fun m' hmem => ?_
  rcases Channel.mem_put hmem with hold | rfl
  · exact (h e).honest m' hold
  · exact hm

theorem readEnds (h : ∀ e, Ordered s e) {e : Side} (r : ReadEnd) :
    ∀ e', Ordered (s.readEnds e r) e' := by
  have hend : ∀ e', Ordered (s.setEnd e { s.ends e with ended := some r }) e' :=
    setEnd_same h rfl rfl rfl
  exact setChan (c := .dead) hend fun m hm => absurd hm List.not_mem_nil

/-- What a reader does to its end when it takes an honest message. -/
theorem reads (h : ∀ e, Ordered s e) {e : Side} {m : WsMessage} {f : Frame}
    (hm : Honest (s.ends e.peer).written m) (hf : wsDecode m.data = .ok f) :
    ∀ e', Ordered (s.setEnd e { s.ends e with
      ep := (readFrame e (s.ends e).ep f).1
      delivered := (s.ends e).delivered ++
        (s.ends e).ep.inp.added (readFrame e (s.ends e).ep f).1.inp }) e' := by
  -- a frame that leaves the pipe alone delivers nothing
  have hquiet : ∀ {ep : Endpoint}, ep.inp = (s.ends e).ep.inp →
      (s.ends e).delivered ++ (s.ends e).ep.inp.added ep.inp = (s.ends e).delivered := by
    intro ep hinp
    rw [hinp, BufferedPipe.added_self, List.append_nil]
  cases hm with
  | heartbeat =>
    cases wsDecode_heartbeat.symm.trans hf
    rw [readFrame_heartbeat]
    exact setEnd_same h rfl rfl (hquiet rfl)
  | ack n =>
    cases (wsDecode_ack n).symm.trans hf
    rw [readFrame_ack]
    rcases hack : (s.ends e).ep.ackFrame (encodeOffset n) with _ | ⟨err, ep'⟩
    · exact setEnd_same h rfl rfl (hquiet rfl)
    · rcases Endpoint.ackFrame_control hack with rfl | ⟨k, hp⟩
      · exact setEnd_same h rfl rfl (hquiet rfl)
      · have hinp : ep'.inp = (s.ends e).ep.inp := by
          obtain ⟨rl, _, rfl⟩ := Option.map_eq_some_iff.mp hp
          rfl
        exact performs h (.control (.ack k)) (by simp) (by simp) hp rfl rfl (hquiet hinp)
  | @data c hslice =>
    have hoff : c.off < 2 ^ 64 := by
      have hend := hslice.end_le
      have hshort := (h e.peer).short
      omega
    cases (wsDecode_seq c).symm.trans hf
    rw [readFrame_seq, Endpoint.seqFrame_encode _ hoff]
    rcases hhear : (s.ends e).ep.hear c.off c.bytes with _ | ⟨err, ep'⟩
    · exact setEnd_same h rfl rfl (hquiet rfl)
    · have hp : (s.ends e).ep.perform (.hear c.off c.bytes) = some ep' :=
        Option.map_eq_some_iff.mpr ⟨_, hhear, rfl⟩
      refine setEnd h [] (List.append_nil _).symm (h e).short
        ((h e).sending.perform_of_ne (by simp) hp) ?_
      intro hw
      obtain ⟨res, hr, heq⟩ := Option.bind_eq_some_iff.mp hhear
      cases heq
      obtain ⟨fresh, hbuf, hholds⟩ := hw.recvIn hslice hr
      show Holds _ res.rl ((s.ends e).delivered ++ (s.ends e).ep.inp.added res.inp)
      rw [BufferedPipe.added, hbuf, List.drop_left]
      exact hholds

/-- The reader of `e` takes the next message. -/
theorem handle (h : ∀ e, Ordered s e) {e : Side} {m : WsMessage} {rest : List WsMessage}
    {f : Frame} (hq : (s.chan e.peer).queue = m :: rest) (hf : wsDecode m.data = .ok f) :
    ∀ e', Ordered (s.handle e f rest) e' := by
  have hread := reads h ((h e.peer).honest m (by rw [hq]; exact List.mem_cons_self)) hf
  unfold WsSession.handle
  dsimp only
  cases (readFrame e (s.ends e).ep f).2 with
  | none =>
    refine setChan hread fun m' hm' => ?_
    rw [setEnd_peer]
    exact (h e.peer).honest m' (by rw [hq]; exact List.mem_cons_of_mem _ hm')
  | some r => exact readEnds hread r

/-- **Every step keeps both directions in order.** -/
theorem step (h : ∀ e, Ordered s e) {ev : WsEvent} (hs : s.step p ev = some s') :
    ∀ e, Ordered s' e := by
  cases moves_of_step hs with
  | @app e op ep hop hshort hp =>
    have hhear : ∀ off q, op ≠ .hear off q := by
      rintro off q rfl
      cases hop
    refine setEnd h _ rfl hshort ((h e).sending.perform hp) fun hw => ?_
    obtain ⟨hwf, hrecv⟩ := Endpoint.perform_recvOffset hw.wf hhear hp
    exact hw.congr hwf hrecv
  | cancel => exact setEnd_same h rfl rfl rfl
  | reset => exact performs h (.control .resetAck) (by simp) (by simp) rfl rfl rfl rfl
  | call _ _ hp => exact performs h _ (by simp) (by simp) hp rfl rfl rfl
  | @advance e _ ep _ _ hp =>
    refine congr (performs h (x := { s.ends e with ep := ep }) _ (by simp) (by simp) hp rfl rfl rfl) ?_
      fun _ _ hm => hm
    exact rfl
  | @leaves e res _ _ hcall _ =>
    have hc : (s.ends e).ep.collect = some (res, { (s.ends e).ep with call := none }) := by
      rw [Endpoint.collect, hcall]
    exact (collects h (x := { s.ends e with
      ep := { (s.ends e).ep with call := none }
      writer := .returned }) hc rfl rfl rfl).1
  | goesOn => exact setEnd_same h rfl rfl rfl
  | takeAck => exact performs h (.control .takeAck) (by simp) (by simp) rfl rfl rfl rfl
  | @ackOut e n i =>
    have hend := setEnd_same h (x := { s.ends e with writer := .writing i }) rfl rfl rfl
    exact put hend .ok (.ack n)
  | @ackFails e r n i res ep _ _ _ hc =>
    have hend := collects h (x := { s.ends e with ep := ep, writer := .returned }) hc rfl rfl rfl
    exact put hend.1 r (.ack n)
  | @skips e i res ep _ _ hc _ =>
    exact (collects h (x := { s.ends e with ep := ep, writer := .calling }) hc rfl rfl rfl).1
  | @writes e r i res ep m _ _ hc hm =>
    obtain ⟨hend, hslice⟩ := collects h (x := { s.ends e with
      ep := ep
      writer := if r = .ok then .calling else .returned }) hc rfl rfl rfl
    refine put hend r (honest_message ?_ hm)
    rw [setEnd_ends]
    exact hslice
  | @drops e m rest _ hq _ =>
    refine setChan h fun m' hm' => (h e.peer).honest m' ?_
    rw [hq]
    exact List.mem_cons_of_mem _ hm'
  | handles _ hq hf => exact handle h hq hf
  | malformed => exact readEnds h _
  | disconnects => exact readEnds h _
  | @cut e k => exact setChan h fun m hm => (h e).honest m (List.mem_of_mem_take hm)
  | @stop e =>
    have hend := setEnd_same h (x := { s.ends e with up := false }) rfl rfl rfl
    have hsever := setChan hend (c := (s.chan e).sever) fun m hm => (hend e).honest m hm
    refine congr (setChan hsever (e := e.peer) (c := .dead) ?_) rfl fun _ _ hm => hm
    exact fun m hm => absurd hm List.not_mem_nil
  | ask => exact congr h rfl fun _ _ hm => hm
  | answer _ _ hr => exact congr (resumed h hr) rfl fun _ _ hm => hm
  | conflicts _ _ hr => exact congr (resumed h hr) rfl fun _ _ hm => hm
  | answerLate _ _ hr => exact congr (resumed h hr) rfl fun _ _ hm => hm
  | accept _ _ hr =>
    have ht := Reliable.resumeOut_trims (h .client).sending.sends.wf hr
    exact congr (trims h ht.1 ht.2) rfl fun _ _ hm => hm
  | declines => exact congr h rfl fun _ _ hm => hm
  | refused => exact congr h rfl fun _ _ hm => hm
  | leave => exact congr h rfl fun _ _ hm => hm
  | serve =>
    exact congr (setEnd_same h (x := (s.ends .server).start) rfl rfl rfl) rfl nofun
  | connected =>
    unfold WsSession.connected
    dsimp only
    split
    next => exact congr h rfl nofun
    next => exact congr (setEnd_same h (x := (s.ends .client).start) rfl rfl rfl) rfl fun _ _ hm => hm
  | giveUp => exact congr h rfl nofun
  | serveLate =>
    exact congr (setEnd_same h (x := (s.ends .server).start) rfl rfl rfl) rfl fun _ _ hm => hm

theorem reachable (h : (machine p).Reachable s) : ∀ e, Ordered s e :=
  Machine.Reach.invariant (P := fun s => ∀ e, Ordered s e) (init p)
    (fun _ _ _ _ hs _ hstep => step hs hstep) h

end Ordered

end WsSession

end Pollmux
