import Mathlib.Logic.Function.Basic
import Pollmux.Kit.Cover
import Pollmux.Kit.Machine
import Pollmux.Reliable.Endpoint

/-!
# Two honest endpoints over legs that are cut and resumed

A `Link` is a resumable session seen from both ends. Each direction has a leg, a
first-in first-out queue of data frames and cumulative acks. A leg may be cut at
any moment, which loses any suffix of what is in flight and everything sent on it
later. Each side then stops its legs on its own: it finishes its `nextOut` call,
stops reading, and whatever was on its way to it is lost. Once the client has
stopped it asks to resume with its `recvOffset` (`doResume`); the server, once it
has stopped too, rewinds to that offset and answers with its own
(`ResumeHandler`); the client rewinds to the answer (`resume`). A request may be
repeated and an answer may be lost. New legs start after a completed handshake.

The handshake's outcomes are recorded: `overflowed` says that some replay buffer
outgrew its bound, `refused` that a `resumeOut` refused, `gap` and `badAck` that
`recvIn` or `ack` reported the peer as dishonest. As long as nothing overflowed,
`Inv` holds. Its core is `Flow`, one direction's part: what is queued, taken in
order, extends what the receiver holds without a gap (`Kit.cover`), and on a leg
that is not cut it reaches up to the sender's cursor.
-/

namespace Pollmux

open Kit

/-- The two ends of a session. -/
inductive Side
  | client
  | server
  deriving DecidableEq, Repr

/-- The other end. -/
def Side.peer : Side → Side
  | .client => .server
  | .server => .client

@[simp] theorem Side.peer_peer (e : Side) : e.peer.peer = e := by cases e <;> rfl
@[simp] theorem Side.peer_ne (e : Side) : e.peer ≠ e := by cases e <;> decide
@[simp] theorem Side.ne_peer (e : Side) : e ≠ e.peer := by cases e <;> decide

theorem Side.eq_or_peer (e x : Side) : x = e ∨ x = e.peer := by
  cases e <;> cases x <;> simp [Side.peer]

/-- What travels on a leg: `frameSeqData` and `frameAck`. -/
inductive Msg
  | data (c : Chunk)
  | ack (n : Nat)
  deriving DecidableEq, Repr

/-- The positions a message carries. -/
def Msg.span : Msg → Option (Nat × Nat)
  | .data c => some (c.off, c.bytes.length)
  | .ack _ => none

/-- One direction of a transport: what is in flight, and whether the rest is lost. -/
structure Leg where
  queue : List Msg := []
  cut : Bool := false
  deriving DecidableEq, Repr

/-- A leg nobody reads any more. -/
def Leg.dead : Leg := { cut := true }

/-- What is sent on a cut leg is lost. -/
def Leg.send (l : Leg) (m : Msg) : Leg := if l.cut then l else { l with queue := l.queue ++ [m] }

/-- The positions in flight, in order. -/
def Leg.spans (l : Leg) : List (Nat × Nat) := l.queue.filterMap Msg.span

theorem Leg.send_of_cut {l : Leg} (h : l.cut = true) (m : Msg) : l.send m = l := if_pos h

theorem Leg.send_of_live {l : Leg} (h : l.cut = false) (m : Msg) :
    l.send m = { l with queue := l.queue ++ [m] } := if_neg (by rw [h]; decide)

theorem Leg.send_cut (l : Leg) (m : Msg) : (l.send m).cut = l.cut := by
  unfold Leg.send
  split <;> rfl

/-- A leg holds no message but those it held and the one just sent. -/
theorem Leg.mem_send {l : Leg} {m m' : Msg} (h : m' ∈ (l.send m).queue) : m' ∈ l.queue ∨ m' = m := by
  unfold Leg.send at h
  split at h
  next => exact .inl h
  next => exact (List.mem_append.mp h).imp id List.mem_singleton.mp

/-- One end: its endpoint, the stream its application wrote, whether its legs run, and the acks
its writers have read from the layer and not sent. -/
structure Party where
  ep : Endpoint
  written : Bytes := []
  running : Bool := true
  due : List Nat := []
  deriving DecidableEq, Repr

/-- The party with another state of its layer. -/
def Party.withRl (p : Party) (rl : Reliable) : Party := { p with ep := { p.ep with rl := rl } }

/-- The operations a party performs on its own. The application's go on at any time, the
transport's only while its legs run; a rewind never falls inside a `nextOut` call. -/
def Party.permits (p : Party) : EndOp → Bool
  | .write _ | .read _ | .closeOut | .closeIn | .interruptOut | .nudge => true
  | .nextOut _ | .advance _ | .control .resetAck => p.running
  | .control .rewindToAcked => p.running && p.ep.call.isNone
  | .control _ | .hear _ _ => false

/-- A numbering that takes the replay buffer past its bound. -/
def Endpoint.overflows (e : Endpoint) : EndOp → Bool
  | .advance _ =>
    match e.call with
    | some (.taken bs) => decide ((e.rl.replay ++ bs).length > e.rl.maxReplay)
    | _ => false
  | _ => false

/-- The chunk that `nextOut` returned and the transport has not put on its leg. -/
def Endpoint.held (e : Endpoint) : List (Nat × Nat) :=
  match e.call with
  | some (.returned res) => if res.bytes = [] then [] else [(res.off, res.bytes.length)]
  | _ => []

/-- How far a handshake has come: the offset the client asked with, the one the server answered
with, and whether the client has rewound to it. -/
structure Handshake where
  asked : Option Nat := none
  answered : Option Nat := none
  completed : Bool := false
  deriving DecidableEq, Repr

/-- A session seen from both ends. `leg e` carries what `e` sends. -/
structure Link where
  party : Side → Party
  leg : Side → Leg := fun _ => {}
  shake : Handshake := {}
  overflowed : Bool := false
  refused : Bool := false
  gap : Bool := false
  badAck : Bool := false

/-- What can happen next on a link. -/
inductive LinkEvent
  /-- A party performs an operation of its own. -/
  | own (e : Side) (op : EndOp)
  /-- A writer takes an ack (`takeAck`). -/
  | takeAck (e : Side)
  /-- A request is made out with the current `recvOffsetNow`. -/
  | reportRecv (e : Side)
  /-- A writer sends the `i`th ack it has read. -/
  | sendAck (e : Side) (i : Nat)
  /-- The transport sends the chunk its call returned. -/
  | sendData (e : Side)
  /-- The first message from `e` reaches its peer. -/
  | deliver (e : Side)
  /-- The leg from `e` is cut after the first `k` messages in flight. -/
  | cut (e : Side) (k : Nat)
  /-- A party stops its legs. -/
  | stop (e : Side)
  /-- The client sends a resume request. -/
  | ask
  /-- The server handles it. -/
  | answer
  /-- The client handles the answer. -/
  | accept
  /-- Both sides start new legs. -/
  | start
  deriving DecidableEq, Repr

namespace Link

/-- Replace one party. -/
def setParty (s : Link) (e : Side) (p : Party) : Link :=
  { s with party := Function.update s.party e p }

/-- Replace one leg. -/
def setLeg (s : Link) (e : Side) (l : Leg) : Link := { s with leg := Function.update s.leg e l }

@[simp] theorem setParty_party (s : Link) (e : Side) (p : Party) : (s.setParty e p).party e = p :=
  Function.update_self ..
@[simp] theorem setParty_peer (s : Link) (e : Side) (p : Party) :
    (s.setParty e p).party e.peer = s.party e.peer :=
  Function.update_of_ne e.peer_ne ..
@[simp] theorem setParty_of_peer (s : Link) (e : Side) (p : Party) :
    (s.setParty e.peer p).party e = s.party e :=
  Function.update_of_ne e.ne_peer ..
@[simp] theorem setParty_leg (s : Link) (e : Side) (p : Party) : (s.setParty e p).leg = s.leg := rfl
@[simp] theorem setLeg_party (s : Link) (e : Side) (l : Leg) : (s.setLeg e l).party = s.party := rfl
@[simp] theorem setLeg_leg (s : Link) (e : Side) (l : Leg) : (s.setLeg e l).leg e = l :=
  Function.update_self ..
@[simp] theorem setLeg_peer (s : Link) (e : Side) (l : Leg) :
    (s.setLeg e l).leg e.peer = s.leg e.peer :=
  Function.update_of_ne e.peer_ne ..

@[simp] theorem setLeg_of_peer (s : Link) (e : Side) (l : Leg) :
    (s.setLeg e.peer l).leg e = s.leg e :=
  Function.update_of_ne e.ne_peer ..

theorem setLeg_eta (s : Link) (e : Side) : s.setLeg e (s.leg e) = s := by
  rw [setLeg, Function.update_eq_self]

/-- The peer of `e` takes the first message of the leg from `e`. A message it cannot take ends
its leg. -/
def receive (s : Link) (e : Side) : Option Link :=
  let q := s.party e.peer
  match (s.leg e).queue with
  | [] => none
  | .data c :: rest => do
    let (err, ep) ← q.ep.hear c.off c.bytes
    let s := s.setParty e.peer { q with ep := ep }
    match err with
    | none => some (s.setLeg e { s.leg e with queue := rest })
    | some err => some { s.setLeg e .dead with gap := s.gap || err == .replayGap }
  | .ack n :: rest => do
    let (err, rl) ← q.ep.rl.ack n
    let s := s.setParty e.peer (q.withRl rl)
    match err with
    | none => some (s.setLeg e { s.leg e with queue := rest })
    | some err => some { s.setLeg e .dead with badAck := s.badAck || err == .badAck }

/-- `ResumeHandler`, once the server's transports have let go: an offset it cannot honour breaks
the layer. The handler's earlier check for a broken layer is part of `resumeOut`'s own. -/
def answer (s : Link) : Option Link := do
  let p := s.party .server
  let n ← s.shake.asked
  let (ok, rl) ← p.ep.rl.resumeOut n
  if ok then
    some { s.setParty .server (p.withRl rl) with
      shake := { s.shake with answered := some rl.recvOffsetNow } }
  else
    some { s.setParty .server (p.withRl rl.markBroken) with refused := true }

/-- `resume`, with the offset of the server's answer. -/
def accept (s : Link) : Option Link := do
  let p := s.party .client
  let n ← s.shake.answered
  let (ok, rl) ← p.ep.rl.resumeOut n
  if ok then
    some { s.setParty .client (p.withRl rl) with
      shake := { s.shake with completed := true } }
  else
    some { s with refused := true }

/-- One step of a link. -/
def step (s : Link) : LinkEvent → Option Link
  | .own e op =>
    let p := s.party e
    if p.permits op then
      (p.ep.perform op).map fun ep =>
        { s.setParty e { p with ep := ep, written := p.written ++ p.ep.wrote op } with
          overflowed := s.overflowed || p.ep.overflows op }
    else none
  | .takeAck e =>
    let p := s.party e
    if p.running then
      let (ack, rl) := p.ep.rl.takeAck
      some (s.setParty e { p.withRl rl with due := p.due ++ ack.toList })
    else none
  | .reportRecv e =>
    let p := s.party e
    if p.running then
      some (s.setParty e { p with due := p.due ++ [p.ep.rl.recvOffsetNow] })
    else none
  | .sendAck e i => do
    let p := s.party e
    let n ← p.due[i]?
    some ((s.setParty e { p with due := p.due.eraseIdx i }).setLeg e ((s.leg e).send (.ack n)))
  | .sendData e => do
    let p := s.party e
    let (res, ep) ← p.ep.collect
    let s := s.setParty e { p with ep := ep }
    if res.bytes = [] then some s
    else some (s.setLeg e ((s.leg e).send (.data ⟨res.off, res.bytes⟩)))
  | .deliver e => if (s.party e.peer).running then s.receive e else none
  | .cut e k => some (s.setLeg e { queue := (s.leg e).queue.take k, cut := true })
  | .stop e =>
    let p := s.party e
    if p.running && p.ep.call.isNone then
      some (((s.setParty e { p with running := false, due := [] }).setLeg e
        { s.leg e with cut := true }).setLeg e.peer .dead)
    else none
  | .ask =>
    let p := s.party .client
    if p.running then none
    else some { s with shake := { asked := some p.ep.rl.recvOffsetNow } }
  | .answer => if (s.party .server).running then none else s.answer
  | .accept => if (s.party .client).running then none else s.accept
  | .start =>
    if s.shake.completed then
      some { s with
        party := fun e => { s.party e with running := true }
        leg := fun _ => {}
        shake := {} }
    else none

/-- A session between two new endpoints, its first legs running. -/
def machine (clientMax serverMax : Int) (clientEager serverEager : Bool) :
    Machine Link LinkEvent where
  init :=
    { party := fun
        | .client => { ep := .new clientMax clientEager }
        | .server => { ep := .new serverMax serverEager } }
  step := step

end Link

end Pollmux
