import Pollmux.Kit.Machine
import Pollmux.Reliable.Endpoint

/-!
# Prefix safety of one direction

A `Lane` is one direction between two endpoints over a network that loses,
duplicates, reorders and delays. Every chunk a `nextOut` call ever returned stays
in `flight`, and any of them may be delivered at any time, any number of times or
never; transports come and go without clearing it. Both endpoints meanwhile
perform whatever they like: acknowledgements, resumes and rewinds carry any
offset and may fall between any two regions of a call.

What carries the proof is that a chunk is honest for ever: it is the slice of the
written stream at its own offset, and the stream only grows. So the receiver can
take any chunk at any time and still hold a prefix.
-/

namespace Pollmux

open Kit

/-- One direction between two endpoints. `flight` is every chunk ever sent; `written` and
`delivered` record what went into the sender's `out` and into the receiver's `in`. -/
structure Lane where
  sender : Endpoint
  receiver : Endpoint
  flight : List Chunk := []
  written : Bytes := []
  delivered : Bytes := []
  deriving DecidableEq, Repr

/-- What can happen next on a lane. -/
inductive LaneEvent
  /-- The sending endpoint performs an operation. -/
  | sender (op : EndOp)
  /-- The sending transport puts the result of its call on the network. -/
  | send
  /-- The receiving endpoint performs an operation of its own. -/
  | receiver (op : EndOp)
  /-- The network delivers the `i`th chunk ever sent. -/
  | deliver (i : Nat)
  deriving DecidableEq, Repr

/-- A data frame from the peer: the one operation only the network performs on the receiver. -/
def EndOp.isHear : EndOp → Bool
  | .hear _ _ => true
  | _ => false

namespace Lane

/-- One step of a lane. -/
def step (s : Lane) : LaneEvent → Option Lane
  | .sender op => (s.sender.perform op).map fun e =>
      { s with sender := e, written := s.written ++ s.sender.wrote op }
  | .send => s.sender.collect.map fun (res, e) =>
      { s with
        sender := e
        flight := if res.bytes = [] then s.flight else s.flight ++ [⟨res.off, res.bytes⟩] }
  | .receiver op =>
    if op.isHear then none
    else (s.receiver.perform op).map fun e => { s with receiver := e }
  | .deliver i => do
    let c ← s.flight[i]?
    let (_, e) ← s.receiver.hear c.off c.bytes
    some { s with
      receiver := e
      delivered := s.delivered ++ e.inp.buf.drop s.receiver.inp.buf.length }

/-- A lane between two new endpoints with replay buffers and eager acks of any setting. -/
def machine (sendMax recvMax : Int) (sendEager recvEager : Bool) : Machine Lane LaneEvent where
  init := { sender := .new sendMax sendEager, receiver := .new recvMax recvEager }
  step := step

/-- **What one step of a lane does.** -/
inductive Moves (s : Lane) : LaneEvent → Lane → Prop
  | sender {op : EndOp} {e : Endpoint} (hp : s.sender.perform op = some e) :
      Moves s (.sender op) { s with sender := e, written := s.written ++ s.sender.wrote op }
  | send {res : NextResult} {e : Endpoint} (hc : s.sender.collect = some (res, e)) :
      Moves s .send { s with
        sender := e
        flight := if res.bytes = [] then s.flight else s.flight ++ [⟨res.off, res.bytes⟩] }
  | receiver {op : EndOp} {e : Endpoint} (hop : ∀ off p, op ≠ .hear off p)
      (hp : s.receiver.perform op = some e) : Moves s (.receiver op) { s with receiver := e }
  | deliver {i : Nat} {c : Chunk} {err : Option Err} {e : Endpoint} (hc : c ∈ s.flight)
      (hh : s.receiver.hear c.off c.bytes = some (err, e)) :
      Moves s (.deliver i) { s with
        receiver := e
        delivered := s.delivered ++ e.inp.buf.drop s.receiver.inp.buf.length }

theorem moves_of_step {s s' : Lane} {ev : LaneEvent} (hs : s.step ev = some s') :
    Moves s ev s' := by
  cases ev with
  | sender op =>
    obtain ⟨e, hp, rfl⟩ := Option.map_eq_some_iff.mp hs
    exact .sender hp
  | send =>
    obtain ⟨⟨res, e⟩, hc, rfl⟩ := Option.map_eq_some_iff.mp hs
    exact .send hc
  | receiver op =>
    simp only [step] at hs
    split at hs
    next => cases hs
    next hop =>
      obtain ⟨e, hp, rfl⟩ := Option.map_eq_some_iff.mp hs
      refine .receiver ?_ hp
      rintro off p rfl
      exact hop rfl
  | deliver i =>
    simp only [step, Option.bind_eq_bind, Option.bind_eq_some_iff] at hs
    obtain ⟨c, hget, ⟨err, e⟩, hh, heq⟩ := hs
    cases heq
    exact .deliver (List.mem_of_getElem? hget) hh

/-- **The lane invariant**: the sender sends the written stream, everything in flight is a slice
of it, and the receiver holds its beginning. -/
structure Sound (s : Lane) : Prop where
  sending : s.sender.Sending s.written
  honest : ∀ c ∈ s.flight, SliceAt s.written c.off c.bytes
  holds : Holds s.written s.receiver.rl s.delivered

namespace Sound

variable {s s' : Lane}

theorem init (sendMax recvMax : Int) (sendEager recvEager : Bool) :
    Sound (machine sendMax recvMax sendEager recvEager).init where
  sending := .new sendMax sendEager
  honest := nofun
  holds := .fresh (Endpoint.new_wf recvMax recvEager) (Endpoint.new_zero recvMax recvEager).2.1

/-- The sender's operations may extend the stream; what is in flight or delivered stays
honest. -/
theorem sender_step (h : Sound s) {op : EndOp} {e : Endpoint} (hp : s.sender.perform op = some e) :
    Sound { s with sender := e, written := s.written ++ s.sender.wrote op } where
  sending := h.sending.perform hp
  honest c hc := (h.honest c hc).append_stream _
  holds := h.holds.append_stream _

theorem send_step (h : Sound s) {res : NextResult} {e : Endpoint}
    (hc : s.sender.collect = some (res, e)) :
    Sound { s with
      sender := e
      flight := if res.bytes = [] then s.flight else s.flight ++ [⟨res.off, res.bytes⟩] } := by
  obtain ⟨hsending, hslice⟩ := h.sending.collect hc
  refine ⟨hsending, ?_, h.holds⟩
  intro c hmem
  dsimp only at hmem
  split at hmem
  next => exact h.honest c hmem
  next =>
    rcases List.mem_append.mp hmem with hold | hnew
    · exact h.honest c hold
    · rw [List.mem_singleton.mp hnew]
      exact hslice

theorem receiver_step (h : Sound s) {op : EndOp} {e : Endpoint} (hop : ∀ off p, op ≠ .hear off p)
    (hp : s.receiver.perform op = some e) : Sound { s with receiver := e } := by
  obtain ⟨hwf, hrecv⟩ := Endpoint.perform_recvOffset h.holds.wf hop hp
  exact ⟨h.sending, h.honest, h.holds.congr hwf hrecv⟩

/-- A chunk sent at any time extends the receiver's bytes by the next bytes of the stream, if
by anything. -/
theorem deliver_step (h : Sound s) {c : Chunk} {err : Option Err} {e : Endpoint}
    (hc : c ∈ s.flight) (hh : s.receiver.hear c.off c.bytes = some (err, e)) :
    Sound { s with
      receiver := e
      delivered := s.delivered ++ e.inp.buf.drop s.receiver.inp.buf.length } := by
  obtain ⟨res, hr, heq⟩ := Option.bind_eq_some_iff.mp hh
  cases heq
  obtain ⟨fresh, hbuf, hholds⟩ := h.holds.recvIn (h.honest c hc) hr
  refine ⟨h.sending, h.honest, ?_⟩
  rw [hbuf, List.drop_left]
  exact hholds

/-- **Every step of a lane keeps the invariant.** -/
theorem step {ev : LaneEvent} (h : Sound s) (hs : s.step ev = some s') : Sound s' := by
  cases moves_of_step hs with
  | sender hp => exact h.sender_step hp
  | send hc => exact h.send_step hc
  | receiver hop hp => exact h.receiver_step hop hp
  | deliver hc hh => exact h.deliver_step hc hh

/-- The receiver never loses what it has. -/
theorem recv_le {ev : LaneEvent} (h : Sound s) (hs : s.step ev = some s') :
    s.receiver.rl.recvOffset ≤ s'.receiver.rl.recvOffset := by
  cases moves_of_step hs with
  | sender | send => exact Nat.le_refl _
  | receiver hop hp => exact Nat.le_of_eq (Endpoint.perform_recvOffset h.holds.wf hop hp).2.symm
  | deliver _ hh => exact (Endpoint.hear_recvOffset h.holds.wf hh).1

theorem reachable {sendMax recvMax : Int} {sendEager recvEager : Bool}
    (h : (machine sendMax recvMax sendEager recvEager).Reachable s) : Sound s :=
  Machine.Reach.invariant (init sendMax recvMax sendEager recvEager)
    (fun _ _ _ _ hs _ hstep => hs.step hstep) h

end Sound

/-- **Nothing has an end past what the sender has numbered.** -/
structure Numbered (s : Lane) : Prop where
  recv : s.receiver.rl.recvOffset ≤ s.sender.rl.sendOffset
  flight : ∀ c ∈ s.flight, c.off + c.bytes.length ≤ s.sender.rl.sendOffset
  result : ∀ res, s.sender.call = some (.returned res) →
    res.off + res.bytes.length ≤ s.sender.rl.sendOffset

namespace Numbered

variable {s s' : Lane}

theorem init (sendMax recvMax : Int) (sendEager recvEager : Bool) :
    Numbered (machine sendMax recvMax sendEager recvEager).init where
  recv := Nat.le_trans (Nat.le_of_eq (Endpoint.new_zero recvMax recvEager).2.1) (Nat.zero_le _)
  flight := nofun
  result := nofun

/-- Numbers are given out and never taken back. -/
theorem sender_step (h : Numbered s) (hsound : Sound s) {op : EndOp} {e : Endpoint}
    (hp : s.sender.perform op = some e) :
    Numbered { s with sender := e, written := s.written ++ s.sender.wrote op } := by
  obtain ⟨hsend, hres⟩ := Endpoint.perform_numbered hsound.sending.sends.wf hp
  refine ⟨Nat.le_trans h.recv hsend, fun c hc => Nat.le_trans (h.flight c hc) hsend, ?_⟩
  intro res hcall
  rcases hres res hcall with hold | hnew
  · exact Nat.le_trans (h.result res hold) hsend
  · exact hnew

/-- The sender's layer is replaced by one that has numbered as much. -/
theorem relayer (h : Numbered s) {r : Reliable} (hsend : r.sendOffset = s.sender.rl.sendOffset) :
    Numbered { s with sender := { s.sender with rl := r } } where
  recv := hsend ▸ h.recv
  flight c hc := hsend ▸ h.flight c hc
  result res hres := hsend ▸ h.result res hres

/-- The result of the sender's call is collected, and goes into flight or not. -/
theorem collect_step (h : Numbered s) {res : NextResult} {e : Endpoint} {flight : List Chunk}
    (hc : s.sender.collect = some (res, e))
    (hflight : ∀ c ∈ flight, c ∈ s.flight ∨ c = ⟨res.off, res.bytes⟩) :
    Numbered { s with sender := e, flight := flight } := by
  obtain ⟨hcall, rfl⟩ := Endpoint.collected hc
  refine ⟨h.recv, fun c hmem => ?_, nofun⟩
  rcases hflight c hmem with hold | rfl
  · exact h.flight c hold
  · exact h.result res hcall

/-- The receiver gets no further than what the sender has numbered. -/
theorem receiver_step (h : Numbered s) {e : Endpoint} (delivered : Bytes)
    (hle : e.rl.recvOffset ≤ s.sender.rl.sendOffset) :
    Numbered { s with receiver := e, delivered := delivered } :=
  ⟨hle, h.flight, h.result⟩

/-- A data frame from the flight ends within what is numbered. -/
theorem heard_le (h : Numbered s) (hsound : Sound s) {c : Chunk} {err : Option Err} {e : Endpoint}
    (hc : c ∈ s.flight) (hh : s.receiver.hear c.off c.bytes = some (err, e)) :
    e.rl.recvOffset ≤ s.sender.rl.sendOffset :=
  Nat.le_trans (Endpoint.hear_recvOffset hsound.holds.wf hh).2
    (Nat.max_le.mpr ⟨h.recv, h.flight c hc⟩)

/-- Every step of a lane keeps it so. -/
theorem step {ev : LaneEvent} (h : Numbered s) (hsound : Sound s) (hs : s.step ev = some s') :
    Numbered s' := by
  cases moves_of_step hs with
  | sender hp => exact h.sender_step hsound hp
  | send hc =>
    refine h.collect_step hc fun c hmem => ?_
    split at hmem
    next => exact .inl hmem
    next => exact (List.mem_append.mp hmem).imp id List.mem_singleton.mp
  | receiver hop hp =>
    have hrecv := (Endpoint.perform_recvOffset hsound.holds.wf hop hp).2
    exact h.receiver_step _ (Nat.le_trans (Nat.le_of_eq hrecv) h.recv)
  | deliver hc hh => exact h.receiver_step _ (h.heard_le hsound hc hh)

end Numbered

/-- Every offset of a reachable lane counts written bytes. So none wraps in 64 bits while fewer
than 2^64 bytes are written. -/
theorem offsets_le_written {sendMax recvMax : Int} {sendEager recvEager : Bool} {s : Lane}
    (h : (machine sendMax recvMax sendEager recvEager).Reachable s) :
    s.sender.rl.sendOffset ≤ s.written.length ∧ s.receiver.rl.recvOffset ≤ s.written.length ∧
      ∀ c ∈ s.flight, c.off + c.bytes.length ≤ s.written.length :=
  have hs := Sound.reachable h
  ⟨hs.sending.sends.sent_le, hs.holds.recv_le, fun c hc => (hs.honest c hc).end_le⟩

/-- **Prefix safety.** In every reachable state of a lane, what was written to the receiver's
`in` is a prefix of what was written to the sender's `out`, and `recvOffset` is its length. -/
theorem delivered_prefix_written {sendMax recvMax : Int} {sendEager recvEager : Bool} {s : Lane}
    (h : (machine sendMax recvMax sendEager recvEager).Reachable s) :
    s.delivered <+: s.written ∧ s.receiver.rl.recvOffset = s.delivered.length :=
  (Sound.reachable h).holds.prefix_length

/-- A run in which the first chunk is overtaken by its own replay in two smaller ones and then
arrives twice, late. -/
def overtakenRun : List LaneEvent :=
  [.sender (.write [1, 2]), .sender (.nextOut 8), .sender (.advance false),
   .sender (.advance true), .sender (.advance false), .send,
   .sender (.control (.resumeOut 0)), .sender (.nextOut 1), .send, .sender (.nextOut 8), .send,
   .sender (.write [3]), .deliver 1, .deliver 2, .deliver 0, .deliver 0]

/-- `overtakenRun` ends with both bytes held once and the third still on its way. -/
theorem overtakenRun_prefix :
    ((machine 8 8 true true).final overtakenRun).delivered = [1, 2] ∧
      ((machine 8 8 true true).final overtakenRun).written = [1, 2, 3] ∧
      ((machine 8 8 true true).final overtakenRun).delivered <+:
        ((machine 8 8 true true).final overtakenRun).written ∧
      ((machine 8 8 true true).final overtakenRun).receiver.rl.recvOffset =
        ((machine 8 8 true true).final overtakenRun).delivered.length :=
  ⟨by decide, by decide, delivered_prefix_written (Machine.reachable_final _ _)⟩

end Lane

end Pollmux
