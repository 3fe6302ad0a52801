import Pollmux.Reliable.Link
import Pollmux.Reliable.PrefixSafety

/-!
# Resume requests that arrive late

`ResumeHandler` trusts the offset of the request it is processing, and an honest
client puts its `recvOffset` into each one (`doResume`). But a request that the
client has timed out and repeated may reach the handler after the repetition did,
and `resumeOut` refuses an offset below `ackedOffset`. The handler then ends the
session's resumability.

A `Resumption` is a session downstream, over a `Lane` whose sender is the server.
The network keeps everything: any chunk, acknowledgement or resume request the
client ever sent may reach its receiver at any later time, and again. The server
meanwhile does what its transports do, `nextOut` calls and rewinds included, and
what comes upstream leaves no gap because the client is honest.

While no replay buffer has overflowed, a request ends the session exactly if more
has been acknowledged by then than it reports. As long as each request is
processed before that, all of them are accepted and the next one will be.
-/

namespace Pollmux

open Kit

/-- What `ResumeHandler` answers about a session that it finds, once the transports have let
go: 200 or 409. -/
inductive ResumeAnswer
  | resumed (recvOffset : Nat)
  | conflict (text : String)
  deriving DecidableEq, Repr

/-- `ResumeHandler` from its `isBroken` check on. -/
def Reliable.resumeHandler (r : Reliable) (recvOffset : Nat) : Option (ResumeAnswer × Reliable) :=
  if r.isBroken then some (.conflict "session is no longer resumable", r)
  else do
    let (ok, r') ← r.resumeOut recvOffset
    if ok then some (.resumed r'.recvOffsetNow, r')
    else some (.conflict "recv_offset is outside the replayable range", r'.markBroken)

/-- A session whose client may ask to resume at any time. `requests` and `acks` are the offsets of
every resume request and of every acknowledgement the client ever sent; `condemned` records that
`ResumeHandler` broke the layer. -/
structure Resumption where
  lane : Lane
  requests : List Nat := []
  acks : List Nat := []
  overflowed : Bool := false
  condemned : Bool := false
  deriving DecidableEq, Repr

/-- One step. -/
inductive ResumptionEvent
  /-- The server's application and its transports. -/
  | server (op : EndOp)
  /-- A transport puts what `nextOut` returned on the network. -/
  | send
  /-- Whatever the client's application and its own sending side do. -/
  | client (op : EndOp)
  /-- The client receives the `i`th chunk ever sent. -/
  | deliver (i : Nat)
  /-- The client sends a `ResumeRequest`. -/
  | request
  /-- The client sends an acknowledgement. -/
  | acknowledge
  /-- The server processes an acknowledgement. -/
  | hearAck (n : Nat)
  /-- The server processes a resume request. -/
  | resume (n : Nat)
  deriving DecidableEq, Repr

/-- What the server's layer does for its application and its transports with an honest client:
no offset of the client's is a step of its own, and what the client uploads leaves no gap. -/
def EndOp.routine (recv : Nat) : EndOp → Bool
  | .control (.ack _) | .control (.resumeOut _) | .control .markBroken => false
  | .hear off _ => decide (off ≤ recv)
  | _ => true

namespace Resumption

/-- The server's layer. -/
def rl (s : Resumption) : Reliable := s.lane.sender.rl

/-- How much the client has. -/
def recv (s : Resumption) : Nat := s.lane.receiver.rl.recvOffsetNow

/-- One step. `kickAll` has waited for the transports before `ResumeHandler` looks at the
offset, so no `nextOut` call is in progress then. -/
def step (s : Resumption) : ResumptionEvent → Option Resumption
  | .server op =>
    if op.routine s.rl.recvOffset then
      (s.lane.step (.sender op)).map fun lane =>
        { s with lane := lane, overflowed := s.overflowed || s.lane.sender.overflows op }
    else none
  | .send => (s.lane.step .send).map fun lane => { s with lane := lane }
  | .client op => (s.lane.step (.receiver op)).map fun lane => { s with lane := lane }
  | .deliver i => (s.lane.step (.deliver i)).map fun lane => { s with lane := lane }
  | .request => some { s with requests := s.requests ++ [s.recv] }
  | .acknowledge => some { s with acks := s.acks ++ [s.recv] }
  | .hearAck n =>
    if n ∈ s.acks then
      (s.lane.step (.sender (.control (.ack n)))).map fun lane => { s with lane := lane }
    else none
  | .resume n =>
    if n ∈ s.requests ∧ s.lane.sender.call = none then
      (s.rl.resumeHandler n).map fun (_, rl) =>
        { s with
          lane := { s.lane with sender := { s.lane.sender with rl := rl } }
          condemned := s.condemned || (rl.broken && !s.rl.broken) }
    else none

/-- A new session: replay buffers and eager acks of any setting. -/
def machine (sendMax recvMax : Int) (sendEager recvEager : Bool) :
    Machine Resumption ResumptionEvent where
  init := { lane := (Lane.machine sendMax recvMax sendEager recvEager).init }
  step := step

/-- A resume request is processed before more is acknowledged than it reports. -/
def InTime (s : Resumption) : ResumptionEvent → Prop
  | .resume n => s.rl.ackedOffset ≤ n
  | _ => True

instance (s : Resumption) : DecidablePred (InTime s)
  | .resume n => inferInstanceAs (Decidable (_ ≤ n))
  | .server _ | .send | .client _ | .deliver _ | .request | .acknowledge | .hearAck _ =>
    inferInstanceAs (Decidable True)

end Resumption

namespace Reliable

variable {r r' : Reliable}

/-- What `ResumeHandler` answers: it turns a broken layer down, breaks one that cannot replay
from the offset, and rewinds any other. -/
theorem resumeHandler_spec (h : r.Wf) (n : Nat) :
    (r.broken = true ∧
      r.resumeHandler n = some (.conflict "session is no longer resumable", r)) ∨
    (r.broken = false ∧ (n < r.ackedOffset ∨ n > r.sendOffset) ∧ r.resumeHandler n =
      some (.conflict "recv_offset is outside the replayable range", r.markBroken)) ∨
    (r.broken = false ∧ r.ackedOffset ≤ n ∧ n ≤ r.sendOffset ∧
      r.resumeHandler n = some (.resumed r.recvOffset, r.rewind n)) := by
  unfold resumeHandler isBroken
  cases hb : r.broken with
  | true => exact .inl ⟨rfl, rfl⟩
  | false =>
    rcases resumeOut_spec h n with ⟨hno, heq⟩ | ⟨_, hlo, hhi, heq⟩
    · refine .inr (.inl ⟨rfl, hno.resolve_left (by rw [hb]; exact Bool.false_ne_true), ?_⟩)
      rw [heq]
      rfl
    · refine .inr (.inr ⟨rfl, hlo, hhi, ?_⟩)
      rw [heq]
      rfl

/-- Whatever the offset, the handler only trims the layer. -/
theorem resumeHandler_trims {n : Nat} {answer : ResumeAnswer} (h : r.Wf)
    (hr : r.resumeHandler n = some (answer, r')) : r.Trims r' := by
  rcases resumeHandler_spec h n with ⟨_, heq⟩ | ⟨_, _, heq⟩ | ⟨hb, hlo, hhi, heq⟩ <;>
    cases heq.symm.trans hr
  · exact .refl h
  · exact markBroken_trims h
  · exact ⟨h.rewind hb hlo hhi, rfl, fun _ => ⟨hb, hlo, rfl⟩⟩

/-- It does not touch the other direction. -/
theorem resumeHandler_recvOffset {n : Nat} {answer : ResumeAnswer} (h : r.Wf)
    (hr : r.resumeHandler n = some (answer, r')) : r'.recvOffset = r.recvOffset := by
  rcases resumeHandler_spec h n with ⟨_, heq⟩ | ⟨_, _, heq⟩ | ⟨_, _, _, heq⟩ <;>
    cases heq.symm.trans hr <;> rfl

end Reliable

/-- Routine work that overflows nothing leaves an unbroken layer unbroken and acknowledges
nothing. -/
theorem Endpoint.perform_routine {e e' : Endpoint} {op : EndOp} (h : e.rl.Wf)
    (hop : op.routine e.rl.recvOffset = true) (hp : e.perform op = some e')
    (hb : e.rl.broken = false) (hfit : e.overflows op = false) :
    e'.rl.broken = false ∧ e'.rl.ackedOffset = e.rl.ackedOffset := by
  cases performs hp with
  | aside => exact ⟨hb, rfl⟩
  | @nextOut dst _ _ _ hstart =>
    rcases Reliable.nextOutStart_spec h dst with ⟨_, _, heq⟩ | ⟨_, heq⟩ <;>
      cases heq.symm.trans hstart <;> exact ⟨hb, rfl⟩
  | advance hcall hadv =>
    rcases Reliable.advance_cases hadv with ⟨rfl, _⟩ | ⟨bs, rfl, _, rfl, _⟩
    · exact ⟨hb, rfl⟩
    · simp only [overflows, hcall, decide_eq_false_iff_not, Nat.not_lt] at hfit
      exact Reliable.number_of_fit hb hfit
  | @control c _ hc =>
    cases c with
    | ack n => cases hop
    | resumeOut n => cases hop
    | markBroken => cases hop
    | rewindToAcked =>
      cases hc
      rw [Reliable.rewindToAcked, if_neg (by rw [hb]; exact Bool.false_ne_true)]
      exact ⟨hb, rfl⟩
    | takeAck =>
      cases hc
      rw [(Reliable.takeAck_spec e.rl).2]
      exact ⟨hb, rfl⟩
    | resetAck => cases hc; exact ⟨hb, rfl⟩
  | @hear off p _ hr =>
    have hoff := of_decide_eq_true hop
    rcases Reliable.recvIn_spec h e.inp off p with
      ⟨hgap, _⟩ | ⟨_, heq⟩ | ⟨_, _, _, heq⟩ | ⟨_, _, _, heq⟩
    · exact absurd hoff (Nat.not_le.mpr hgap)
    all_goals
      cases heq.symm.trans hr
      exact ⟨hb, rfl⟩

namespace Resumption

/-- **What holds while no replay buffer has overflowed**, if every request came in time. -/
structure Live (s : Resumption) : Prop where
  unbroken : s.rl.broken = false
  uncondemned : s.condemned = false
  acked : s.rl.ackedOffset ≤ s.recv

/-- The invariant of every run whose requests came in time. -/
structure Inv (s : Resumption) : Prop where
  sound : s.lane.Sound
  numbered : s.lane.Numbered
  requests : ∀ n ∈ s.requests, n ≤ s.recv
  acks : ∀ n ∈ s.acks, n ≤ s.recv
  live : s.overflowed = false → s.Live

namespace Inv

variable {s s' : Resumption}

theorem init (sendMax recvMax : Int) (sendEager recvEager : Bool) :
    Inv (machine sendMax recvMax sendEager recvEager).init where
  sound := .init sendMax recvMax sendEager recvEager
  numbered := .init sendMax recvMax sendEager recvEager
  requests := nofun
  acks := nofun
  live _ := by
    have hwf := Endpoint.new_wf sendMax sendEager
    obtain ⟨hsend, _, _, hb⟩ := Endpoint.new_zero sendMax sendEager
    refine ⟨hb, rfl, ?_⟩
    exact Nat.le_trans (Nat.le_trans hwf.acked_le hwf.cursor_le)
      (Nat.le_trans (Nat.le_of_eq hsend) (Nat.zero_le _))

/-- A step of the lane keeps all but the last part by itself. -/
theorem lane_step (h : Inv s) {ev : LaneEvent} {lane : Lane} {overflowed : Bool}
    (hs : s.lane.step ev = some lane)
    (hlive : overflowed = false → Live { s with lane := lane, overflowed := overflowed }) :
    Inv { s with lane := lane, overflowed := overflowed } where
  sound := h.sound.step hs
  numbered := h.numbered.step h.sound hs
  requests n hn := Nat.le_trans (h.requests n hn) (h.sound.recv_le hs)
  acks n hn := Nat.le_trans (h.acks n hn) (h.sound.recv_le hs)
  live := hlive

/-- So does one that leaves the server's layer alone. -/
theorem aside (h : Inv s) {ev : LaneEvent} {lane : Lane} (hs : s.lane.step ev = some lane)
    (hrl : lane.sender.rl = s.rl) : Inv { s with lane := lane } := by
  refine h.lane_step hs fun hfit => ?_
  have hlive := h.live hfit
  refine ⟨(congrArg Reliable.broken hrl).trans hlive.unbroken, hlive.uncondemned, ?_⟩
  show lane.sender.rl.ackedOffset ≤ _
  rw [hrl]
  exact Nat.le_trans hlive.acked (h.sound.recv_le hs)

/-- The server's application and transports go on. -/
theorem server_step (h : Inv s) {op : EndOp} {lane : Lane}
    (hop : op.routine s.rl.recvOffset = true) (hs : s.lane.step (.sender op) = some lane) :
    Inv { s with lane := lane, overflowed := s.overflowed || s.lane.sender.overflows op } := by
  refine h.lane_step hs fun hfit => ?_
  obtain ⟨hfit, hover⟩ := Bool.or_eq_false_iff.mp hfit
  have hlive := h.live hfit
  obtain ⟨e, hp, rfl⟩ := Option.map_eq_some_iff.mp hs
  obtain ⟨hb, hacked⟩ :=
    Endpoint.perform_routine h.sound.sending.sends.wf hop hp hlive.unbroken hover
  exact ⟨hb, hlive.uncondemned, Nat.le_trans (Nat.le_of_eq hacked) hlive.acked⟩

/-- The client has what it acknowledges, so the server has sent it. -/
theorem ack_step (h : Inv s) {n : Nat} {lane : Lane} (hn : n ∈ s.acks)
    (hs : s.lane.step (.sender (.control (.ack n))) = some lane) :
    Inv { s with lane := lane } := by
  refine h.lane_step hs fun hfit => ?_
  have hlive := h.live hfit
  have hrecv := h.acks n hn
  have hsent : n ≤ s.rl.sendOffset := Nat.le_trans hrecv h.numbered.recv
  obtain ⟨e, hp, rfl⟩ := Option.map_eq_some_iff.mp hs
  obtain ⟨rl, hc, rfl⟩ := Option.map_eq_some_iff.mp hp
  obtain ⟨⟨err, rl'⟩, ha, rfl⟩ := Option.map_eq_some_iff.mp hc
  rcases Reliable.ack_spec h.sound.sending.sends.wf n with
    ⟨hbad, _⟩ | ⟨_, _, heq⟩ | ⟨_, _, _, heq⟩
  · exact absurd hsent (Nat.not_le.mpr hbad)
  · cases heq.symm.trans ha
    exact ⟨hlive.unbroken, hlive.uncondemned, hlive.acked⟩
  · cases heq.symm.trans ha
    exact ⟨hlive.unbroken, hlive.uncondemned, hrecv⟩

/-- **A request in time is granted**, however late it is. -/
theorem granted (h : Inv s) (hfit : s.overflowed = false) {n : Nat} (hn : n ≤ s.recv)
    (hin : s.rl.ackedOffset ≤ n) :
    s.rl.resumeHandler n = some (.resumed s.rl.recvOffset, s.rl.rewind n) := by
  have hb := (h.live hfit).unbroken
  have hsent : n ≤ s.rl.sendOffset := Nat.le_trans hn h.numbered.recv
  rcases Reliable.resumeHandler_spec h.sound.sending.sends.wf n with
    ⟨hbroken, _⟩ | ⟨_, hout, _⟩ | ⟨_, _, _, heq⟩
  · exact Bool.noConfusion (hb.symm.trans hbroken)
  · have hno : ¬ (n < s.rl.ackedOffset ∨ n > s.rl.sendOffset) := by omega
    exact absurd hout hno
  · exact heq

theorem resume_step (h : Inv s) {n : Nat} {answer : ResumeAnswer} {rl : Reliable}
    (hn : n ∈ s.requests) (hin : s.rl.ackedOffset ≤ n)
    (hr : s.rl.resumeHandler n = some (answer, rl)) :
    Inv { s with
      lane := { s.lane with sender := { s.lane.sender with rl := rl } }
      condemned := s.condemned || (rl.broken && !s.rl.broken) } := by
  have ht := Reliable.resumeHandler_trims h.sound.sending.sends.wf hr
  have hsend : rl.sendOffset = s.lane.sender.rl.sendOffset := ht.sendOffset
  refine ⟨⟨h.sound.sending.trims ht, h.sound.honest, h.sound.holds⟩,
    ⟨hsend ▸ h.numbered.recv, hsend ▸ h.numbered.flight, hsend ▸ h.numbered.result⟩,
    h.requests, h.acks, fun hfit => ?_⟩
  have hlive := h.live hfit
  have hrecv := h.requests n hn
  cases (h.granted hfit hrecv hin).symm.trans hr
  refine ⟨hlive.unbroken, ?_, hrecv⟩
  show (s.condemned || (s.rl.broken && !s.rl.broken)) = false
  rw [hlive.uncondemned, Bool.and_not_self, Bool.or_false]

/-- **Every step keeps the invariant, if a request comes in time.** -/
theorem step {ev : ResumptionEvent} (h : Inv s) (hin : s.InTime ev) (hs : s.step ev = some s') :
    Inv s' := by
  cases ev with
  | server op =>
    simp only [Resumption.step] at hs
    split at hs
    next hop =>
      obtain ⟨lane, hl, rfl⟩ := Option.map_eq_some_iff.mp hs
      exact h.server_step hop hl
    next => cases hs
  | send =>
    obtain ⟨lane, hl, rfl⟩ := Option.map_eq_some_iff.mp hs
    refine h.aside hl ?_
    cases Lane.moves_of_step hl with
    | send hc =>
      obtain ⟨-, rfl⟩ := Endpoint.collected hc
      rfl
  | client op =>
    obtain ⟨lane, hl, rfl⟩ := Option.map_eq_some_iff.mp hs
    refine h.aside hl ?_
    cases Lane.moves_of_step hl with
    | receiver => rfl
  | deliver i =>
    obtain ⟨lane, hl, rfl⟩ := Option.map_eq_some_iff.mp hs
    refine h.aside hl ?_
    cases Lane.moves_of_step hl with
    | deliver => rfl
  | request =>
    cases hs
    refine ⟨h.sound, h.numbered, ?_, h.acks,
      fun hfit => ⟨(h.live hfit).unbroken, (h.live hfit).uncondemned, (h.live hfit).acked⟩⟩
    exact List.forall_mem_append.mpr ⟨h.requests, List.forall_mem_singleton.mpr (Nat.le_refl _)⟩
  | acknowledge =>
    cases hs
    refine ⟨h.sound, h.numbered, h.requests, ?_,
      fun hfit => ⟨(h.live hfit).unbroken, (h.live hfit).uncondemned, (h.live hfit).acked⟩⟩
    exact List.forall_mem_append.mpr ⟨h.acks, List.forall_mem_singleton.mpr (Nat.le_refl _)⟩
  | hearAck n =>
    simp only [Resumption.step] at hs
    split at hs
    next hn =>
      obtain ⟨lane, hl, rfl⟩ := Option.map_eq_some_iff.mp hs
      exact h.ack_step hn hl
    next => cases hs
  | resume n =>
    simp only [Resumption.step] at hs
    split at hs
    next hn =>
      obtain ⟨⟨answer, rl⟩, hr, rfl⟩ := Option.map_eq_some_iff.mp hs
      exact h.resume_step hn.1 hin hr
    next => cases hs

theorem reachable {sendMax recvMax : Int} {sendEager recvEager : Bool}
    (h : (machine sendMax recvMax sendEager recvEager).Reach InTime s) : Inv s :=
  Machine.Reach.invariant (init sendMax recvMax sendEager recvEager)
    (fun _ _ _ _ hi hin hstep => hi.step hin hstep) h

/-- A request that comes after more was acknowledged than it reports condemns the session. -/
theorem condemns (h : Inv s) (hfit : s.overflowed = false) {n : Nat} (hn : n ∈ s.requests)
    (hcall : s.lane.sender.call = none) :
    ∃ s', s.step (.resume n) = some s' ∧ (s'.condemned = true ↔ n < s.rl.ackedOffset) := by
  have hlive := h.live hfit
  have hb := hlive.unbroken
  have hsent : n ≤ s.rl.sendOffset := Nat.le_trans (h.requests n hn) h.numbered.recv
  simp only [Resumption.step, if_pos (And.intro hn hcall)]
  by_cases hlate : n < s.rl.ackedOffset
  · rcases Reliable.resumeHandler_spec h.sound.sending.sends.wf n with
      ⟨hbroken, _⟩ | ⟨_, _, heq⟩ | ⟨_, hlo, _, _⟩
    · exact Bool.noConfusion (hb.symm.trans hbroken)
    · refine ⟨_, congrArg (Option.map _) heq, fun _ => hlate, fun _ => ?_⟩
      simp [hb]
    · exact absurd hlate (Nat.not_lt.mpr hlo)
  · have heq := h.granted hfit (h.requests n hn) (Nat.le_of_not_lt hlate)
    refine ⟨_, congrArg (Option.map _) heq, fun hc => ?_, fun hlt => absurd hlt hlate⟩
    simp [Reliable.rewind, hb, hlive.uncondemned] at hc

end Inv

/-- **Late resume requests are harmless in time.** In every run in which nothing overflows and
each request is processed while no more is acknowledged than it reports, `ResumeHandler` breaks
nothing, the client's current handshake would be granted from exactly what it has, and of the
requests still on their way it is those that report less than is acknowledged that would end the
session. -/
theorem late_requests_granted_in_time {sendMax recvMax : Int} {sendEager recvEager : Bool}
    {s : Resumption} (h : (machine sendMax recvMax sendEager recvEager).Reach InTime s)
    (hfit : s.overflowed = false) :
    s.condemned = false ∧ s.rl.broken = false ∧
      s.rl.resumeHandler s.recv = some (.resumed s.rl.recvOffset, s.rl.rewind s.recv) ∧
      ∀ n ∈ s.requests, s.lane.sender.call = none →
        ∃ s', s.step (.resume n) = some s' ∧ (s'.condemned = true ↔ n < s.rl.ackedOffset) := by
  have hi := Inv.reachable h
  have hlive := hi.live hfit
  exact ⟨hlive.uncondemned, hlive.unbroken, hi.granted hfit (Nat.le_refl _) hlive.acked,
    fun n hn hcall => hi.condemns hfit hn hcall⟩

/-- The client asks to resume, times the request out and asks again; the repetition is granted, and
a byte reaches the client. -/
def repeatedRequest : List ResumptionEvent :=
  [.request, .request, .resume 0, .server (.write [7]), .server (.nextOut 64),
   .server (.advance false), .server (.advance true), .server (.advance false), .send, .deliver 0]

/-- The first request may come even now, because nothing is acknowledged yet. -/
theorem late_requests_granted_unacknowledged :
    ((machine 64 64 true true).final (repeatedRequest ++ [.resume 0])).recv = 1 ∧
      ((machine 64 64 true true).final (repeatedRequest ++ [.resume 0])).condemned = false := by
  have hreach : (machine 64 64 true true).Reach InTime
      ((machine 64 64 true true).final (repeatedRequest ++ [.resume 0])) :=
    Machine.reach_final (by decide)
  exact ⟨by decide, (late_requests_granted_in_time hreach (by decide)).1⟩

/-- **A late request ends an honest session.** The client acknowledges the byte, the first request
comes, and the handshake with what the client has by then is turned down; nothing has
overflowed. -/
theorem late_request_condemns :
    let s := (machine 64 64 true true).final
      (repeatedRequest ++ [.acknowledge, .hearAck 1, .resume 0])
    (machine 64 64 true true).Reachable s ∧ s.overflowed = false ∧ s.condemned = true ∧
      s.rl.broken = true ∧ s.recv = 1 ∧
      s.rl.resumeHandler s.recv = some (.conflict "session is no longer resumable", s.rl) := by
  refine ⟨Machine.reachable_final _ _, ?_⟩
  decide

end Resumption

end Pollmux
