import Pollmux.Reliable.PrefixSafety

/-!
# Batch polls recover what was lost

The downstream direction of a resumable session that polls in batches, with no
resume handshake: `pollBatchResumable` (`batch.go`) on the server, regions and
all, against an honest client's `doBatchPoll`. The bytes travel over a `Lane`
whose sender is the server.

The network keeps everything. The server may process any poll the client ever
sent, at any time and again and again, one at a time because a poll owns the
direction while it runs; acknowledgements on uploads and ack frames are replayed
the same way. A response may be dropped by a cancelled handler, lost, truncated
(its length is declared, so that is a loss) or delivered at any later time.

What makes it work is that a handler acknowledges, rewinds to what is
acknowledged and only then reads on: until `nextOut` has picked a chunk the
cursor stands at `ackedOffset`, or nothing unacknowledged was ever numbered. And
what is acknowledged the client has. So a chunk never starts past what the client
has, no matter how late it arrives.
-/

namespace Pollmux

open Kit

/-- Where the poll that owns the direction is. -/
inductive PollPhase
  /-- No poll is attached. -/
  | idle
  /-- About to call `ack` with the request's offset. -/
  | acking (n : Nat)
  /-- About to call `rewindToAcked`. -/
  | rewinding
  /-- About to call `nextOut`. -/
  | calling
  | inNext
  deriving DecidableEq, Repr

/-- A session that downloads in batches. `polls` and `acks` are the offsets of every poll and of
every other acknowledgement the client ever sent; `gap` records that its `recvIn` reported one. -/
structure BatchSession where
  lane : Lane
  phase : PollPhase := .idle
  polls : List Nat := []
  acks : List Nat := []
  gap : Bool := false
  deriving DecidableEq, Repr

/-- One step. -/
inductive BatchEvent
  /-- Anything else that goes on around the server's layer. -/
  | server (op : EndOp)
  /-- Whatever the client's application and its own sending side do. -/
  | client (op : EndOp)
  /-- The client sends a poll. -/
  | poll
  /-- The client sends an acknowledgement with an upload or as a frame. -/
  | acknowledge
  /-- The server starts to process a poll with the offset `n`. -/
  | serve (n : Nat)
  /-- The handler finds its context done before it touches the layer. -/
  | cancelled
  | ack
  | rewind
  | call (dst : Nat)
  | advance (fired : Bool)
  /-- `nextOut` has returned; the handler answers, unless its context is done. -/
  | respond (done : Bool)
  /-- The server processes another acknowledgement. -/
  | hearAck (n : Nat)
  /-- The client reads the `i`th response ever sent. -/
  | deliver (i : Nat)
  deriving DecidableEq, Repr

/-- What leaves the sending side of the server's layer to its polls and acknowledgements. -/
def EndOp.leavesOut : EndOp → Bool
  | .nextOut _ | .advance _ | .control (.ack _) | .control (.resumeOut _)
  | .control .rewindToAcked => false
  | _ => true

namespace BatchSession

/-- The server's layer. -/
def rl (s : BatchSession) : Reliable := s.lane.sender.rl

/-- How much the client has. -/
def recv (s : BatchSession) : Nat := s.lane.receiver.rl.recvOffset

/-- The server's layer is replaced. -/
def withRl (s : BatchSession) (rl : Reliable) : BatchSession :=
  { s with lane := { s.lane with sender := { s.lane.sender with rl := rl } } }

/-- One step; the client refuses a response longer than `maxFrame`. -/
def step (maxFrame : Nat) (s : BatchSession) : BatchEvent → Option BatchSession
  | .server op =>
    if op.leavesOut then (s.lane.step (.sender op)).map fun lane => { s with lane := lane } else none
  | .client op => (s.lane.step (.receiver op)).map fun lane => { s with lane := lane }
  | .poll => some { s with polls := s.polls ++ [s.recv] }
  | .acknowledge => some { s with acks := s.acks ++ [s.recv] }
  | .serve n => if s.phase = .idle ∧ n ∈ s.polls then some { s with phase := .acking n } else none
  | .cancelled =>
    match s.phase with
    | .acking _ => some { s with phase := .idle }
    | _ => none
  | .ack =>
    match s.phase with
    | .acking n => (s.rl.ack n).map fun (err, rl) =>
        { s.withRl rl with phase := if err = none then .rewinding else .idle }
    | _ => none
  | .rewind =>
    if s.phase = .rewinding then some { s.withRl s.rl.rewindToAcked with phase := .calling } else none
  | .call dst =>
    if s.phase = .calling then
      (s.lane.step (.sender (.nextOut dst))).map fun lane => { s with lane := lane, phase := .inNext }
    else none
  | .advance fired =>
    if s.phase = .inNext then
      (s.lane.step (.sender (.advance fired))).map fun lane => { s with lane := lane }
    else none
  | .respond done =>
    if s.phase = .inNext then
      if done then s.lane.sender.collect.map fun (_, e) =>
        { s with lane := { s.lane with sender := e }, phase := .idle }
      else (s.lane.step .send).map fun lane => { s with lane := lane, phase := .idle }
    else none
  | .hearAck n =>
    if n ∈ s.acks then (s.rl.ack n).map fun (_, rl) => s.withRl rl else none
  | .deliver i => do
    let c ← s.lane.flight[i]?
    if c.bytes.length > maxFrame then some s
    else do
      let lane ← s.lane.step (.deliver i)
      let (err, _) ← s.lane.receiver.hear c.off c.bytes
      some { s with lane := lane, gap := s.gap || err == some .replayGap }

/-- A new session: replay buffers and eager acks of any setting. -/
def machine (sendMax recvMax : Int) (sendEager recvEager : Bool) (maxFrame : Nat) :
    Machine BatchSession BatchEvent where
  init := { lane := (Lane.machine sendMax recvMax sendEager recvEager).init }
  step := step maxFrame

/-! ## The invariant -/

/-- What the client ever sent as an acknowledgement it has. -/
structure Honest (s : BatchSession) : Prop where
  polls : ∀ n ∈ s.polls, n ≤ s.recv
  acks : ∀ n ∈ s.acks, n ≤ s.recv
  acking : ∀ n, s.phase = .acking n → n ≤ s.recv

/-- **What holds while the server's layer is unbroken.** The client has what is acknowledged and
what comes before each chunk, and a poll past its rewind reads on from what is acknowledged. -/
structure Live (s : BatchSession) : Prop where
  acked : s.rl.ackedOffset ≤ s.recv
  cursor : s.phase = .calling → s.rl.sentCursor = s.rl.ackedOffset
  drained : ∀ c, s.lane.sender.call = some c → (∀ res, c ≠ .returned res) →
    s.rl.ackedOffset = s.rl.sendOffset
  result : ∀ res, s.lane.sender.call = some (.returned res) → res.off ≤ s.recv
  flight : ∀ c ∈ s.lane.flight, c.off ≤ s.recv
  noGap : s.gap = false

/-- The invariant of every run. -/
structure Inv (s : BatchSession) : Prop where
  sound : s.lane.Sound
  numbered : s.lane.Numbered
  uncalled : s.phase ≠ .inNext → s.lane.sender.call = none
  honest : s.Honest
  live : s.rl.broken = false → s.Live

end BatchSession

namespace Reliable

/-- What `ack` leaves of an unbroken layer: both offsets go up to `n`, if they were below. -/
theorem ack_offsets {r r' : Reliable} {n : Nat} {err : Option Err} (h : r.Wf)
    (ha : r.ack n = some (err, r')) :
    r'.sendOffset = r.sendOffset ∧ (r'.broken = false → r.broken = false ∧ n ≤ r.sendOffset ∧
      r'.ackedOffset = max r.ackedOffset n ∧ r'.sentCursor = max r.sentCursor n) := by
  have hcur := h.acked_le
  rcases ack_spec h n with ⟨_, heq⟩ | ⟨hle, hold, heq⟩ | ⟨hb, hlt, hle, heq⟩ <;> rw [heq] at ha <;>
    cases ha
  · exact ⟨rfl, nofun⟩
  · refine ⟨rfl, fun hb => ⟨hb, hle, ?_⟩⟩
    rcases hold with hbroken | hold
    · rw [hb] at hbroken
      cases hbroken
    · omega
  · exact ⟨rfl, fun _ => ⟨hb, hle, (Nat.max_eq_right (Nat.le_of_lt hlt)).symm, rfl⟩⟩

end Reliable

/-- Whatever else goes on around the server's layer moves neither offset of its sending side. -/
theorem Endpoint.perform_leavesOut {e e' : Endpoint} {op : EndOp} (h : e.rl.Wf)
    (hop : op.leavesOut = true) (hp : e.perform op = some e') :
    e'.call = e.call ∧ e'.rl.sendOffset = e.rl.sendOffset ∧
      (e'.rl.broken = false → e.rl.broken = false ∧ e'.rl.ackedOffset = e.rl.ackedOffset ∧
        e'.rl.sentCursor = e.rl.sentCursor) := by
  cases performs hp with
  | aside => exact ⟨rfl, rfl, fun hb => ⟨hb, rfl, rfl⟩⟩
  | nextOut => cases hop
  | advance => cases hop
  | @control c _ hc =>
    cases c with
    | markBroken => cases hc; exact ⟨rfl, rfl, fun hb => Bool.noConfusion hb⟩
    | takeAck =>
      cases hc
      rw [(Reliable.takeAck_spec e.rl).2]
      exact ⟨rfl, rfl, fun hb => ⟨hb, rfl, rfl⟩⟩
    | resetAck => cases hc; exact ⟨rfl, rfl, fun hb => ⟨hb, rfl, rfl⟩⟩
    | ack n => cases hop
    | resumeOut n => cases hop
    | rewindToAcked => cases hop
  | @hear off p _ hr =>
    rcases Reliable.recvIn_spec h e.inp off p with
      ⟨_, heq⟩ | ⟨_, heq⟩ | ⟨_, _, _, heq⟩ | ⟨_, _, _, heq⟩ <;> rw [heq] at hr <;> cases hr
    · exact ⟨rfl, rfl, fun hb => Bool.noConfusion hb⟩
    · exact ⟨rfl, rfl, fun hb => ⟨hb, rfl, rfl⟩⟩
    · exact ⟨rfl, rfl, fun hb => ⟨hb, rfl, rfl⟩⟩
    · exact ⟨rfl, rfl, fun hb => ⟨hb, rfl, rfl⟩⟩

namespace BatchSession

/-- **What a step adds**: the chunk that `nextOut` returns, if the layer is unbroken, starts at
what is acknowledged, and the client loses nothing it has. -/
structure Adds (s s' : BatchSession) : Prop where
  chunk : s'.rl.broken = false → ∀ res, s.lane.sender.call ≠ some (.returned res) →
    s'.lane.sender.call = some (.returned res) → res.bytes ≠ [] → res.off = s'.rl.ackedOffset
  grows : s.lane.delivered <+: s'.lane.delivered

/-- No call returns. -/
theorem Adds.of_call {s s' : BatchSession} (hcall : s'.lane.sender.call = s.lane.sender.call)
    (hgrows : s.lane.delivered <+: s'.lane.delivered) : Adds s s' :=
  ⟨fun _ _ hne hres => absurd (hcall.symm.trans hres) hne, hgrows⟩

namespace Inv

variable {s s' : BatchSession}

theorem init (sendMax recvMax : Int) (sendEager recvEager : Bool) :
    Inv { lane := (Lane.machine sendMax recvMax sendEager recvEager).init } where
  sound := .init sendMax recvMax sendEager recvEager
  numbered := .init sendMax recvMax sendEager recvEager
  uncalled _ := rfl
  honest := ⟨nofun, nofun, nofun⟩
  live _ := by
    refine ⟨?_, nofun, nofun, nofun, nofun, rfl⟩
    have hwf := Endpoint.new_wf sendMax sendEager
    have hzero := (Endpoint.new_zero sendMax sendEager).1
    have hle := Nat.le_trans hwf.acked_le hwf.cursor_le
    exact Nat.le_trans hle (Nat.le_trans (Nat.le_of_eq hzero) (Nat.zero_le _))

/-- The client or the handler's phase moves, and nothing of the bytes. -/
theorem quiet (h : Inv s) (hlane : s'.lane = s.lane) (hgap : s'.gap = s.gap)
    (hin : s'.phase = .inNext ↔ s.phase = .inNext) (hcall : s'.phase = .calling → s.phase = .calling)
    (hhonest : s'.Honest) : Inv s' := by
  have hrecv : s'.recv = s.recv := by rw [recv, recv, hlane]
  have hrl : s'.rl = s.rl := by rw [rl, rl, hlane]
  refine ⟨hlane ▸ h.sound, hlane ▸ h.numbered, fun hne => ?_, hhonest, fun hb => ?_⟩
  · rw [hlane]
    exact h.uncalled fun heq => hne (hin.mpr heq)
  · have hlive := h.live (hrl ▸ hb)
    refine ⟨hrecv ▸ hrl ▸ hlive.acked, fun hc => ?_, ?_, ?_, ?_, hgap ▸ hlive.noGap⟩
    · rw [hrl]
      exact hlive.cursor (hcall hc)
    · rw [hlane, hrl]
      exact hlive.drained
    · rw [hlane, hrecv]
      exact hlive.result
    · rw [hlane, hrecv]
      exact hlive.flight

/-- Other things go on around the server's layer. -/
theorem server_step (h : Inv s) {op : EndOp} {e : Endpoint} (hop : op.leavesOut = true)
    (hp : s.lane.sender.perform op = some e) :
    Inv { s with lane :=
      { s.lane with sender := e, written := s.lane.written ++ s.lane.sender.wrote op } } := by
  obtain ⟨hcall, hsend, hkept⟩ := Endpoint.perform_leavesOut h.sound.sending.sends.wf hop hp
  refine ⟨h.sound.sender_step hp, h.numbered.sender_step h.sound hp,
    fun hne => hcall.trans (h.uncalled hne), ⟨h.honest.polls, h.honest.acks, h.honest.acking⟩,
    fun hb => ?_⟩
  obtain ⟨hb', hacked, hcursor⟩ := hkept hb
  have hlive := h.live hb'
  refine ⟨hacked ▸ hlive.acked, fun hc => ?_, fun c hc hne => ?_, fun res hres => ?_,
    hlive.flight, hlive.noGap⟩
  · show e.rl.sentCursor = e.rl.ackedOffset
    rw [hcursor, hacked]
    exact hlive.cursor hc
  · show e.rl.ackedOffset = e.rl.sendOffset
    rw [hacked, hsend]
    exact hlive.drained c (hcall ▸ hc) hne
  · exact hlive.result res (hcall ▸ hres)

/-- The client's side moves on: what it has grows, but not past what the server numbered, and
leaves no gap. -/
theorem receiver_step (h : Inv s) {e : Endpoint} {delivered : Bytes} {gap : Bool}
    (hsound : Lane.Sound { s.lane with receiver := e, delivered := delivered })
    (hle : s.recv ≤ e.rl.recvOffset) (hbound : e.rl.recvOffset ≤ s.rl.sendOffset)
    (hgap : s.rl.broken = false → gap = false) :
    Inv { s with lane := { s.lane with receiver := e, delivered := delivered }, gap := gap } where
  sound := hsound
  numbered := h.numbered.receiver_step delivered hbound
  uncalled := h.uncalled
  honest :=
    ⟨fun n hn => Nat.le_trans (h.honest.polls n hn) hle,
      fun n hn => Nat.le_trans (h.honest.acks n hn) hle,
      fun n hn => Nat.le_trans (h.honest.acking n hn) hle⟩
  live hb :=
    have hlive := h.live hb
    ⟨Nat.le_trans hlive.acked hle, hlive.cursor, hlive.drained,
      fun res hres => Nat.le_trans (hlive.result res hres) hle,
      fun c hc => Nat.le_trans (hlive.flight c hc) hle, hgap hb⟩

/-- The client goes about its business. -/
theorem client_step (h : Inv s) {op : EndOp} {e : Endpoint} (hop : ∀ off p, op ≠ .hear off p)
    (hp : s.lane.receiver.perform op = some e) :
    Inv { s with lane := { s.lane with receiver := e } } := by
  have hrecv : e.rl.recvOffset = s.recv :=
    (Endpoint.perform_recvOffset h.sound.holds.wf hop hp).2
  exact h.receiver_step (h.sound.receiver_step hop hp) (Nat.le_of_eq hrecv.symm)
    (Nat.le_trans (Nat.le_of_eq hrecv) h.numbered.recv) fun hb => (h.live hb).noGap

/-- The client reads a response: no gap while the server's layer is unbroken. -/
theorem deliver_step (h : Inv s) {c : Chunk} {err : Option Err} {e : Endpoint}
    (hc : c ∈ s.lane.flight) (hh : s.lane.receiver.hear c.off c.bytes = some (err, e)) :
    Inv { s with
      lane := { s.lane with
        receiver := e
        delivered := s.lane.delivered ++ e.inp.buf.drop s.lane.receiver.inp.buf.length }
      gap := s.gap || err == some .replayGap } := by
  refine h.receiver_step (h.sound.deliver_step hc hh)
    (Endpoint.hear_recvOffset h.sound.holds.wf hh).1 (h.numbered.heard_le h.sound hc hh) fun hb => ?_
  have hlive := h.live hb
  rw [hlive.noGap, Bool.false_or, beq_eq_false_iff_ne]
  rcases (Endpoint.hear_spec h.sound.holds.wf (hlive.flight c hc) hh).2.2 with
    ⟨rfl, _⟩ | ⟨rfl, _⟩ <;> simp

/-- The server takes an acknowledgement that the client sent at any time. -/
theorem ack_step (h : Inv s) {n : Nat} {err : Option Err} {r : Reliable} (hn : n ≤ s.recv)
    (ha : s.rl.ack n = some (err, r)) : Inv (s.withRl r) := by
  have hwf : s.rl.Wf := h.sound.sending.sends.wf
  obtain ⟨hsend, hkept⟩ := Reliable.ack_offsets hwf ha
  refine ⟨⟨h.sound.sending.trims (Reliable.ack_trims hwf ha).1, h.sound.honest, h.sound.holds⟩,
    h.numbered.relayer hsend, h.uncalled, ⟨h.honest.polls, h.honest.acks, h.honest.acking⟩,
    fun hb => ?_⟩
  obtain ⟨hb', hle, hacked, hcursor⟩ := hkept hb
  have hlive := h.live hb'
  refine ⟨?_, fun hc => ?_, fun c hc hne => ?_, hlive.result, hlive.flight, hlive.noGap⟩
  · show r.ackedOffset ≤ s.recv
    rw [hacked]
    exact Nat.max_le.mpr ⟨hlive.acked, hn⟩
  · show r.sentCursor = r.ackedOffset
    rw [hacked, hcursor, hlive.cursor hc]
  · show r.ackedOffset = r.sendOffset
    have hdrained := hlive.drained c hc hne
    rw [hacked, hsend]
    omega

/-- The handler rewinds, and the cursor stands at what is acknowledged. -/
theorem rewind_step (h : Inv s) (hphase : s.phase = .rewinding) :
    Inv { s.withRl s.rl.rewindToAcked with phase := .calling } := by
  have hwf : s.rl.Wf := h.sound.sending.sends.wf
  have hcall : s.lane.sender.call = none := h.uncalled (by rw [hphase]; nofun)
  have hkept : s.rl.rewindToAcked.sendOffset = s.rl.sendOffset ∧
      s.rl.rewindToAcked.ackedOffset = s.rl.ackedOffset ∧
      s.rl.rewindToAcked.broken = s.rl.broken ∧
      (s.rl.broken = false → s.rl.rewindToAcked.sentCursor = s.rl.ackedOffset) := by
    unfold Reliable.rewindToAcked
    split
    next hb => exact ⟨rfl, rfl, rfl, fun hb' => absurd (hb.symm.trans hb') nofun⟩
    next => exact ⟨rfl, rfl, rfl, fun _ => rfl⟩
  obtain ⟨hsend, hacked, hbroken, hcursor⟩ := hkept
  refine ⟨⟨h.sound.sending.trims (Reliable.rewindToAcked_trims hwf).1, h.sound.honest,
    h.sound.holds⟩, h.numbered.relayer hsend, fun _ => hcall,
    ⟨h.honest.polls, h.honest.acks, nofun⟩, fun hb => ?_⟩
  have hb' : s.rl.broken = false := hbroken ▸ hb
  have hlive := h.live hb'
  refine ⟨hacked ▸ hlive.acked, fun _ => (hcursor hb').trans hacked.symm, fun c hc => ?_,
    fun res hres => ?_, hlive.flight, hlive.noGap⟩
  · exact absurd (hcall.symm.trans hc) nofun
  · exact absurd (hcall.symm.trans hres) nofun

/-- **`nextOut` starts**: replay is picked up at what is acknowledged, or there is none. -/
theorem call_step (h : Inv s) {dst : Nat} {e : Endpoint} (hphase : s.phase = .calling)
    (hp : s.lane.sender.perform (.nextOut dst) = some e) :
    Inv { s with
      lane := { s.lane with sender := e, written := s.lane.written ++ [] }, phase := .inNext } ∧
    (e.rl.broken = false → ∀ res, e.call = some (.returned res) → res.off = e.rl.ackedOffset) := by
  have hsound := h.sound.sender_step hp
  have hnumbered := h.numbered.sender_step h.sound hp
  have hwf : s.rl.Wf := h.sound.sending.sends.wf
  simp only [Endpoint.perform, h.uncalled (by rw [hphase]; simp)] at hp
  obtain ⟨⟨call, r⟩, hstart, rfl⟩ := Option.map_eq_some_iff.mp hp
  have hhonest : Honest { s with
      lane := { s.lane with
        sender := { s.lane.sender with call := some call, rl := r }
        written := s.lane.written ++ [] }
      phase := .inNext } := ⟨h.honest.polls, h.honest.acks, fun _ hn => (by cases hn)⟩
  rcases Reliable.nextOutStart_spec hwf dst with ⟨hb, hlt, heq⟩ | ⟨hend, heq⟩
  · -- the chunk starts at the cursor, and the rewind has put the cursor at what is acknowledged
    have hlive := h.live hb
    have hcursor := hlive.cursor hphase
    cases heq.symm.trans hstart
    refine ⟨⟨hsound, hnumbered, fun hne => absurd rfl hne, hhonest,
      fun _ => ⟨hlive.acked, fun hc => (by cases hc), ?_, ?_, hlive.flight, hlive.noGap⟩⟩, ?_⟩
    · intro c hc hne
      cases hc
      exact absurd rfl (hne _)
    · intro res hres
      cases hres
      exact Nat.le_trans (Nat.le_of_eq hcursor) hlive.acked
    · intro _ res hres
      cases hres
      exact hcursor
  · cases heq.symm.trans hstart
    refine ⟨⟨hsound, hnumbered, fun hne => absurd rfl hne, hhonest, fun hb => ?_⟩,
      fun _ _ hres => (by cases hres)⟩
    have hlive := h.live hb
    refine ⟨hlive.acked, fun hc => (by cases hc), fun _ _ _ => ?_, fun _ hres => (by cases hres),
      hlive.flight, hlive.noGap⟩
    have hall : s.rl.sentCursor = s.rl.sendOffset :=
      hend.resolve_left fun hbroken => absurd (hb.symm.trans hbroken) (by simp)
    exact (hlive.cursor hphase).symm.trans hall

/-- **`nextOut` goes on**: bytes that are numbered now start at what is acknowledged, because all
that was numbered before is. -/
theorem advance_step (h : Inv s) {fired : Bool} {e : Endpoint} (hphase : s.phase = .inNext)
    (hp : s.lane.sender.perform (.advance fired) = some e) :
    Inv { s with
      lane := { s.lane with sender := e, written := s.lane.written ++ [] } } ∧
    (e.rl.broken = false → ∀ res, e.call = some (.returned res) → res.bytes ≠ [] →
      res.off = e.rl.ackedOffset) := by
  have hsound := h.sound.sender_step hp
  have hnumbered := h.numbered.sender_step h.sound hp
  simp only [Endpoint.perform, Option.bind_eq_bind, Option.bind_eq_some_iff] at hp
  obtain ⟨call, hcall, ⟨call', r, out⟩, hadv, heq⟩ := hp
  cases heq
  have hrunning : ∀ res, call ≠ .returned res := by
    rintro res rfl
    cases hadv
  have hhonest : Honest { s with
      lane := { s.lane with
        sender := { s.lane.sender with call := some call', rl := r, out := out }
        written := s.lane.written ++ [] } } :=
    ⟨h.honest.polls, h.honest.acks, fun n hn => absurd (hphase.symm.trans hn) (by simp)⟩
  rcases Reliable.advance_cases hadv with ⟨rfl, _, _, _, hres⟩ | ⟨bs, rfl, rfl, rfl, _⟩
  · -- a read returns without bytes, or goes on with the layer as it was
    refine ⟨⟨hsound, hnumbered, fun hne => absurd hphase hne, hhonest, fun hb => ?_⟩, ?_⟩
    · have hlive := h.live hb
      refine ⟨hlive.acked, fun hc => absurd (hphase.symm.trans hc) (by simp),
        fun _ _ _ => hlive.drained call hcall hrunning, fun res heq => ?_, hlive.flight,
        hlive.noGap⟩
      rw [(hres res (Option.some.inj heq)).1]
      exact Nat.zero_le _
    · exact fun _ res heq hne => absurd (hres res (Option.some.inj heq)).2 hne
  · refine ⟨⟨hsound, hnumbered, fun hne => absurd hphase hne, hhonest, fun hb => ?_⟩, ?_⟩
    · obtain ⟨hb', _, hacked, _⟩ := Reliable.number_unbroken hb
      have hlive := h.live hb'
      have hdrained := hlive.drained _ hcall hrunning
      refine ⟨?_, fun hc => absurd (hphase.symm.trans hc) (by simp), fun c hc hne => ?_,
        fun res heq => ?_, hlive.flight, hlive.noGap⟩
      · show (s.lane.sender.rl.number bs).ackedOffset ≤ s.recv
        rw [hacked]
        exact hlive.acked
      · cases hc
        exact absurd rfl (hne _)
      · cases heq
        exact Nat.le_trans (Nat.le_of_eq hdrained.symm) hlive.acked
    · intro hb res heq _
      cases heq
      obtain ⟨hb', _, hacked, _⟩ := Reliable.number_unbroken hb
      exact ((h.live hb').drained _ hcall hrunning).symm.trans hacked.symm

/-- The handler answers or gives up. -/
theorem respond_step (h : Inv s) {res : NextResult} {e : Endpoint} {flight : List Chunk}
    (hcol : s.lane.sender.collect = some (res, e))
    (hsound : Lane.Sound { s.lane with sender := e, flight := flight })
    (hflight : ∀ c ∈ flight, c ∈ s.lane.flight ∨ c = ⟨res.off, res.bytes⟩) :
    Inv { s with lane := { s.lane with sender := e, flight := flight }, phase := .idle } := by
  have hnumbered := h.numbered.collect_step hcol hflight
  obtain ⟨hcall, rfl⟩ := Endpoint.collected hcol
  refine ⟨hsound, hnumbered, fun _ => rfl, ⟨h.honest.polls, h.honest.acks, nofun⟩, fun hb => ?_⟩
  have hlive := h.live hb
  refine ⟨hlive.acked, nofun, nofun, nofun, fun c hc => ?_, hlive.noGap⟩
  rcases hflight c hc with hold | rfl
  · exact hlive.flight c hold
  · exact hlive.result res hcall

/-- **Every step keeps the invariant.** -/
theorem step {maxFrame : Nat} {ev : BatchEvent} (h : Inv s) (hs : s.step maxFrame ev = some s') :
    Inv s' ∧ Adds s s' := by
  have hsame : s.lane.delivered <+: s.lane.delivered := List.prefix_refl _
  cases ev with
  | server op =>
    simp only [BatchSession.step] at hs
    split at hs
    next hop =>
      obtain ⟨lane, hl, rfl⟩ := Option.map_eq_some_iff.mp hs
      obtain ⟨e, hp, rfl⟩ := Option.map_eq_some_iff.mp hl
      have hcall := (Endpoint.perform_leavesOut h.sound.sending.sends.wf hop hp).1
      exact ⟨h.server_step hop hp, .of_call hcall hsame⟩
    next => cases hs
  | client op =>
    obtain ⟨lane, hl, rfl⟩ := Option.map_eq_some_iff.mp hs
    cases Lane.moves_of_step hl with
    | receiver hop hp => exact ⟨h.client_step hop hp, .of_call rfl hsame⟩
  | poll =>
    cases hs
    refine ⟨h.quiet rfl rfl Iff.rfl id ⟨?_, h.honest.acks, h.honest.acking⟩, .of_call rfl hsame⟩
    exact List.forall_mem_append.mpr
      ⟨h.honest.polls, List.forall_mem_singleton.mpr (Nat.le_refl _)⟩
  | acknowledge =>
    cases hs
    refine ⟨h.quiet rfl rfl Iff.rfl id ⟨h.honest.polls, ?_, h.honest.acking⟩, .of_call rfl hsame⟩
    exact List.forall_mem_append.mpr
      ⟨h.honest.acks, List.forall_mem_singleton.mpr (Nat.le_refl _)⟩
  | serve n =>
    simp only [BatchSession.step] at hs
    split at hs
    next hc =>
      cases hs
      refine ⟨h.quiet rfl rfl
        ⟨fun hin => (by cases hin), fun hin => absurd (hc.1.symm.trans hin) (by simp)⟩
        (fun hcall => (by cases hcall)) ⟨h.honest.polls, h.honest.acks, fun m hm => ?_⟩,
        .of_call rfl hsame⟩
      cases hm
      exact h.honest.polls n hc.2
    next => cases hs
  | cancelled =>
    simp only [BatchSession.step] at hs
    split at hs
    next n hphase =>
      cases hs
      exact ⟨h.quiet rfl rfl
        ⟨fun hin => (by cases hin), fun hin => absurd (hphase.symm.trans hin) (by simp)⟩
        (fun hcall => (by cases hcall)) ⟨h.honest.polls, h.honest.acks, fun _ hn => (by cases hn)⟩,
        .of_call rfl hsame⟩
    next => cases hs
  | ack =>
    simp only [BatchSession.step] at hs
    split at hs
    next n hphase =>
      obtain ⟨⟨err, r⟩, ha, rfl⟩ := Option.map_eq_some_iff.mp hs
      have hacked := h.ack_step (h.honest.acking n hphase) ha
      refine ⟨hacked.quiet rfl rfl ⟨fun hin => ?_, fun hin => ?_⟩ (fun hin => ?_)
        ⟨h.honest.polls, h.honest.acks, fun m hm => ?_⟩, .of_call rfl hsame⟩
      · dsimp only at hin
        split at hin <;> cases hin
      · exact absurd (hphase.symm.trans hin) (by simp)
      · dsimp only at hin
        split at hin <;> cases hin
      · dsimp only at hm
        split at hm <;> cases hm
    next => cases hs
  | rewind =>
    simp only [BatchSession.step] at hs
    split at hs
    next hphase => cases hs; exact ⟨h.rewind_step hphase, .of_call rfl hsame⟩
    next => cases hs
  | call dst =>
    simp only [BatchSession.step] at hs
    split at hs
    next hphase =>
      obtain ⟨lane, hl, rfl⟩ := Option.map_eq_some_iff.mp hs
      obtain ⟨e, hp, rfl⟩ := Option.map_eq_some_iff.mp hl
      obtain ⟨hinv, hoff⟩ := h.call_step hphase hp
      exact ⟨hinv, fun hb res _ hres _ => hoff hb res hres, hsame⟩
    next => cases hs
  | advance fired =>
    simp only [BatchSession.step] at hs
    split at hs
    next hphase =>
      obtain ⟨lane, hl, rfl⟩ := Option.map_eq_some_iff.mp hs
      obtain ⟨e, hp, rfl⟩ := Option.map_eq_some_iff.mp hl
      obtain ⟨hinv, hoff⟩ := h.advance_step hphase hp
      exact ⟨hinv, fun hb res _ hres hne => hoff hb res hres hne, hsame⟩
    next => cases hs
  | respond done =>
    simp only [BatchSession.step] at hs
    split at hs
    next =>
      have hnone : ∀ {res : NextResult} {e : Endpoint},
          s.lane.sender.collect = some (res, e) → e.call = none := by
        intro res e hcol
        obtain ⟨-, rfl⟩ := Endpoint.collected hcol
        rfl
      split at hs
      next =>
        obtain ⟨⟨res, e⟩, hcol, rfl⟩ := Option.map_eq_some_iff.mp hs
        have hsound : Lane.Sound { s.lane with sender := e, flight := s.lane.flight } :=
          ⟨(h.sound.sending.collect hcol).1, h.sound.honest, h.sound.holds⟩
        exact ⟨h.respond_step hcol hsound fun c hc => .inl hc,
          fun _ _ _ hres => absurd ((hnone hcol).symm.trans hres) (by simp), hsame⟩
      next =>
        obtain ⟨lane, hl, rfl⟩ := Option.map_eq_some_iff.mp hs
        obtain ⟨⟨res, e⟩, hcol, rfl⟩ := Option.map_eq_some_iff.mp hl
        refine ⟨h.respond_step hcol (h.sound.send_step hcol) fun c hc => ?_,
          fun _ _ _ hres => absurd ((hnone hcol).symm.trans hres) (by simp), hsame⟩
        split at hc
        next => exact .inl hc
        next => exact (List.mem_append.mp hc).imp id List.mem_singleton.mp
    next => cases hs
  | hearAck n =>
    simp only [BatchSession.step] at hs
    split at hs
    next hmem =>
      obtain ⟨⟨err, r⟩, ha, rfl⟩ := Option.map_eq_some_iff.mp hs
      exact ⟨h.ack_step (h.honest.acks n hmem) ha, .of_call rfl hsame⟩
    next => cases hs
  | deliver i =>
    simp only [BatchSession.step, Option.bind_eq_bind, Option.bind_eq_some_iff] at hs
    obtain ⟨c, hget, hs⟩ := hs
    split at hs
    next => cases hs; exact ⟨h, .of_call rfl hsame⟩
    next =>
      simp only [Lane.step, hget, Option.bind_eq_bind, Option.bind_some,
        Option.bind_eq_some_iff] at hs
      obtain ⟨lane, ⟨⟨err, e⟩, hh, hlane⟩, ⟨err', e'⟩, hh', heq⟩ := hs
      cases hlane
      cases hh.symm.trans hh'
      cases heq
      exact ⟨h.deliver_step (List.mem_of_getElem? hget) hh, .of_call rfl (List.prefix_append _ _)⟩

theorem reachable {sendMax recvMax : Int} {sendEager recvEager : Bool} {maxFrame : Nat}
    (h : (machine sendMax recvMax sendEager recvEager maxFrame).Reachable s) : Inv s :=
  Machine.Reach.invariant (P := Inv) (init sendMax recvMax sendEager recvEager)
    (fun _ _ _ _ hs _ hstep => (hs.step hstep).1) h

end Inv

/-- **Batch polls recover lost responses without a handshake.** In every run, after every step
that leaves the server's layer unbroken: a chunk that `nextOut` has just returned to a poll starts
exactly at `ackedOffset`, the client has all that is acknowledged, every response ever sent starts
within what the client has, its `recvIn` has never reported a gap, and its bytes are the beginning
of the stream and only ever grow. No acknowledgement it ever sent can break the layer. -/
theorem batch_polls_recover {sendMax recvMax : Int} {sendEager recvEager : Bool} {maxFrame : Nat}
    {s s' : BatchSession} {ev : BatchEvent}
    (h : (machine sendMax recvMax sendEager recvEager maxFrame).Reachable s)
    (hs : s.step maxFrame ev = some s') (hb : s'.rl.broken = false) :
    (∀ res, s.lane.sender.call ≠ some (.returned res) →
      s'.lane.sender.call = some (.returned res) → res.bytes ≠ [] → res.off = s'.rl.ackedOffset) ∧
    s'.rl.ackedOffset ≤ s'.recv ∧
    (∀ c ∈ s'.lane.flight, c.off ≤ s'.recv) ∧
    s'.gap = false ∧
    s'.lane.delivered = s'.lane.written.take s'.recv ∧ s.lane.delivered <+: s'.lane.delivered ∧
    (∀ n, n ∈ s'.polls ∨ n ∈ s'.acks → n ≤ s'.rl.sendOffset) := by
  obtain ⟨hinv, hadds⟩ := (Inv.reachable h).step hs
  have hlive := hinv.live hb
  refine ⟨hadds.chunk hb, hlive.acked, hlive.flight, hlive.noGap, hinv.sound.holds.got_eq,
    hadds.grows, fun n hn => ?_⟩
  exact Nat.le_trans (hn.elim (hinv.honest.polls n) (hinv.honest.acks n)) hinv.numbered.recv

/-- A poll is answered and its response lost; the same poll is processed again, and its second
response arrives before a late copy of the first. -/
def lostResponseRun : List BatchEvent :=
  [.poll, .server (.write [1, 2, 3, 4]), .serve 0, .ack, .rewind, .call 2, .advance false,
    .advance false, .respond false, .serve 0, .ack, .rewind, .call 8, .respond false, .deliver 1]

theorem lostResponseRun_recovers :
    ((machine 0 0 true true 8).final (lostResponseRun ++ [.deliver 0])).lane.delivered =
      [1, 2] := by
  have hs : ((machine 0 0 true true 8).final lostResponseRun).step 8 (.deliver 0) =
      some ((machine 0 0 true true 8).final (lostResponseRun ++ [.deliver 0])) := rfl
  have h := batch_polls_recover (Machine.reachable_final _ lostResponseRun) hs (by decide)
  rw [h.2.2.2.2.1]
  decide

end BatchSession

end Pollmux
