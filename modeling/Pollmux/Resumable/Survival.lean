import Pollmux.Reliable.Resume
import Pollmux.Resumable.Socket

/-!
# What a resumable WebSocket session survives

The loops of `Resumable.Socket`, with their encoded messages and their dials, do nothing that a
`Link` does not do: `Shadow` relates a session to a link it has brought along, and every step of the
session is a run of that link. So the invariant of `Reliable.Resume` speaks about the loops.

**The two ends of a session agree through the loss of any number of connections exactly if nothing
that the client has given up on reaches the server too late** (`session_survives_iff`). As long as
the replay buffers hold, no reader meets a gap or a bad ack and no resume is refused; the client
gives the session up only when it leaves, or when its stability guard has counted five fruitless
rounds. Two things undo that. A dial that the server serves after another resume request has been
processed: the write pump of that connection takes bytes from the layer for nobody,
`WebSocketHandler` does not rewind for the next one, and its first message starts past what the
client has. And a resume request that the server processes after the connection that followed has
been served: it reports less than has been acknowledged, and `ResumeHandler` breaks the layer.
**Nothing is lost either** (`sockets_deliver`): what is written arrives in order, and all of it once
nothing is waiting.
-/

namespace Pollmux

open Kit

/-! ## Channels and legs -/

/-- The messages of a channel are those of a leg, encoded, with heartbeats anywhere between
them. -/
inductive Encodes : List WsMessage → List Msg → Prop
  | nil : Encodes [] []
  | heartbeat {ms : List WsMessage} {qs : List Msg} (h : Encodes ms qs) :
      Encodes (heartbeatMessage :: ms) qs
  | ack {n : Nat} {ms : List WsMessage} {qs : List Msg} (hn : n < 2 ^ 64) (h : Encodes ms qs) :
      Encodes (ackMessage n :: ms) (.ack n :: qs)
  | data {c : Chunk} {ms : List WsMessage} {qs : List Msg} (hc : c.off < 2 ^ 64)
      (h : Encodes ms qs) : Encodes (seqMessage c :: ms) (.data c :: qs)

namespace Encodes

variable {ms ms' : List WsMessage} {qs qs' : List Msg}

theorem append (h : Encodes ms qs) (h' : Encodes ms' qs') : Encodes (ms ++ ms') (qs ++ qs') := by
  induction h with
  | nil => exact h'
  | heartbeat _ ih => exact .heartbeat ih
  | ack hn _ ih => exact .ack hn ih
  | data hc _ ih => exact .data hc ih

/-- What is left of the messages after a cut is what is left of the leg after some cut. -/
theorem take (h : Encodes ms qs) (k : Nat) : ∃ k', Encodes (ms.take k) (qs.take k') := by
  induction h generalizing k with
  | nil => exact ⟨0, by simpa using Encodes.nil⟩
  | heartbeat _ ih =>
    cases k with
    | zero => exact ⟨0, .nil⟩
    | succ k =>
      obtain ⟨k', hk⟩ := ih k
      exact ⟨k', .heartbeat hk⟩
  | ack hn _ ih =>
    cases k with
    | zero => exact ⟨0, .nil⟩
    | succ k =>
      obtain ⟨k', hk⟩ := ih k
      exact ⟨k' + 1, .ack hn hk⟩
  | data hc _ ih =>
    cases k with
    | zero => exact ⟨0, .nil⟩
    | succ k =>
      obtain ⟨k', hk⟩ := ih k
      exact ⟨k' + 1, .data hc hk⟩

end Encodes

/-- What a leg makes of a write: nothing of a heartbeat. -/
def Leg.put (g : Leg) (q : List Msg) : WriteResult → Leg
  | .ok => if g.cut then g else { g with queue := g.queue ++ q }
  | .lost => { g with cut := true }
  | .sent => { (if g.cut then g else { g with queue := g.queue ++ q }) with cut := true }

/-- A channel bears what a leg carries. -/
structure Channel.Bears (c : Channel) (g : Leg) : Prop where
  queue : Encodes c.queue g.queue
  cut : g.cut = c.cut

namespace Channel.Bears

variable {c : Channel} {g : Leg}

theorem empty : Channel.Bears {} {} := ⟨.nil, rfl⟩

theorem dead : Channel.Bears .dead .dead := ⟨.nil, rfl⟩

theorem put (h : c.Bears g) {m : WsMessage} {q : List Msg} (hm : Encodes [m] q)
    (r : WriteResult) : (c.put m r).Bears (g.put q r) := by
  have hsend : (c.send m).Bears (if g.cut then g else { g with queue := g.queue ++ q }) := by
    unfold Channel.send
    rw [h.cut]
    split
    next => exact h
    next => exact ⟨h.queue.append hm, rfl⟩
  cases r with
  | ok => exact hsend
  | lost => exact ⟨h.queue, rfl⟩
  | sent => exact ⟨hsend.queue, rfl⟩

end Channel.Bears

namespace Link

variable {m : Machine Link LinkEvent} {l l' : Link} {e : Side}

/-- What the writer of `e` has been given, as messages. -/
def outgoing (res : NextResult) : List Msg :=
  if res.bytes = [] then [] else [.data ⟨res.off, res.bytes⟩]

/-- A link of which one party and its leg have changed. -/
structure Put (l l' : Link) (e : Side) (q : Party) (g : Leg) : Prop where
  fits : l'.overflowed = l.overflowed
  party : l'.party = Function.update l.party e q
  leg : l'.leg = Function.update l.leg e g
  shake : l'.shake = l.shake

/-- A leg that is cut where it ends. -/
theorem cut_reachable (hm : m.step = Link.step) (h : m.Reachable l) (e : Side) (k : Nat) :
    m.Reachable (l.setLeg e { queue := (l.leg e).queue.take k, cut := true }) :=
  h.next (a := .cut e k) (by rw [hm]; rfl)

theorem sendData_reachable (hm : m.step = Link.step) (h : m.Reachable l) {res : NextResult}
    {ep : Endpoint} (hc : (l.party e).ep.collect = some (res, ep)) :
    ∃ l', m.Reachable l' ∧
      l.Put l' e { l.party e with ep := ep } ((l.leg e).put (outgoing res) .ok) := by
  have hstep : l.step (.sendData e) = some (if res.bytes = [] then
      l.setParty e { l.party e with ep := ep }
      else (l.setParty e { l.party e with ep := ep }).setLeg e
        ((l.leg e).send (.data ⟨res.off, res.bytes⟩))) := by
    simp only [Link.step, hc, Option.bind_eq_bind, Option.bind_some]
    split <;> rfl
  refine ⟨_, h.next (a := .sendData e) (hm ▸ hstep), ?_⟩
  unfold outgoing Leg.put
  by_cases hnil : res.bytes = []
  · rw [if_pos hnil, if_pos hnil]
    refine ⟨rfl, rfl, ?_, rfl⟩
    simp only [List.append_nil, ite_self, Function.update_eq_self, setParty_leg]
  · rw [if_neg hnil, if_neg hnil]
    exact ⟨rfl, rfl, rfl, rfl⟩

/-- **A write of what `nextOut` returned**, whatever it comes to. -/
theorem write_reachable (hm : m.step = Link.step) (h : m.Reachable l) {res : NextResult}
    {ep : Endpoint} (hc : (l.party e).ep.collect = some (res, ep)) (r : WriteResult) :
    ∃ l', m.Reachable l' ∧
      l.Put l' e { l.party e with ep := ep } ((l.leg e).put (outgoing res) r) := by
  cases r with
  | ok => exact sendData_reachable hm h hc
  | lost =>
    -- the leg is cut before the chunk is sent
    obtain ⟨l', hr, hput⟩ := sendData_reachable hm (cut_reachable hm h e (l.leg e).queue.length) hc
    refine ⟨l', hr, hput.fits, hput.party, ?_, hput.shake⟩
    rw [hput.leg]
    simp [Leg.put, setLeg]
  | sent =>
    obtain ⟨l', hr, hput⟩ := sendData_reachable hm h hc
    refine ⟨_, cut_reachable hm hr e (l'.leg e).queue.length, hput.fits, hput.party, ?_, hput.shake⟩
    simp only [setLeg, List.take_length, hput.leg, Function.update_self, Function.update_idem]
    rfl

/-- An ack that a writer has read goes out. -/
theorem sendAck_reachable (hm : m.step = Link.step) (h : m.Reachable l) {n : Nat}
    (hn : n ∈ (l.party e).due) :
    ∃ l' due, m.Reachable l' ∧
      l.Put l' e { l.party e with due := due } ((l.leg e).put [.ack n] .ok) := by
  obtain ⟨i, hi⟩ := List.mem_iff_getElem?.mp hn
  have hstep : l.step (.sendAck e i) =
      some ((l.setParty e { l.party e with due := (l.party e).due.eraseIdx i }).setLeg e
        ((l.leg e).send (.ack n))) := by
    simp only [Link.step, hi, Option.bind_eq_bind, Option.bind_some]
  refine ⟨_, (l.party e).due.eraseIdx i, h.next (a := .sendAck e i) (hm ▸ hstep), ?_⟩
  exact ⟨rfl, rfl, rfl, rfl⟩

/-- A write of an ack that fails: the writer drops what `nextOut` returned and leaves. -/
theorem ackFails_reachable (hm : m.step = Link.step) (h : m.Reachable l) {n : Nat}
    (hn : n ∈ (l.party e).due) {res : NextResult} {ep : Endpoint}
    (hc : (l.party e).ep.collect = some (res, ep)) {r : WriteResult} (hr : r ≠ .ok) :
    ∃ l' due, m.Reachable l' ∧
      l.Put l' e { l.party e with ep := ep, due := due } ((l.leg e).put [.ack n] r) := by
  cases r with
  | ok => exact absurd rfl hr
  | lost =>
    obtain ⟨l', hreach, hput⟩ := write_reachable hm h hc .lost
    exact ⟨l', _, hreach, hput.fits, hput.party, hput.leg, hput.shake⟩
  | sent =>
    obtain ⟨l₁, due, hreach₁, hput₁⟩ := sendAck_reachable hm h hn
    have hc₁ : (l₁.party e).ep.collect = some (res, ep) := by
      rw [hput₁.party, Function.update_self]
      exact hc
    obtain ⟨l', hreach, hput⟩ := write_reachable hm hreach₁ hc₁ .lost
    refine ⟨l', due, hreach, hput.fits.trans hput₁.fits, ?_, ?_, hput.shake.trans hput₁.shake⟩
    · rw [hput.party, hput₁.party, Function.update_self, Function.update_idem]
    · rw [hput.leg, hput₁.leg, Function.update_self, Function.update_idem]
      rfl

end Link

/-! ## Ends and parties -/

/-- Where a writer is goes with the call it has made and with the acks that its party has read. -/
def WriterPc.Agrees (pc : WriterPc) (call : Option NextOut) (due : List Nat) : Prop :=
  match pc with
  | .starting | .calling | .returned => call = none
  | .inNext => ∀ res, call = some (.returned res) → res.err = none ∨ res.bytes = []
  | .acking _ | .writing _ => True
  | .writingAck n _ => n ∈ due

/-- What a call returns with an error has no bytes. -/
theorem Endpoint.returned_err {ep ep' : Endpoint} {op : EndOp} (hwf : ep.rl.Wf)
    (hop : (∃ dst, op = .nextOut dst) ∨ ∃ fired, op = .advance fired)
    (hp : ep.perform op = some ep') (res : NextResult) (hres : ep'.call = some (.returned res)) :
    res.err = none ∨ res.bytes = [] := by
  cases Endpoint.performs hp with
  | aside haside => rcases hop with ⟨_, rfl⟩ | ⟨_, rfl⟩ <;> cases haside
  | @nextOut dst _ _ _ hstart =>
    rcases Reliable.nextOutStart_spec hwf dst with ⟨_, _, heq⟩ | ⟨_, heq⟩
    · cases heq.symm.trans hstart
      cases hres
      exact .inl rfl
    · cases heq.symm.trans hstart
      cases hres
  | advance _ hadv =>
    rcases Reliable.advance_cases hadv with ⟨_, _, _, _, hnone⟩ | ⟨bs, _, rfl, _, _⟩
    · exact .inr (hnone res (Option.some.inj hres)).2
    · cases hres
      exact .inl rfl
  | control => rcases hop with ⟨_, h⟩ | ⟨_, h⟩ <;> cases h
  | hear => rcases hop with ⟨_, h⟩ | ⟨_, h⟩ <;> cases h

/-- The handshake `g` has come at least as far as `h`. -/
structure Handshake.Within (h g : Handshake) : Prop where
  asked : ∀ n, h.asked = some n → g.asked = some n
  answered : ∀ n, h.answered = some n → g.answered = some n
  completed : h.completed = true → g.completed = true

theorem Handshake.Within.refl (h : Handshake) : h.Within h :=
  ⟨fun _ => id, fun _ => id, id⟩

theorem Handshake.Within.empty (g : Handshake) : Handshake.Within {} g :=
  ⟨nofun, nofun, nofun⟩

/-- An end is what a party of a link is. -/
structure WsEnd.Shows (x : WsEnd) (q : Party) : Prop where
  ep : q.ep = x.ep
  written : q.written = x.written
  agrees : x.writer.Agrees x.ep.call q.due
  /-- Loops that have been waited for have returned. -/
  idle : x.up = false → x.writer = .returned
  /-- A reader does not return because of what the peer sent. -/
  benign : ∀ r, x.ended = some r → r.inconsistent = false

namespace WsSession

/-- The end has loops running, or a connection waits for them. -/
def attached (s : WsSession) : Side → Bool
  | .client => (s.ends .client).up || s.dial == .served
  | .server => (s.ends .server).up

/-- No resume is refused, and the client goes on with the session, or it has left it, or its guard
has counted as many fruitless rounds as it puts up with. -/
def Trusted (s : WsSession) : Prop :=
  s.refusal = false ∧ (s.givenUp = none ∨ s.givenUp = some .left ∨
    s.givenUp = some .unstable ∧ maxConsecutiveFastResumes ≤ s.guard.consecutiveFast)

/-- **A session whose ends agree, and a link that does what it does.** The link may be further in a
handshake: it has answered requests that the client has given up on. -/
structure Shadow (p : WsSetting) (s : WsSession) (l : Link) : Prop where
  reach : (Link.machine (p.maxReplay .client) (p.maxReplay .server) true true).Reachable l
  fits : l.overflowed = false
  ends : ∀ e, (s.ends e).Shows (l.party e)
  chan : ∀ e, (s.chan e).Bears (l.leg e)
  shake : s.shake.Within l.shake
  running : ∀ e, s.attached e = true → (l.party e).running = true
  /-- Nothing from or to an end that is not attached arrives. -/
  down : ∀ e, s.attached e = false → (s.chan e).cut = true ∧ s.chan e.peer = .dead
  dialing : s.dial ≠ .none → (s.ends .client).up = false ∧ s.givenUp = none
  sent : s.dial = .sent → s.shake.completed = true
  served : s.dial = .served → s.shake = {}
  late : 0 < s.late → (l.party .server).running = true
  /-- What the client has given up on says how much it has: it has got nothing since. -/
  stale : ∀ n ∈ s.stale, s.attached .client = false ∧ n = (s.ends .client).ep.rl.recvOffset
  trusted : s.Trusted

namespace Shadow

variable {p : WsSetting} {s s' : WsSession} {l l' : Link}

theorem inv (h : Shadow p s l) : Link.Inv l := Link.Inv.reachable h.reach h.fits

theorem init (p : WsSetting) : Shadow p (machine p).init
    (Link.machine (p.maxReplay .client) (p.maxReplay .server) true true).init where
  reach := .init
  fits := rfl
  ends e := by cases e <;> exact ⟨rfl, rfl, rfl, nofun, nofun⟩
  chan _ := .empty
  shake := .refl _
  running e _ := by cases e <;> rfl
  down e hdown := by cases e <;> cases hdown
  dialing := nofun
  sent := nofun
  served := nofun
  late := nofun
  stale := nofun
  trusted := ⟨rfl, .inl rfl⟩

theorem attached_of_up {e : Side} (hup : (s.ends e).up = true) : s.attached e = true := by
  cases e with
  | client => exact Bool.or_eq_true_iff.mpr (.inl hup)
  | server => exact hup

theorem up_of_detached {e : Side} (hdown : s.attached e = false) : (s.ends e).up = false := by
  cases hup : (s.ends e).up with
  | false => rfl
  | true => cases (attached_of_up hup).symm.trans hdown

/-- One end changes, and one channel, with the party and the leg that go with them. -/
theorem moves (h : Shadow p s l) {e f : Side} {x : WsEnd} {c : Channel} {q : Party} {g : Leg}
    (hreach : (Link.machine (p.maxReplay .client) (p.maxReplay .server) true true).Reachable l')
    (hfit : l'.overflowed = l.overflowed) (hparty : l'.party = Function.update l.party e q)
    (hleg : l'.leg = Function.update l.leg f g) (hshake : l'.shake = l.shake)
    (hup : x.up = (s.ends e).up) (hrun : q.running = (l.party e).running) (hshows : x.Shows q)
    (hrecv : (s.ends e).up = false → x.ep.rl.recvOffset = (s.ends e).ep.rl.recvOffset)
    (hbears : c.Bears g) (hcut : (s.chan f).cut = true → c.cut = true)
    (hdead : s.chan f = .dead → c = .dead) : Shadow p ((s.setEnd e x).setChan f c) l' := by
  have hends : ∀ e', (((s.setEnd e x).setChan f c).ends e').up = (s.ends e').up := by
    intro e'
    rcases e.eq_or_peer e' with rfl | rfl
    · rw [setChan_ends, setEnd_ends, hup]
    · rw [setChan_ends, setEnd_peer]
  have hrunning : ∀ e', (l'.party e').running = (l.party e').running := by
    intro e'
    rw [hparty]
    rcases e.eq_or_peer e' with rfl | rfl
    · rw [Function.update_self, hrun]
    · rw [Function.update_of_ne e.peer_ne]
  have hattached : ∀ e', ((s.setEnd e x).setChan f c).attached e' = s.attached e' := by
    intro e'
    cases e' with
    | client => unfold attached; rw [hends]; rfl
    | server => exact hends .server
  have hchan : ∀ f', ((s.chan f').cut = true → (((s.setEnd e x).setChan f c).chan f').cut = true) ∧
      (s.chan f' = .dead → ((s.setEnd e x).setChan f c).chan f' = .dead) := by
    intro f'
    rcases f.eq_or_peer f' with rfl | rfl
    · rw [setChan_chan]
      exact ⟨hcut, hdead⟩
    · rw [setChan_peer, setEnd_chan]
      exact ⟨id, id⟩
  refine ⟨hreach, hfit.trans h.fits, ?_, ?_, hshake ▸ h.shake, ?_, ?_, ?_, h.sent, h.served, ?_, ?_,
    h.trusted⟩
  · intro e'
    rw [hparty, setChan_ends]
    rcases e.eq_or_peer e' with rfl | rfl
    · rw [setEnd_ends, Function.update_self]
      exact hshows
    · rw [setEnd_peer, Function.update_of_ne e.peer_ne]
      exact h.ends e.peer
  · intro f'
    rw [hleg]
    rcases f.eq_or_peer f' with rfl | rfl
    · rw [setChan_chan, Function.update_self]
      exact hbears
    · rw [setChan_peer, Function.update_of_ne f.peer_ne]
      exact h.chan f.peer
  · intro e' ha
    rw [hrunning]
    exact h.running e' (hattached e' ▸ ha)
  · intro e' ha
    obtain ⟨hc, hd⟩ := h.down e' (hattached e' ▸ ha)
    exact ⟨(hchan e').1 hc, (hchan e'.peer).2 hd⟩
  · exact fun hdial => ⟨(hends .client).trans (h.dialing hdial).1, (h.dialing hdial).2⟩
  · exact fun hlate => (hrunning .server).trans (h.late hlate)
  · intro n hn
    obtain ⟨ha, hrecvn⟩ := h.stale n hn
    refine ⟨(hattached .client).trans ha, hrecvn.trans ?_⟩
    rw [setChan_ends]
    rcases e.eq_or_peer .client with heq | heq
    · subst heq
      rw [setEnd_ends, hrecv (up_of_detached ha)]
    · rw [heq, setEnd_peer]

theorem setChan_eta (s : WsSession) (e : Side) (x : WsEnd) :
    (s.setEnd e x).setChan e (s.chan e) = s.setEnd e x := by
  rw [setChan, setEnd_chan, Function.update_eq_self]
  rfl

/-- One end changes with its party, and no leg does. -/
theorem party (h : Shadow p s l) {e : Side} {x : WsEnd} {q : Party}
    (hreach : (Link.machine (p.maxReplay .client) (p.maxReplay .server) true true).Reachable l')
    (hfit : l'.overflowed = l.overflowed) (hparty : l'.party = Function.update l.party e q)
    (hleg : l'.leg = l.leg) (hshake : l'.shake = l.shake) (hup : x.up = (s.ends e).up)
    (hrun : q.running = (l.party e).running) (hshows : x.Shows q)
    (hrecv : (s.ends e).up = false → x.ep.rl.recvOffset = (s.ends e).ep.rl.recvOffset) :
    Shadow p (s.setEnd e x) l' := by
  rw [← setChan_eta]
  refine h.moves hreach hfit hparty ?_ hshake hup hrun hshows hrecv (h.chan e) id id
  rw [hleg, Function.update_eq_self]

/-- One end changes beside its layer. -/
theorem quiet (h : Shadow p s l) {e : Side} {x : WsEnd} (hup : x.up = (s.ends e).up)
    (hshows : x.Shows (l.party e)) : Shadow p (s.setEnd e x) l := by
  refine h.party h.reach rfl (Function.update_eq_self _ _).symm rfl rfl hup rfl hshows fun _ => ?_
  rw [← hshows.ep, (h.ends e).ep]

/-- One end performs an operation of its own. -/
theorem own (h : Shadow p s l) {e : Side} (op : EndOp) {ep : Endpoint} {x : WsEnd}
    (hperm : (l.party e).permits op = true) (hp : (s.ends e).ep.perform op = some ep)
    (hover : (s.ends e).ep.overflows op = false) (hup : x.up = (s.ends e).up)
    (hep : x.ep = ep) (hwritten : x.written = (s.ends e).written ++ (s.ends e).ep.wrote op)
    (hagrees : x.writer.Agrees ep.call (l.party e).due)
    (hidle : x.up = false → x.writer = .returned) (hended : x.ended = (s.ends e).ended) :
    ∃ l', Shadow p (s.setEnd e x) l' := by
  have hshows := h.ends e
  have hstep : l.step (.own e op) = some { l.setParty e { l.party e with
      ep := ep
      written := (l.party e).written ++ (l.party e).ep.wrote op } with
      overflowed := l.overflowed || (l.party e).ep.overflows op } := by
    rw [Link.step]
    dsimp only
    rw [if_pos hperm, hshows.ep, hp]
    rfl
  have hhear : ∀ off q, op ≠ .hear off q := by
    rintro off q rfl
    cases hperm
  have hwf : (s.ends e).ep.rl.Wf := hshows.ep ▸ (h.inv.flow e).sending.sends.wf
  refine ⟨_, h.party (h.reach.next (a := .own e op) hstep) ?_ rfl rfl rfl hup rfl ?_ fun _ => ?_⟩
  · show (l.overflowed || (l.party e).ep.overflows op) = l.overflowed
    rw [hshows.ep, hover, Bool.or_false]
  · refine ⟨hep.symm, ?_, hep ▸ hagrees, hidle, hended ▸ hshows.benign⟩
    rw [hwritten, hshows.written, hshows.ep]
  · rw [hep]
    exact (Endpoint.perform_recvOffset hwf hhear hp).2

/-- An end whose loops are down has no call in progress. -/
theorem call_of_down (h : Shadow p s l) {e : Side} (hup : (s.ends e).up = false) :
    (s.ends e).ep.call = none := by
  have hagrees := (h.ends e).agrees
  rw [(h.ends e).idle hup] at hagrees
  exact hagrees

/-- Every offset that an end puts on the wire fits the format. -/
theorem short (h : Shadow p s l) (hord : ∀ e, Ordered s e) {e : Side} {n : Nat}
    (hn : n ∈ (l.party e).due) : n < 2 ^ 64 := by
  have hle : n ≤ (l.party e).ep.rl.recvOffset := (h.inv.flow_back e).due n hn
  have hholds := (hord e.peer).holds
  rw [Side.peer_peer] at hholds
  have hrecv := hholds.recv_le
  have hshort := (hord e.peer).short
  rw [(h.ends e).ep] at hle
  omega

/-- What a writer sends of what `nextOut` returned. -/
theorem encodes (hord : ∀ e, Ordered s e) {e : Side} {res : NextResult} {ep : Endpoint} {i : Bool}
    {m : WsMessage} (hc : (s.ends e).ep.collect = some (res, ep)) (hm : res.message i = some m) :
    Encodes [m] (Link.outgoing res) := by
  unfold NextResult.message at hm
  unfold Link.outgoing
  by_cases hnil : res.bytes = []
  · rw [if_neg (not_not.mpr hnil)] at hm
    rw [if_pos hnil]
    split at hm
    next => cases hm
    next => cases hm; exact .heartbeat .nil
  · rw [if_pos hnil] at hm
    rw [if_neg hnil]
    cases hm
    have hend := ((hord e).sending.collect hc).2.end_le
    have hshort := (hord e).short
    exact .data (by show res.off < 2 ^ 64; omega) .nil

theorem reset (h : Shadow p s l) {e : Side} (hup : (s.ends e).up = true)
    (hpc : (s.ends e).writer = .starting) :
    ∃ l', Shadow p (s.setEnd e { s.ends e with
      ep := { (s.ends e).ep with rl := (s.ends e).ep.rl.resetAck }
      writer := .calling }) l' := by
  have hidle : (s.ends e).ep.call = none := by
    have hagrees := (h.ends e).agrees
    rw [hpc] at hagrees
    exact hagrees
  refine h.own (.control .resetAck) (h.running e (attached_of_up hup)) rfl rfl rfl rfl
    (List.append_nil _).symm hidle (fun hdown => ?_) rfl
  cases hup.symm.trans hdown

theorem takeAck (h : Shadow p s l) {e : Side} {i : Bool} (hup : (s.ends e).up = true) :
    ∃ l', Shadow p (s.setEnd e { s.ends e with
      ep := { (s.ends e).ep with rl := (s.ends e).ep.rl.takeAck.2 }
      writer := (s.ends e).ep.rl.takeAck.1.elim (.writing i) (.writingAck · i) }) l' := by
  have hshows := h.ends e
  have hstep : l.step (.takeAck e) = some (l.setParty e
      { (l.party e).withRl (l.party e).ep.rl.takeAck.2 with
        due := (l.party e).due ++ (l.party e).ep.rl.takeAck.1.toList }) := by
    rw [Link.step]
    dsimp only
    rw [if_pos (h.running e (attached_of_up hup))]
  refine ⟨_, h.party (h.reach.next (a := .takeAck e) hstep) rfl rfl rfl rfl rfl rfl ?_
    fun hdown => absurd hdown (ne_false_of_eq_true hup)⟩
  refine ⟨?_, hshows.written, ?_, fun hdown => absurd hdown (ne_false_of_eq_true hup), hshows.benign⟩
  · simp only [Party.withRl, hshows.ep]
  · rw [hshows.ep]
    cases (s.ends e).ep.rl.takeAck.1 with
    | none => trivial
    | some n => exact List.mem_append_right _ List.mem_cons_self

/-- A writer is through with a result that has no bytes. -/
theorem collects (h : Shadow p s l) {e : Side} {res : NextResult} {ep : Endpoint} {pc : WriterPc}
    (hup : (s.ends e).up = true) (hc : (s.ends e).ep.collect = some (res, ep))
    (hnil : res.bytes = []) (hagrees : pc.Agrees ep.call (l.party e).due) :
    ∃ l', Shadow p (s.setEnd e { s.ends e with ep := ep, writer := pc }) l' := by
  have hcl : (l.party e).ep.collect = some (res, ep) := by rw [(h.ends e).ep]; exact hc
  obtain ⟨l', hreach, hput⟩ := Link.sendData_reachable rfl h.reach hcl
  have hleg : l'.leg = l.leg := by
    rw [hput.leg, Link.outgoing, if_pos hnil]
    simp only [Leg.put, List.append_nil, ite_self, Function.update_eq_self]
  have hno : ∀ {P : Prop}, (s.ends e).up = false → P :=
    fun hdown => absurd hdown (ne_false_of_eq_true hup)
  refine ⟨l', h.party hreach hput.fits hput.party hleg hput.shake rfl rfl ?_ hno⟩
  exact ⟨rfl, (h.ends e).written, hagrees, hno, (h.ends e).benign⟩

/-- The connection loses some of what is in flight. -/
theorem cut (h : Shadow p s l) (e : Side) (k : Nat) :
    ∃ l', Shadow p (s.setChan e { queue := (s.chan e).queue.take k, cut := true }) l' := by
  obtain ⟨k', hk⟩ := (h.chan e).queue.take k
  have hself : s.setEnd e (s.ends e) = s := by rw [setEnd, Function.update_eq_self]
  have hmoved := h.moves (e := e) (x := s.ends e) (Link.cut_reachable rfl h.reach e k') rfl
    (Function.update_eq_self _ _).symm rfl rfl rfl rfl (h.ends e) (fun _ => rfl)
    (c := { queue := (s.chan e).queue.take k, cut := true }) ⟨hk, rfl⟩ (fun _ => rfl) fun hdead => by
      rw [hdead]
      simp only [Channel.dead, List.take_nil]
  rw [hself] at hmoved
  exact ⟨_, hmoved⟩

/-- The writer of `e` writes, whatever comes of it. -/
theorem writes (h : Shadow p s l) {e : Side} {pc : WriterPc} {q : Party} {ep : Endpoint}
    {m : WsMessage} {ms : List Msg} {r : WriteResult} (hup : (s.ends e).up = true)
    (hreach : (Link.machine (p.maxReplay .client) (p.maxReplay .server) true true).Reachable l')
    (hput : l.Put l' e q ((l.leg e).put ms r)) (hm : Encodes [m] ms) (hep : q.ep = ep)
    (hwritten : q.written = (l.party e).written) (hrun : q.running = (l.party e).running)
    (hagrees : pc.Agrees ep.call q.due) :
    Shadow p ((s.setEnd e { s.ends e with ep := ep, writer := pc }).setChan e
      ((s.chan e).put m r)) l' := by
  have hno : ∀ {P : Prop}, (s.ends e).up = false → P :=
    fun hdown => absurd hdown (ne_false_of_eq_true hup)
  refine h.moves hreach hput.fits hput.party hput.leg hput.shake rfl hrun ?_ hno
    ((h.chan e).put hm r) ?_ ?_
  · exact ⟨hep, hwritten.trans (h.ends e).written, hagrees, hno, (h.ends e).benign⟩
  · intro hcut
    cases r with
    | ok => show ((s.chan e).send m).cut = true; rw [Channel.send, if_pos hcut, hcut]
    | lost => rfl
    | sent => rfl
  · intro hdead
    rw [hdead]
    cases r <;> rfl

/-- The reader of `e.peer` returns: the leg from `e` is cut. -/
theorem readEnds (h : Shadow p s l) (e : Side) {r : ReadEnd} (hr : r.inconsistent = false) :
    ∃ l', Shadow p (s.readEnds e.peer r) l' := by
  unfold WsSession.readEnds
  rw [Side.peer_peer]
  refine ⟨_, h.moves (Link.cut_reachable rfl h.reach e 0) rfl (Function.update_eq_self e.peer _).symm
    rfl rfl rfl rfl ?_ (fun _ => rfl) .dead (fun _ => rfl) (fun _ => rfl)⟩
  exact ⟨(h.ends _).ep, (h.ends _).written, (h.ends _).agrees, (h.ends _).idle,
    fun r' hr' => Option.some.inj hr' ▸ hr⟩

/-- Nobody asks what a channel holds that is not read any more. -/
theorem readEnds_setChan (s : WsSession) (e : Side) (c : Channel) (r : ReadEnd) :
    (s.setChan e c).readEnds e.peer r = s.readEnds e.peer r := by
  simp only [WsSession.readEnds, Side.peer_peer, setChan, setEnd, Function.update_idem]

/-- The reader of `e.peer` has taken a message, with what its party and the leg from `e` become. -/
theorem takes (h : Shadow p s l) {e : Side} (hup : (s.ends e.peer).up = true) {ep : Endpoint}
    (delivered : Bytes) {c : Channel} {q : Party} {g : Leg}
    (hreach : (Link.machine (p.maxReplay .client) (p.maxReplay .server) true true).Reachable l')
    (hfit : l'.overflowed = l.overflowed) (hparty : l'.party = Function.update l.party e.peer q)
    (hleg : l'.leg = Function.update l.leg e g) (hshake : l'.shake = l.shake)
    (hrun : q.running = (l.party e.peer).running) (hep : q.ep = ep)
    (hcall : ep.call = (s.ends e.peer).ep.call) (hwritten : q.written = (l.party e.peer).written)
    (hdue : q.due = (l.party e.peer).due) (hbears : c.Bears g)
    (hcut : (s.chan e).cut = true → c.cut = true) (hdead : s.chan e ≠ .dead) :
    Shadow p ((s.setEnd e.peer { s.ends e.peer with
      ep := ep
      delivered := delivered }).setChan e c) l' := by
  refine h.moves hreach hfit hparty hleg hshake rfl hrun ?_
    (fun hdown => absurd hdown (ne_false_of_eq_true hup)) hbears hcut fun hd => absurd hd hdead
  refine ⟨hep, hwritten.trans (h.ends _).written, ?_, (h.ends _).idle, (h.ends _).benign⟩
  rw [hdue]
  show WriterPc.Agrees _ ep.call _
  rw [hcall]
  exact (h.ends _).agrees

/-- The reader of `e.peer` takes an ack. -/
theorem takes_ack (h : Shadow p s l) {e : Side} {n : Nat} {rest : List WsMessage} {qs : List Msg}
    (hup : (s.ends e.peer).up = true) (hn : n < 2 ^ 64)
    (hq : (s.chan e).queue = ackMessage n :: rest) (hleg : (l.leg e).queue = .ack n :: qs)
    (hrest : Encodes rest qs) :
    ∃ l', Shadow p (s.handle e.peer ⟨frameAck, encodeOffset n⟩ rest) l' := by
  have hshows := h.ends e.peer
  have hrun := h.running e.peer (attached_of_up hup)
  obtain ⟨err, rl, hack⟩ := Reliable.ack_total (h.inv.flow e.peer).sending.sends.wf n
  obtain rfl : err = none := (h.inv.ack_step hrun hleg hack).1
  have hstep : l.step (.deliver e) = some ((l.setParty e.peer ((l.party e.peer).withRl rl)).setLeg e
      { l.leg e with queue := qs }) := by
    rw [Link.step, if_pos hrun, Link.receive]
    simp only [hleg, hack, Option.bind_eq_bind, Option.bind_some, Link.setParty_leg]
  have hframe : readFrame e.peer (s.ends e.peer).ep ⟨frameAck, encodeOffset n⟩ =
      ({ (s.ends e.peer).ep with rl := rl }, none) := by
    rw [readFrame_ack, Endpoint.ackFrame_encode _ hn, ← hshows.ep, hack]
    rfl
  unfold WsSession.handle
  dsimp only
  rw [hframe]
  dsimp only
  rw [Side.peer_peer]
  refine ⟨_, h.takes hup _ (h.reach.next (a := .deliver e) hstep) rfl rfl rfl rfl rfl ?_ rfl rfl rfl
    ⟨hrest, (h.chan e).cut⟩ id ?_⟩
  · simp only [Party.withRl, hshows.ep]
  · intro hdead
    rw [hdead] at hq
    cases hq

/-- The reader of `e.peer` takes data. -/
theorem takes_data (h : Shadow p s l) {e : Side} {c : Chunk} {rest : List WsMessage}
    {qs : List Msg} (hup : (s.ends e.peer).up = true) (hc : c.off < 2 ^ 64)
    (hq : (s.chan e).queue = seqMessage c :: rest) (hleg : (l.leg e).queue = .data c :: qs)
    (hrest : Encodes rest qs) :
    ∃ l', Shadow p (s.handle e.peer ⟨frameSeqData, encodeOffset c.off ++ c.bytes⟩ rest) l' := by
  have hshows := h.ends e.peer
  have hrun := h.running e.peer (attached_of_up hup)
  have hdead : s.chan e ≠ .dead := by
    intro hdead
    rw [hdead] at hq
    cases hq
  obtain ⟨err, ep, hhear⟩ :=
    Endpoint.hear_total (h.inv.flow e.peer).sending.sends.wf c.off c.bytes
  obtain ⟨_, hcall, hres⟩ := Endpoint.hear_spec (h.inv.flow e.peer).sending.sends.wf
    ((h.inv.flow e).head_le hleg) hhear
  rw [hshows.ep] at hcall
  have hframe : readFrame e.peer (s.ends e.peer).ep ⟨frameSeqData, encodeOffset c.off ++ c.bytes⟩ =
      (ep, (err.map FrameErr.io).map (.rejected e.peer)) := by
    rw [readFrame_seq, Endpoint.seqFrame_encode _ hc, ← hshows.ep, hhear]
    rfl
  unfold WsSession.handle
  dsimp only
  rw [hframe]
  rcases hres with ⟨rfl, _⟩ | ⟨rfl, _⟩
  · have hstep : l.step (.deliver e) = some ((l.setParty e.peer
        { l.party e.peer with ep := ep }).setLeg e { l.leg e with queue := qs }) := by
      rw [Link.step, if_pos hrun, Link.receive]
      simp only [hleg, hhear, Option.bind_eq_bind, Option.bind_some, Link.setParty_leg]
    dsimp only [Option.map_none]
    rw [Side.peer_peer]
    exact ⟨_, h.takes hup _ (h.reach.next (a := .deliver e) hstep) rfl rfl rfl rfl rfl rfl hcall rfl rfl
      ⟨hrest, (h.chan e).cut⟩ id hdead⟩
  · -- the application has closed its end: the reader returns, and the leg is dead
    have hstep : l.step (.deliver e) = some { (l.setParty e.peer
        { l.party e.peer with ep := ep }).setLeg e .dead with
        gap := l.gap || Err.closedPipe == .replayGap } := by
      rw [Link.step, if_pos hrun, Link.receive]
      simp only [hleg, hhear, Option.bind_eq_bind, Option.bind_some]
      rfl
    have htaken := h.takes hup ((s.ends e.peer).delivered ++
        (s.ends e.peer).ep.inp.added ep.inp) (h.reach.next (a := .deliver e) hstep)
      rfl rfl rfl rfl rfl rfl hcall rfl rfl .dead (fun _ => rfl) hdead
    obtain ⟨l', hends⟩ := htaken.readEnds e (r := .rejected e.peer (.io .closedPipe))
      (by cases e <;> rfl)
    rw [readEnds_setChan] at hends
    exact ⟨l', hends⟩

theorem handles (h : Shadow p s l) {e : Side} {m : WsMessage} {rest : List WsMessage} {f : Frame}
    (hup : (s.ends e.peer).up = true) (hq : (s.chan e).queue = m :: rest)
    (hf : wsDecode m.data = .ok f) : ∃ l', Shadow p (s.handle e.peer f rest) l' := by
  have hqueue := (h.chan e).queue
  rw [hq] at hqueue
  generalize hleg : (l.leg e).queue = qs at hqueue
  cases hqueue with
  | heartbeat hrest =>
    cases wsDecode_heartbeat.symm.trans hf
    unfold WsSession.handle
    dsimp only
    rw [readFrame_heartbeat]
    dsimp only
    rw [Side.peer_peer]
    refine ⟨l, h.takes hup _ h.reach rfl (Function.update_eq_self _ _).symm
      (Function.update_eq_self _ _).symm rfl rfl (h.ends _).ep rfl rfl rfl ⟨?_, (h.chan e).cut⟩ id ?_⟩
    · rw [hleg]
      exact hrest
    · intro hdead
      rw [hdead] at hq
      cases hq
  | ack hn hrest =>
    cases (wsDecode_ack _).symm.trans hf
    exact h.takes_ack hup hn hq hleg hrest
  | data hc hrest =>
    cases (wsDecode_seq _).symm.trans hf
    exact h.takes_data hup hc hq hleg hrest

/-- `supervise` has no reason to give up. -/
theorem hopeful (h : Shadow p s l) (e : Side) : (s.ends e).hopeless = false := by
  have hb := (h.inv.flow e).unbroken
  rw [(h.ends e).ep] at hb
  rw [WsEnd.hopeless, Reliable.isBroken, hb, Bool.false_or]
  cases hended : (s.ends e).ended with
  | none => rfl
  | some r => exact (h.ends e).benign r hended

/-- An end whose loops have returned is not attached, and its peer is what it was. -/
theorem attached_stop (s : WsSession) (e : Side) (c c' : Channel) (givenUp : Option GivingUp)
    (hdial : e = .client → s.dial = .none) :
    attached { ((s.setEnd e { s.ends e with up := false }).setChan e c).setChan e.peer c' with
        givenUp := givenUp } e = false ∧
      attached { ((s.setEnd e { s.ends e with up := false }).setChan e c).setChan e.peer c' with
        givenUp := givenUp } e.peer = s.attached e.peer := by
  cases e with
  | client => exact ⟨by simp [attached, setEnd, setChan, hdial rfl], rfl⟩
  | server => exact ⟨rfl, rfl⟩

/-- Both loops of `e` have returned. -/
theorem stop (h : Shadow p s l) {e : Side} (hup : (s.ends e).up = true)
    (hpc : (s.ends e).writer = .returned) :
    ∃ l', Shadow p { ((s.setEnd e { s.ends e with up := false }).setChan e
      (s.chan e).sever).setChan e.peer .dead with
      givenUp := if e = .client ∧ (s.ends e).hopeless then some .inconsistent else s.givenUp } l' := by
  have hreach := Link.cut_reachable rfl (Link.cut_reachable rfl h.reach e (l.leg e).queue.length)
    e.peer 0
  have hdial : e = .client → s.dial = .none := by
    rintro rfl
    by_contra hdial
    cases hup.symm.trans (h.dialing hdial).1
  rw [if_neg fun hor => absurd hor.2 (by rw [h.hopeful e]; exact Bool.false_ne_true)]
  obtain ⟨hself, hpeer⟩ := attached_stop s e (s.chan e).sever .dead s.givenUp hdial
  refine ⟨_, hreach, h.fits, ?_, ?_, h.shake, ?_, ?_, ?_, h.sent, h.served, h.late, ?_, h.trusted⟩
  · intro e'
    rcases e.eq_or_peer e' with rfl | rfl
    · show ((s.setEnd e' _).ends e').Shows _
      rw [setEnd_ends]
      exact ⟨(h.ends e').ep, (h.ends e').written, (h.ends e').agrees, fun _ => hpc,
        (h.ends e').benign⟩
    · show ((s.setEnd e _).ends e.peer).Shows _
      rw [setEnd_peer]
      exact h.ends e.peer
  · intro e'
    rcases e.eq_or_peer e' with rfl | rfl
    · simp only [setChan_of_peer, setChan_chan, Link.setLeg_of_peer, Link.setLeg_leg,
        List.take_length]
      exact ⟨(h.chan e').queue, rfl⟩
    · simp only [setChan_chan, Link.setLeg_leg]
      exact .dead
  · refine Link.forall_both e (fun ha => ?_) (fun ha => h.running e.peer (hpeer ▸ ha))
    cases hself.symm.trans ha
  · refine Link.forall_both e (fun _ => ?_) (fun ha => ?_)
    · simp only [setChan_of_peer, setChan_chan]
      exact ⟨rfl, trivial⟩
    · have hdead := (h.down e.peer (hpeer ▸ ha)).2
      rw [Side.peer_peer] at hdead
      simp only [Side.peer_peer, setChan_of_peer, setChan_chan, hdead]
      exact ⟨rfl, rfl⟩
  · intro hne
    cases e with
    | client => exact absurd (hdial rfl) hne
    | server => exact h.dialing hne
  · intro n hn
    obtain ⟨ha, hrecv⟩ := h.stale n hn
    cases e with
    | client => cases (attached_of_up hup).symm.trans ha
    | server => exact ⟨hpeer.trans ha, hrecv⟩

/-- A party whose loops are down and that nobody counts on may be stopped at any time. -/
theorem stopped (h : Shadow p s l) {e : Side} (hdown : s.attached e = false)
    (hlate : e = .server → s.late = 0) :
    ∃ l', Shadow p s l' ∧ (l'.party e).running = false ∧
      (l'.party e.peer).running = (l.party e.peer).running := by
  cases hrun : (l.party e).running with
  | false => exact ⟨l, h, hrun, rfl⟩
  | true =>
    have hup := up_of_detached hdown
    have hcall : (l.party e).ep.call = none := by
      rw [(h.ends e).ep]
      exact h.call_of_down hup
    have hstep : l.step (.stop e) = some (((l.setParty e
        { l.party e with running := false, due := [] }).setLeg e { l.leg e with cut := true }).setLeg
        e.peer .dead) := by
      rw [Link.step]
      simp only [hrun, hcall, Option.isNone_none, Bool.and_self, if_true]
    refine ⟨_, ⟨h.reach.next (a := .stop e) hstep, h.fits, ?_, ?_, h.shake, ?_, h.down, h.dialing,
      h.sent, h.served, ?_, h.stale, h.trusted⟩, ?_, ?_⟩
    · refine Link.forall_both e ?_ ?_
      · simp only [Link.setLeg_party, Link.setParty_party]
        refine ⟨(h.ends e).ep, (h.ends e).written, ?_, (h.ends e).idle, (h.ends e).benign⟩
        rw [(h.ends e).idle hup]
        exact h.call_of_down hup
      · simp only [Link.setLeg_party, Link.setParty_peer]
        exact h.ends e.peer
    · obtain ⟨hcut, hdead⟩ := h.down e hdown
      refine Link.forall_both e ?_ ?_
      · simp only [Link.setLeg_of_peer, Link.setLeg_leg]
        exact ⟨(h.chan e).queue, hcut.symm⟩
      · rw [Link.setLeg_leg, hdead]
        exact .dead
    · refine Link.forall_both e (fun ha => by cases hdown.symm.trans ha) fun ha => ?_
      simp only [Link.setLeg_party, Link.setParty_peer]
      exact h.running e.peer ha
    · intro hpos
      cases e with
      | client => exact h.late hpos
      | server => exact absurd (hlate rfl) (Nat.ne_of_gt hpos)
    · simp only [Link.setLeg_party, Link.setParty_party]
    · simp only [Link.setLeg_party, Link.setParty_peer]

theorem detached_client (hup : (s.ends .client).up = false) (hdial : s.dial ≠ .served) :
    s.attached .client = false := by
  rw [attached, hup, Bool.false_or, beq_eq_false_iff_ne]
  exact hdial

/-- A request that the server has not processed says how much the client has. -/
theorem asked (h : Shadow p s l) {n : Nat} (hasked : s.shake.asked = some n) :
    s.attached .client = false ∧ n = (s.ends .client).ep.rl.recvOffset := by
  obtain ⟨hrun, hn⟩ := h.inv.asked n (h.shake.asked n hasked)
  rw [(h.ends .client).ep] at hn
  refine ⟨Bool.eq_false_iff.mpr fun ha => ?_, hn⟩
  cases hrun.symm.trans (h.running .client ha)

/-- The link's client asks. -/
theorem asks (h : Shadow p s l) (hdown : s.attached .client = false) :
    ∃ l', (Link.machine (p.maxReplay .client) (p.maxReplay .server) true true).Reachable
        { l' with shake := { asked := some (s.ends .client).ep.rl.recvOffsetNow } } ∧
      Shadow p s l' ∧ (l'.party .server).running = (l.party .server).running := by
  obtain ⟨l', h', hrun, hserver⟩ := h.stopped hdown (by rintro ⟨⟩)
  refine ⟨l', h'.reach.next (a := .ask) ?_, h', hserver⟩
  show Link.step l' .ask = _
  rw [Link.step, ← (h'.ends .client).ep]
  simp only [hrun, Bool.false_eq_true, if_false]

theorem ask (h : Shadow p s l) (hres : s.Resuming) :
    ∃ l', Shadow p { s with
      shake := { asked := some (s.ends .client).ep.rl.recvOffsetNow }
      refusal := false
      stale := s.stale ++ s.waitedFor } l' := by
  obtain ⟨hup, hdial, -⟩ := hres
  have hdown := detached_client hup (by rw [hdial]; decide)
  obtain ⟨l₁, hreach, h₁, -⟩ := h.asks hdown
  refine ⟨_, hreach, h₁.fits, h₁.ends, h₁.chan, .refl _, h₁.running, h₁.down, h₁.dialing,
    fun hsent => ?_, fun hserved => ?_, h₁.late, fun n hn => ?_, rfl, h₁.trusted.2⟩
  · cases hdial.symm.trans hsent
  · cases hdial.symm.trans hserved
  · rcases List.mem_append.mp hn with hold | hnew
    · exact h.stale n hold
    · unfold waitedFor at hnew
      split at hnew
      next => exact h.asked (Option.mem_toList.mp hnew)
      next => cases hnew

/-- One end rewinds in a handshake. -/
theorem rewound (h : Shadow p s l) {e : Side} {rl : Reliable} (e' : Side) :
    ((s.setEnd e { s.ends e with ep := { (s.ends e).ep with rl := rl } }).ends e').Shows
      ((l.setParty e ((l.party e).withRl rl)).party e') := by
  revert e'
  refine Link.forall_both e ?_ ?_
  · rw [setEnd_ends, Link.setParty_party]
    refine ⟨?_, (h.ends e).written, (h.ends e).agrees, (h.ends e).idle, (h.ends e).benign⟩
    simp only [Party.withRl, (h.ends e).ep]
  · rw [setEnd_peer, Link.setParty_peer]
    exact h.ends e.peer

/-- A handshake changes nobody's running. -/
theorem running_rewound (h : Shadow p s l) {e : Side} {rl : Reliable} (e' : Side)
    (ha : s.attached e' = true) :
    ((l.setParty e ((l.party e).withRl rl)).party e').running = true := by
  revert e'
  refine Link.forall_both e (fun ha => ?_) (fun ha => ?_)
  · rw [Link.setParty_party]
    exact h.running e ha
  · rw [Link.setParty_peer]
    exact h.running e.peer ha

/-- The link is made to wait for an answer to what the client has. -/
theorem waits (h : Shadow p s l) (hdown : s.attached .client = false) :
    ∃ l', Shadow p s l' ∧ l'.shake.asked = some (s.ends .client).ep.rl.recvOffset ∧
      (l'.party .server).running = (l.party .server).running := by
  cases hasked : l.shake.asked with
  | some n =>
    have hn := (h.inv.asked n hasked).2
    rw [(h.ends .client).ep] at hn
    exact ⟨l, h, by rw [hasked, hn], rfl⟩
  | none =>
    -- then neither has the session come anywhere in a handshake
    have hanswered : l.shake.answered = none := by
      cases ha : l.shake.answered with
      | none => rfl
      | some n =>
        have hsome := (h.inv.answered n ha).1
        rw [hasked] at hsome
        cases hsome
    have hcompleted : s.shake.completed = true → False := by
      intro hc
      have hsome := (h.inv.completed (h.shake.completed hc)).1
      rw [hanswered] at hsome
      cases hsome
    obtain ⟨l₁, hreach, h₁, hserver⟩ := h.asks hdown
    refine ⟨_, ⟨hreach, h₁.fits, h₁.ends, h₁.chan, ⟨fun n hn => ?_, fun n hn => ?_, fun hc => ?_⟩,
      h₁.running, h₁.down, h₁.dialing, h₁.sent, h₁.served, h₁.late, h₁.stale, h₁.trusted⟩, rfl,
      hserver⟩
    · cases (h.shake.asked n hn).symm.trans hasked
    · cases (h.shake.answered n hn).symm.trans hanswered
    · exact (hcompleted hc).elim

/-- **The server honours what the client has**: it lies between what is acknowledged and what is
numbered. -/
theorem granted (h : Shadow p s l) :
    (s.ends .server).ep.rl.resumeOut (s.ends .client).ep.rl.recvOffset =
        some (true, (s.ends .server).ep.rl.rewind (s.ends .client).ep.rl.recvOffset) ∧
      (s.ends .server).ep.rl.resumeHandler (s.ends .client).ep.rl.recvOffset =
        some (.resumed (s.ends .server).ep.rl.recvOffset,
          (s.ends .server).ep.rl.rewind (s.ends .client).ep.rl.recvOffset) := by
  have hlo : (l.party .server).ep.rl.ackedOffset ≤ (l.party .client).ep.rl.recvOffset :=
    (h.inv.flow .server).acked
  have hhi : (l.party .client).ep.rl.recvOffset ≤ (l.party .server).ep.rl.sendOffset :=
    (h.inv.flow .server).recv_le
  have hb := (h.inv.flow .server).unbroken
  have hwf := (h.inv.flow .server).sending.sends.wf
  rw [(h.ends .server).ep, (h.ends .client).ep] at hlo hhi
  rw [(h.ends .server).ep] at hb hwf
  constructor
  · rcases Reliable.resumeOut_spec hwf (s.ends .client).ep.rl.recvOffset with ⟨hno, _⟩ | ⟨_, _, _, heq⟩
    · rw [hb] at hno
      simp only [Bool.false_eq_true, false_or] at hno
      omega
    · exact heq
  · rcases Reliable.resumeHandler_spec hwf (s.ends .client).ep.rl.recvOffset with
      ⟨hbroken, _⟩ | ⟨_, hout, _⟩ | ⟨_, _, _, heq⟩
    · cases hb.symm.trans hbroken
    · omega
    · exact heq

/-- **The server grants a request that says how much the client has**, whether the client is still
waiting for the answer or not. -/
theorem resumes (h : Shadow p s l) (hlate : p.lateDials = false) (hup : (s.ends .server).up = false)
    {n : Nat} (hn : s.attached .client = false ∧ n = (s.ends .client).ep.rl.recvOffset)
    {reply : ResumeAnswer} {rl : Reliable}
    (hr : (s.ends .server).ep.rl.resumeHandler n = some (reply, rl)) :
    ∃ off l', reply = .resumed off ∧ Shadow p (s.resumedAt p.lateDials rl) l' ∧
      l'.shake.answered = some off := by
  obtain ⟨hdown, rfl⟩ := hn
  -- no dial is served late, so nobody counts on the server's party
  have h₀ : Shadow p { s with late := 0 } l :=
    ⟨h.reach, h.fits, h.ends, h.chan, h.shake, h.running, h.down, h.dialing, h.sent, h.served,
      fun hpos => absurd hpos (Nat.lt_irrefl 0), h.stale, h.trusted⟩
  obtain ⟨l₁, h₁, hrun₁, -⟩ := h₀.stopped (e := .server) hup fun _ => rfl
  obtain ⟨l₂, h₂, hasked, hrun⟩ := h₁.waits hdown
  rw [hrun₁] at hrun
  have hep : (l₂.party .server).ep = (s.ends .server).ep := (h₂.ends .server).ep
  obtain ⟨hgranted, hhandler⟩ := h.granted
  cases hhandler.symm.trans hr
  have hresume : (l₂.party .server).ep.rl.resumeOut (s.ends .client).ep.rl.recvOffset =
      some (true, (s.ends .server).ep.rl.rewind (s.ends .client).ep.rl.recvOffset) := by
    rw [hep]
    exact hgranted
  have hstep : l₂.step .answer = some { l₂.setParty .server ((l₂.party .server).withRl
        ((s.ends .server).ep.rl.rewind (s.ends .client).ep.rl.recvOffset)) with
      shake := { l₂.shake with answered := some (s.ends .server).ep.rl.recvOffset } } := by
    rw [Link.step, Link.answer]
    simp only [hrun, hasked, hresume, Option.bind_eq_bind, Option.bind_some, Bool.false_eq_true,
      if_false, if_true]
    rfl
  refine ⟨_, _, rfl, ⟨h₂.reach.next (a := .answer) hstep, h₂.fits, h₂.rewound, h₂.chan, ?_,
    h₂.running_rewound, h.down, h.dialing, h.sent, h.served, ?_, h.stale, h.trusted⟩, rfl⟩
  · refine ⟨h₂.shake.asked, fun k hk => ?_, h₂.shake.completed⟩
    -- whatever the session has been answered, the server has received no more since
    have hk' := (h₂.inv.answered k (h₂.shake.answered k hk)).2.2.1
    rw [hep] at hk'
    rw [hk']
  · show 0 < (if p.lateDials = true then s.late else 0) → _
    rw [hlate]
    exact fun hpos => absurd hpos (Nat.lt_irrefl 0)

theorem answer (h : Shadow p s l) (hlate : p.lateDials = false) (hup : (s.ends .server).up = false)
    {n off : Nat} {rl : Reliable} (hasked : s.shake.asked = some n)
    (hr : (s.ends .server).ep.rl.resumeHandler n = some (.resumed off, rl)) :
    ∃ l', Shadow p { s.resumedAt p.lateDials rl with
      shake := { s.shake with answered := some off } } l' := by
  obtain ⟨off', l', heq, h', hanswered⟩ := h.resumes hlate hup (h.asked hasked) hr
  cases heq
  refine ⟨l', h'.reach, h'.fits, h'.ends, h'.chan, ⟨h'.shake.asked, fun k hk => ?_, h'.shake.completed⟩,
    h'.running, h'.down, h'.dialing, h'.sent, fun hserved => ?_, h'.late, h'.stale, h'.trusted⟩
  · cases hk
    exact hanswered
  · rw [h.served hserved] at hasked
    cases hasked

theorem answerLate (h : Shadow p s l) (hlate : p.lateDials = false)
    (hup : (s.ends .server).up = false) {i n : Nat} {reply : ResumeAnswer} {rl : Reliable}
    (hstale : s.stale[i]? = some n)
    (hr : (s.ends .server).ep.rl.resumeHandler n = some (reply, rl)) :
    ∃ l', Shadow p { s.resumedAt p.lateDials rl with stale := s.stale.eraseIdx i } l' := by
  obtain ⟨-, l', -, h', -⟩ := h.resumes hlate hup (h.stale n (List.mem_of_getElem? hstale)) hr
  exact ⟨l', h'.reach, h'.fits, h'.ends, h'.chan, h'.shake, h'.running, h'.down, h'.dialing, h'.sent,
    h'.served, h'.late, fun m hm => h'.stale m (List.mem_of_mem_eraseIdx hm), h'.trusted⟩

/-- **The client accepts what it is answered.** -/
theorem accept (h : Shadow p s l) {n : Nat} {ok : Bool} {rl : Reliable} (hres : s.Resuming)
    (hanswered : s.shake.answered = some n)
    (hr : (s.ends .client).ep.rl.resumeOut n = some (ok, rl)) :
    ok = true ∧ ∃ l', Shadow p
      { s.setEnd .client { s.ends .client with ep := { (s.ends .client).ep with rl := rl } } with
        shake := { s.shake with completed := true }
        dial := .sent } l' := by
  obtain ⟨hup, hdial, hover⟩ := hres
  have hanswered₁ : l.shake.answered = some n := h.shake.answered n hanswered
  obtain ⟨hasked, _, hn, _⟩ := h.inv.answered n hanswered₁
  obtain ⟨k, hk⟩ := Option.isSome_iff_exists.mp hasked
  have hrun := (h.inv.asked k hk).1
  have hr₁ : (l.party .client).ep.rl.resumeOut n = some (ok, rl) := by
    rw [(h.ends .client).ep]
    exact hr
  have hok : ok = true := by
    subst hn
    exact (h.inv.rewind_step (e := .client) hrun hr₁).1
  subst hok
  have hstep : l.step .accept = some { l.setParty .client ((l.party .client).withRl rl) with
      shake := { l.shake with completed := true } } := by
    rw [Link.step, Link.accept]
    simp only [hrun, hanswered₁, hr₁, Option.bind_eq_bind, Option.bind_some, Bool.false_eq_true,
      if_false, if_true]
  have hdown : s.attached .client = false := detached_client hup (by rw [hdial]; decide)
  refine ⟨rfl, _, h.reach.next (a := .accept) hstep, h.fits, h.rewound, h.chan, ?_, ?_, ?_,
    fun _ => ⟨hup, hover⟩, fun _ => rfl, (by rintro ⟨⟩), h.late, ?_, h.trusted⟩
  · exact ⟨h.shake.asked, h.shake.answered, fun _ => rfl⟩
  · intro e' ha
    refine h.running_rewound e' ?_
    cases e' with
    | client => exact absurd ha (by simp [attached, setEnd, hup])
    | server => exact ha
  · intro e' ha
    refine h.down e' ?_
    cases e' with
    | client => exact hdown
    | server => exact ha
  · intro m hm
    obtain ⟨-, hrecv⟩ := h.stale m hm
    refine ⟨by simp [attached, setEnd, hup], hrecv.trans ?_⟩
    have hwf : (s.ends .client).ep.rl.Wf :=
      (h.ends .client).ep ▸ (h.inv.flow .client).sending.sends.wf
    exact (Reliable.resumeOut_trims hwf hr).2.symm

/-- Loops that are down may start again. -/
theorem start_shows {x : WsEnd} {q : Party} (h : x.Shows q) (hup : x.up = false) (b : Bool) :
    x.start.Shows { q with running := b } := by
  refine ⟨h.ep, h.written, ?_, nofun, nofun⟩
  have hagrees := h.agrees
  rw [h.idle hup] at hagrees
  exact hagrees

/-- Both parties start on new legs once a handshake is complete. -/
theorem start_reachable (h : Shadow p s l) (hdial : s.dial = .sent) :
    (Link.machine (p.maxReplay .client) (p.maxReplay .server) true true).Reachable { l with
      party := fun e => { l.party e with running := true }
      leg := fun _ => {}
      shake := {} } := by
  refine h.reach.next (a := .start) ?_
  show Link.step l .start = _
  have hc : l.shake.completed = true := h.shake.completed (h.sent hdial)
  rw [Link.step, if_pos hc]

theorem serve (h : Shadow p s l) (hlate : p.lateResumes = false) (hdial : s.dial = .sent)
    (hup : (s.ends .server).up = false) :
    ∃ l', Shadow p { s.setEnd .server (s.ends .server).start with
      chan := fun _ => {}
      shake := {}
      stale := if p.lateResumes then s.stale else []
      dial := .served } l' := by
  have hclient := h.dialing (by rw [hdial]; decide)
  refine ⟨_, h.start_reachable hdial, h.fits, ?_, fun _ => .empty, .refl _, fun _ _ => rfl, ?_,
    fun _ => hclient, nofun, fun _ => rfl, fun _ => rfl, fun n hn => ?_, h.trusted⟩
  · intro e
    cases e with
    | client =>
      have hshows := h.ends .client
      exact ⟨hshows.ep, hshows.written, hshows.agrees, hshows.idle, hshows.benign⟩
    | server => exact start_shows (h.ends .server) hup true
  · intro e hdown
    cases e with
    | client => exact absurd hdown (by simp [attached])
    | server => cases hdown
  · rw [hlate] at hn
    cases hn

/-- A client that is down, and legs that nobody reads. -/
theorem cutOff {l₁ : Link}
    (hreach : (Link.machine (p.maxReplay .client) (p.maxReplay .server) true true).Reachable l₁)
    (hfit : l₁.overflowed = false) (hends : ∀ e, (s.ends e).Shows (l₁.party e))
    (hchan : s.chan = fun _ => .dead) (hshake : s.shake = {}) (hdial : s.dial = .none)
    (hup : (s.ends .client).up = false)
    (hrun : (s.ends .server).up = true → (l₁.party .server).running = true)
    (hlate : 0 < s.late → (l₁.party .server).running = true)
    (hstale : ∀ n ∈ s.stale, n = (s.ends .client).ep.rl.recvOffset) (htrusted : s.Trusted) :
    ∃ l', Shadow p s l' := by
  have hdown : s.attached .client = false := detached_client hup (by rw [hdial]; decide)
  refine ⟨_, Link.cut_reachable rfl (Link.cut_reachable rfl hreach .client 0) .server 0, hfit, hends,
    ?_, ?_, ?_, ?_, ?_, ?_, ?_, hlate, fun n hn => ⟨hdown, hstale n hn⟩, htrusted⟩
  · intro e
    rw [hchan]
    cases e <;> exact .dead
  · rw [hshake]
    exact .empty _
  · intro e ha
    cases e with
    | client => cases hdown.symm.trans ha
    | server => exact hrun ha
  · intro e _
    rw [hchan]
    exact ⟨rfl, rfl⟩
  · exact fun hne => absurd hdial hne
  · intro hsent
    cases hdial.symm.trans hsent
  · intro hserved
    cases hdial.symm.trans hserved

/-- `resume` returns at the client, which starts its loops or has had enough. -/
theorem connected (h : Shadow p s l) (hdial : s.dial = .served) (lasted : Int) :
    ∃ l', Shadow p (s.connected lasted) l' := by
  obtain ⟨hclient, hover⟩ := h.dialing (by rw [hdial]; decide)
  have hattached : s.attached .client = true := by simp [attached, hdial]
  have hstale : ∀ {P : Nat → Prop}, ∀ n ∈ s.stale, P n := by
    intro P n hn
    cases (h.stale n hn).1.symm.trans hattached
  unfold WsSession.connected
  dsimp only
  split
  next hfive =>
    exact cutOff h.reach h.fits h.ends rfl (h.served hdial) rfl hclient (h.running .server) h.late
      hstale ⟨h.trusted.1, .inr (.inr ⟨rfl, ResumeStabilityGuard.record_gives_up hfive⟩)⟩
  next =>
    refine ⟨l, h.reach, h.fits, ?_, h.chan, h.shake, ?_, ?_, nofun, nofun, nofun, h.late, hstale,
      h.trusted.1, .inl hover⟩
    · intro e
      cases e with
      | client => exact start_shows (h.ends .client) hclient _
      | server => exact h.ends .server
    · intro e ha
      cases e with
      | client => exact h.running .client hattached
      | server => exact h.running .server ha
    · intro e hdown
      cases e with
      | client => exact absurd hdown (by simp [attached, setEnd, WsEnd.start])
      | server => exact h.down .server hdown

/-- A dial that the client gives up on. What the server may make of it later, it makes of a party
that runs on dead legs. -/
theorem giveUp (h : Shadow p s l) (hdial : s.dial ≠ .none) :
    ∃ l', Shadow p { s with
      chan := fun _ => .dead
      shake := {}
      dial := .none
      late := if s.dial = .sent then s.late + 1 else s.late } l' := by
  have hclient := (h.dialing hdial).1
  have hstale : ∀ n ∈ s.stale, n = (s.ends .client).ep.rl.recvOffset := fun n hn => (h.stale n hn).2
  cases hd : s.dial with
  | none => exact absurd hd hdial
  | sent =>
    refine cutOff (h.start_reachable hd) h.fits (fun e => ?_) rfl rfl rfl hclient (fun _ => rfl)
      (fun _ => rfl) hstale h.trusted
    have hshows := h.ends e
    exact ⟨hshows.ep, hshows.written, hshows.agrees, hshows.idle, hshows.benign⟩
  | served =>
    exact cutOff h.reach h.fits h.ends rfl rfl rfl hclient (h.running .server) h.late hstale h.trusted

theorem serveLate (h : Shadow p s l) (hlate : 0 < s.late) (hup : (s.ends .server).up = false) :
    ∃ l', Shadow p { s.setEnd .server (s.ends .server).start with late := s.late - 1 } l' := by
  refine ⟨l, h.reach, h.fits, ?_, h.chan, h.shake, ?_, ?_, h.dialing, h.sent, h.served,
    fun _ => h.late hlate, h.stale, h.trusted⟩
  · intro e
    cases e with
    | client => exact h.ends .client
    | server => exact start_shows (h.ends .server) hup _
  · intro e ha
    cases e with
    | client => exact h.running .client ha
    | server => exact h.late hlate
  · intro e hdown
    cases e with
    | client => exact h.down .client hdown
    | server => cases hdown

/-- An overflow is never forgotten. -/
theorem fits_of_step {ev : WsEvent} (hs : s.step p ev = some s') (hfit : s'.overflowed = false) :
    s.overflowed = false := by
  cases moves_of_step hs with
  | advance => exact (Bool.or_eq_false_iff.mp hfit).1
  | @handles e m rest f _ _ _ =>
    unfold WsSession.handle at hfit
    dsimp only at hfit
    split at hfit <;> exact hfit
  | connected =>
    unfold WsSession.connected at hfit
    dsimp only at hfit
    split at hfit <;> exact hfit
  | _ => exact hfit

/-- **Every step of a session that nothing reaches late is matched by its link**, as long as nothing
overflows. -/
theorem step (h : Shadow p s l) (hord : ∀ e, Ordered s e) (hlate : p.lateDials = false)
    (hresumes : p.lateResumes = false) {ev : WsEvent} (hs : s.step p ev = some s')
    (hfit : s'.overflowed = false) : ∃ l', Shadow p s' l' := by
  cases moves_of_step hs with
  | @app e op ep hop _ hp =>
    have hperm : (l.party e).permits op = true := by cases op <;> first | rfl | cases hop
    have hover : (s.ends e).ep.overflows op = false := by cases op <;> first | rfl | cases hop
    have hcall : ep.call = (s.ends e).ep.call := by
      cases Endpoint.performs hp with
      | aside => rfl
      | nextOut => cases hop
      | advance => cases hop
      | control => cases hop
      | hear => cases hop
    exact h.own op hperm hp hover rfl rfl rfl (hcall ▸ (h.ends e).agrees) (h.ends e).idle rfl
  | @cancel e =>
    have hshows := h.ends e
    exact ⟨l, h.quiet rfl ⟨hshows.ep, hshows.written, hshows.agrees, hshows.idle, hshows.benign⟩⟩
  | reset hup hpc => exact h.reset hup hpc
  | @call e ep hup _ hp =>
    refine h.own (.nextOut (p.buf e)) (h.running e (attached_of_up hup)) hp rfl rfl rfl
      (List.append_nil _).symm ?_
      (fun hdown => absurd hdown (ne_false_of_eq_true hup)) rfl
    exact Endpoint.returned_err (hord e).sending.sends.wf (.inl ⟨_, rfl⟩) hp
  | @advance e fired ep hup hpc hp =>
    obtain ⟨l', h'⟩ := h.own (x := { s.ends e with ep := ep }) (.advance fired)
      (h.running e (attached_of_up hup)) hp (Bool.or_eq_false_iff.mp hfit).2 rfl rfl
      (List.append_nil _).symm
      (by
        show WriterPc.Agrees (s.ends e).writer _ _
        rw [hpc]
        exact Endpoint.returned_err (hord e).sending.sends.wf (.inr ⟨_, rfl⟩) hp)
      (fun hdown => absurd hdown (ne_false_of_eq_true hup)) rfl
    exact ⟨l', h'.reach, h'.fits, h'.ends, h'.chan, h'.shake, h'.running, h'.down, h'.dialing,
      h'.sent, h'.served, h'.late, h'.stale, h'.trusted⟩
  | @leaves e res hup hpc hcall herr =>
    have hnil : res.bytes = [] := by
      have hagrees := (h.ends e).agrees
      rw [hpc] at hagrees
      exact (hagrees res hcall).resolve_left herr
    exact h.collects hup (by rw [Endpoint.collect, hcall]) hnil rfl
  | @goesOn e res i hup _ _ =>
    have hshows := h.ends e
    refine ⟨l, h.quiet rfl ⟨hshows.ep, hshows.written, trivial, fun hdown => ?_, hshows.benign⟩⟩
    cases hup.symm.trans hdown
  | takeAck hup _ => exact h.takeAck hup
  | @ackOut e n i hup hpc =>
    have hn : n ∈ (l.party e).due := by
      have hagrees := (h.ends e).agrees
      rw [hpc] at hagrees
      exact hagrees
    obtain ⟨l', due, hreach, hput⟩ := Link.sendAck_reachable rfl h.reach hn
    exact ⟨l', h.writes (r := .ok) hup hreach hput (.ack (h.short hord hn) .nil) (h.ends e).ep rfl
      rfl trivial⟩
  | @ackFails e r n i res ep hup hr hpc hc =>
    have hn : n ∈ (l.party e).due := by
      have hagrees := (h.ends e).agrees
      rw [hpc] at hagrees
      exact hagrees
    have hcl : (l.party e).ep.collect = some (res, ep) := by rw [(h.ends e).ep]; exact hc
    obtain ⟨l', due, hreach, hput⟩ := Link.ackFails_reachable rfl h.reach hn hcl hr
    obtain ⟨_, rfl⟩ := Endpoint.collected hc
    exact ⟨l', h.writes hup hreach hput (.ack (h.short hord hn) .nil) rfl rfl rfl rfl⟩
  | @skips e i res ep hup _ hc hm =>
    have hnil : res.bytes = [] := by
      by_contra hne
      rw [NextResult.message, if_pos hne] at hm
      cases hm
    obtain ⟨_, rfl⟩ := Endpoint.collected hc
    exact h.collects hup hc hnil rfl
  | @writes e r i res ep m hup _ hc hm =>
    have hcl : (l.party e).ep.collect = some (res, ep) := by rw [(h.ends e).ep]; exact hc
    obtain ⟨l', hreach, hput⟩ := Link.write_reachable rfl h.reach hcl r
    obtain ⟨_, rfl⟩ := Endpoint.collected hc
    refine ⟨l', h.writes hup hreach hput (encodes hord hc hm) rfl rfl rfl ?_⟩
    split <;> exact rfl
  | @drops e m rest _ hq hm =>
    cases (hord e.peer).honest m (by rw [hq]; exact List.mem_cons_self) <;> cases hm
  | @handles e m rest f hup hq hf =>
    obtain ⟨l', h'⟩ := h.handles (e := e.peer) (by rw [Side.peer_peer]; exact hup) hq hf
    rw [Side.peer_peer] at h'
    exact ⟨l', h'⟩
  | @malformed e m rest err _ hq hf =>
    cases (hord e.peer).honest m (by rw [hq]; exact List.mem_cons_self) <;> cases hf
  | @disconnects _ e _ =>
    obtain ⟨l', h'⟩ := h.readEnds e.peer (r := .connection) rfl
    rw [Side.peer_peer] at h'
    exact ⟨l', h'⟩
  | cut => exact h.cut _ _
  | stop hup hpc _ => exact h.stop hup hpc
  | ask hres => exact h.ask hres
  | answer hup hasked hr => exact h.answer hlate hup hasked hr
  | conflicts hup hasked hr =>
    obtain ⟨-, -, ⟨⟩, -⟩ := h.resumes hlate hup (h.asked hasked) hr
  | answerLate hup hstale hr => exact h.answerLate hlate hup hstale hr
  | accept hres hanswered hr => exact (h.accept hres hanswered hr).2
  | declines hres hanswered hr => cases (h.accept hres hanswered hr).1
  | refused _ hrefusal => cases h.trusted.1.symm.trans hrefusal
  | serve hdial hup => exact h.serve hresumes hdial hup
  | connected hdial => exact h.connected hdial _
  | giveUp hdial => exact h.giveUp hdial
  | serveLate hpos hup => exact h.serveLate hpos hup
  | leave hres =>
    exact ⟨l, h.reach, h.fits, h.ends, h.chan, h.shake, h.running, h.down,
      fun hne => absurd hres.2.1 hne, h.sent, h.served, h.late, h.stale, h.trusted.1, .inr (.inl rfl)⟩

theorem reachable (hlate : p.lateDials = false) (hresumes : p.lateResumes = false)
    (h : (machine p).Reachable s) (hfit : s.overflowed = false) : ∃ l, Shadow p s l := by
  refine Machine.Reach.invariant
    (P := fun s => (machine p).Reachable s ∧ (s.overflowed = false → ∃ l, Shadow p s l))
    ⟨.init, fun _ => ⟨_, init p⟩⟩ ?_ h |>.2 hfit
  rintro s ev s' - ⟨hreach, ih⟩ - hs
  refine ⟨hreach.next hs, fun hfit' => ?_⟩
  obtain ⟨l, hl⟩ := ih (fits_of_step hs hfit')
  exact hl.step (Ordered.reachable hreach) hlate hresumes hs hfit'

end Shadow

/-! ## What a session survives -/

/-- **The two ends agree.** Neither has met a gap, a bad ack or a broken layer; no resume is refused;
and the client has not given the session up, unless it has left it or its guard has counted five
fruitless rounds in a row. -/
structure Healthy (s : WsSession) : Prop where
  hopeful : ∀ e, (s.ends e).hopeless = false
  trusted : s.Trusted

theorem Shadow.healthy {p : WsSetting} {s : WsSession} {l : Link} (h : Shadow p s l) :
    s.Healthy := ⟨h.hopeful, h.trusted⟩

/-- Both connections fail before anything is sent, and both ends notice. -/
def lost : List WsEvent :=
  [.reset .client, .reset .server, .cancel .client, .cancel .server, .app .client .interruptOut,
   .app .server .interruptOut, .call .client, .advance .client false, .react .client, .call .server,
   .advance .server false, .react .server, .readFails .client, .readFails .server, .stop .client,
   .stop .server]

/-- A resume and the dial after it. -/
def resumed : List WsEvent := [.ask, .answer, .accept]

/-- The server writes `b`, and its write pump takes it. -/
def pumped (b : UInt8) : List WsEvent :=
  [.reset .server, .app .server (.write [b]), .call .server, .advance .server false,
   .advance .server true, .advance .server false, .react .server, .takeAck .server,
   .write .server .ok]

/-- The server's loops are cancelled and return. -/
def released : List WsEvent :=
  [.cancel .server, .app .server .interruptOut, .call .server, .advance .server false,
   .react .server, .readFails .server, .stop .server]

/-- The client's loops are cancelled and return. -/
def dropped : List WsEvent :=
  [.reset .client, .cancel .client, .app .client .interruptOut, .call .client,
   .advance .client false, .react .client, .readFails .client, .stop .client]

/-- The client gives up on its first dial and resumes again. The server serves that dial after the
second handshake, takes a byte for it, and lets go of it for the second dial. -/
def lateDial : List WsEvent :=
  lost ++ resumed ++ [.giveUp] ++ resumed ++ [.serveLate] ++ pumped 7 ++ released ++
    [.serve, .connected 0] ++ pumped 8 ++ [.read .client]

/-- The client repeats its first resume request. The server processes the one that it gave up on
after the client has got a byte and reported it in the next resume. -/
def lateResume : List WsEvent :=
  lost ++ [.ask] ++ resumed ++ [.serve, .connected 0] ++ pumped 7 ++ [.read .client] ++ dropped ++
    released ++ [.ask, .answer, .answerLate 0]

/-- The client's first message is lost with its connection, and sent again on the next one. -/
def lostMessage : List WsEvent :=
  [.reset .client, .app .client (.write [1, 2]), .call .client, .advance .client false,
   .advance .client true, .advance .client false, .react .client, .takeAck .client,
   .write .client .ok, .cut .client 0, .reset .server, .cancel .client, .cancel .server,
   .app .client .interruptOut, .app .server .interruptOut, .call .client, .advance .client false,
   .react .client, .call .server, .advance .server false, .react .server, .readFails .client,
   .readFails .server, .stop .client, .stop .server] ++ resumed ++
  [.serve, .connected 0, .reset .client, .call .client, .react .client, .takeAck .client,
   .write .client .ok, .read .server]

/-- Small buffers, and nothing that reaches the server late. -/
def prompt : WsSetting := ⟨fun _ => 64, fun _ => 64, fun _ => 128, false, false⟩

/-- **The ends agree through any loss of connections exactly if nothing that the client has given up
on reaches the server late.** With a late dial, the server hands a byte to a connection that nobody
reads, and goes on behind it on the next one. With a late resume request, it is asked for what it
has released. -/
theorem session_survives_iff (lateDials lateResumes : Bool) :
    (∀ (p : WsSetting) (s : WsSession), p.lateDials = lateDials → p.lateResumes = lateResumes →
      (machine p).Reachable s → s.overflowed = false → s.Healthy) ↔
      lateDials = false ∧ lateResumes = false := by
  constructor
  · intro hall
    let p : WsSetting := ⟨fun _ => 64, fun _ => 64, fun _ => 128, lateDials, lateResumes⟩
    constructor
    · cases lateDials with
      | false => rfl
      | true =>
        have hbad := hall p ((machine p).final lateDial) rfl rfl (Machine.reachable_final _ _)
        cases lateResumes with
        | false => exact absurd ((hbad (by decide)).hopeful .client) (by decide)
        | true => exact absurd ((hbad (by decide)).hopeful .client) (by decide)
    · cases lateResumes with
      | false => rfl
      | true =>
        have hbad := hall p ((machine p).final lateResume) rfl rfl (Machine.reachable_final _ _)
        cases lateDials with
        | false => exact absurd ((hbad (by decide)).hopeful .server) (by decide)
        | true => exact absurd ((hbad (by decide)).hopeful .server) (by decide)
  · rintro ⟨rfl, rfl⟩ p s hlate hresumes hreach hfit
    obtain ⟨l, hl⟩ := Shadow.reachable hlate hresumes hreach hfit
    exact hl.healthy

/-- After `lostMessage` the client is on its second connection. -/
theorem lostMessage_survives :
    (((machine prompt).final lostMessage).ends .client).up = true ∧
      ((machine prompt).final lostMessage).guard.consecutiveFast = 1 ∧
      ((machine prompt).final lostMessage).Healthy :=
  ⟨by decide, by decide, (session_survives_iff false false).mpr ⟨rfl, rfl⟩ prompt _ rfl rfl
    (Machine.reachable_final (machine prompt) lostMessage) (by decide)⟩

/-- Five connections that bring nothing and are lost at once are too many for the guard. -/
example :
    ((machine prompt).final (List.replicate 5
      (lost ++ resumed ++ [.serve, .connected 0])).flatten).givenUp = some .unstable := by
  decide

/-- Nothing that the application of `e` wrote is waiting or in flight, on a connection that has not
been cut. -/
structure Drained (s : WsSession) (e : Side) : Prop where
  out : (s.ends e).ep.out.buf = []
  hand : (s.ends e).ep.hand = []
  held : (s.ends e).ep.held = []
  sent : (s.ends e).ep.rl.sentCursor = (s.ends e).ep.rl.sendOffset
  chan : s.chan e = {}

/-- An empty channel that is not cut has brought everything its writer has numbered. -/
theorem Shadow.received {p : WsSetting} {s : WsSession} {l : Link} (h : Shadow p s l) {e : Side}
    (hd : s.Drained e) :
    (s.ends e.peer).ep.rl.recvOffset = (s.ends e).ep.rl.sendOffset := by
  have hbears := h.chan e
  rw [hd.chan] at hbears
  have hqueue : (l.leg e).queue = [] := by
    have hq := hbears.queue
    generalize (l.leg e).queue = qs at hq
    cases hq
    rfl
  obtain ⟨v, hcover, hlo, hhi⟩ := (h.inv.flow e).live hbears.cut
  have hrecv := (h.inv.flow e).recv_le
  rw [Leg.spans, hqueue, (h.ends e).ep, hd.held] at hcover
  cases hcover
  rw [(h.ends e).ep, (h.ends e.peer).ep] at hrecv hlo
  rw [hd.sent] at hlo
  exact Nat.le_antisymm hrecv hlo

/-- **What one application has been given is a beginning of what the other wrote**, whatever
connections were lost, and whatever was sent twice or to nobody. **If nothing reaches the server late
it is all of it** once nothing is waiting, in flight or lost with a connection. -/
theorem sockets_deliver {p : WsSetting} {s : WsSession} (h : (machine p).Reachable s) (e : Side) :
    (s.ends e.peer).delivered <+: (s.ends e).written ∧
      (p.lateDials = false → p.lateResumes = false → s.overflowed = false → s.Drained e →
        (s.ends e.peer).delivered = (s.ends e).written) := by
  have hord := Ordered.reachable h e
  refine ⟨hord.holds.prefix_length.1, fun hlate hresumes hfit hd => ?_⟩
  obtain ⟨l, hl⟩ := Shadow.reachable hlate hresumes h hfit
  have hrest := hord.sending.sends.rest
  rw [hd.hand, hd.out, List.append_nil] at hrest
  rw [hord.holds.got_eq, hl.received hd]
  exact List.take_of_length_le (List.drop_eq_nil_iff.mp hrest)

/-- After `lostMessage` the server has what the client wrote. -/
theorem lostMessage_delivered :
    (((machine prompt).final lostMessage).ends .server).delivered = [1, 2] := by
  have hdeliver := (sockets_deliver (Machine.reachable_final (machine prompt) lostMessage)
    .client).2 rfl rfl (by decide) ⟨by decide, by decide, by decide, by decide, by decide⟩
  exact hdeliver.trans (by decide)

end WsSession

end Pollmux
