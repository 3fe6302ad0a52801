import Mathlib.Data.List.TakeDrop
import Pollmux.Reliable.BatchPoll
import Pollmux.Reliable.Resume
import Pollmux.Server.LateResume

/-!
# Stream polls that the client has abandoned

A resumable session that downloads in streams: `pollStreamResumable` on the
server, which reads on from the layer's cursor, against `downLoop` and
`doStreamPoll` on the client. The response of the poll that the client is reading
is first in, first out, and may be cut at any moment. It ends cleanly with a
`frameEnd`, after which the client opens its next poll; it may instead fail, and
then the client resumes before it opens another one. A poll that was sent and not
processed by then is abandoned: the server may process it at any later time, and
whatever it writes goes nowhere. An owner of the direction that the client has
given up on is no better.

A stream poll does not rewind. So what `nextOut` hands to a dead response is not
sent again unless a handshake comes after it, and `drained` records that one is
needed. If no poll of the client's own is attached while it is, no chunk that
reaches the client leaves a gap.
-/

namespace Pollmux

open Kit

/-- What of the download a stream poll's response carries: `frameSeqData` and `frameEnd`. -/
inductive StreamFrame
  | data (c : Chunk)
  | fin
  deriving DecidableEq, Repr

/-- The part of the stream that a frame carries. -/
def StreamFrame.span : StreamFrame → Option (Nat × Nat)
  | .data c => some (c.off, c.bytes.length)
  | .fin => none

/-- Whose poll owns the downstream direction. -/
inductive PollOwner
  | nobody
  /-- The poll that the client is reading. -/
  | own
  /-- One whose response nobody reads. -/
  | stale
  deriving DecidableEq, Repr

/-- Where the client is. -/
inductive StreamPhase
  /-- `downLoop` is about to open a stream poll. -/
  | ready
  | reading
  /-- The legs have failed. -/
  | down
  /-- `doResume` waits for the answer to its offset. -/
  | asked (n : Nat)
  /-- The server has granted the request, and its answer is on its way. -/
  | answered
  deriving DecidableEq, Repr

/-- A session that downloads in streams. `response` is what is on its way to the client of the
poll it is reading, `abandoned` counts the polls it gave up on that the server has not processed;
`requests` and `acks` are as in `Resumption`. -/
structure StreamSession where
  server : Endpoint
  client : Endpoint
  phase : StreamPhase := .ready
  /-- The server has not processed the poll that the client is reading. -/
  unserved : Bool := false
  owner : PollOwner := .nobody
  response : List StreamFrame := []
  cut : Bool := false
  abandoned : Nat := 0
  requests : List Nat := []
  acks : List Nat := []
  /-- `nextOut` has handed bytes to a stale poll since the last granted handshake. -/
  drained : Bool := false
  gap : Bool := false
  deriving DecidableEq, Repr

/-- One step. -/
inductive StreamEvent
  /-- Anything else that goes on around the server's layer. -/
  | server (op : EndOp)
  /-- Whatever the client's application and its own sending side do. -/
  | client (op : EndOp)
  | openPoll
  /-- The client reads the next frame of its poll's response. -/
  | read
  /-- A leg of the client's fails, for whatever reason. -/
  | fail
  /-- The client sends an acknowledgement. -/
  | acknowledge
  /-- The client sends a `ResumeRequest`. -/
  | ask
  /-- No answer has come in time. -/
  | retry
  /-- The answer has come, and the legs run again. -/
  | accept
  /-- The server processes the poll that the client is reading. -/
  | attach
  /-- The server processes a poll that the client has given up on. -/
  | attachStale
  | nextOut (dst : Nat)
  | advance (fired : Bool)
  /-- The owner writes what `nextOut` returned to its response. -/
  | write
  /-- The owner's time is up: it writes `frameEnd` and leaves. -/
  | finish
  /-- The owner leaves without a word. -/
  | leave
  /-- The response is cut, and all but its next `k` frames are lost. -/
  | cutResponse (k : Nat)
  /-- The server processes an acknowledgement. -/
  | hearAck (n : Nat)
  /-- The server processes a resume request that nobody waits for. -/
  | resume (n : Nat)
  /-- The server processes the resume request that the client waits for. -/
  | answer
  deriving DecidableEq, Repr

namespace StreamSession

/-- The server's layer. -/
def rl (s : StreamSession) : Reliable := s.server.rl

/-- How much the client has. -/
def recv (s : StreamSession) : Nat := s.client.rl.recvOffsetNow

/-- The server's layer is replaced. -/
def withRl (s : StreamSession) (rl : Reliable) : StreamSession :=
  { s with server := { s.server with rl := rl } }

/-- The owner is gone. A kicked one cannot write any more, so its response does not end
cleanly. -/
def evict (s : StreamSession) : StreamSession :=
  { s with owner := .nobody, cut := s.cut || s.owner == .own }

/-- The client gives up on the poll it is reading. -/
def abandon (s : StreamSession) : StreamSession :=
  { s with
    phase := .down
    unserved := false
    abandoned := if s.unserved then s.abandoned + 1 else s.abandoned
    owner := if s.owner = .own then .stale else s.owner
    response := [] }

/-- The owner's `nextOut` call goes on. -/
def pump (s : StreamSession) (op : EndOp) : Option StreamSession :=
  if s.owner = .nobody then none
  else (s.server.perform op).map fun e =>
    { s with server := e, drained := s.drained || (s.owner == .stale && e.held != []) }

/-- `ResumeHandler`: a broken layer is turned down at once, and otherwise `kickAll` waits for the
owner before the offset is looked at. -/
def handle (s : StreamSession) (n : Nat) : Option (ResumeAnswer × StreamSession) :=
  if s.rl.isBroken = true ∨ s.server.call = none then
    (s.rl.resumeHandler n).map fun (answer, rl) =>
      (answer, { (if s.rl.isBroken then s else s.evict).withRl rl with
        drained := match answer with
          | .resumed _ => false
          | .conflict _ => s.drained })
  else none

/-- One step. A poll that attaches kicks the owner and waits for it first, and calls
`resetAck`. -/
def step (s : StreamSession) : StreamEvent → Option StreamSession
  | .server op =>
    if op.leavesOut then (s.server.perform op).map fun e => { s with server := e } else none
  | .client op =>
    if op.isHear then none else (s.client.perform op).map fun e => { s with client := e }
  | .openPoll =>
    if s.phase = .ready then
      some { s with phase := .reading, unserved := true, response := [], cut := false }
    else none
  | .read =>
    if s.phase = .reading then
      match s.response with
      | [] => none
      | .data c :: rest => do
        let (err, e) ← s.client.hear c.off c.bytes
        let s' := { s with
          client := e, response := rest, gap := s.gap || err == some .replayGap }
        some (if err = none then s' else s'.abandon)
      | .fin :: _ => some { s with phase := .ready, response := [] }
    else none
  | .fail => if s.phase = .ready ∨ s.phase = .reading then some s.abandon else none
  | .acknowledge => some { s with acks := s.acks ++ [s.recv] }
  | .ask =>
    if s.phase = .down then
      some { s with phase := .asked s.recv, requests := s.requests ++ [s.recv] }
    else none
  | .retry =>
    match s.phase with
    | .asked _ | .answered => some { s with phase := .down }
    | _ => none
  | .accept => if s.phase = .answered then some { s with phase := .ready } else none
  | .attach =>
    if s.unserved = true ∧ s.server.call = none then
      some { s.withRl s.rl.resetAck with owner := .own, unserved := false }
    else none
  | .attachStale =>
    if 0 < s.abandoned ∧ s.server.call = none then
      some { s.evict.withRl s.rl.resetAck with owner := .stale, abandoned := s.abandoned - 1 }
    else none
  | .nextOut dst => s.pump (.nextOut dst)
  | .advance fired => s.pump (.advance fired)
  | .write => s.server.collect.map fun (res, e) =>
      { s with
        server := e
        response := if s.owner = .own ∧ s.cut = false ∧ res.bytes ≠ [] then
          s.response ++ [.data ⟨res.off, res.bytes⟩] else s.response }
  | .finish =>
    if s.owner ≠ .nobody ∧ s.server.call = none then
      some { s with
        owner := .nobody
        response := if s.owner = .own ∧ s.cut = false then s.response ++ [.fin] else s.response }
    else none
  | .leave => if s.owner ≠ .nobody ∧ s.server.call = none then some s.evict else none
  | .cutResponse k => some { s with response := s.response.take k, cut := true }
  | .hearAck n => if n ∈ s.acks then (s.rl.ack n).map fun (_, rl) => s.withRl rl else none
  | .resume n => if n ∈ s.requests then (s.handle n).map (·.2) else none
  | .answer =>
    match s.phase with
    | .asked n => (s.handle n).map fun
      | (.resumed _, s') => { s' with phase := .answered }
      | (.conflict _, s') => s'
    | _ => none

/-- A new session: replay buffers and eager acks of any setting. -/
def machine (serverMax clientMax : Int) (serverEager clientEager : Bool) :
    Machine StreamSession StreamEvent where
  init := { server := .new serverMax serverEager, client := .new clientMax clientEager }
  step := step

/-- No poll of the client's own is attached when a stale one was handed bytes that no handshake has
called back. -/
def Undrained (s : StreamSession) : StreamEvent → Prop
  | .attach => s.drained = false
  | _ => True

instance (s : StreamSession) : DecidablePred (Undrained s)
  | .attach => inferInstanceAs (Decidable (_ = _))
  | .server _ | .client _ | .openPoll | .read | .fail | .acknowledge | .ask | .retry | .accept
  | .attachStale | .nextOut _ | .advance _ | .write | .finish | .leave | .cutResponse _
  | .hearAck _ | .resume _ | .answer => inferInstanceAs (Decidable True)

/-! ## The invariant -/

/-- The parts of the stream on their way to the client: what its response carries, and what the
owner is about to write to it. -/
def pending (s : StreamSession) : List (Nat × Nat) :=
  s.response.filterMap StreamFrame.span ++
    if s.owner = .own ∧ s.cut = false then s.server.held else []

/-- The client will open its next poll without a handshake, unless a leg fails. -/
def Connected (s : StreamSession) : Prop :=
  s.phase = .ready ∨ s.phase = .answered ∨
    s.phase = .reading ∧ (s.cut = false ∨ .fin ∈ s.response)

/-- Who can own the direction, and what a response looks like. -/
structure Shape (s : StreamSession) : Prop where
  idle : s.owner = .nobody → s.server.call = none
  own : s.owner = .own → s.phase = .reading ∧ s.unserved = false ∧ .fin ∉ s.response
  unserved : s.unserved = true → s.phase = .reading ∧ s.response = []
  closed : s.phase ≠ .reading → s.response = []
  finLast : .fin ∉ s.response.dropLast
  undrained : s.owner = .own → s.cut = false → s.drained = false

/-- A client whose own poll's response is cut needs a handshake. -/
theorem Shape.unconnected {s : StreamSession} (h : s.Shape) (hown : s.owner = .own)
    (hcut : s.cut ≠ false) : ¬ s.Connected := by
  obtain ⟨hphase, _, hfin⟩ := h.own hown
  rintro (hready | hanswered | ⟨_, hlive | hclean⟩)
  · exact absurd (hphase.symm.trans hready) (by simp)
  · exact absurd (hphase.symm.trans hanswered) (by simp)
  · exact hcut hlive
  · exact hfin hclean

/-- **What holds while the server's layer is unbroken.** What is on its way leaves no gap, and
reaches up to the cursor unless a handshake will come first or is needed. -/
structure Live (s : StreamSession) : Prop where
  noGap : s.gap = false
  waiting : s.server.Waiting → s.rl.sentCursor = s.rl.sendOffset
  covered : ∃ v, cover s.recv s.pending = some v ∧
    (s.Connected → s.drained = false → s.rl.sentCursor ≤ v)

/-- The invariant of every run in which the client's own polls are attached undrained. -/
structure Inv (s : StreamSession) : Prop where
  server : s.rl.Wf
  client : s.client.rl.Wf
  shape : s.Shape
  requests : ∀ n ∈ s.requests, n ≤ s.recv
  asked : ∀ n, s.phase = .asked n → n ≤ s.recv
  acks : ∀ n ∈ s.acks, n ≤ s.recv
  live : s.rl.broken = false → s.Live

end StreamSession

namespace StreamSession

variable {s s' : StreamSession}

/-- Only the server's call matters of it for what is on its way. -/
theorem pending_congr (hresponse : s'.response = s.response) (howner : s'.owner = s.owner)
    (hcut : s'.cut = s.cut) (hcall : s'.server.call = s.server.call) : s'.pending = s.pending := by
  rw [pending, pending, hresponse, howner, hcut, Endpoint.held, Endpoint.held, hcall]

/-- When no chunk is about to be written, only the response is on its way. -/
theorem pending_still (h : s.owner ≠ .own ∨ s.server.call = none) :
    s.pending = s.response.filterMap StreamFrame.span := by
  unfold pending
  rcases h with hown | hcall
  · rw [if_neg fun hnow => hown hnow.1, List.append_nil]
  · rw [show s.server.held = [] by rw [Endpoint.held, hcall], ite_self, List.append_nil]

theorem cover_still {r v : Nat} (hv : cover r s.pending = some v)
    (h : s.owner ≠ .own ∨ s.server.call = none) (h' : s'.owner ≠ .own ∨ s'.server.call = none)
    (hresponse : s'.response.filterMap StreamFrame.span = s.response.filterMap StreamFrame.span) :
    cover r s'.pending = some v := by
  rw [pending_still h', hresponse, ← pending_still h]
  exact hv

namespace Inv

theorem init (serverMax clientMax : Int) (serverEager clientEager : Bool) :
    Inv (machine serverMax clientMax serverEager clientEager).init where
  server := Endpoint.new_wf serverMax serverEager
  client := Endpoint.new_wf clientMax clientEager
  shape := ⟨fun _ => rfl, nofun, nofun, fun _ => rfl, List.not_mem_nil, nofun⟩
  requests := nofun
  asked := nofun
  acks := nofun
  live _ := by
    refine ⟨rfl, ?_, _, rfl, fun _ _ => ?_⟩
    · rintro ⟨call, hcall, _⟩
      cases hcall
    · have hsend := (Endpoint.new_zero serverMax serverEager).1
      exact Nat.le_trans (Nat.le_trans (Endpoint.new_wf serverMax serverEager).cursor_le
        (Nat.le_of_eq hsend)) (Nat.zero_le _)

/-- The server's endpoint changes and its call does not; the cursor moves no further than it was or
than the client is. -/
theorem settle (h : Inv s) {e : Endpoint} (hwf : e.rl.Wf) (hcall : e.call = s.server.call)
    (hkept : e.rl.broken = false → s.rl.broken = false ∧
      e.rl.sentCursor ≤ max s.rl.sentCursor s.recv ∧
      (s.server.Waiting → s.rl.sentCursor = s.rl.sendOffset →
        e.rl.sentCursor = e.rl.sendOffset)) :
    Inv { s with server := e } where
  server := hwf
  client := h.client
  shape :=
    ⟨fun hown => hcall.trans (h.shape.idle hown), h.shape.own, h.shape.unserved, h.shape.closed,
      h.shape.finLast, h.shape.undrained⟩
  requests := h.requests
  asked := h.asked
  acks := h.acks
  live := by
    intro hb
    obtain ⟨hb', hcur, hwait⟩ := hkept hb
    have hlive := h.live hb'
    obtain ⟨v, hv, hle⟩ := hlive.covered
    have hpending : pending { s with server := e } = s.pending := pending_congr rfl rfl rfl hcall
    refine ⟨hlive.noGap, fun hw => ?_, v, hpending ▸ hv, fun hconn hdrained => ?_⟩
    · have hw' : s.server.Waiting := by
        unfold Endpoint.Waiting at hw ⊢
        rwa [← hcall]
      exact hwait hw' (hlive.waiting hw')
    · exact Nat.le_trans hcur (Nat.max_le.mpr ⟨hle hconn hdrained, le_cover hv⟩)

/-- Neither layer moves. -/
theorem steer (h : Inv s) (hserver : s'.server = s.server) (hclient : s'.client = s.client)
    (hgap : s'.gap = s.gap) (hshape : s'.Shape) (hrequests : ∀ n ∈ s'.requests, n ≤ s.recv)
    (hasked : ∀ n, s'.phase = .asked n → n ≤ s.recv) (hacks : ∀ n ∈ s'.acks, n ≤ s.recv)
    (hcovered : s.rl.broken = false → ∀ v, cover s.recv s.pending = some v →
      (s.Connected → s.drained = false → s.rl.sentCursor ≤ v) →
      ∃ v', cover s.recv s'.pending = some v' ∧
        (s'.Connected → s'.drained = false → s.rl.sentCursor ≤ v')) : Inv s' := by
  have hrecv : s'.recv = s.recv := by rw [recv, recv, hclient]
  have hrl : s'.rl = s.rl := by rw [rl, rl, hserver]
  refine ⟨hrl ▸ h.server, hclient ▸ h.client, hshape, hrecv ▸ hrequests, hrecv ▸ hasked,
    hrecv ▸ hacks, fun hb => ?_⟩
  have hb' : s.rl.broken = false := hrl ▸ hb
  have hlive := h.live hb'
  obtain ⟨v, hv, hle⟩ := hlive.covered
  obtain ⟨v', hv', hle'⟩ := hcovered hb' v hv hle
  refine ⟨hgap ▸ hlive.noGap, ?_, v', hrecv ▸ hv', hrl ▸ hle'⟩
  rw [hserver, hrl]
  exact hlive.waiting

/-- The client's phase changes while no poll is open. -/
theorem rephase (h : Inv s) {phase : StreamPhase} {requests : List Nat}
    (hclosed : s.phase ≠ .reading) (hphase : phase ≠ .reading)
    (hrequests : ∀ n ∈ requests, n ≤ s.recv) (hasked : ∀ n, phase = .asked n → n ≤ s.recv)
    (hconn : phase = .ready ∨ phase = .answered →
      s.Connected ∨ (s.rl.broken = false → s.rl.sentCursor ≤ s.recv)) :
    Inv { s with phase := phase, requests := requests } := by
  have hown : s.owner ≠ .own := fun hown => hclosed (h.shape.own hown).1
  refine h.steer rfl rfl rfl ?_ hrequests hasked h.acks fun hb v hv hle => ?_
  · exact ⟨h.shape.idle, fun hown' => absurd hown' hown,
      fun hun => absurd (h.shape.unserved hun).1 hclosed, fun _ => h.shape.closed hclosed,
      h.shape.finLast, h.shape.undrained⟩
  · refine ⟨v, ?_, fun hconn' hdrained => ?_⟩
    · exact cover_still hv (.inl hown) (.inl hown) rfl
    · have hnow : phase = .ready ∨ phase = .answered :=
        hconn'.imp_right fun hor => hor.resolve_right fun hread => hphase hread.1
      rcases hconn hnow with hwas | hcur
      · exact hle hwas hdrained
      · exact Nat.le_trans (hcur hb) (le_cover hv)

/-- The client gives up on its poll, and needs a handshake from now on. -/
theorem abandon (h : Inv s) : Inv s.abandon := by
  have hown : s.abandon.owner ≠ .own := by
    show (if s.owner = .own then PollOwner.stale else s.owner) ≠ .own
    split
    next => simp
    next hne => exact hne
  refine h.steer rfl rfl rfl ?_ h.requests (fun _ hn => by cases hn) h.acks
    fun _ _ _ _ => ⟨s.recv, ?_, fun hconn => ?_⟩
  · refine ⟨fun hnobody => ?_, fun hown' => absurd hown' hown, fun hun => (by cases hun),
      fun _ => rfl, List.not_mem_nil, fun hown' => absurd hown' hown⟩
    apply h.shape.idle
    simp only [StreamSession.abandon] at hnobody
    split at hnobody
    next => cases hnobody
    next => exact hnobody
  · rw [pending_still (.inl hown)]
    rfl
  · rcases hconn with hc | hc | ⟨hc, _⟩ <;> cases hc

/-- The client opens a poll. -/
theorem openPoll (h : Inv s) (hphase : s.phase = .ready) :
    Inv { s with phase := .reading, unserved := true, response := [], cut := false } := by
  have hclosed : s.phase ≠ .reading := by rw [hphase]; simp
  have hown : s.owner ≠ .own := fun hown => hclosed (h.shape.own hown).1
  refine h.steer rfl rfl rfl ?_ h.requests (fun _ hn => by cases hn) h.acks
    fun _ v hv hle => ⟨v, ?_, fun _ => hle (.inl hphase)⟩
  · exact ⟨h.shape.idle, fun hown' => absurd hown' hown, fun _ => ⟨rfl, rfl⟩, fun _ => rfl,
      List.not_mem_nil, fun hown' => absurd hown' hown⟩
  · exact cover_still hv (.inl hown) (.inl hown) (by rw [h.shape.closed hclosed])

/-- The client reads a `frameEnd`: all of the response is read. -/
theorem read_fin (h : Inv s) {rest : List StreamFrame} (hphase : s.phase = .reading)
    (hresponse : s.response = .fin :: rest) : Inv { s with phase := .ready, response := [] } := by
  have hfin : StreamFrame.fin ∈ s.response := by rw [hresponse]; exact List.mem_cons_self
  have hown : s.owner ≠ .own := fun hown => (h.shape.own hown).2.2 hfin
  have hrest : rest = [] := by
    have hlast := h.shape.finLast
    rw [hresponse] at hlast
    cases rest with
    | nil => rfl
    | cons f rest => exact absurd List.mem_cons_self hlast
  refine h.steer rfl rfl rfl ?_ h.requests (fun _ hn => by cases hn) h.acks
    fun _ v hv hle => ⟨v, ?_, fun _ => hle (.inr (.inr ⟨hphase, .inr hfin⟩))⟩
  · refine ⟨h.shape.idle, fun hown' => absurd hown' hown, fun hun => ?_, fun _ => rfl,
      List.not_mem_nil, fun hown' => absurd hown' hown⟩
    rw [(h.shape.unserved hun).2] at hfin
    exact absurd hfin List.not_mem_nil
  · exact cover_still hv (.inl hown) (.inl hown) (by rw [hresponse, hrest]; rfl)

/-- **The client reads a chunk**: it starts within what the client has. -/
theorem head_le (h : Inv s) (hb : s.rl.broken = false) {c : Chunk} {rest : List StreamFrame}
    (hresponse : s.response = .data c :: rest) : c.off ≤ s.recv := by
  obtain ⟨v, hv, _⟩ := (h.live hb).covered
  simp only [pending, hresponse, List.filterMap_cons, StreamFrame.span, List.cons_append,
    cover] at hv
  split at hv
  next hle => exact hle
  next => cases hv

/-- The client's endpoint changes and has what it had. -/
theorem reclient (h : Inv s) {e : Endpoint} {gap : Bool} (hwf : e.rl.Wf)
    (hle : s.recv ≤ e.rl.recvOffset)
    (hlive : s.rl.broken = false → e.rl.recvOffset = s.recv ∧ gap = false) :
    Inv { s with client := e, gap := gap } where
  server := h.server
  client := hwf
  shape := ⟨h.shape.idle, h.shape.own, h.shape.unserved, h.shape.closed, h.shape.finLast,
    h.shape.undrained⟩
  requests n hn := Nat.le_trans (h.requests n hn) hle
  asked n hn := Nat.le_trans (h.asked n hn) hle
  acks n hn := Nat.le_trans (h.acks n hn) hle
  live := by
    intro hb
    obtain ⟨hrecv, hgap⟩ := hlive hb
    obtain ⟨v, hv, hcur⟩ := (h.live hb).covered
    exact ⟨hgap, (h.live hb).waiting, v, (congrArg (cover · s.pending) hrecv).trans hv, hcur⟩

theorem client_step (h : Inv s) {op : EndOp} {e : Endpoint} (hop : ¬ op.isHear = true)
    (hp : s.client.perform op = some e) : Inv { s with client := e } := by
  obtain ⟨hwf, hrecv⟩ :=
    Endpoint.perform_recvOffset h.client (fun off p heq => hop (by rw [heq]; rfl)) hp
  exact h.reclient hwf (Nat.le_of_eq hrecv.symm) fun hb => ⟨hrecv, (h.live hb).noGap⟩

/-- The client reads a chunk, and what follows it still leaves no gap. -/
theorem read_data (h : Inv s) {c : Chunk} {rest : List StreamFrame} {e : Endpoint} {gap : Bool}
    (hphase : s.phase = .reading) (hresponse : s.response = .data c :: rest) (hwf : e.rl.Wf)
    (hrecv : e.rl.recvOffset = max s.recv (c.off + c.bytes.length))
    (hgap : s.rl.broken = false → gap = false) :
    Inv { s with client := e, response := rest, gap := gap } := by
  have hle : s.recv ≤ e.rl.recvOffset := hrecv ▸ Nat.le_max_left _ _
  have hmem : ∀ f ∈ rest, f ∈ s.response := fun f hf => by
    rw [hresponse]
    exact List.mem_cons_of_mem _ hf
  refine ⟨h.server, hwf, ⟨h.shape.idle, fun hown => ?_, fun hun => ?_,
    fun hne => absurd hphase hne, fun hf => h.shape.finLast ?_, h.shape.undrained⟩,
    fun n hn => Nat.le_trans (h.requests n hn) hle, fun n hn => Nat.le_trans (h.asked n hn) hle,
    fun n hn => Nat.le_trans (h.acks n hn) hle, fun hb => ?_⟩
  · obtain ⟨_, hserved, hfin⟩ := h.shape.own hown
    exact ⟨hphase, hserved, fun hf => hfin (hmem _ hf)⟩
  · exact absurd ((h.shape.unserved hun).2.symm.trans hresponse) (by simp)
  · rw [hresponse]
    cases rest with
    | nil => exact absurd hf List.not_mem_nil
    | cons f rest => exact List.mem_cons_of_mem _ hf
  · obtain ⟨v, hv, hcur⟩ := (h.live hb).covered
    refine ⟨hgap hb, (h.live hb).waiting, v, ?_, fun hconn => hcur ?_⟩
    · have hoff := h.head_le hb hresponse
      simp only [pending, hresponse, List.filterMap_cons, StreamFrame.span, List.cons_append,
        cover, if_pos hoff] at hv
      rw [← hrecv] at hv
      exact hv
    · exact hconn.imp_right fun hor => hor.imp_right fun hread =>
        ⟨hread.1, hread.2.imp_right fun hf => hmem _ hf⟩

/-- **The client reads on.** -/
theorem hear_step (h : Inv s) {c : Chunk} {rest : List StreamFrame} {e : Endpoint}
    {err : Option Err} (hphase : s.phase = .reading) (hresponse : s.response = .data c :: rest)
    (hh : s.client.hear c.off c.bytes = some (err, e)) :
    Inv (if err = none then
      { s with client := e, response := rest, gap := s.gap || err == some .replayGap }
    else StreamSession.abandon
      { s with client := e, response := rest, gap := s.gap || err == some .replayGap }) := by
  obtain ⟨res, hr, heq⟩ := Option.bind_eq_some_iff.mp hh
  cases heq
  have hwf := (Reliable.recvIn_trims h.client hr).wf
  have hnone : ∀ {err : Option Err}, err ≠ some .replayGap → s.rl.broken = false →
      (s.gap || err == some .replayGap) = false := by
    intro err hne hb
    rw [(h.live hb).noGap, Bool.false_or, beq_eq_false_iff_ne]
    exact hne
  have hskip : ∀ {e : Endpoint} {gap : Bool}, e.rl.Wf → e.rl.recvOffset = s.recv →
      (s.rl.broken = false → gap = false) →
      Inv (StreamSession.abandon { s with client := e, response := rest, gap := gap }) :=
    fun hwf hrecv hgap =>
      (h.reclient hwf (Nat.le_of_eq hrecv.symm) fun hb => ⟨hrecv, hgap hb⟩).abandon
  rcases Reliable.recvIn_spec h.client s.client.inp c.off c.bytes with
    ⟨hgap, heq⟩ | ⟨hold, heq⟩ | ⟨_, _, _, heq⟩ | ⟨_, hnew, _, heq⟩ <;> cases heq.symm.trans hr
  · -- only a broken layer lets this happen
    exact hskip hwf rfl fun hb => absurd (h.head_le hb hresponse) (Nat.not_le.mpr hgap)
  · exact h.read_data hphase hresponse hwf (Nat.max_eq_left hold).symm (hnone (by simp))
  · exact hskip hwf rfl (hnone (by simp))
  · exact h.read_data hphase hresponse hwf (Nat.max_eq_right (Nat.le_of_lt hnew)).symm
      (hnone (by simp))

/-- The owner leaves, and with it the response it was writing. -/
theorem evict (h : Inv s) (hcall : s.server.call = none) : Inv s.evict := by
  refine h.steer rfl rfl rfl ?_ h.requests h.asked h.acks fun _ v hv hle => ?_
  · exact ⟨fun _ => hcall, nofun, h.shape.unserved, h.shape.closed, h.shape.finLast, nofun⟩
  · refine ⟨v, cover_still hv (.inr hcall) (.inr hcall) rfl, fun hconn => hle ?_⟩
    refine hconn.imp_right fun hor => hor.imp_right fun ⟨hread, hcut⟩ => ⟨hread, hcut.imp_left ?_⟩
    exact fun hcut => (Bool.or_eq_false_iff.mp hcut).1

/-- **The client's own poll is attached**: it reads on from where the client is. -/
theorem attach (h : Inv s) (hserved : s.unserved = true) (hcall : s.server.call = none)
    (hdrained : s.drained = false) :
    Inv { s.withRl s.rl.resetAck with owner := .own, unserved := false } := by
  obtain ⟨hphase, hresponse⟩ := h.shape.unserved hserved
  have hreset : Inv (s.withRl s.rl.resetAck) :=
    h.settle h.server.resetAck rfl fun hb => ⟨hb, Nat.le_max_left _ _, fun _ heq => heq⟩
  refine hreset.steer rfl rfl rfl ?_ h.requests h.asked h.acks fun _ v hv hle => ⟨v, ?_, hle⟩
  · refine ⟨nofun, fun _ => ⟨hphase, rfl, ?_⟩, nofun, h.shape.closed, h.shape.finLast,
      fun _ _ => hdrained⟩
    show StreamFrame.fin ∉ s.response
    rw [hresponse]
    exact List.not_mem_nil
  · exact cover_still hv (.inr hcall) (.inr hcall) rfl

/-- A stale poll is attached. -/
theorem attachStale (h : Inv s) (hcall : s.server.call = none) :
    Inv { s.evict.withRl s.rl.resetAck with owner := .stale, abandoned := s.abandoned - 1 } := by
  have hreset : Inv (s.evict.withRl s.rl.resetAck) :=
    (h.evict hcall).settle h.server.resetAck rfl
      fun hb => ⟨hb, Nat.le_max_left _ _, fun _ heq => heq⟩
  refine hreset.steer rfl rfl rfl ?_ h.requests h.asked h.acks fun _ v hv hle => ⟨v, ?_, hle⟩
  · exact ⟨nofun, nofun, h.shape.unserved, h.shape.closed, h.shape.finLast, nofun⟩
  · exact cover_still hv (.inr hcall) (.inr hcall) rfl

/-- The owner's time is up. -/
theorem finish (h : Inv s) (hcall : s.server.call = none) :
    Inv { s with
      owner := .nobody
      response := if s.owner = .own ∧ s.cut = false then s.response ++ [.fin] else s.response } := by
  by_cases hlast : s.owner = .own ∧ s.cut = false
  · obtain ⟨hphase, hserved, hfin⟩ := h.shape.own hlast.1
    rw [if_pos hlast]
    refine h.steer rfl rfl rfl ?_ h.requests h.asked h.acks fun _ v hv hle => ⟨v, ?_, ?_⟩
    · exact ⟨fun _ => hcall, nofun, fun hun => absurd (hserved.symm.trans hun) (by simp),
        fun hne => absurd hphase hne, by rwa [List.dropLast_concat], nofun⟩
    · refine cover_still hv (.inr hcall) (.inr hcall) ?_
      rw [List.filterMap_append]
      exact List.append_nil _
    · exact fun _ => hle (.inr (.inr ⟨hphase, .inl hlast.2⟩))
  · rw [if_neg hlast]
    refine h.steer rfl rfl rfl ?_ h.requests h.asked h.acks fun _ v hv hle => ⟨v, ?_, hle⟩
    · exact ⟨fun _ => hcall, nofun, h.shape.unserved, h.shape.closed, h.shape.finLast, nofun⟩
    · exact cover_still hv (.inr hcall) (.inr hcall) rfl

/-- After a cut the client does without a handshake only if nothing is lost. -/
theorem whole (h : Inv s) {k : Nat}
    (hconn : Connected { s with response := s.response.take k, cut := true }) :
    s.owner ≠ .own ∧ s.response.take k = s.response ∧ s.Connected := by
  have hidle : s.phase ≠ .reading → s.owner ≠ .own ∧ s.response.take k = s.response := by
    intro hne
    rw [h.shape.closed hne, List.take_nil]
    exact ⟨fun hown => hne (h.shape.own hown).1, rfl⟩
  rcases hconn with hphase | hphase | ⟨hphase, hcut | hfin⟩
  · exact (hidle (by rw [show s.phase = .ready from hphase]; simp)).imp_right (⟨·, .inl hphase⟩)
  · exact (hidle (by rw [show s.phase = .answered from hphase]; simp)).imp_right
      (⟨·, .inr (.inl hphase)⟩)
  · cases hcut
  · have hmem : StreamFrame.fin ∈ s.response := List.mem_of_mem_take hfin
    refine ⟨fun hown => (h.shape.own hown).2.2 hmem, ?_, .inr (.inr ⟨hphase, .inr hmem⟩)⟩
    by_contra hlost
    have hlt : k < s.response.length :=
      Nat.lt_of_not_le fun hle => hlost (List.take_of_length_le hle)
    have htake : s.response.take k = s.response.dropLast.take k := by
      rw [List.dropLast_eq_take, List.take_take, Nat.min_eq_left (Nat.le_sub_one_of_lt hlt)]
    rw [show ({ s with response := s.response.take k, cut := true } : StreamSession).response =
      s.response.dropLast.take k from htake] at hfin
    exact h.shape.finLast (List.mem_of_mem_take hfin)

/-- A cut response ends cleanly only if all of it was already on its way. -/
theorem cutResponse (h : Inv s) (k : Nat) :
    Inv { s with response := s.response.take k, cut := true } := by
  have hmem : ∀ {f : StreamFrame}, f ∈ s.response.take k → f ∈ s.response := List.mem_of_mem_take
  refine h.steer rfl rfl rfl ?_ h.requests h.asked h.acks fun _ v hv hle => ?_
  · refine ⟨h.shape.idle, fun hown => ?_, fun hun => ?_, fun hne => ?_, fun hf => ?_, nofun⟩
    · obtain ⟨hphase, hserved, hfin⟩ := h.shape.own hown
      exact ⟨hphase, hserved, fun hf => hfin (hmem hf)⟩
    · obtain ⟨hphase, hnil⟩ := h.shape.unserved hun
      exact ⟨hphase, by rw [hnil, List.take_nil]⟩
    · rw [h.shape.closed hne, List.take_nil]
    · rw [List.dropLast_take_eq_take_dropLast] at hf
      exact h.shape.finLast (List.mem_of_mem_take hf)
  · -- what is left of the response is covered as far as it goes
    have hsplit : s.pending = (s.response.take k).filterMap StreamFrame.span ++
        ((s.response.drop k).filterMap StreamFrame.span ++
          if s.owner = .own ∧ s.cut = false then s.server.held else []) := by
      rw [← List.append_assoc, ← List.filterMap_append, List.take_append_drop]
      rfl
    obtain ⟨u, hu, _⟩ := cover_of_append (hsplit ▸ hv)
    have hleft : pending { s with response := s.response.take k, cut := true } =
        (s.response.take k).filterMap StreamFrame.span := by
      rw [pending, if_neg (by simp), List.append_nil]
    refine ⟨u, hleft ▸ hu, fun hconn hdrained => ?_⟩
    obtain ⟨hown, hwhole, hwas⟩ := h.whole hconn
    have hsame : s.pending = (s.response.take k).filterMap StreamFrame.span := by
      rw [hwhole, pending_still (.inl hown)]
    rw [hsame, hu] at hv
    cases hv
    exact hle hwas hdrained

/-- **The owner's call goes on**: what it picks joins what is on its way, or goes to a dead
response. -/
theorem pump_step (h : Inv s) {e : Endpoint} (howner : s.owner ≠ .nobody)
    (hwf : e.rl.Wf) (hpicks : e.rl.broken = false → s.server.Picks e) :
    Inv { s with server := e, drained := s.drained || (s.owner == .stale && e.held != []) } := by
  have hdrained : s.owner = .own →
      (s.drained || (s.owner == .stale && e.held != [])) = s.drained := by
    intro hown
    rw [hown]
    exact Bool.or_false _
  refine ⟨hwf, h.client, ⟨fun hnobody => absurd hnobody howner, h.shape.own, h.shape.unserved,
    h.shape.closed, h.shape.finLast, fun hown hcut => ?_⟩, h.requests, h.asked, h.acks, fun hb => ?_⟩
  · exact (hdrained hown).trans (h.shape.undrained hown hcut)
  · have hp := hpicks hb
    have hlive := h.live hp.unbroken
    obtain ⟨v, hv, hle⟩ := hlive.covered
    by_cases hlast : s.owner = .own ∧ s.cut = false
    · have hphase := (h.shape.own hlast.1).1
      have hcur := hle (.inr (.inr ⟨hphase, .inl hlast.2⟩)) (h.shape.undrained hlast.1 hlast.2)
      simp only [pending, if_pos hlast, hp.unheld, List.append_nil] at hv
      rcases hp.chunk with ⟨hheld, hsame⟩ | ⟨len, hheld, hmoved⟩
      · refine ⟨hlive.noGap, hp.waiting, v, ?_, fun _ _ => Nat.le_trans (Nat.le_of_eq hsame) hcur⟩
        simp only [pending, if_pos hlast, hheld, List.append_nil]
        exact hv
      · refine ⟨hlive.noGap, hp.waiting, max v (s.rl.sentCursor + len), ?_, fun _ _ => ?_⟩
        · simp only [pending, if_pos hlast, hheld]
          exact cover_snoc hv hcur
        · exact Nat.le_trans (Nat.le_of_eq hmoved) (Nat.le_max_right _ _)
    · refine ⟨hlive.noGap, hp.waiting, v, ?_, fun hconn hnone => ?_⟩
      · simp only [pending, if_neg hlast] at hv ⊢
        exact hv
      · obtain ⟨hnone, hpick⟩ := Bool.or_eq_false_iff.mp hnone
        have hcur := hle hconn hnone
        cases howner' : s.owner with
        | nobody => exact absurd howner' howner
        | own => exact absurd hconn (h.shape.unconnected howner' fun hcut => hlast ⟨howner', hcut⟩)
        | stale =>
          rw [howner'] at hpick
          have hheld : e.held = [] := by simpa using hpick
          rcases hp.chunk with ⟨_, hsame⟩ | ⟨len, hpicked, _⟩
          · exact Nat.le_trans (Nat.le_of_eq hsame) hcur
          · exact absurd (hheld.symm.trans hpicked) (by simp)

/-- The owner writes what its call returned. -/
theorem write_step (h : Inv s) {res : NextResult} {e : Endpoint}
    (hc : s.server.collect = some (res, e)) :
    Inv { s with
      server := e
      response := if s.owner = .own ∧ s.cut = false ∧ res.bytes ≠ [] then
        s.response ++ [.data ⟨res.off, res.bytes⟩] else s.response } := by
  obtain ⟨hcall, rfl⟩ := Endpoint.collected hc
  have howner : s.owner ≠ .nobody := fun hnobody => by
    rw [h.shape.idle hnobody] at hcall
    cases hcall
  have hheld : s.server.held = if res.bytes = [] then [] else [(res.off, res.bytes.length)] := by
    rw [Endpoint.held, hcall]
  have hidle : ¬ Endpoint.Waiting { s.server with call := none } := by
    rintro ⟨call, hnone, _⟩
    cases hnone
  by_cases hsend : s.owner = .own ∧ s.cut = false ∧ res.bytes ≠ []
  · obtain ⟨hown, hcut, hbytes⟩ := hsend
    obtain ⟨hphase, hserved, hfin⟩ := h.shape.own hown
    rw [if_pos ⟨hown, hcut, hbytes⟩]
    refine ⟨h.server, h.client, ⟨fun hnobody => absurd hnobody howner, fun _ => ?_, fun hun => ?_,
      fun hne => absurd hphase hne, ?_, h.shape.undrained⟩, h.requests, h.asked, h.acks,
      fun hb => ?_⟩
    · exact ⟨hphase, hserved, by simpa using hfin⟩
    · exact absurd (hserved.symm.trans hun) (by simp)
    · rwa [List.dropLast_concat]
    · obtain ⟨v, hv, hle⟩ := (h.live hb).covered
      refine ⟨(h.live hb).noGap, fun hw => absurd hw hidle, v, ?_,
        fun _ => hle (.inr (.inr ⟨hphase, .inl hcut⟩))⟩
      rw [pending, if_pos ⟨hown, hcut⟩, hheld, if_neg hbytes] at hv
      rw [pending_still (.inr rfl), List.filterMap_append]
      exact hv
  · rw [if_neg hsend]
    refine ⟨h.server, h.client, ⟨fun hnobody => absurd hnobody howner, h.shape.own,
      h.shape.unserved, h.shape.closed, h.shape.finLast, h.shape.undrained⟩, h.requests, h.asked,
      h.acks, fun hb => ?_⟩
    obtain ⟨v, hv, hle⟩ := (h.live hb).covered
    refine ⟨(h.live hb).noGap, fun hw => absurd hw hidle, v, ?_, hle⟩
    have hnone : (if s.owner = .own ∧ s.cut = false then s.server.held else []) = [] := by
      split
      next hlast =>
        rw [hheld, if_pos (Decidable.of_not_not fun hne => hsend ⟨hlast.1, hlast.2, hne⟩)]
      next => rfl
    rw [pending, hnone, List.append_nil] at hv
    rw [pending_still (.inr rfl)]
    exact hv

theorem server_step (h : Inv s) {op : EndOp} {e : Endpoint} (hop : op.leavesOut = true)
    (hp : s.server.perform op = some e) : Inv { s with server := e } := by
  obtain ⟨hcall, hsend, hkept⟩ := Endpoint.perform_leavesOut h.server hop hp
  refine h.settle (Endpoint.perform_wf h.server hp) hcall fun hb => ?_
  obtain ⟨hb', _, hcursor⟩ := hkept hb
  refine ⟨hb', Nat.le_trans (Nat.le_of_eq hcursor) (Nat.le_max_left _ _), fun _ hend => ?_⟩
  rw [hcursor, hsend]
  exact hend

/-- The server takes an acknowledgement that the client sent at any time. -/
theorem ack_step (h : Inv s) {n : Nat} {err : Option Err} {r : Reliable} (hn : n ≤ s.recv)
    (ha : s.rl.ack n = some (err, r)) : Inv (s.withRl r) := by
  obtain ⟨hsend, hkept⟩ := Reliable.ack_offsets h.server ha
  refine h.settle (Reliable.ack_trims h.server ha).1.wf rfl fun hb => ?_
  obtain ⟨hb', hle, _, hcursor⟩ := hkept hb
  refine ⟨hb', ?_, fun _ hend => ?_⟩
  · show r.sentCursor ≤ _
    omega
  · show r.sentCursor = r.sendOffset
    omega

/-- **`ResumeHandler` rewinds to what the client has had**, whenever it gets to it. -/
theorem handle_step (h : Inv s) {n : Nat} {answer : ResumeAnswer} (hn : n ≤ s.recv)
    (hr : s.handle n = some (answer, s')) :
    Inv s' ∧ s'.phase = s.phase ∧ s'.recv = s.recv ∧
      ∀ m, answer = .resumed m → s'.rl.sentCursor ≤ s.recv := by
  unfold handle at hr
  split at hr
  next hready =>
    obtain ⟨⟨answer', r⟩, hh, heq⟩ := Option.map_eq_some_iff.mp hr
    cases heq
    rcases Reliable.resumeHandler_spec h.server n with
      ⟨hb, heq⟩ | ⟨hb, _, heq⟩ | ⟨hb, hlo, hhi, heq⟩ <;> cases heq.symm.trans hh
    · rw [if_pos (show s.rl.isBroken = true from hb)]
      exact ⟨h, rfl, rfl, fun m hm => by cases hm⟩
    all_goals
      have hopen : ¬ s.rl.isBroken = true := by rw [Reliable.isBroken, hb]; exact Bool.false_ne_true
      have hcall := hready.resolve_left hopen
      rw [if_neg hopen]
    · have hbroken : Inv (s.evict.withRl s.rl.markBroken) :=
        (h.evict hcall).settle h.server.markBroken rfl fun hb' => Bool.noConfusion hb'
      exact ⟨hbroken, rfl, rfl, fun m hm => by cases hm⟩
    · have hrewound : Inv (s.evict.withRl (s.rl.rewind n)) := by
        refine (h.evict hcall).settle (h.server.rewind hb hlo hhi) rfl fun _ => ⟨hb, ?_, ?_⟩
        · exact Nat.le_trans hn (Nat.le_max_right _ _)
        · rintro ⟨call, hsome, _⟩
          exact absurd (hcall.symm.trans hsome) (by simp)
      refine ⟨hrewound.steer rfl rfl rfl ?_ h.requests h.asked h.acks fun _ v hv _ => ⟨v, ?_, ?_⟩,
        rfl, rfl, fun _ _ => hn⟩
      · exact ⟨fun _ => hcall, nofun, h.shape.unserved, h.shape.closed, h.shape.finLast, nofun⟩
      · exact cover_still hv (.inr hcall) (.inr hcall) rfl
      · exact fun _ _ => Nat.le_trans hn (le_cover hv)
  next => cases hr

/-- **Every step keeps the invariant, if the client's own polls are attached undrained.** -/
theorem step {ev : StreamEvent} (h : Inv s) (hok : s.Undrained ev) (hs : s.step ev = some s') :
    Inv s' := by
  cases ev <;> simp only [StreamSession.step] at hs
  case server op =>
    split at hs
    next hop =>
      obtain ⟨e, hp, rfl⟩ := Option.map_eq_some_iff.mp hs
      exact h.server_step hop hp
    next => cases hs
  case client op =>
    split at hs
    next => cases hs
    next hop =>
      obtain ⟨e, hp, rfl⟩ := Option.map_eq_some_iff.mp hs
      exact h.client_step hop hp
  case openPoll =>
    split at hs
    next hphase => cases hs; exact h.openPoll hphase
    next => cases hs
  case read =>
    split at hs
    next hphase =>
      split at hs
      next => cases hs
      next c rest hresponse =>
        obtain ⟨⟨err, e⟩, hh, heq⟩ := Option.bind_eq_some_iff.mp hs
        cases heq
        exact h.hear_step hphase hresponse hh
      next rest hresponse => cases hs; exact h.read_fin hphase hresponse
    next => cases hs
  case fail =>
    split at hs
    next => cases hs; exact h.abandon
    next => cases hs
  case acknowledge =>
    cases hs
    refine h.steer rfl rfl rfl ?_ h.requests h.asked ?_ fun _ v hv hle => ⟨v, hv, hle⟩
    · exact ⟨h.shape.idle, h.shape.own, h.shape.unserved, h.shape.closed, h.shape.finLast,
        h.shape.undrained⟩
    · exact List.forall_mem_append.mpr ⟨h.acks, List.forall_mem_singleton.mpr (Nat.le_refl _)⟩
  case ask =>
    split at hs
    next hphase =>
      cases hs
      refine h.rephase (by rw [hphase]; simp) (by simp) ?_ (fun n hn => ?_) (by simp)
      · exact List.forall_mem_append.mpr ⟨h.requests, List.forall_mem_singleton.mpr (Nat.le_refl _)⟩
      · cases hn
        exact Nat.le_refl _
    next => cases hs
  case retry =>
    split at hs
    next n hphase =>
      cases hs
      exact h.rephase (by rw [hphase]; simp) (by simp) h.requests (by simp) (by simp)
    next hphase =>
      cases hs
      exact h.rephase (by rw [hphase]; simp) (by simp) h.requests (by simp) (by simp)
    next => cases hs
  case accept =>
    split at hs
    next hphase =>
      cases hs
      exact h.rephase (by rw [hphase]; simp) (by simp) h.requests (by simp)
        fun _ => .inl (.inr (.inl hphase))
    next => cases hs
  case attach =>
    split at hs
    next hready => cases hs; exact h.attach hready.1 hready.2 hok
    next => cases hs
  case attachStale =>
    split at hs
    next hready => cases hs; exact h.attachStale hready.2
    next => cases hs
  case nextOut dst =>
    unfold pump at hs
    split at hs
    next => cases hs
    next howner =>
      obtain ⟨e, hp, rfl⟩ := Option.map_eq_some_iff.mp hs
      exact h.pump_step howner (Endpoint.perform_wf h.server hp) (Endpoint.picks_nextOut h.server hp)
  case advance fired =>
    unfold pump at hs
    split at hs
    next => cases hs
    next howner =>
      obtain ⟨e, hp, rfl⟩ := Option.map_eq_some_iff.mp hs
      exact h.pump_step howner (Endpoint.perform_wf h.server hp)
        (Endpoint.picks_advance hp fun hb => (h.live hb).waiting)
  case write =>
    obtain ⟨⟨res, e⟩, hc, rfl⟩ := Option.map_eq_some_iff.mp hs
    exact h.write_step hc
  case finish =>
    split at hs
    next hready => cases hs; exact h.finish hready.2
    next => cases hs
  case leave =>
    split at hs
    next hready => cases hs; exact h.evict hready.2
    next => cases hs
  case cutResponse k => cases hs; exact h.cutResponse k
  case hearAck n =>
    split at hs
    next hn =>
      obtain ⟨⟨err, r⟩, ha, rfl⟩ := Option.map_eq_some_iff.mp hs
      exact h.ack_step (h.acks n hn) ha
    next => cases hs
  case resume n =>
    split at hs
    next hn =>
      obtain ⟨⟨answer, t⟩, hr, rfl⟩ := Option.map_eq_some_iff.mp hs
      exact (h.handle_step (h.requests n hn) hr).1
    next => cases hs
  case answer =>
    split at hs
    next n hphase =>
      obtain ⟨⟨answer, t⟩, hr, rfl⟩ := Option.map_eq_some_iff.mp hs
      obtain ⟨ht, hsame, hrecv, hcur⟩ := h.handle_step (h.asked n hphase) hr
      cases answer with
      | resumed m =>
        refine ht.rephase (by rw [hsame, hphase]; simp) (by simp) ht.requests (by simp)
          fun _ => .inr fun _ => ?_
        rw [hrecv]
        exact hcur m rfl
      | conflict text => exact ht
    next => cases hs

theorem reachable {serverMax clientMax : Int} {serverEager clientEager : Bool}
    (h : (machine serverMax clientMax serverEager clientEager).Reach Undrained s) : Inv s :=
  Machine.Reach.invariant (init serverMax clientMax serverEager clientEager)
    (fun _ _ _ _ hi hok hstep => hi.step hok hstep) h

end Inv

/-- **Stale stream polls leave no gap if a handshake follows.** In every run in which no poll of the
client's own is attached while bytes went to a stale one and were not called back, the client
meets no gap as long as the server's layer is unbroken: each data frame of the poll it is reading,
the first one included, starts within what the client has when its turn comes. -/
theorem stale_polls_leave_no_gap {serverMax clientMax : Int} {serverEager clientEager : Bool}
    {s : StreamSession}
    (h : (machine serverMax clientMax serverEager clientEager).Reach Undrained s)
    (hb : s.rl.broken = false) :
    s.gap = false ∧ ∀ c rest, s.response = .data c :: rest → c.off ≤ s.recv :=
  have hi := Inv.reachable h
  ⟨(hi.live hb).noGap, fun _ _ hresponse => hi.head_le hb hresponse⟩

/-- The client opens a poll and gives up on it. -/
def abandonedPoll : List StreamEvent := [.openPoll, .fail]

/-- A byte is written, and the abandoned poll takes it. -/
def staleDrain : List StreamEvent :=
  [.attachStale, .server (.write [7]), .nextOut 64, .advance false, .advance true, .advance false,
   .write]

/-- The client resumes. -/
def handshake : List StreamEvent := [.ask, .answer, .accept]

/-- The client opens its next poll; another byte is written, and the poll takes what it finds. -/
def ownPoll : List StreamEvent :=
  [.openPoll, .attach, .server (.write [8]), .nextOut 64, .advance false, .advance true,
   .advance false, .write]

/-- A poll that the server processes before the handshake does no harm: the byte is sent again. -/
theorem stale_poll_called_back :
    let s := (machine 64 64 true true).final
      (abandonedPoll ++ staleDrain ++ handshake ++ [.openPoll, .attach, .nextOut 64, .write])
    s.response = [.data ⟨0, [7]⟩] ∧ s.gap = false := by
  have hreach : (machine 64 64 true true).Reach Undrained ((machine 64 64 true true).final
      (abandonedPoll ++ staleDrain ++ handshake ++ [.openPoll, .attach, .nextOut 64, .write])) :=
    Machine.reach_final (by decide)
  exact ⟨by decide, (stale_polls_leave_no_gap hreach (by decide)).1⟩

/-- **A stale poll opens a gap.** Processed after the handshake and before the client's own poll, it
takes the first byte with it; the own poll's first frame starts past what the client has, and the
client reports a gap although the server's layer is unbroken. -/
theorem stale_poll_opens_gap :
    let s := (machine 64 64 true true).final (abandonedPoll ++ handshake ++ staleDrain ++ ownPoll)
    (machine 64 64 true true).Reachable s ∧ s.rl.broken = false ∧
      s.response = [.data ⟨1, [8]⟩] ∧ s.recv = 0 ∧
      ∃ s', s.step .read = some s' ∧ s'.gap = true ∧ s'.rl.broken = false := by
  refine ⟨Machine.reachable_final _ _, by decide, by decide, by decide, ?_⟩
  exact ⟨_, rfl, by decide, by decide⟩

end StreamSession

end Pollmux
