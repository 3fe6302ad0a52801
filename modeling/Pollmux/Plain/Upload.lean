import Pollmux.Plain.Download

/-!
# What a streamed plain upload can lose

The upstream direction of a session that is not resumable and uploads in streams: the client's
`writePipe`, `feedSendStream` writing frames into the body of one request after the other
(`sendLoopStream`, `doSendStream`, `client.go`), and the handler that reads them (`pollSendStream`,
`handler.go`).

A handler that meets an error in the body, or whose read deadline expires, returns without an
answer. The source takes it that the client then sees its request fail. `net/http` sends an empty
200 for such a handler, which reaches the client unless the connection is broken. So everything
turns on the deadline (`plain_upload_in_order`): as long as it expires on broken connections only,
what the server has taken is a beginning of what was written and, between two requests, all but
what is still in the pipe; once it expires on one that holds, a leg that the server has abandoned
can end as a success, and its bytes are gone.

The network may lose or delay a request, break a body off at any byte and lose an answer. The
feeder learns of a broken connection late or early: a write to it may succeed or fail.
-/

namespace Pollmux

open Kit

/-- Where `feedSendStream` is. -/
inductive Feeder
  /-- There is no leg. -/
  | idle
  /-- About to call `ReadAvailable`. -/
  | calling
  | parked (wait : Parked)
  | got (res : ReadResult)
  /-- It has returned, with or without an error. -/
  | returned (ok : Bool)
  deriving DecidableEq, Repr

/-- The bytes it has taken out of the pipe. -/
def Feeder.hand : Feeder → Bytes
  | .got (.data bytes) => bytes
  | _ => []

/-- Where the handler of an upload is. -/
inductive UpHandler
  | idle
  /-- The request is on its way. -/
  | posted
  | reading
  deriving DecidableEq, Repr

/-- Where `sendLoopStream` is. -/
inductive SendLoop
  /-- About to open a request. -/
  | between
  | sending
  | failed
  deriving DecidableEq, Repr

/-- One direction of a plain session. `written` and `taken` record what was ever written into
`writePipe` and into `toServer`; `status` is the answer on its way to the client. -/
structure PlainUpload where
  writePipe : BufferedPipe := {}
  written : Bytes := []
  feeder : Feeder := .idle
  body : Wire := {}
  handler : UpHandler := .idle
  status : Option Nat := none
  closed : Bool := false
  toServer : BufferedPipe := {}
  taken : Bytes := []
  loop : SendLoop := .between
  deriving DecidableEq, Repr

/-- One step. -/
inductive UpEvent
  /-- `httpConn.Write`. -/
  | write (data : Bytes)
  /-- `httpConn.Close` closes the pipe. -/
  | closeWrite
  /-- The client opens a request. -/
  | open
  /-- The request reaches its handler; the store may have dropped a closed session already. -/
  | start (found : Bool)
  | read
  | wake (fired : Bool)
  /-- The feeder writes what it has got. `late` says that `StreamMaxDuration` has passed, `ok` that
  the write succeeds. -/
  | feed (late ok : Bool)
  /-- The handler reads a frame. -/
  | serve
  /-- Its read deadline expires. -/
  | expire
  /-- The connection breaks and `k` bytes of the body under way arrive. -/
  | cut (k : Nat)
  /-- The answer reaches a client whose feeder has returned. -/
  | finish
  /-- The request fails: its connection is broken or its answer lost. Or the client is closed. -/
  | fail
  | markClosed
  | closePipes
  /-- The server's application reads. -/
  | drain (dst : Nat)
  deriving DecidableEq, Repr

namespace PlainUpload

/-- The feeder goes on from where its `ReadAvailable` call has come to. -/
def after (s : PlainUpload) : ReadState × BufferedPipe → PlainUpload
  | (.parked wait, p) => { s with writePipe := p, feeder := .parked wait }
  | (.returned res, p) => { s with writePipe := p, feeder := .got res }

/-- The feeder writes the frame `p` and goes on, rolls over or fails. The error of the last frame is
ignored. -/
def fed (s : PlainUpload) (late ok : Bool) (p : Bytes) : PlainUpload :=
  if ok then
    if late then
      { s with
        body := ((s.body.write p).write (writeFrame frameEnd [])).finish
        feeder := .returned true }
    else { s with body := s.body.write p, feeder := .calling }
  else { s with feeder := .returned false }

/-- What the feeder does with what `ReadAvailable` returned. -/
def feed (late ok : Bool) (s : PlainUpload) : ReadResult → PlainUpload
  | .eof =>
    { s with
      body := (s.body.write (writeFrame frameEnd [])).finish
      feeder := .returned true }
  | .data bytes =>
    s.fed late ok (if bytes = [] then writeFrame frameHeartbeat [] else writeFrame frameData bytes)
  | .timeout | .interrupted => s.fed late ok (writeFrame frameHeartbeat [])

/-- The handler answers; on a broken connection the answer does not get through. -/
def answer (s : PlainUpload) (code : Option Nat) : PlainUpload :=
  { s with handler := .idle, status := if s.body.cut then none else code }

/-- What the client sees of the end of an upload. `net/http` answers for a handler that has written
nothing, and hangs up on one that panicked. -/
def reply (s : PlainUpload) : SendEnd → PlainUpload
  | .status code _ => s.answer (some code)
  | .silent => s.answer (some 200)
  | .fault => s.answer none

/-- `toServer` has become `p`. -/
def accepted (s : PlainUpload) (p : BufferedPipe) : PlainUpload :=
  { s with toServer := p, taken := s.taken ++ s.toServer.added p }

/-- The pipe of an upload's destination. -/
def pipeOf (p : BufferedPipe) : Upstream → BufferedPipe
  | .plain p' => p'
  | _ => p

/-- `pollSendStream` reads the next frame. -/
def serve (maxSend : Nat) (s : PlainUpload) : Option PlainUpload :=
  (s.body.next maxSend).map fun
    | (.ok f, body) =>
      let s' := { s with body := body }
      match sendStreamFrame (.plain s.toServer) f with
      | (up, none) => s'.accepted (pipeOf s.toServer up)
      | (up, some e) => (s'.accepted (pipeOf s.toServer up)).reply e
    | (.error (.frame e), _) => s.reply (SendEnd.ofLoop (.failed e))
    | (.error .broken, _) => s.reply .silent

/-- One step, with frames of at most `bufSize` bytes and a reader that takes `maxSend`. -/
def step (bufSize maxSend : Nat) (s : PlainUpload) : UpEvent → Option PlainUpload
  | .write data =>
    match s.writePipe.write data with
    | .error _ => some s
    | .ok p => some { s with writePipe := p, written := s.written ++ data }
  | .closeWrite => some { s with writePipe := s.writePipe.close }
  | .open =>
    if s.loop = .between then
      some { s with loop := .sending, feeder := .calling, body := {}, handler := .posted, status := none }
    else none
  | .start found =>
    if s.handler = .posted then
      if s.closed then some (s.answer (some (if found then 410 else 404)))
      else if found then some { s with handler := .reading }
      else none
    else none
  | .read => if s.feeder = .calling then some (s.after (s.writePipe.enter bufSize)) else none
  | .wake fired =>
    match s.feeder with
    | .parked wait =>
      some (s.after (s.writePipe.resume bufSize (if fired then wait.fire else wait)))
    | _ => none
  | .feed late ok =>
    match s.feeder with
    | .got res =>
      -- a write fails only if the connection is broken or the handler has gone
      if ok = true ∨ s.body.cut = true ∨ s.handler = .idle then some (s.feed late ok res) else none
    | _ => none
  | .serve => if s.handler = .reading then s.serve maxSend else none
  | .expire => if s.handler = .reading then some (s.reply .silent) else none
  | .cut k =>
    if s.loop = .sending ∧ s.body.cut = false then some { s with body := s.body.sever k } else none
  | .finish =>
    match s.loop, s.feeder, s.status with
    | .sending, .returned ok, some code =>
      some { s with loop := if code = 200 ∧ ok then .between else .failed, feeder := .idle }
    | _, _, _ => none
  | .fail =>
    if s.loop = .between ∨ s.loop = .sending ∧ (s.body.cut = true ∨ s.handler = .idle) then
      some { s with loop := .failed }
    else none
  | .markClosed => some { s with closed := true }
  | .closePipes => if s.closed then some { s with toServer := s.toServer.close } else none
  | .drain dst => some { s with toServer := (s.toServer.copyOut dst).2 }

/-- A new session. -/
def machine (bufSize maxSend : Nat) : Machine PlainUpload UpEvent where
  init := {}
  step := step bufSize maxSend

/-! ## What is under way -/

/-- **Nothing is lost**: the request is being served, or its last frame is on its way, or it has been
answered. What flies is what the frames carry and then what the feeder has in hand. -/
inductive Kept (maxSend : Nat) (s : PlainUpload) (t : Conduit UInt8) : Prop
  | serving (body : List Written) (hfeeder : ∀ ok, s.feeder ≠ .returned ok)
      (hh : s.handler ≠ .idle) (hst : s.status = none) (hcut : s.body.cut = false)
      (hended : s.body.ended = false) (holds : s.body.Holds maxSend body)
      (running : ∀ w ∈ body, w.Running) (hfly : t.flying = payloads body ++ s.feeder.hand)
  | closing (body : List Written) (hfeeder : s.feeder = .returned true) (hh : s.handler ≠ .idle)
      (hst : s.status = none) (hcut : s.body.cut = false)
      (holds : s.body.Holds maxSend (body ++ [.frame frameEnd []]))
      (running : ∀ w ∈ body, w.Running) (hfly : t.flying = payloads body)
  | done (hfeeder : s.feeder = .returned true) (hh : s.handler = .idle) (hst : s.status = some 200)
      (hfly : t.flying = [])

/-- **Something is lost.** What the handler may still take flies. -/
structure Broken (maxSend : Nat) (s : PlainUpload) (t : Conduit UInt8) : Prop where
  cut : t.cut = true
  frames : s.handler ≠ .idle → s.body.cut = true ∧ ∃ ws, s.body.Holds maxSend ws ∧
    (∀ w ∈ ws, w.Running ∨ w = .frame frameEnd []) ∧ t.flying = payloads ws

/-- Where the direction stands, by where the client's loop is. A client that has lost something will
not be told that all is well. -/
def Stage (maxSend : Nat) (s : PlainUpload) (t : Conduit UInt8) : Prop :=
  match s.loop with
  | .failed => Broken maxSend s t
  | .sending => Broken maxSend s t ∧ s.status ≠ some 200 ∨
      (t.cut = false ∧ t.queued = s.writePipe.buf) ∧ Kept maxSend s t
  | .between => t.cut = false ∧ t.flying = [] ∧ t.queued = s.writePipe.buf ∧ s.feeder = .idle ∧
      s.handler = .idle

/-- The direction as a conduit. -/
structure Rel (maxSend : Nat) (s : PlainUpload) (t : Conduit UInt8) : Prop where
  given : t.given = s.written
  got : t.got = s.taken
  stage : s.Stage maxSend t

section Rel

variable {bufSize maxSend : Nat} {s s' : PlainUpload} {t t' : Conduit UInt8}

/-- The direction is broken and the client has not learned of it. -/
theorem Broken.rel (h : Broken maxSend s t) (hl : s.loop = .sending) (hst : s.status ≠ some 200)
    (hg : t.given = s.written) (ht : t.got = s.taken) : Rel maxSend s t := by
  refine ⟨hg, ht, ?_⟩
  unfold Stage
  rw [hl]
  exact .inl ⟨h, hst⟩

/-- The client has given up. -/
theorem Broken.failed (h : Broken maxSend s t) (hl : s.loop = .failed) (hg : t.given = s.written)
    (ht : t.got = s.taken) : Rel maxSend s t := by
  refine ⟨hg, ht, ?_⟩
  unfold Stage
  rw [hl]
  exact h

theorem Kept.rel (h : Kept maxSend s t) (hcut : t.cut = false) (hq : t.queued = s.writePipe.buf)
    (hl : s.loop = .sending) (hg : t.given = s.written) (ht : t.got = s.taken) : Rel maxSend s t := by
  refine ⟨hg, ht, ?_⟩
  unfold Stage
  rw [hl]
  exact .inr ⟨⟨hcut, hq⟩, h⟩

theorem Rel.sending (h : Rel maxSend s t) (hl : s.loop = .sending) :
    Broken maxSend s t ∧ s.status ≠ some 200 ∨
      (t.cut = false ∧ t.queued = s.writePipe.buf) ∧ Kept maxSend s t := by
  have hstage := h.stage
  unfold Stage at hstage
  rwa [hl] at hstage

/-- A request whose handler has gone is broken from now on. -/
theorem Broken.of_idle (hh : s.handler = .idle) (n : Nat) : Broken maxSend s (t.next (.sever n)) :=
  ⟨rfl, fun hne => absurd hh hne⟩

/-! ## The feeder's steps -/

/-- **What a feeder's step leaves alone**: the server's side, and the body once it is broken. -/
structure Feeds (s s' : PlainUpload) : Prop where
  loop : s'.loop = s.loop
  written : s'.written = s.written
  taken : s'.taken = s.taken
  handler : s'.handler = s.handler
  status : s'.status = s.status
  broken : s.body.cut = true → s'.body = s.body

/-- A feeder's step adds nothing to a broken direction. -/
theorem Feeds.keeps (hs : Feeds s s') (h : Broken maxSend s t) : Broken maxSend s' t := by
  refine ⟨h.cut, fun hne => ?_⟩
  rw [hs.handler] at hne
  obtain ⟨hbroken, hframes⟩ := h.frames hne
  rw [hs.broken hbroken]
  exact ⟨hbroken, hframes⟩

theorem feeds_after (s : PlainUpload) (r : ReadState × BufferedPipe) : Feeds s (s.after r) := by
  obtain ⟨_ | _, p⟩ := r <;> exact ⟨rfl, rfl, rfl, rfl, rfl, fun _ => rfl⟩

theorem feeds_fed (s : PlainUpload) (late ok : Bool) (p : Bytes) : Feeds s (s.fed late ok p) := by
  unfold fed
  split_ifs
  · refine ⟨rfl, rfl, rfl, rfl, rfl, fun hcut => ?_⟩
    simp [Wire.write, Wire.finish, hcut]
  · refine ⟨rfl, rfl, rfl, rfl, rfl, fun hcut => ?_⟩
    simp [Wire.write, hcut]
  · exact ⟨rfl, rfl, rfl, rfl, rfl, fun _ => rfl⟩

theorem feeds_feed (s : PlainUpload) (late ok : Bool) (res : ReadResult) :
    Feeds s (s.feed late ok res) := by
  cases res with
  | eof =>
    refine ⟨rfl, rfl, rfl, rfl, rfl, fun hcut => ?_⟩
    simp [feed, Wire.write, Wire.finish, hcut]
  | _ => exact feeds_fed s late ok _

/-- **The rule for a feeder's step.** Only the step of a feeder whose frames are being served with
nothing lost is left to match. -/
theorem Rel.feeds (h : Rel maxSend s t) (hidle : s.feeder ≠ .idle)
    (hret : ∀ ok, s.feeder ≠ .returned ok) (hs : Feeds s s')
    (hkept : ∀ body, s.handler ≠ .idle → s.status = none → s.body.cut = false →
      s.body.ended = false → s.body.Holds maxSend body → (∀ w ∈ body, w.Running) →
      t.flying = payloads body ++ s.feeder.hand → t.cut = false → t.queued = s.writePipe.buf →
      ∃ t', (t' = t ∨ ∃ n, t' = t.next (.launch n)) ∧ t'.cut = false ∧
        t'.queued = s'.writePipe.buf ∧ Kept maxSend s' t') :
    t.Reaches (Rel maxSend s') := by
  have hg := h.given.trans hs.written.symm
  have ht := h.got.trans hs.taken.symm
  have hstage := h.stage
  unfold Stage at hstage
  cases hl : s.loop with
  | between =>
    rw [hl] at hstage
    exact absurd hstage.2.2.2.1 hidle
  | failed =>
    rw [hl] at hstage
    exact .here ((hs.keeps hstage).failed (hs.loop.trans hl) hg ht)
  | sending =>
    have hl' := hs.loop.trans hl
    rcases h.sending hl with ⟨hbroken, hst⟩ | ⟨⟨hcut, hq⟩, hk⟩
    · exact .here ((hs.keeps hbroken).rel hl' (by rw [hs.status]; exact hst) hg ht)
    · cases hk with
      | serving body _ hh hst hbody hended holds running hfly =>
        obtain ⟨t', hmove, hcut', hq', hk'⟩ :=
          hkept body hh hst hbody hended holds running hfly hcut hq
        rcases hmove with rfl | ⟨n, rfl⟩
        · exact .here (hk'.rel hcut' hq' hl' hg ht)
        · exact .of_next _ (hk'.rel hcut' hq' hl' hg ht)
      | closing _ hf => exact absurd hf (hret true)
      | done hf => exact absurd hf (hret true)

/-- The feeder's call takes bytes out of the pipe. -/
theorem Rel.after (h : Rel maxSend s t) (hidle : s.feeder ≠ .idle)
    (hret : ∀ ok, s.feeder ≠ .returned ok) (hhand : s.feeder.hand = [])
    {r : ReadState × BufferedPipe} (hr : s.writePipe.Reads bufSize r.1 r.2) :
    t.Reaches (Rel maxSend (s.after r)) := by
  refine h.feeds hidle hret (feeds_after s r) ?_
  intro body hh hst hbody hended holds running hfly hcut hq
  obtain ⟨st, p⟩ := r
  have hqueued : t.queued = st.bytes ++ p.buf := hq.trans hr.bytes.symm
  have hfly' : (t.next (.launch st.bytes.length)).flying = payloads body ++ st.bytes := by
    simp only [Conduit.next, hcut, Bool.false_eq_true, if_false, hqueued, List.take_left]
    rw [hfly, hhand, List.append_nil]
  have hleft : (t.next (.launch st.bytes.length)).queued = p.buf := by
    simp only [Conduit.next, hqueued, List.drop_left]
  refine ⟨_, .inr ⟨st.bytes.length, rfl⟩, hcut, ?_, ?_⟩
  · cases st <;> exact hleft
  · cases st with
    | parked wait =>
      exact .serving body (fun _ h => by cases h) hh hst hbody hended holds running hfly'
    | returned res =>
      refine .serving body (fun _ h => by cases h) hh hst hbody hended holds running (hfly'.trans ?_)
      cases res <;> rfl

/-- `frameEnd` fits every reader. -/
theorem fits_end (hmax : maxSend < 2 ^ 32) : (Written.frame frameEnd []).Fits maxSend :=
  Written.fits_frame (by decide) (by decide) (Nat.zero_le _) hmax

/-- The feeder writes a frame and goes on or rolls over. -/
theorem Kept.fed {body : List Written} (hh : s.handler ≠ .idle) (hst : s.status = none)
    (hcut : s.body.cut = false) (hended : s.body.ended = false) (holds : s.body.Holds maxSend body)
    (running : ∀ w ∈ body, w.Running) (hmax : maxSend < 2 ^ 32) {w : Written} (hfit : w.Fits maxSend)
    (hrun : w.Running) (hfly : t.flying = payloads body ++ w.data) (late : Bool) :
    Kept maxSend (s.fed late true w.bytes) t := by
  obtain ⟨hwrite, hcut', hended'⟩ := holds.add hcut hfit
  have hfly' : t.flying = payloads (body ++ [w]) := hfly.trans (payloads_concat body w).symm
  have hrunning := running_concat running hrun
  unfold PlainUpload.fed
  rw [if_pos rfl]
  split_ifs
  · obtain ⟨hclose, hopen, -⟩ := hwrite.close hcut' (fits_end hmax)
    exact .closing (body ++ [w]) rfl hh hst hopen hclose hrunning hfly'
  · exact .serving (body ++ [w]) (fun _ h => by cases h) hh hst hcut' (hended'.trans hended) hwrite
      hrunning (hfly'.trans (List.append_nil _).symm)

theorem Rel.feed (h : Rel maxSend s t) {res : ReadResult} (hf : s.feeder = .got res)
    (hlen : s.feeder.hand.length ≤ maxSend) (hmax : maxSend < 2 ^ 32) {late ok : Bool}
    (hok : ok = true ∨ s.body.cut = true ∨ s.handler = .idle) :
    t.Reaches (Rel maxSend (s.feed late ok res)) := by
  refine h.feeds (by simp [hf]) (by simp [hf]) (feeds_feed s late ok res) ?_
  intro body hh hst hcut hended holds running hfly htcut hq
  obtain rfl : ok = true := hok.resolve_right fun hor =>
    hor.elim (fun hbroken => absurd (hcut.symm.trans hbroken) (by simp)) hh
  refine ⟨t, .inl rfl, htcut, ?_⟩
  rw [hf] at hfly hlen
  have hbeat : (Written.frame frameHeartbeat []).Fits maxSend :=
    Written.fits_frame (by decide) (by decide) (Nat.zero_le _) hmax
  have hpipe : (s.feed late true res).writePipe = s.writePipe := by
    cases res with
    | eof => rfl
    | _ =>
      simp only [PlainUpload.feed, PlainUpload.fed, if_true]
      split <;> rfl
  refine ⟨hq.trans (congrArg _ hpipe.symm), ?_⟩
  cases res with
  | eof =>
    obtain ⟨hclose, hopen, -⟩ := holds.close hcut (fits_end hmax)
    exact .closing body rfl hh hst hopen hclose running (hfly.trans (List.append_nil _))
  | data bytes =>
    rcases eq_or_ne bytes [] with rfl | hbytes
    · exact Kept.fed hh hst hcut hended holds running hmax hbeat (.inr rfl) hfly late
    · have hfit : (Written.frame frameData bytes).Fits maxSend :=
        Written.fits_frame (by decide) (by decide) hlen hmax
      have hstep := Kept.fed hh hst hcut hended holds running hmax hfit (.inl rfl) hfly late
      have hfeed : s.feed late true (.data bytes) =
          s.fed late true (Written.frame frameData bytes).bytes := by
        rw [PlainUpload.feed, if_neg hbytes]
        rfl
      rwa [hfeed]
  | timeout => exact Kept.fed hh hst hcut hended holds running hmax hbeat (.inr rfl) hfly late
  | interrupted => exact Kept.fed hh hst hcut hended holds running hmax hbeat (.inr rfl) hfly late

/-! ## The server's steps -/

/-- What `pollSendStream` does with a frame of a stream that goes on. -/
theorem sendStreamFrame_running (p : BufferedPipe) {w : Written} (hw : w.Running) :
    sendStreamFrame (.plain p) w.toFrame =
      if w.data = [] then (.plain p, none)
      else
        match p.write w.data with
        | .error _ => (.plain p, some (.status 410 "session closed"))
        | .ok p' => (.plain p', none) := by
  rcases hw with hdata | hbeat
  · have hpay : w.data = w.toFrame.payload := if_pos hdata
    rw [hpay]
    exact if_pos hdata
  · have hne : ¬frameHeartbeat = frameData := by decide
    have hseq : ¬frameHeartbeat = frameSeqData := by decide
    have hack : ¬frameHeartbeat = frameAck := by decide
    simp only [sendStreamFrame, Written.data, hbeat, if_neg hne, if_neg hseq, if_neg hack, if_true]

/-- The handler reads a frame of a stream that goes on: it takes its bytes, or the session is
closed. -/
theorem serve_running {w : Written} {body : Wire} (hrun : w.Running)
    (hnext : s.body.next maxSend = some (.ok w.toFrame, body))
    (hs : s.serve maxSend = some s') :
    (∃ p, s' = { s with body := body, toServer := p, taken := s.taken ++ w.data }) ∨
      s' = { s with body := body }.answer (some 410) := by
  rw [serve, hnext, Option.map_some] at hs
  obtain rfl := Option.some.inj hs
  dsimp only
  rw [sendStreamFrame_running s.toServer hrun]
  by_cases hdata : w.data = []
  · rw [if_pos hdata]
    refine .inl ⟨s.toServer, ?_⟩
    dsimp only [pipeOf]
    rw [hdata, accepted, BufferedPipe.added_self]
  · rw [if_neg hdata]
    cases hw : s.toServer.write w.data with
    | ok p =>
      refine .inl ⟨p, ?_⟩
      dsimp only [pipeOf]
      rw [accepted, BufferedPipe.added_write hw]
    | error e =>
      refine .inr ?_
      dsimp only [pipeOf]
      rw [accepted, BufferedPipe.added_self, List.append_nil]
      rfl

/-- **The rule for a server's step**: on a direction where nothing is lost, and on one that is
broken. -/
theorem Rel.served (h : Rel maxSend s t) (hne : s.handler ≠ .idle) (hl : s'.loop = s.loop)
    (hw : s'.written = s.written)
    (hbroken : Broken maxSend s t → s.body.cut = true → ∃ t', (t' = t ∨ ∃ n, t' = t.next (.land n)) ∧
      Broken maxSend s' t' ∧ (s.status ≠ some 200 → s'.status ≠ some 200) ∧ t'.got = s'.taken)
    (hkept : s.loop = .sending → t.cut = false → t.queued = s.writePipe.buf → Kept maxSend s t →
      t.Reaches (Rel maxSend s')) : t.Reaches (Rel maxSend s') := by
  have hmoved : Broken maxSend s t → ∃ t', (∀ {P : Conduit UInt8 → Prop}, P t' → t.Reaches P) ∧
      Broken maxSend s' t' ∧ (s.status ≠ some 200 → s'.status ≠ some 200) ∧
      t'.given = s'.written ∧ t'.got = s'.taken := by
    intro hb
    obtain ⟨t', hmove, hb', hst', hgot⟩ := hbroken hb (hb.frames hne).1
    refine ⟨t', ?_, hb', hst', ?_, hgot⟩
    · rcases hmove with rfl | ⟨n, rfl⟩
      · exact fun hP => .here hP
      · exact fun hP => .of_next _ hP
    · rcases hmove with rfl | ⟨n, rfl⟩
      · exact h.given.trans hw.symm
      · exact h.given.trans hw.symm
  have hstage := h.stage
  unfold Stage at hstage
  cases hloop : s.loop with
  | between =>
    rw [hloop] at hstage
    exact absurd hstage.2.2.2.2 hne
  | failed =>
    rw [hloop] at hstage
    obtain ⟨t', hreach, hb, -, hg, ht⟩ := hmoved hstage
    exact hreach (hb.failed (hl.trans hloop) hg ht)
  | sending =>
    rcases h.sending hloop with ⟨hb, hst⟩ | ⟨⟨hcut, hq⟩, hk⟩
    · obtain ⟨t', hreach, hb', hst', hg, ht⟩ := hmoved hb
      exact hreach (hb'.rel (hl.trans hloop) (hst' hst) hg ht)
    · exact hkept hloop hcut hq hk

/-- A handler that goes, with any answer but a 200 or on a broken connection, leaves a broken
direction. -/
theorem Rel.answered (h : Rel maxSend s t) (hne : s.handler ≠ .idle) {code : Option Nat} (body : Wire)
    (hcode : body.cut = true ∨ code ≠ some 200) :
    t.Reaches (Rel maxSend ({ s with body := body }.answer code)) := by
  have hst : ({ s with body := body }.answer code).status ≠ some 200 := by
    show (if body.cut then none else code) ≠ some 200
    split_ifs with hcut
    · simp
    · exact hcode.resolve_left hcut
  refine h.served hne rfl rfl (fun hb _ => ?_) fun hl _ _ _ => ?_
  · exact ⟨t, .inl rfl, ⟨hb.cut, fun hne' => absurd rfl hne'⟩, fun _ => hst, h.got⟩
  · exact .of_next (.sever 0) ((Broken.of_idle rfl 0).rel hl hst h.given h.got)

theorem Rel.start (h : Rel maxSend s t) (hh : s.handler = .posted) :
    t.Reaches (Rel maxSend { s with handler := .reading }) := by
  have hne : s.handler ≠ .idle := by simp [hh]
  refine h.served hne rfl rfl (fun hb _ => ?_) fun hl hcut hq hk => ?_
  · exact ⟨t, .inl rfl, ⟨hb.cut, fun _ => hb.frames hne⟩, id, h.got⟩
  · refine .here (Kept.rel ?_ hcut hq hl h.given h.got)
    cases hk with
    | serving body hf _ hst hbody hended holds running hfly =>
      exact .serving body hf (by simp) hst hbody hended holds running hfly
    | closing body hf _ hst hbody holds running hfly =>
      exact .closing body hf (by simp) hst hbody holds running hfly
    | done _ hh' => exact absurd hh' hne

/-- The handler reads the last frame. -/
theorem serve_end {body : Wire}
    (hnext : s.body.next maxSend = some (.ok (Written.frame frameEnd []).toFrame, body))
    (hs : s.serve maxSend = some s') : s' = { s with body := body }.answer (some 200) := by
  rw [serve, hnext] at hs
  cases hs
  show ((accepted { s with body := body } s.toServer).reply .ok) = _
  rw [accepted, BufferedPipe.added_self, List.append_nil]
  rfl

/-- What the handler still takes of a broken body. -/
theorem Broken.serve (hb : Broken maxSend s t) (hne : s.handler ≠ .idle)
    (hs : s.serve maxSend = some s') (hgot : t.got = s.taken) :
    ∃ t', (t' = t ∨ ∃ n, t' = t.next (.land n)) ∧ Broken maxSend s' t' ∧
      (s.status ≠ some 200 → s'.status ≠ some 200) ∧ t'.got = s'.taken := by
  obtain ⟨hcut, ws, holds, hframes, hfly⟩ := hb.frames hne
  -- a handler that goes now answers nobody
  have hgone : ∀ {body : Wire} {code : Option Nat}, body.cut = true →
      s' = { s with body := body }.answer code → ∃ t', (t' = t ∨ ∃ n, t' = t.next (.land n)) ∧
        Broken maxSend s' t' ∧ (s.status ≠ some 200 → s'.status ≠ some 200) ∧ t'.got = s'.taken := by
    rintro body code hbody rfl
    refine ⟨t, .inl rfl, ⟨hb.cut, fun hne' => absurd rfl hne'⟩, fun _ => ?_, hgot⟩
    show (if body.cut then none else code) ≠ some 200
    rw [hbody]
    simp
  cases ws with
  | nil =>
    rw [PlainUpload.serve, Wire.next_of_empty holds, if_pos hcut] at hs
    exact hgone hcut (Option.some.inj hs).symm
  | cons w ws =>
    obtain ⟨body, hnext, holds', hcut', -⟩ := Wire.next_of_holds holds
    rcases hframes w List.mem_cons_self with hrun | rfl
    · rcases serve_running hrun hnext hs with ⟨p, rfl⟩ | hclosed
      · rw [payloads_cons] at hfly
        refine ⟨_, .inr ⟨w.data.length, rfl⟩, ⟨hb.cut, fun _ => ⟨hcut'.trans hcut, ws, holds', ?_, ?_⟩⟩,
          id, ?_⟩
        · exact fun u hu => hframes u (List.mem_cons_of_mem _ hu)
        · simp only [Conduit.next, hfly, List.drop_left]
        · simp only [Conduit.next, hfly, List.take_left, hgot]
      · exact hgone (hcut'.trans hcut) hclosed
    · exact hgone (hcut'.trans hcut) (serve_end hnext hs)

/-- What the handler takes of a body that holds. -/
theorem Kept.serve (hk : Kept maxSend s t) (h : Rel maxSend s t) (hl : s.loop = .sending)
    (htcut : t.cut = false) (hq : t.queued = s.writePipe.buf) (hne : s.handler ≠ .idle)
    (hs : s.serve maxSend = some s') : t.Reaches (Rel maxSend s') := by
  cases hk with
  | serving body hf hh hst hcut hended holds running hfly =>
    cases body with
    | nil =>
      rw [PlainUpload.serve, Wire.next_of_empty holds, hcut, hended] at hs
      cases hs
    | cons w body =>
      obtain ⟨b, hnext, holds', hcut', hended'⟩ := Wire.next_of_holds holds
      rcases serve_running (running w List.mem_cons_self) hnext hs with ⟨p, rfl⟩ | rfl
      · rw [payloads_cons, List.append_assoc] at hfly
        refine .of_next (.land w.data.length) (Kept.rel ?_ htcut hq hl h.given ?_)
        · refine .serving body hf hh hst (hcut'.trans hcut) (hended'.trans hended) holds'
            (fun u hu => running u (List.mem_cons_of_mem _ hu)) ?_
          simp only [Conduit.next, hfly, List.drop_left]
        · simp only [Conduit.next, hfly, List.take_left, h.got]
      · exact h.answered hne b (.inr (by simp))
  | closing body hf hh hst hcut holds running hfly =>
    cases body with
    | nil =>
      obtain ⟨b, hnext, -, hcut', -⟩ := Wire.next_of_holds holds
      obtain rfl := serve_end hnext hs
      refine .here (Kept.rel (.done hf rfl ?_ hfly) htcut hq hl h.given h.got)
      show (if b.cut then none else some 200) = some 200
      rw [hcut', hcut]
      rfl
    | cons w body =>
      obtain ⟨b, hnext, holds', hcut', -⟩ := Wire.next_of_holds holds
      rcases serve_running (running w List.mem_cons_self) hnext hs with ⟨p, rfl⟩ | rfl
      · rw [payloads_cons] at hfly
        refine .of_next (.land w.data.length) (Kept.rel ?_ htcut hq hl h.given ?_)
        · refine .closing body hf hh hst (hcut'.trans hcut) holds'
            (fun u hu => running u (List.mem_cons_of_mem _ hu)) ?_
          simp only [Conduit.next, hfly, List.drop_left]
        · simp only [Conduit.next, hfly, List.take_left, h.got]
      · exact h.answered hne b (.inr (by simp))
  | done _ hh => exact absurd hh hne

theorem serve_same (hs : s.serve maxSend = some s') :
    s'.loop = s.loop ∧ s'.written = s.written := by
  have hreply : ∀ (u : PlainUpload) (e : SendEnd),
      (u.reply e).loop = u.loop ∧ (u.reply e).written = u.written := by
    intro u e
    cases e <;> exact ⟨rfl, rfl⟩
  obtain ⟨⟨r, body⟩, -, hs⟩ := Option.map_eq_some_iff.mp hs
  rcases r with (e | _) | f
  · subst hs
    exact hreply s _
  · subst hs
    exact hreply s _
  · dsimp only at hs
    split at hs
    · subst hs
      exact ⟨rfl, rfl⟩
    · subst hs
      exact hreply _ _

theorem Rel.serve (h : Rel maxSend s t) (hh : s.handler = .reading)
    (hs : s.serve maxSend = some s') : t.Reaches (Rel maxSend s') := by
  have hne : s.handler ≠ .idle := by simp [hh]
  obtain ⟨hl, hw⟩ := serve_same hs
  refine h.served hne hl hw (fun hb _ => hb.serve hne hs h.got) fun hsend hcut hq hk => ?_
  exact hk.serve h hsend hcut hq hne hs

/-! ## Steps beside the transfer -/

/-- **What a step beside the transfer leaves alone**: the feeder, the request and the client's
loop. The pipe may grow. -/
structure Beside (s s' : PlainUpload) (t t' : Conduit UInt8) : Prop where
  loop : s'.loop = s.loop
  feeder : s'.feeder = s.feeder
  body : s'.body = s.body
  handler : s'.handler = s.handler
  status : s'.status = s.status
  taken : s'.taken = s.taken
  got : t'.got = t.got
  flying : t'.flying = t.flying
  cut : t'.cut = t.cut
  queued : t.queued = s.writePipe.buf → t'.queued = s'.writePipe.buf

theorem Kept.beside (hk : Kept maxSend s t) (hb : Beside s s' t t') : Kept maxSend s' t' := by
  cases hk with
  | serving body hf hh hst hcut hended holds running hfly =>
    refine .serving body ?_ ?_ (hb.status.trans hst) ?_ ?_ ?_ running ?_
    · rw [hb.feeder]
      exact hf
    · rw [hb.handler]
      exact hh
    · rw [hb.body]
      exact hcut
    · rw [hb.body]
      exact hended
    · rw [hb.body]
      exact holds
    · rw [hb.feeder]
      exact hb.flying.trans hfly
  | closing body hf hh hst hcut holds running hfly =>
    refine .closing body (hb.feeder.trans hf) ?_ (hb.status.trans hst) ?_ ?_ running
      (hb.flying.trans hfly)
    · rw [hb.handler]
      exact hh
    · rw [hb.body]
      exact hcut
    · rw [hb.body]
      exact holds
  | done hf hh hst hfly =>
    exact .done (hb.feeder.trans hf) (hb.handler.trans hh) (hb.status.trans hst) (hb.flying.trans hfly)

theorem Rel.beside (h : Rel maxSend s t) (hb : Beside s s' t t') (hg : t'.given = s'.written) :
    Rel maxSend s' t' := by
  have hgot := hb.got.trans (h.got.trans hb.taken.symm)
  have hbroken : Broken maxSend s t → Broken maxSend s' t' := by
    intro hbr
    refine ⟨hb.cut.trans hbr.cut, ?_⟩
    rw [hb.handler, hb.body, hb.flying]
    exact hbr.frames
  have hstage := h.stage
  unfold Stage at hstage
  cases hl : s.loop with
  | between =>
    rw [hl] at hstage
    obtain ⟨hcut, hfly, hq, hf, hh⟩ := hstage
    refine ⟨hg, hgot, ?_⟩
    unfold Stage
    rw [hb.loop, hl]
    exact ⟨hb.cut.trans hcut, hb.flying.trans hfly, hb.queued hq, hb.feeder.trans hf,
      hb.handler.trans hh⟩
  | failed =>
    rw [hl] at hstage
    exact (hbroken hstage).failed (hb.loop.trans hl) hg hgot
  | sending =>
    rcases h.sending hl with ⟨hbr, hst⟩ | ⟨⟨hcut, hq⟩, hk⟩
    · exact (hbroken hbr).rel (hb.loop.trans hl) (by rw [hb.status]; exact hst) hg hgot
    · exact (hk.beside hb).rel (hb.cut.trans hcut) (hb.queued hq) (hb.loop.trans hl) hg hgot

theorem Rel.write (h : Rel maxSend s t) {p : BufferedPipe} {bytes : Bytes}
    (hw : s.writePipe.write bytes = .ok p) :
    t.Reaches (Rel maxSend { s with writePipe := p, written := s.written ++ bytes }) := by
  obtain ⟨-, rfl⟩ := BufferedPipe.write_ok hw
  refine .of_next (.put bytes) (h.beside ⟨rfl, rfl, rfl, rfl, rfl, rfl, rfl, rfl, rfl, ?_⟩ ?_)
  · intro hq
    rw [BufferedPipe.push_buf, ← hq]
    rfl
  · exact congrArg (· ++ bytes) h.given

/-- Neither the application nor the lifecycle touches the direction. -/
theorem Rel.same (h : Rel maxSend s t) (closed : Bool) (toServer : BufferedPipe) :
    Rel maxSend { s with closed := closed, toServer := toServer } t :=
  h.beside ⟨rfl, rfl, rfl, rfl, rfl, rfl, rfl, rfl, rfl, id⟩ h.given

theorem Rel.closeWrite (h : Rel maxSend s t) :
    Rel maxSend { s with writePipe := s.writePipe.close } t :=
  h.beside ⟨rfl, rfl, rfl, rfl, rfl, rfl, rfl, rfl, rfl, id⟩ h.given

/-! ## The client's steps -/

theorem Rel.opens (h : Rel maxSend s t) (hl : s.loop = .between) :
    Rel maxSend { s with
      loop := .sending, feeder := .calling, body := {}, handler := .posted, status := none } t := by
  have hstage := h.stage
  unfold Stage at hstage
  rw [hl] at hstage
  obtain ⟨hcut, hfly, hq, -, -⟩ := hstage
  refine Kept.rel ?_ hcut hq rfl h.given h.got
  exact .serving [] (fun _ h => by cases h) (by simp) rfl rfl rfl (Wire.Holds.empty _) (by simp) hfly

theorem Rel.cut (h : Rel maxSend s t) (hl : s.loop = .sending) (hbody : s.body.cut = false) (k : Nat) :
    t.Reaches (Rel maxSend { s with body := s.body.sever k }) := by
  -- the frames that arrive whole still fly
  have hsevered : ∀ {ws : List Written} (rest : Bytes), s.body.Holds maxSend ws →
      (∀ w ∈ ws, w.Running ∨ w = .frame frameEnd []) → t.flying = payloads ws ++ rest →
      s.status = none → t.Reaches (Rel maxSend { s with body := s.body.sever k }) := by
    intro ws rest holds hframes hfly hst
    have hpre := Wire.whole_prefix ws k
    refine .of_next (.sever (payloads (whole ws k)).length)
      (Broken.rel ⟨rfl, fun _ => ⟨rfl, whole ws k, holds.sever hbody k, ?_, ?_⟩⟩ hl ?_ h.given h.got)
    · exact fun w hw => hframes w (hpre.subset hw)
    · show t.flying.take _ = _
      rw [hfly]
      exact (List.prefix_iff_eq_take.mp ((payloads_mono hpre).trans (List.prefix_append _ _))).symm
    · show s.status ≠ some 200
      rw [hst]
      simp
  rcases h.sending hl with ⟨hb, hst⟩ | ⟨⟨hcut, hq⟩, hk⟩
  · refine .here (Broken.rel ⟨hb.cut, fun hne => ?_⟩ hl hst h.given h.got)
    exact absurd (hbody.symm.trans (hb.frames hne).1) (by simp)
  · cases hk with
    | serving body _ _ hst _ _ holds running hfly =>
      exact hsevered _ holds (fun w hw => .inl (running w hw)) hfly hst
    | closing body _ _ hst _ holds running hfly =>
      refine hsevered [] holds (fun w hw => ?_) ?_ hst
      · exact (List.mem_append.mp hw).imp (running w) List.mem_singleton.mp
      · rw [hfly, payloads_append, List.append_nil]
        exact (List.append_nil _).symm
    | done hf hh hst hfly => exact .here (Kept.rel (.done hf hh hst hfly) hcut hq hl h.given h.got)

theorem Rel.finish (h : Rel maxSend s t) (hl : s.loop = .sending) {ok : Bool}
    (hf : s.feeder = .returned ok) {code : Nat} (hst : s.status = some code) :
    Rel maxSend { s with
      loop := if code = 200 ∧ ok then .between else .failed, feeder := .idle } t := by
  rcases h.sending hl with ⟨hb, hne⟩ | ⟨⟨hcut, hq⟩, hk⟩
  · have hcode : ¬(code = 200 ∧ ok = true) := by
      rintro ⟨rfl, -⟩
      exact hne hst
    exact Broken.failed ⟨hb.cut, hb.frames⟩ (if_neg hcode) h.given h.got
  · cases hk with
    | serving _ hf' => exact absurd hf (hf' ok)
    | closing _ _ _ hst' => exact absurd (hst.symm.trans hst') (by simp)
    | done hf' hh hst' hfly =>
      obtain rfl : code = 200 := Option.some.inj (hst.symm.trans hst')
      obtain rfl : ok = true := Feeder.returned.inj (hf.symm.trans hf')
      exact ⟨h.given, h.got, hcut, hfly, hq, rfl, hh⟩

theorem Rel.fail (h : Rel maxSend s t)
    (hg : s.loop = .between ∨ s.loop = .sending ∧ (s.body.cut = true ∨ s.handler = .idle)) :
    t.Reaches (Rel maxSend { s with loop := .failed }) := by
  have hidle : s.handler = .idle → t.Reaches (Rel maxSend { s with loop := .failed }) := fun hh =>
    .of_next (.sever 0) (Broken.failed ⟨rfl, fun hne => absurd hh hne⟩ rfl h.given h.got)
  rcases hg with hl | ⟨hl, hgone⟩
  · have hstage := h.stage
    unfold Stage at hstage
    rw [hl] at hstage
    exact hidle hstage.2.2.2.2
  · rcases h.sending hl with ⟨hb, -⟩ | ⟨-, hk⟩
    · exact .here (Broken.failed ⟨hb.cut, hb.frames⟩ rfl h.given h.got)
    · rcases hgone with hbody | hh
      · cases hk with
        | serving _ _ _ _ hbody' => exact absurd (hbody.symm.trans hbody') (by simp)
        | closing _ _ _ _ hbody' => exact absurd (hbody.symm.trans hbody') (by simp)
        | done _ hh => exact hidle hh
      · exact hidle hh

end Rel

/-! ## The direction is a conduit, unless the server abandons a request -/

section Main

variable {bufSize maxSend : Nat} {s s' : PlainUpload} {t : Conduit UInt8}
  {ev : UpEvent}

theorem handed_after {r : ReadState × BufferedPipe} (hr : s.writePipe.Reads bufSize r.1 r.2) :
    (s.after r).feeder.hand.length ≤ bufSize := by
  obtain ⟨_ | _, p⟩ := r
  · next res =>
    cases res with
    | data bytes => exact hr.atMost
    | _ => exact Nat.zero_le _
  · exact Nat.zero_le _

/-- The feeder has at most a buffer in hand. -/
theorem handed_step (hi : s.feeder.hand.length ≤ bufSize)
    (hs : s.step bufSize maxSend ev = some s') : s'.feeder.hand.length ≤ bufSize := by
  cases ev with
  | read =>
    obtain ⟨-, ⟨⟩⟩ := Option.ite_none_right_eq_some.mp hs
    exact handed_after (s.writePipe.enter_reads bufSize)
  | wake fired =>
    simp only [step] at hs
    split at hs
    · cases hs
      exact handed_after (s.writePipe.resume_reads bufSize _)
    · cases hs
  | feed late ok =>
    simp only [step] at hs
    split at hs
    · next res _ =>
      obtain ⟨-, ⟨⟩⟩ := Option.ite_none_right_eq_some.mp hs
      have hfed : ∀ p, (s.fed late ok p).feeder.hand = [] := by
        intro p
        unfold fed
        split_ifs <;> rfl
      cases res with
      | eof => exact Nat.zero_le _
      | _ =>
        simp only [feed, hfed]
        exact Nat.zero_le _
    · cases hs
  | «open» =>
    obtain ⟨-, ⟨⟩⟩ := Option.ite_none_right_eq_some.mp hs
    exact Nat.zero_le _
  | finish =>
    simp only [step] at hs
    split at hs <;> cases hs
    exact Nat.zero_le _
  | write data =>
    simp only [step] at hs
    split at hs <;> cases hs <;> exact hi
  | start found =>
    obtain ⟨-, hs⟩ := Option.ite_none_right_eq_some.mp hs
    split_ifs at hs <;> cases hs <;> exact hi
  | serve =>
    obtain ⟨-, hs⟩ := Option.ite_none_right_eq_some.mp hs
    have hreply : ∀ (u : PlainUpload) (e : SendEnd), (u.reply e).feeder = u.feeder := by
      intro u e
      cases e <;> rfl
    obtain ⟨⟨r, body⟩, -, hs⟩ := Option.map_eq_some_iff.mp hs
    rcases r with (e | _) | f
    · subst hs
      rw [hreply]
      exact hi
    · subst hs
      rw [hreply]
      exact hi
    · dsimp only at hs
      split at hs
      · subst hs
        exact hi
      · subst hs
        rw [hreply]
        exact hi
  | closeWrite =>
    cases hs
    exact hi
  | expire =>
    obtain ⟨-, ⟨⟩⟩ := Option.ite_none_right_eq_some.mp hs
    exact hi
  | cut k =>
    obtain ⟨-, ⟨⟩⟩ := Option.ite_none_right_eq_some.mp hs
    exact hi
  | fail =>
    obtain ⟨-, ⟨⟩⟩ := Option.ite_none_right_eq_some.mp hs
    exact hi
  | closePipes =>
    obtain ⟨-, ⟨⟩⟩ := Option.ite_none_right_eq_some.mp hs
    exact hi
  | markClosed =>
    cases hs
    exact hi
  | drain dst =>
    cases hs
    exact hi

theorem handed_reachable (h : (machine bufSize maxSend).Reachable s) :
    s.feeder.hand.length ≤ bufSize :=
  Machine.Reach.invariant (P := fun s => s.feeder.hand.length ≤ bufSize) (Nat.zero_le _)
    (fun _ _ _ _ hi _ hs => handed_step hi hs) h

/-- A read deadline expires on a broken connection only. The feeder writes at least a heartbeat
before it would otherwise. -/
def Punctual (s : PlainUpload) (ev : UpEvent) : Prop := ev = .expire → s.body.cut = true

instance (s : PlainUpload) (ev : UpEvent) : Decidable (s.Punctual ev) := by
  unfold Punctual
  infer_instance

/-- **Every step of the direction is one of the conduit, or none**, as long as the server abandons
no request that a client still feeds. -/
theorem Rel.step (h : Rel maxSend s t) (hi : s.feeder.hand.length ≤ maxSend) (hmax : maxSend < 2 ^ 32)
    (hok : s.Punctual ev) (hs : s.step bufSize maxSend ev = some s') :
    t.Reaches (Rel maxSend s') := by
  cases ev with
  | write data =>
    simp only [PlainUpload.step] at hs
    split at hs
    · cases hs
      exact .here h
    · next hw =>
      cases hs
      exact h.write hw
  | closeWrite =>
    cases hs
    exact .here h.closeWrite
  | «open» =>
    obtain ⟨hl, ⟨⟩⟩ := Option.ite_none_right_eq_some.mp hs
    exact .here (h.opens hl)
  | start found =>
    obtain ⟨hh, hs⟩ := Option.ite_none_right_eq_some.mp hs
    split at hs
    · cases hs
      refine h.answered (by simp [hh]) s.body (.inr ?_)
      cases found <;> simp
    · obtain ⟨-, ⟨⟩⟩ := Option.ite_none_right_eq_some.mp hs
      exact h.start hh
  | read =>
    obtain ⟨hf, ⟨⟩⟩ := Option.ite_none_right_eq_some.mp hs
    exact h.after (by simp [hf]) (by simp [hf]) (by rw [hf]; rfl) (s.writePipe.enter_reads bufSize)
  | wake fired =>
    simp only [PlainUpload.step] at hs
    split at hs
    · next hf =>
      cases hs
      exact h.after (by simp [hf]) (by simp [hf]) (by rw [hf]; rfl)
        (s.writePipe.resume_reads bufSize _)
    · cases hs
  | feed late ok =>
    simp only [PlainUpload.step] at hs
    split at hs
    · next hf =>
      obtain ⟨hok, ⟨⟩⟩ := Option.ite_none_right_eq_some.mp hs
      exact h.feed hf hi hmax hok
    · cases hs
  | serve =>
    obtain ⟨hh, hs⟩ := Option.ite_none_right_eq_some.mp hs
    exact h.serve hh hs
  | expire =>
    obtain ⟨hh, ⟨⟩⟩ := Option.ite_none_right_eq_some.mp hs
    exact h.answered (by simp [hh]) s.body (.inl (hok rfl))
  | cut k =>
    obtain ⟨⟨hl, hbody⟩, ⟨⟩⟩ := Option.ite_none_right_eq_some.mp hs
    exact h.cut hl hbody k
  | finish =>
    simp only [PlainUpload.step] at hs
    split at hs
    · next hl hf hst =>
      cases hs
      exact .here (h.finish hl hf hst)
    · cases hs
  | fail =>
    obtain ⟨hg, ⟨⟩⟩ := Option.ite_none_right_eq_some.mp hs
    exact h.fail hg
  | markClosed =>
    cases hs
    exact .here (h.same true s.toServer)
  | closePipes =>
    obtain ⟨-, ⟨⟩⟩ := Option.ite_none_right_eq_some.mp hs
    exact .here (h.same s.closed _)
  | drain dst =>
    cases hs
    exact .here (h.same s.closed _)

/-- The direction as a conduit. -/
def simulation (hbuf : bufSize ≤ maxSend) (hmax : maxSend < 2 ^ 32) :
    (machine bufSize maxSend).Simulation Punctual (Conduit.machine UInt8) where
  rel := Rel maxSend
  init := ⟨rfl, rfl, rfl, rfl, rfl, rfl, rfl⟩
  step hr h hok hs := h.step ((handed_reachable hr.reachable).trans hbuf) hmax hok hs

/-- What the server has taken is in order, and complete between two requests. -/
def InOrder (s : PlainUpload) : Prop :=
  s.taken <+: s.written ∧ (s.loop = .between → s.taken ++ s.writePipe.buf = s.written)

theorem in_order_of_punctual (hbuf : bufSize ≤ maxSend) (hmax : maxSend < 2 ^ 32)
    (h : (machine bufSize maxSend).Reach Punctual s) : InOrder s := by
  obtain ⟨t, ht, hrel⟩ := (simulation hbuf hmax).reach h
  have hsound := Conduit.Sound.reachable ht
  refine ⟨?_, fun hl => ?_⟩
  · have hpre := hsound.got_prefix
    rwa [hrel.got, hrel.given] at hpre
  · have hstage := hrel.stage
    unfold Stage at hstage
    rw [hl] at hstage
    obtain ⟨hcut, hfly, hq, -⟩ := hstage
    have hwhole := hsound.whole hcut
    rwa [hfly, List.append_nil, hq, hrel.got, hrel.given] at hwhole

/-- A buffer is written; its leg's deadline expires on the server before the frame is there; the
leg rolls over. -/
def abandonedRun (bufSize : Nat) : List UpEvent :=
  [.write (List.replicate bufSize 7), .open, .start true, .read, .expire, .feed true true, .finish]

theorem abandonedRun_loses (maxSend : Nat) (hpos : 0 < bufSize) :
    ∃ s, (machine bufSize maxSend).run {} (abandonedRun bufSize) = some s ∧
      s.loop = .between ∧ s.taken = [] ∧ s.writePipe.buf = [] ∧ s.written ≠ [] := by
  have hne : List.replicate bufSize (7 : UInt8) ≠ [] := by
    rw [ne_eq, List.replicate_eq_nil_iff]
    omega
  have hfull : (BufferedPipe.push {} (List.replicate bufSize 7)).enter bufSize =
      (BufferedPipe.push {} (List.replicate bufSize 7)).copyOut bufSize := by
    apply BufferedPipe.enter_of_full
    · rw [BufferedPipe.push_intr]
    · rw [BufferedPipe.push_buf]
      exact hne
    · rw [BufferedPipe.push_buf]
      exact Nat.le_of_eq List.length_replicate.symm
  simp [abandonedRun, Machine.run, machine, step, BufferedPipe.write, hfull, after,
    BufferedPipe.copyOut, reply, answer, feed, fed, Nat.ne_of_gt hpos]

/-- **A streamed upload is in order, and complete whenever its client has been told so, as long as no
read deadline expires on a connection that holds.** One that does loses data, whatever the sizes:
the leg whose handler has gone ends as a success, its client goes on to the next one, and nothing of
what it carried has been taken. -/
theorem plain_upload_in_order (hpos : 0 < bufSize) (hbuf : bufSize ≤ maxSend)
    (hmax : maxSend < 2 ^ 32) :
    (∀ s, (machine bufSize maxSend).Reach Punctual s → InOrder s) ∧
      ∃ s, (machine bufSize maxSend).run {} (abandonedRun bufSize) = some s ∧
        s.loop = .between ∧ s.taken = [] ∧ s.writePipe.buf = [] ∧ s.written ≠ [] :=
  ⟨fun _ h => in_order_of_punctual hbuf hmax h, abandonedRun_loses maxSend hpos⟩

/-- Two legs. The last byte goes out when the coalescing window is over, and the deadline expires
after the connection broke. -/
def twoLegs : List UpEvent :=
  [.write [1, 2, 3, 4, 5], .open, .start true, .read, .feed true true, .serve, .serve, .finish,
    .open, .start true, .read, .wake true, .feed false true, .serve, .cut 0, .expire]

/-- A buffer of four bytes and the default bound. -/
theorem plain_upload_in_order_two_legs :
    ((machine 4 1048576).final twoLegs).taken = [1, 2, 3, 4, 5] ∧
      ((machine 4 1048576).final twoLegs).InOrder :=
  ⟨by decide, (plain_upload_in_order (by decide) (by decide) (by decide)).1 _
    (Machine.reach_final (by decide))⟩

end Main

end PlainUpload

end Pollmux
