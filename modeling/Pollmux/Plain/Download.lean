import Pollmux.Frame.Readers
import Pollmux.Frame.Wire
import Pollmux.Kit.Conduit
import Pollmux.Pipe.Fifo

/-!
# What a plain download can lose

The downstream direction of a session that is not resumable: the session's `toClient` pipe, the
handler of one poll after the other (`PollHandler` and `pollStream`, `handler.go`), the response on
its way, and the client's loop (`httpConn.pollLoop` with `doPoll`, or `pollLoopStream` with
`doStreamPoll`, `client.go`). There is no replay here: bytes that a handler has taken out of the
pipe are gone if its response is.

**Nothing is lost while the client goes on polling** (`plain_download_in_order`). Whenever it is
between two polls, and when it learns that the session is gone, what it has got and what is still
in the pipe are together all that was written; what it has got is a beginning of it in any case.
The direction is a `Conduit`, and the client's giving up is the cut.

What is still in the pipe when the session is closed is another matter. A poll that finds the
session closed is refused at the door, so the pipe is never read again
(`closed_between_polls_strands`): the last bytes before a close arrive only if a poll is open to
take them.

The network may lose or delay a request, break a response off at any byte and let a handler run
after its client has given up. It does not turn a broken response into a complete one (`Wire`).
-/

namespace Pollmux

open Kit

/-- Where the handler of a poll is. -/
inductive DownHandler
  /-- There is none. -/
  | idle
  /-- The request is on its way. -/
  | posted
  /-- About to call `ReadAvailable`. -/
  | calling
  | parked (wait : Parked)
  | got (res : ReadResult)
  deriving DecidableEq, Repr

/-- The bytes it has taken out of the pipe. -/
def DownHandler.hand : DownHandler → Bytes
  | .got (.data bytes) => bytes
  | _ => []

/-- Where the client's loop is. -/
inductive PollLoop
  /-- About to post a poll. -/
  | between
  | polling
  /-- It ended because the session is gone. -/
  | gone
  /-- It ended for any other reason. -/
  | failed
  deriving DecidableEq, Repr

/-- One direction of a plain session. `written` and `delivered` record what was ever written into
`toClient` and into `readPipe`; `status` is the response's status once its header is out. -/
structure PlainDownload where
  closed : Bool := false
  toClient : BufferedPipe := {}
  written : Bytes := []
  handler : DownHandler := .idle
  status : Option Nat := none
  wire : Wire := {}
  loop : PollLoop := .between
  readPipe : BufferedPipe := {}
  delivered : Bytes := []
  deriving DecidableEq, Repr

/-- One step. -/
inductive DownEvent
  /-- `Session.Write`. -/
  | write (data : Bytes)
  /-- The session is marked closed. -/
  | markClosed
  | closePipes
  /-- The client posts a poll. -/
  | poll
  /-- The poll reaches its handler; the store may have dropped a closed session already. -/
  | start (found : Bool)
  /-- A streaming handler finds its context done. -/
  | leave
  | read
  | wake (fired : Bool)
  /-- The handler answers with what it has got; `late` says that `StreamMaxDuration` has passed. -/
  | respond (late : Bool)
  /-- The connection breaks and `k` bytes of the body under way arrive. -/
  | cut (k : Nat)
  /-- The client reads a frame, or the whole response. -/
  | receive
  /-- The client's poll fails or its connection is closed. -/
  | fail
  | closeRead
  /-- The application reads. -/
  | drain (dst : Nat)
  deriving DecidableEq, Repr

namespace BufferedPipe

variable {p : BufferedPipe} {dst : Nat}

/-- A call that answers `io.EOF` leaves an empty, closed pipe. -/
theorem Answers.eof_end {timedOut : Bool} {r : ReadState × BufferedPipe}
    (h : p.Answers dst timedOut r) (hr : r.1 = .returned .eof) :
    r.2.buf = [] ∧ r.2.closed = true := by
  cases h with
  | eof hb hc => exact ⟨hb, hc⟩
  | _ => cases hr

theorem resume_eof {wait : Parked} (hr : (p.resume dst wait).1 = .returned .eof) :
    (p.resume dst wait).2.buf = [] ∧ (p.resume dst wait).2.closed = true := by
  cases wait with
  | first timedOut => exact (awaitFirst_answers timedOut).eof_end hr
  | more timedOut =>
    simp only [resume, coalesce] at hr
    split at hr <;> cases hr

/-- What a `ReadAvailable` call may come to. -/
structure Comes (p : BufferedPipe) (dst : Nat) (r : ReadState × BufferedPipe) : Prop where
  reads : p.Reads dst r.1 r.2
  eof : r.1 = .returned .eof → r.2.buf = [] ∧ r.2.closed = true

theorem comes_enter (p : BufferedPipe) (dst : Nat) : p.Comes dst (p.enter dst) :=
  ⟨p.enter_reads dst, (p.enter_answers dst).eof_end⟩

theorem comes_resume (p : BufferedPipe) (dst : Nat) (wait : Parked) :
    p.Comes dst (p.resume dst wait) :=
  ⟨p.resume_reads dst wait, resume_eof⟩

end BufferedPipe

namespace PlainDownload

/-- The handler goes on from where its `ReadAvailable` call has come to. -/
def after (s : PlainDownload) : ReadState × BufferedPipe → PlainDownload
  | (.parked wait, p) => { s with toClient := p, handler := .parked wait }
  | (.returned res, p) => { s with toClient := p, handler := .got res }

/-- The response's header; on a broken connection it does not get through. -/
def writeHeader (s : PlainDownload) (code : Nat) : PlainDownload :=
  if s.wire.cut then s else { s with status := some code }

/-- The handler returns. -/
def finish (s : PlainDownload) : PlainDownload :=
  { s with wire := s.wire.finish, handler := .idle }

/-- A handler that answers with `code` and nothing that the client reads. -/
def answer (s : PlainDownload) (code : Nat) : PlainDownload := (s.writeHeader code).finish

/-- A poll at the door: `st.Get` and `beginPoll`. A streaming handler sends its header at once. -/
def start (stream found : Bool) (s : PlainDownload) : Option PlainDownload :=
  if s.closed then some (s.answer (if found then 410 else 404))
  else if found then
    some { if stream then s.writeHeader 200 else s with handler := .calling }
  else none

/-- A streaming handler has written the frame `p`; it returns if the write failed or if it is
late. -/
def streamed (s : PlainDownload) (late : Bool) (p : Bytes) : PlainDownload :=
  let s' := { s with wire := s.wire.write p }
  if s.wire.cut then s'.finish
  else if late then { s' with wire := s'.wire.write (writeFrame frameEnd []) }.finish
  else { s' with handler := .calling }

/-- What a streaming handler does with what `ReadAvailable` returned. -/
def respondStream (late : Bool) (s : PlainDownload) : ReadResult → PlainDownload
  | .eof => { s with wire := s.wire.write (writeFrame frameGone []) }.finish
  | .data bytes =>
    s.streamed late (if bytes = [] then writeFrame frameHeartbeat [] else writeFrame frameData bytes)
  | .timeout | .interrupted => s.streamed late (writeFrame frameHeartbeat [])

/-- What the other handler does with it. -/
def respondBatch (s : PlainDownload) : ReadResult → PlainDownload
  | .eof => s.answer 410
  | .data bytes =>
    if bytes = [] then s.answer 204
    else { s with wire := s.wire.write bytes }.answer 200
  | .timeout | .interrupted => s.answer 204

/-- What the loop makes of the end of a poll. -/
def loopAfter : PollEnd → PollLoop
  | .streamEnd => .between
  | .sessionGone => .gone
  | _ => .failed

/-- `readPipe` has become `p`. -/
def received (s : PlainDownload) (p : BufferedPipe) : PlainDownload :=
  { s with readPipe := p, delivered := s.delivered ++ s.readPipe.added p }

/-- `doStreamPoll` reads the next frame of a response with status 200. -/
def receiveFrame (maxFrame : Nat) (s : PlainDownload) : Option PlainDownload :=
  (s.wire.next maxFrame).map fun
    | (.ok f, wire) =>
      let s' := { s with wire := wire }
      match streamPollFrame s.readPipe f with
      | (p, none) => s'.received p
      | (p, some e) => { s'.received p with loop := loopAfter e }
    | (.error (.frame e), _) => { s with loop := loopAfter (.ofErr false e) }
    | (.error .broken, _) => { s with loop := .failed }

/-- `doPoll` reads the body of a response with status 200. -/
def receiveBody (readCap : Nat) (s : PlainDownload) : Option PlainDownload :=
  if s.wire.cut then some { s with loop := .failed }
  else if s.wire.ended then
    let data := s.wire.bytes.take readCap
    if data = [] then some { s with loop := .between }
    else
      match s.readPipe.write data with
      | .error _ => some { s with loop := .failed }
      | .ok p => some { s.received p with loop := .between }
  else none

/-- The client has a response, or its connection breaks before it has one. `isSessionClosedErr`
counts 404 and 410 as the end of the session; only `doPoll` knows 204. -/
def receive (stream : Bool) (bufSize : Nat) (s : PlainDownload) : Option PlainDownload :=
  match s.status with
  | none => if s.wire.cut then some { s with loop := .failed } else none
  | some code =>
    if code = 200 then if stream then s.receiveFrame bufSize else s.receiveBody bufSize
    else if code = 204 ∧ stream = false then some { s with loop := .between }
    else if code = 410 ∨ code = 404 then some { s with loop := .gone }
    else some { s with loop := .failed }

/-- One step of a session that polls in batches or streams, with a poll buffer of `bufSize` bytes
on both sides. -/
def step (stream : Bool) (bufSize : Nat) (s : PlainDownload) : DownEvent → Option PlainDownload
  | .write data =>
    match s.toClient.write data with
    | .error _ => some s
    | .ok p => some { s with toClient := p, written := s.written ++ data }
  | .markClosed => some { s with closed := true }
  | .closePipes => if s.closed then some { s with toClient := s.toClient.close } else none
  | .poll =>
    if s.loop = .between then
      some { s with loop := .polling, handler := .posted, status := none, wire := {} }
    else none
  | .start found => if s.handler = .posted then s.start stream found else none
  | .leave => if stream ∧ s.handler = .calling then some s.finish else none
  | .read => if s.handler = .calling then some (s.after (s.toClient.enter bufSize)) else none
  | .wake fired =>
    match s.handler with
    | .parked wait =>
      some (s.after (s.toClient.resume bufSize (if fired then wait.fire else wait)))
    | _ => none
  | .respond late =>
    match s.handler with
    | .got res => some (if stream then s.respondStream late res else s.respondBatch res)
    | _ => none
  | .cut k =>
    if s.loop = .polling ∧ s.wire.cut = false then some { s with wire := s.wire.sever k } else none
  | .receive => if s.loop = .polling then s.receive stream bufSize else none
  | .fail =>
    if s.loop = .polling ∨ s.loop = .between then some { s with loop := .failed } else none
  | .closeRead => some { s with readPipe := s.readPipe.close }
  | .drain dst => some { s with readPipe := (s.readPipe.copyOut dst).2 }

/-- A new session. -/
def machine (stream : Bool) (bufSize : Nat) : Machine PlainDownload DownEvent where
  init := {}
  step := step stream bufSize

/-! ## What holds without looking at what is under way -/

/-- A handler has at most a buffer in hand, one that has met the end of the pipe leaves nothing in
it, and there is none once the response has ended. -/
structure Inv (bufSize : Nat) (s : PlainDownload) : Prop where
  handed : s.handler.hand.length ≤ bufSize
  eof : s.handler = .got .eof → s.toClient.buf = [] ∧ s.toClient.closed = true
  ended : s.wire.ended = true → s.handler = .idle

namespace Inv

variable {stream : Bool} {bufSize : Nat} {s s' : PlainDownload} {ev : DownEvent}

theorem init : Inv bufSize {} :=
  ⟨Nat.zero_le _, by simp, by simp⟩

/-- A handler that is there has not ended its response. -/
theorem busy (hi : Inv bufSize s) (hne : s.handler ≠ .idle) : s.wire.ended = false :=
  Bool.not_eq_true _ ▸ fun h => hne (hi.ended h)

/-- A handler returns, whatever it has written. -/
theorem finish (s : PlainDownload) : Inv bufSize s.finish :=
  ⟨Nat.zero_le _, by simp [PlainDownload.finish], fun _ => rfl⟩

theorem answer (s : PlainDownload) (code : Nat) : Inv bufSize (s.answer code) :=
  finish _

/-- A handler comes to its call. -/
theorem calling (hw : s.wire.ended = false) (hh : s.handler = .calling) : Inv bufSize s := by
  refine ⟨?_, ?_, fun h => ?_⟩
  · rw [hh]
    exact Nat.zero_le _
  · rw [hh]
    exact fun h => by cases h
  · rw [hw] at h
    cases h

/-- The handler has what its call came to. -/
theorem after (hw : s.wire.ended = false) {r : ReadState × BufferedPipe}
    (hr : s.toClient.Comes bufSize r) : Inv bufSize (s.after r) := by
  obtain ⟨st, p⟩ := r
  have hnot : ∀ {h : DownHandler}, s.wire.ended = true → h = .idle := by simp [hw]
  cases st with
  | parked wait => exact ⟨Nat.zero_le _, by simp [PlainDownload.after], hnot⟩
  | returned res =>
    refine ⟨?_, fun h => ?_, hnot⟩
    · cases res with
      | data bytes => exact hr.reads.atMost
      | _ => exact Nat.zero_le _
    · cases h
      exact hr.eof rfl

/-- What a streaming handler writes keeps the invariant. -/
theorem streamed (hi : Inv bufSize s) (hne : s.handler ≠ .idle) (late : Bool) (p : Bytes) :
    Inv bufSize (s.streamed late p) := by
  unfold PlainDownload.streamed
  dsimp only
  split
  · exact finish _
  · split
    · exact finish _
    · next hcut _ =>
      refine calling ?_ rfl
      show (s.wire.write p).ended = false
      rw [Wire.write, if_neg hcut]
      exact hi.busy hne

theorem respond (hi : Inv bufSize s) (hne : s.handler ≠ .idle) (late : Bool) (res : ReadResult) :
    Inv bufSize (if stream then s.respondStream late res else s.respondBatch res) := by
  cases stream with
  | true =>
    cases res with
    | eof => exact finish _
    | _ => exact hi.streamed hne late _
  | false =>
    cases res with
    | data bytes =>
      show Inv bufSize (if bytes = [] then _ else _)
      split <;> exact answer _ _
    | _ => exact answer _ _

/-- The client's side does not touch the handler. -/
theorem client (hi : Inv bufSize s) (hh : s'.handler = s.handler) (hp : s'.toClient = s.toClient)
    (hw : s'.wire.ended = s.wire.ended) : Inv bufSize s' :=
  ⟨hh ▸ hi.handed, by rw [hh, hp]; exact hi.eof, by rw [hh, hw]; exact hi.ended⟩

theorem receiveFrame (hi : Inv bufSize s) (hs : s.receiveFrame bufSize = some s') :
    Inv bufSize s' := by
  obtain ⟨⟨r, wire⟩, hnext, hs⟩ := Option.map_eq_some_iff.mp hs
  have hended := Wire.next_ended hnext
  rcases r with (e | _) | f
  · subst hs
    exact hi.client rfl rfl rfl
  · subst hs
    exact hi.client rfl rfl rfl
  · dsimp only at hs
    split at hs <;> subst hs <;> exact hi.client rfl rfl hended

theorem receiveBody (hi : Inv bufSize s) (hs : s.receiveBody bufSize = some s') :
    Inv bufSize s' := by
  unfold PlainDownload.receiveBody at hs
  dsimp only at hs
  split at hs
  · cases hs
    exact hi.client rfl rfl rfl
  · split at hs
    · split at hs
      · cases hs
        exact hi.client rfl rfl rfl
      · split at hs <;> cases hs <;> exact hi.client rfl rfl rfl
    · cases hs

theorem receive (hi : Inv bufSize s) (hs : s.receive stream bufSize = some s') :
    Inv bufSize s' := by
  unfold PlainDownload.receive at hs
  split at hs
  · obtain ⟨-, ⟨⟩⟩ := Option.ite_none_right_eq_some.mp hs
    exact hi.client rfl rfl rfl
  · split_ifs at hs
    · exact hi.receiveFrame hs
    · exact hi.receiveBody hs
    all_goals
      cases hs
      exact hi.client rfl rfl rfl

/-- **Every step keeps it.** -/
theorem step (hi : Inv bufSize s) (hs : s.step stream bufSize ev = some s') : Inv bufSize s' := by
  cases ev with
  | write data =>
    simp only [PlainDownload.step] at hs
    split at hs
    · cases hs
      exact hi
    · next hw =>
      obtain ⟨hopen, rfl⟩ := BufferedPipe.write_ok hw
      cases hs
      -- a handler that has met the end has met a closed pipe
      refine ⟨hi.handed, fun h => ?_, hi.ended⟩
      exact absurd ((hi.eof h).2.symm.trans hopen) (by simp)
  | markClosed =>
    cases hs
    exact hi.client rfl rfl rfl
  | closePipes =>
    obtain ⟨-, ⟨⟩⟩ := Option.ite_none_right_eq_some.mp hs
    exact ⟨hi.handed, fun h => ⟨(hi.eof h).1, rfl⟩, hi.ended⟩
  | poll =>
    obtain ⟨-, ⟨⟩⟩ := Option.ite_none_right_eq_some.mp hs
    exact ⟨Nat.zero_le _, by simp, by simp⟩
  | start found =>
    obtain ⟨hh, hs⟩ := Option.ite_none_right_eq_some.mp hs
    have hopen := hi.busy (by simp [hh])
    unfold PlainDownload.start at hs
    split_ifs at hs <;> cases hs
    · exact answer _ _
    · exact answer _ _
    · exact calling (by unfold writeHeader; split <;> exact hopen) rfl
    · exact calling hopen rfl
  | leave =>
    obtain ⟨-, ⟨⟩⟩ := Option.ite_none_right_eq_some.mp hs
    exact finish _
  | read =>
    obtain ⟨hh, ⟨⟩⟩ := Option.ite_none_right_eq_some.mp hs
    exact after (hi.busy (by simp [hh])) (BufferedPipe.comes_enter _ _)
  | wake fired =>
    simp only [PlainDownload.step] at hs
    split at hs
    · next hh =>
      cases hs
      exact after (hi.busy (by simp [hh])) (BufferedPipe.comes_resume _ _ _)
    · cases hs
  | respond late =>
    simp only [PlainDownload.step] at hs
    split at hs
    · next hh =>
      cases hs
      exact hi.respond (by simp [hh]) late _
    · cases hs
  | cut k =>
    obtain ⟨-, ⟨⟩⟩ := Option.ite_none_right_eq_some.mp hs
    exact hi.client rfl rfl rfl
  | receive =>
    obtain ⟨-, hs⟩ := Option.ite_none_right_eq_some.mp hs
    exact hi.receive hs
  | fail =>
    obtain ⟨-, ⟨⟩⟩ := Option.ite_none_right_eq_some.mp hs
    exact hi.client rfl rfl rfl
  | closeRead =>
    cases hs
    exact hi.client rfl rfl rfl
  | drain dst =>
    cases hs
    exact hi.client rfl rfl rfl

theorem reachable (h : (machine stream bufSize).Reachable s) : Inv bufSize s :=
  Machine.Reach.invariant (P := Inv bufSize) init (fun _ _ _ _ hi _ hs => hi.step hs) h

end Inv

/-! ## What is under way -/

/-- How a stream's frames end: not yet, or because the handler rolled over, or because it met the
end of the pipe `p`. -/
inductive Ending (p : BufferedPipe) : Bool → List Written → Prop
  | open (ended : Bool) : Ending p ended []
  | rolled : Ending p true [.frame frameEnd []]
  | gone (hb : p.buf = []) (hc : p.closed = true) : Ending p true [.frame frameGone []]

/-- The response under way carries `data`. -/
inductive Carries (bufSize : Nat) (p : BufferedPipe) (wire : Wire) : Bool → Option Nat → Bytes → Prop
  | frames {status : Option Nat} (body tail : List Written)
      (holds : wire.Holds bufSize (body ++ tail)) (running : ∀ w ∈ body, w.Running)
      (ending : Ending p wire.ended tail) : Carries bufSize p wire true status (payloads body)
  | waiting (hw : wire = {}) : Carries bufSize p wire false none []
  | body (code : Nat) (hended : wire.ended = true) (hlen : wire.bytes.length ≤ bufSize) :
      Carries bufSize p wire false (some code) (if code = 200 then wire.bytes else [])

/-- **Nothing is lost**: what flies is what the response carries and then what its handler has in
hand. -/
structure Kept (stream : Bool) (bufSize : Nat) (s : PlainDownload) (t : Conduit UInt8) (data : Bytes) :
    Prop where
  uncut : t.cut = false
  queued : t.queued = s.toClient.buf
  flying : t.flying = data ++ s.handler.hand
  complete : s.wire.cut = true → s.wire.ended = true
  carries : Carries bufSize s.toClient s.wire stream s.status data
  fresh : s.handler = .posted → s.wire = {} ∧ s.status = none ∧ data = []
  head : ∀ code, s.status = some code → code = 200 ∨
    s.wire.ended = true ∧ s.wire.bytes = [] ∧ data = []

/-- **Something is lost**, and the client will learn of it. -/
structure Lost (stream : Bool) (bufSize : Nat) (s : PlainDownload) (t : Conduit UInt8) : Prop where
  cut : t.cut = true
  wire : s.wire.cut = true
  head : s.status = none ∨ s.status = some 200
  frames : stream = true → ∃ ws, s.wire.Holds bufSize ws ∧ (∀ w ∈ ws, w.Running) ∧
    t.flying = payloads ws

/-- Where the direction stands, by where the client's loop is. -/
def Stage (stream : Bool) (bufSize : Nat) (s : PlainDownload) (t : Conduit UInt8) : Prop :=
  match s.loop with
  | .failed => t.cut = true
  | .polling => Lost stream bufSize s t ∨ ∃ data, Kept stream bufSize s t data
  | .between => t.cut = false ∧ t.flying = [] ∧ t.queued = s.toClient.buf ∧ s.handler = .idle
  | .gone => t.cut = false ∧ t.flying = [] ∧ t.queued = s.toClient.buf ∧ s.handler = .idle ∧
      (stream = true → s.status = some 200 → s.toClient.buf = [] ∧ s.toClient.closed = true)

/-- The direction as a conduit. -/
structure Rel (stream : Bool) (bufSize : Nat) (s : PlainDownload) (t : Conduit UInt8) : Prop where
  given : t.given = s.written
  got : t.got = s.delivered
  stage : s.Stage stream bufSize t

/-- A run of the conduit from `t` comes to where the direction is. -/
def Matched (stream : Bool) (bufSize : Nat) (s' : PlainDownload) (t : Conduit UInt8) : Prop :=
  t.Reaches (Rel stream bufSize s')

section Rel

variable {stream : Bool} {bufSize : Nat} {s s' : PlainDownload} {t : Conduit UInt8} {data : Bytes}

theorem Rel.matched (h : Rel stream bufSize s t) : Matched stream bufSize s t :=
  Conduit.Reaches.here h

/-- The conduit makes one move. -/
theorem Matched.of_next (ev : ConduitEvent UInt8) (h : Rel stream bufSize s (t.next ev)) :
    Matched stream bufSize s t :=
  Conduit.Reaches.of_next ev h

/-- The client gives up. -/
theorem Rel.gives_up (h : Rel stream bufSize s t) (hw : s'.written = s.written)
    (hd : s'.delivered = s.delivered) (hl : s'.loop = .failed) : Matched stream bufSize s' t := by
  refine .of_next (.sever 0) ⟨h.given.trans hw.symm, h.got.trans hd.symm, ?_⟩
  unfold Stage
  rw [hl]
  rfl

/-- A poll goes on with nothing lost. -/
theorem Kept.rel (h : Kept stream bufSize s t data) (hl : s.loop = .polling)
    (hg : t.given = s.written) (hd : t.got = s.delivered) : Rel stream bufSize s t := by
  refine ⟨hg, hd, ?_⟩
  unfold Stage
  rw [hl]
  exact .inr ⟨data, h⟩

/-- A poll goes on with something lost. -/
theorem Lost.rel (h : Lost stream bufSize s t) (hl : s.loop = .polling)
    (hg : t.given = s.written) (hd : t.got = s.delivered) : Rel stream bufSize s t := by
  refine ⟨hg, hd, ?_⟩
  unfold Stage
  rw [hl]
  exact .inl h

/-- While the client polls, something is lost or nothing is. -/
theorem Rel.polling (h : Rel stream bufSize s t) (hl : s.loop = .polling) :
    Lost stream bufSize s t ∨ ∃ data, Kept stream bufSize s t data := by
  have hstage := h.stage
  unfold Stage at hstage
  rw [hl] at hstage
  exact hstage

theorem Ending.open_of_running {p : BufferedPipe} {tail : List Written} (h : Ending p false tail) :
    tail = [] := by
  cases h
  rfl

/-- What is under way does not depend on the pipe until the handler has met its end. -/
theorem Carries.mono {p p' : BufferedPipe} {wire : Wire} {status : Option Nat}
    (h : Carries bufSize p wire stream status data)
    (hend : wire.ended = true → p.buf = [] → p.closed = true → p'.buf = [] ∧ p'.closed = true) :
    Carries bufSize p' wire stream status data := by
  cases h with
  | frames body tail holds running ending =>
    refine .frames body tail holds running ?_
    generalize wire.ended = ended at *
    cases ending with
    | «open» => exact .open _
    | rolled => exact .rolled
    | gone hb hc => exact .gone (hend rfl hb hc).1 (hend rfl hb hc).2
  | waiting hw => exact .waiting hw
  | body code hended hlen => exact .body _ hended hlen

/-! ## The handler's steps -/

/-- **What a handler's step leaves alone**: the client's side, and on a broken connection the
response. -/
structure Serves (s s' : PlainDownload) : Prop where
  loop : s'.loop = s.loop
  written : s'.written = s.written
  delivered : s'.delivered = s.delivered
  broken : s.wire.cut = true → s'.wire = s.wire ∧ s'.status = s.status

theorem serves_writeHeader (s : PlainDownload) (code : Nat) : Serves s (s.writeHeader code) := by
  unfold writeHeader
  split
  · exact ⟨rfl, rfl, rfl, fun _ => ⟨rfl, rfl⟩⟩
  · next h => exact ⟨rfl, rfl, rfl, fun hcut => absurd hcut h⟩

theorem serves_write (s : PlainDownload) (p : Bytes) (handler : DownHandler) :
    Serves s { s with wire := s.wire.write p, handler := handler } :=
  ⟨rfl, rfl, rfl, fun hcut => ⟨by rw [Wire.write, if_pos hcut], rfl⟩⟩

theorem serves_finish (s : PlainDownload) : Serves s s.finish :=
  ⟨rfl, rfl, rfl, fun hcut => ⟨by rw [finish, Wire.finish, if_pos hcut], rfl⟩⟩

theorem Serves.trans {s'' : PlainDownload} (h : Serves s s') (h' : Serves s' s'') : Serves s s'' := by
  refine ⟨h'.loop.trans h.loop, h'.written.trans h.written, h'.delivered.trans h.delivered, ?_⟩
  intro hcut
  obtain ⟨hw, hs⟩ := h.broken hcut
  obtain ⟨hw', hs'⟩ := h'.broken (by rw [hw]; exact hcut)
  exact ⟨hw'.trans hw, hs'.trans hs⟩

theorem serves_answer (s : PlainDownload) (code : Nat) : Serves s (s.answer code) :=
  (serves_writeHeader s code).trans (serves_finish _)

theorem serves_after (s : PlainDownload) (r : ReadState × BufferedPipe) : Serves s (s.after r) := by
  obtain ⟨_ | _, p⟩ := r <;> exact ⟨rfl, rfl, rfl, fun _ => ⟨rfl, rfl⟩⟩

theorem serves_streamed (s : PlainDownload) (late : Bool) (p : Bytes) :
    Serves s (s.streamed late p) := by
  unfold streamed
  dsimp only
  split_ifs
  · exact (serves_write s p s.handler).trans (serves_finish _)
  · exact ((serves_write s p s.handler).trans (serves_write _ _ s.handler)).trans (serves_finish _)
  · exact serves_write s p .calling

theorem serves_respond (stream : Bool) (s : PlainDownload) (late : Bool) (res : ReadResult) :
    Serves s (if stream then s.respondStream late res else s.respondBatch res) := by
  cases stream with
  | true =>
    cases res with
    | eof => exact (serves_write s _ s.handler).trans (serves_finish _)
    | _ => exact serves_streamed s late _
  | false =>
    cases res with
    | data bytes =>
      show Serves s (if bytes = [] then _ else _)
      split
      · exact serves_answer s _
      · exact (serves_write s bytes s.handler).trans (serves_answer _ _)
    | _ => exact serves_answer s _

/-- **The rule for a handler's step.** Only the step of a handler whose response is under way with
nothing lost is left to match. -/
theorem Rel.serves (h : Rel stream bufSize s t) (hi : Inv bufSize s) (hne : s.handler ≠ .idle)
    (hs : Serves s s')
    (hkept : ∀ data, Kept stream bufSize s t data → s.wire.cut = false → s.wire.ended = false →
      s'.loop = .polling → t.given = s'.written → t.got = s'.delivered →
      Matched stream bufSize s' t) : Matched stream bufSize s' t := by
  have hg := h.given.trans hs.written.symm
  have hd := h.got.trans hs.delivered.symm
  have hstage := h.stage
  unfold Stage at hstage
  cases hl : s.loop with
  | between =>
    rw [hl] at hstage
    exact absurd hstage.2.2.2 hne
  | gone =>
    rw [hl] at hstage
    exact absurd hstage.2.2.2.1 hne
  | failed =>
    rw [hl] at hstage
    refine Rel.matched ⟨hg, hd, ?_⟩
    unfold Stage
    rw [hs.loop, hl]
    exact hstage
  | polling =>
    rcases h.polling hl with hlost | ⟨data, hk⟩
    · obtain ⟨hw, hst⟩ := hs.broken hlost.wire
      refine (Lost.rel ⟨hlost.cut, ?_, ?_, ?_⟩ (hs.loop.trans hl) hg hd).matched
      · rw [hw]
        exact hlost.wire
      · rw [hst]
        exact hlost.head
      · rw [hw]
        exact hlost.frames
    · have hended := hi.busy hne
      refine hkept data hk ?_ hended (hs.loop.trans hl) hg hd
      exact Bool.not_eq_true _ ▸ fun hcut => absurd ((hk.complete hcut).symm.trans hended) (by simp)

/-- What a stream consists of. -/
theorem Kept.frames (hk : Kept true bufSize s t data) :
    ∃ body tail, s.wire.Holds bufSize (body ++ tail) ∧ (∀ w ∈ body, w.Running) ∧
      Ending s.toClient s.wire.ended tail ∧ data = payloads body := by
  obtain ⟨-, -, -, -, hc, -, -⟩ := hk
  generalize s.status = status at hc
  generalize hstream : true = stream at hc
  cases hc with
  | frames body tail holds running ending => exact ⟨_, _, holds, running, ending, rfl⟩
  | waiting => cases hstream
  | body => cases hstream

/-- What a stream that goes on consists of. -/
theorem Kept.stream_body (hk : Kept true bufSize s t data) (hended : s.wire.ended = false) :
    ∃ body, s.wire.Holds bufSize body ∧ (∀ w ∈ body, w.Running) ∧ data = payloads body := by
  obtain ⟨body, tail, holds, running, ending, hdata⟩ := hk.frames
  rw [hended] at ending
  obtain rfl := ending.open_of_running
  rw [List.append_nil] at holds
  exact ⟨body, holds, running, hdata⟩

theorem Kept.batch_waiting (hk : Kept false bufSize s t data) (hended : s.wire.ended = false) :
    s.wire = {} ∧ s.status = none ∧ data = [] := by
  obtain ⟨-, -, -, -, hc, -, -⟩ := hk
  generalize hst : s.status = status at hc
  generalize hstream : false = stream at hc
  cases hc with
  | frames => cases hstream
  | waiting hw => exact ⟨hw, rfl, rfl⟩
  | body _ he => exact absurd (he.symm.trans hended) (by simp)

/-- A status other than 200 comes with the end of the response. -/
theorem Kept.status_ok (hk : Kept stream bufSize s t data) (hended : s.wire.ended = false) {code : Nat}
    (hst : s.status = some code) : code = 200 :=
  (hk.head code hst).resolve_right fun h => absurd (h.1.symm.trans hended) (by simp)

/-- A poll is refused, or answered with nothing. -/
theorem Kept.answer (hk : Kept stream bufSize s t data) (hw : s.wire = {}) (hdata : data = [])
    (hhand : s.handler.hand = []) (code : Nat) :
    Kept stream bufSize (s.answer code) t [] := by
  have hwire : (s.answer code).wire = { ended := true } := by
    simp [PlainDownload.answer, PlainDownload.finish, writeHeader, hw, Wire.finish]
  have hstatus : (s.answer code).status = some code := by
    simp [PlainDownload.answer, PlainDownload.finish, writeHeader, hw]
  have hpipe : (s.answer code).toClient = s.toClient := by
    simp [PlainDownload.answer, PlainDownload.finish, writeHeader, hw]
  refine ⟨hk.uncut, by rw [hpipe]; exact hk.queued, ?_, by simp [hwire], ?_,
    (fun h => by cases h), fun _ _ => .inr ⟨by rw [hwire], by rw [hwire], rfl⟩⟩
  · rw [hk.flying, hdata, hhand]
    rfl
  · rw [hwire, hstatus]
    cases stream with
    | true =>
      refine .frames [] [] (Wire.Holds.finish (Wire.Holds.empty _)) ?_ (.open _)
      simp
    | false =>
      have hbody : Carries bufSize (s.answer code).toClient { ended := true } false (some code)
          (if code = 200 then [] else []) := .body code rfl (Nat.zero_le _)
      rwa [ite_self] at hbody

/-- A streaming handler writes a frame. -/
theorem Kept.frame (hk : Kept true bufSize s t data) (hcut : s.wire.cut = false)
    (hended : s.wire.ended = false) {w : Written} (hfit : w.Fits bufSize) (hrun : w.Running)
    (hhand : s.handler.hand = w.data) :
    Kept true bufSize { s with wire := s.wire.write w.bytes, handler := .calling } t
      (data ++ w.data) := by
  obtain ⟨body, holds, running, rfl⟩ := hk.stream_body hended
  obtain ⟨hadd, hopen, -⟩ := holds.add hcut hfit
  refine ⟨hk.uncut, hk.queued, ?_, ?_, ?_, (fun h => by cases h), fun code hst => .inl ?_⟩
  · rw [hk.flying, hhand]
    exact (List.append_nil _).symm
  · exact fun h => absurd (h.symm.trans hopen) (by simp)
  · rw [← payloads_concat]
    refine .frames _ [] ?_ (running_concat running hrun) (.open _)
    rw [List.append_nil]
    exact hadd
  · exact hk.status_ok hended hst

/-- A streaming handler returns, with or without a last frame. -/
theorem Kept.stream_end (hk : Kept true bufSize s t data) (hcut : s.wire.cut = false)
    (hended : s.wire.ended = false) (hhand : s.handler.hand = []) :
    Kept true bufSize s.finish t data ∧
      ∀ w, w.Fits bufSize → Ending s.toClient true [w] →
        Kept true bufSize { s with wire := s.wire.write w.bytes }.finish t data := by
  obtain ⟨body, holds, running, rfl⟩ := hk.stream_body hended
  have hfly : t.flying = payloads body ++ [] := by rw [hk.flying, hhand]
  have hhead : ∀ code, s.status = some code → code = 200 := fun _ => hk.status_ok hended
  refine ⟨⟨hk.uncut, hk.queued, hfly, ?_, ?_, (fun h => by cases h),
    fun code hst => .inl (hhead code hst)⟩, ?_⟩
  · simp [PlainDownload.finish, Wire.finish, hcut]
  · refine .frames _ [] (by rw [List.append_nil]; exact holds.finish) running (.open _)
  · intro w hfit hend
    obtain ⟨hclose, hopen, hlast⟩ := holds.close hcut hfit
    refine ⟨hk.uncut, hk.queued, hfly, fun _ => hlast, ?_, (fun h => by cases h),
      fun code hst => .inl (hhead code hst)⟩
    refine .frames body [w] hclose running ?_
    show Ending s.toClient (s.wire.write w.bytes).finish.ended [w]
    rw [hlast]
    exact hend

/-- The handler's call takes bytes out of the pipe. -/
theorem Kept.after (hk : Kept stream bufSize s t data) (hended : s.wire.ended = false)
    (hhand : s.handler.hand = []) {r : ReadState × BufferedPipe}
    (hr : s.toClient.Reads bufSize r.1 r.2) :
    Kept stream bufSize (s.after r) (t.next (.launch r.1.bytes.length)) data := by
  obtain ⟨st, p⟩ := r
  have hqueued : t.queued = st.bytes ++ p.buf := hk.queued.trans hr.bytes.symm
  have hfly : (t.next (.launch st.bytes.length)).flying = data ++ st.bytes := by
    simp only [Conduit.next, hk.uncut, Bool.false_eq_true, if_false, hqueued, List.take_left]
    rw [hk.flying, hhand, List.append_nil]
  have hleft : (t.next (.launch st.bytes.length)).queued = p.buf := by
    simp only [Conduit.next, hqueued, List.drop_left]
  have hcarries : Carries bufSize p s.wire stream s.status data :=
    hk.carries.mono fun h => absurd (h.symm.trans hended) (by simp)
  cases st with
  | parked wait =>
    exact ⟨hk.uncut, hleft, hfly, hk.complete, hcarries, (fun h => by cases h), hk.head⟩
  | returned res =>
    refine ⟨hk.uncut, hleft, hfly.trans ?_, hk.complete, hcarries, (fun h => by cases h), hk.head⟩
    cases res <;> rfl

theorem Rel.start (h : Rel stream bufSize s t) (hi : Inv bufSize s) (hh : s.handler = .posted)
    {found : Bool} (hs : s.start stream found = some s') : Matched stream bufSize s' t := by
  have hne : s.handler ≠ .idle := by simp [hh]
  have hhand : s.handler.hand = [] := by rw [hh]; rfl
  unfold PlainDownload.start at hs
  split at hs
  · cases hs
    refine h.serves hi hne (serves_answer s _) fun data hk _ _ hl hg hd => ?_
    obtain ⟨hw, -, hdata⟩ := hk.fresh hh
    exact ((hk.answer hw hdata hhand _).rel hl hg hd).matched
  · obtain ⟨-, hs⟩ := Option.ite_none_right_eq_some.mp hs
    cases stream with
    | true =>
      cases hs
      have hserves : Serves s { s.writeHeader 200 with handler := .calling } :=
        (serves_writeHeader s 200).trans ⟨rfl, rfl, rfl, fun _ => ⟨rfl, rfl⟩⟩
      refine h.serves hi hne hserves fun data hk hcut _ hl hg hd => ?_
      have hheader : s.writeHeader 200 = { s with status := some 200 } := by
        simp [writeHeader, hcut]
      simp only [if_true, hheader] at hl hg hd ⊢
      obtain ⟨hw, -, rfl⟩ := hk.fresh hh
      have hkept : Kept true bufSize { s with status := some 200, handler := .calling } t [] := by
        refine ⟨hk.uncut, hk.queued, by rw [hk.flying, hhand]; rfl, hk.complete, ?_,
          (fun h => by cases h), fun code hst => .inl (Option.some.inj hst).symm⟩
        refine .frames [] [] ?_ (by simp) (.open _)
        show s.wire.Holds bufSize []
        rw [hw]
        exact Wire.Holds.empty _
      exact (hkept.rel hl hg hd).matched
    | false =>
      cases hs
      have hserves : Serves s { s with handler := .calling } :=
        ⟨rfl, rfl, rfl, fun _ => ⟨rfl, rfl⟩⟩
      refine h.serves hi hne hserves fun data hk _ _ hl hg hd => ?_
      have hkept : Kept false bufSize { s with handler := .calling } t data :=
        ⟨hk.uncut, hk.queued, by rw [hk.flying, hhand]; rfl, hk.complete, hk.carries,
          (fun h => by cases h), hk.head⟩
      exact (hkept.rel hl hg hd).matched

theorem Rel.leave (h : Rel true bufSize s t) (hi : Inv bufSize s) (hh : s.handler = .calling) :
    Matched true bufSize s.finish t := by
  refine h.serves hi (by simp [hh]) (serves_finish s) fun data hk hcut hended hl hg hd => ?_
  exact ((hk.stream_end hcut hended (by rw [hh]; rfl)).1.rel hl hg hd).matched

theorem Rel.after (h : Rel stream bufSize s t) (hi : Inv bufSize s) (hne : s.handler ≠ .idle)
    (hhand : s.handler.hand = []) {r : ReadState × BufferedPipe}
    (hr : s.toClient.Reads bufSize r.1 r.2) : Matched stream bufSize (s.after r) t := by
  refine h.serves hi hne (serves_after s r) fun data hk _ hended hl hg hd => ?_
  exact .of_next _ ((hk.after hended hhand hr).rel hl hg hd)

/-- A streaming handler writes a frame and goes on or rolls over. -/
theorem Kept.streamed (hk : Kept true bufSize s t data) (hcut : s.wire.cut = false)
    (hended : s.wire.ended = false) (hbuf : bufSize < 2 ^ 32) {w : Written} (hfit : w.Fits bufSize)
    (hrun : w.Running) (hhand : s.handler.hand = w.data) (late : Bool) :
    Kept true bufSize (s.streamed late w.bytes) t (data ++ w.data) := by
  have hframe := hk.frame hcut hended hfit hrun hhand
  have hopen : (s.wire.write w.bytes).cut = false ∧ (s.wire.write w.bytes).ended = false := by
    rw [Wire.write, if_neg (by simp [hcut])]
    exact ⟨hcut, hended⟩
  unfold PlainDownload.streamed
  dsimp only
  rw [if_neg (by simp [hcut])]
  split_ifs
  · have hlast : (Written.frame frameEnd []).Fits bufSize :=
      Written.fits_frame (by decide) (by decide) (Nat.zero_le _) hbuf
    exact (hframe.stream_end hopen.1 hopen.2 rfl).2 _ hlast .rolled
  · exact hframe

theorem Rel.respondStream (h : Rel true bufSize s t) (hi : Inv bufSize s) (hbuf : bufSize < 2 ^ 32)
    {res : ReadResult} (hh : s.handler = .got res) (late : Bool) :
    Matched true bufSize (s.respondStream late res) t := by
  have hne : s.handler ≠ .idle := by simp [hh]
  refine h.serves hi hne (serves_respond true s late res)
    fun data hk hcut hended hl hg hd => ?_
  have hbeat : (Written.frame frameHeartbeat []).Fits bufSize :=
    Written.fits_frame (by decide) (by decide) (Nat.zero_le _) hbuf
  cases res with
  | eof =>
    obtain ⟨hb, hc⟩ := hi.eof hh
    have hlast : (Written.frame frameGone []).Fits bufSize :=
      Written.fits_frame (by decide) (by decide) (Nat.zero_le _) hbuf
    have hend := (hk.stream_end hcut hended (by rw [hh]; rfl)).2 _ hlast (.gone hb hc)
    exact (hend.rel hl hg hd).matched
  | data bytes =>
    have hhanded := hi.handed
    rw [hh] at hhanded
    rcases eq_or_ne bytes [] with rfl | hbytes
    · exact ((hk.streamed hcut hended hbuf hbeat (.inr rfl) (by rw [hh]; rfl) late).rel hl hg hd).matched
    · have hfit : (Written.frame frameData bytes).Fits bufSize :=
        Written.fits_frame (by decide) (by decide) hhanded hbuf
      have hstep := hk.streamed hcut hended hbuf hfit (.inl rfl) (by rw [hh]; rfl) late
      have hresp : s.respondStream late (.data bytes) =
          s.streamed late (Written.frame frameData bytes).bytes := by
        rw [PlainDownload.respondStream, if_neg hbytes]
        rfl
      rw [hresp] at hl hg hd ⊢
      exact (hstep.rel hl hg hd).matched
  | timeout =>
    exact ((hk.streamed hcut hended hbuf hbeat (.inr rfl) (by rw [hh]; rfl) late).rel hl hg hd).matched
  | interrupted =>
    exact ((hk.streamed hcut hended hbuf hbeat (.inr rfl) (by rw [hh]; rfl) late).rel hl hg hd).matched

theorem Rel.respondBatch (h : Rel false bufSize s t) (hi : Inv bufSize s)
    {res : ReadResult} (hh : s.handler = .got res) :
    Matched false bufSize (s.respondBatch res) t := by
  have hne : s.handler ≠ .idle := by simp [hh]
  refine h.serves hi hne (serves_respond false s false res)
    fun data hk hcut hended hl hg hd => ?_
  obtain ⟨hw, hst, rfl⟩ := hk.batch_waiting hended
  cases res with
  | data bytes =>
    have hhanded := hi.handed
    rw [hh] at hhanded
    rcases eq_or_ne bytes [] with rfl | hbytes
    · exact ((hk.answer hw rfl (by rw [hh]; rfl) _).rel hl hg hd).matched
    · have hresp : s.respondBatch (.data bytes) =
          { s with status := some 200, wire := ⟨bytes, true, false⟩, handler := .idle } := by
        simp [PlainDownload.respondBatch, hbytes, hw, PlainDownload.answer, PlainDownload.finish,
          writeHeader, Wire.write, Wire.finish]
      rw [hresp] at hl hg hd ⊢
      have hkept : Kept false bufSize
          { s with status := some 200, wire := ⟨bytes, true, false⟩, handler := .idle } t bytes :=
        ⟨hk.uncut, hk.queued, by rw [hk.flying, hh]; exact (List.append_nil _).symm,
          (fun h => by cases h), .body 200 rfl hhanded, (fun h => by cases h),
          fun code hst => .inl (Option.some.inj hst).symm⟩
      exact (hkept.rel hl hg hd).matched
  | _ => exact ((hk.answer hw rfl (by rw [hh]; rfl) _).rel hl hg hd).matched

/-! ## Steps beside the poll -/

/-- **What a step beside the poll leaves alone**: the handler, the response and the client's loop.
The pipe may grow, unless it is at its end. -/
structure Beside (s s' : PlainDownload) (t t' : Conduit UInt8) : Prop where
  loop : s'.loop = s.loop
  handler : s'.handler = s.handler
  status : s'.status = s.status
  wire : s'.wire = s.wire
  delivered : s'.delivered = s.delivered
  got : t'.got = t.got
  flying : t'.flying = t.flying
  cut : t'.cut = t.cut
  queued : t.queued = s.toClient.buf → t'.queued = s'.toClient.buf
  end_ : s.toClient.buf = [] ∧ s.toClient.closed = true →
    s'.toClient.buf = [] ∧ s'.toClient.closed = true

theorem Rel.beside {t' : Conduit UInt8} (h : Rel stream bufSize s t) (hb : Beside s s' t t')
    (hg : t'.given = s'.written) : Rel stream bufSize s' t' := by
  refine ⟨hg, hb.got.trans (h.got.trans hb.delivered.symm), ?_⟩
  have hstage := h.stage
  unfold Stage at hstage ⊢
  rw [hb.loop]
  cases hl : s.loop with
  | failed =>
    rw [hl] at hstage
    exact hb.cut.trans hstage
  | between =>
    rw [hl] at hstage
    obtain ⟨hcut, hfly, hq, hh⟩ := hstage
    exact ⟨hb.cut.trans hcut, hb.flying.trans hfly, hb.queued hq, hb.handler.trans hh⟩
  | gone =>
    rw [hl] at hstage
    obtain ⟨hcut, hfly, hq, hh, hend⟩ := hstage
    refine ⟨hb.cut.trans hcut, hb.flying.trans hfly, hb.queued hq, hb.handler.trans hh, ?_⟩
    exact fun hstream hst => hb.end_ (hend hstream (hb.status.symm.trans hst))
  | polling =>
    refine (h.polling hl).imp (fun hlost => ?_) fun ⟨data, hk⟩ => ⟨data, ?_⟩
    · refine ⟨hb.cut.trans hlost.cut, ?_, ?_, ?_⟩
      · rw [hb.wire]
        exact hlost.wire
      · rw [hb.status]
        exact hlost.head
      · rw [hb.wire, hb.flying]
        exact hlost.frames
    · refine ⟨hb.cut.trans hk.uncut, hb.queued hk.queued, ?_, ?_, ?_, ?_, ?_⟩
      · rw [hb.flying, hb.handler]
        exact hk.flying
      · rw [hb.wire]
        exact hk.complete
      · rw [hb.wire, hb.status]
        exact hk.carries.mono fun _ hb' hc' => hb.end_ ⟨hb', hc'⟩
      · rw [hb.handler, hb.wire, hb.status]
        exact hk.fresh
      · rw [hb.status, hb.wire]
        exact hk.head

theorem Rel.write (h : Rel stream bufSize s t) {p : BufferedPipe} {bytes : Bytes}
    (hw : s.toClient.write bytes = .ok p) :
    Matched stream bufSize { s with toClient := p, written := s.written ++ bytes } t := by
  obtain ⟨hopen, rfl⟩ := BufferedPipe.write_ok hw
  refine .of_next (.put bytes) (h.beside ⟨rfl, rfl, rfl, rfl, rfl, rfl, rfl, rfl, ?_, ?_⟩ ?_)
  · intro hq
    rw [BufferedPipe.push_buf, ← hq]
    rfl
  · exact fun hend => absurd (hend.2.symm.trans hopen) (by simp)
  · exact congrArg (· ++ bytes) h.given

/-- The application and the lifecycle do not touch the direction. -/
theorem Rel.same (h : Rel stream bufSize s t) (closed : Bool) (readPipe : BufferedPipe) :
    Rel stream bufSize { s with closed := closed, readPipe := readPipe } t :=
  h.beside ⟨rfl, rfl, rfl, rfl, rfl, rfl, rfl, rfl, id, id⟩ h.given

theorem Rel.closePipes (h : Rel stream bufSize s t) :
    Rel stream bufSize { s with toClient := s.toClient.close } t :=
  h.beside ⟨rfl, rfl, rfl, rfl, rfl, rfl, rfl, rfl, id, fun hend => ⟨hend.1, rfl⟩⟩ h.given

/-! ## The client's steps -/

theorem Rel.poll (h : Rel stream bufSize s t) (hl : s.loop = .between) :
    Rel stream bufSize { s with loop := .polling, handler := .posted, status := none, wire := {} } t := by
  have hstage := h.stage
  unfold Stage at hstage
  rw [hl] at hstage
  obtain ⟨hcut, hfly, hq, -⟩ := hstage
  have hkept : Kept stream bufSize
      { s with loop := .polling, handler := .posted, status := none, wire := {} } t [] := by
    refine ⟨hcut, hq, hfly, (fun h => by cases h), ?_, fun _ => ⟨rfl, rfl, rfl⟩,
      fun _ h => by cases h⟩
    cases stream with
    | true => exact .frames [] [] (Wire.Holds.empty _) (by simp) (.open _)
    | false => exact .waiting rfl
  exact hkept.rel rfl h.given h.got

/-- A response that has ended and arrives whole is as good as before. -/
theorem Kept.sever_whole (hk : Kept stream bufSize s t data) (hi : Inv bufSize s)
    (hcut : s.wire.cut = false) (hended : s.wire.ended = true) {k : Nat}
    (hlong : s.wire.bytes.length ≤ k) :
    Kept stream bufSize { s with wire := s.wire.sever k } t data := by
  have hbytes : (s.wire.sever k).bytes = s.wire.bytes := List.take_of_length_le hlong
  refine ⟨hk.uncut, hk.queued, hk.flying, fun _ => hended, ?_, ?_, ?_⟩
  · show Carries bufSize s.toClient (s.wire.sever k) stream s.status data
    generalize hst : s.status = status
    obtain ⟨-, -, -, -, hc, -, -⟩ := hk
    rw [hst] at hc
    cases hc with
    | frames body tail holds running ending =>
      refine .frames body tail ?_ running ending
      have hsever := holds.sever hcut k
      rwa [Wire.whole_of_long (by rwa [← holds.bytes_eq hcut])] at hsever
    | waiting hw =>
      rw [hw] at hended
      cases hended
    | body _ _ hlen =>
      rw [← hbytes] at hlen ⊢
      exact .body _ hended hlen
  · intro hposted
    exact absurd (hposted.symm.trans (hi.ended hended)) (by simp)
  · intro code hst
    exact (hk.head code hst).imp_right fun ⟨he, hb, hd⟩ => ⟨he, hbytes.trans hb, hd⟩

/-- A response that is broken off leaves a beginning of its frames. -/
theorem Kept.sever_short (hk : Kept stream bufSize s t data) (hcut : s.wire.cut = false) {k : Nat}
    (hshort : s.wire.ended = true → k < s.wire.bytes.length) :
    ∃ n, Lost stream bufSize { s with wire := s.wire.sever k } (t.next (.sever n)) := by
  have hhead : s.status = none ∨ s.status = some 200 := by
    cases hst : s.status with
    | none => exact .inl rfl
    | some code =>
      rcases hk.head code hst with rfl | ⟨he, hb, -⟩
      · exact .inr rfl
      · have hlt := hshort he
        rw [hb] at hlt
        cases hlt
  cases stream with
  | false => exact ⟨0, rfl, rfl, hhead, fun h => by cases h⟩
  | true =>
    obtain ⟨body, tail, holds, running, ending, hdata⟩ := hk.frames
    -- the last frame of a response that has ended is among what is lost
    have hpre : whole (body ++ tail) k <+: body := by
      have hlast : ∀ w, tail = [w] → s.wire.ended = true → whole (body ++ tail) k <+: body := by
        rintro w rfl he
        have hlt := hshort he
        rw [holds.bytes_eq hcut] at hlt
        exact Wire.whole_of_short hlt
      generalize hended : s.wire.ended = ended at ending hlast
      cases ending with
      | «open» =>
        rw [List.append_nil]
        exact Wire.whole_prefix body k
      | rolled => exact hlast _ rfl rfl
      | gone => exact hlast _ rfl rfl
    refine ⟨(payloads (whole (body ++ tail) k)).length, rfl, rfl, hhead, fun _ =>
      ⟨whole (body ++ tail) k, holds.sever hcut k, fun w hw => running w (hpre.subset hw), ?_⟩⟩
    show t.flying.take _ = _
    rw [hk.flying, hdata]
    exact (List.prefix_iff_eq_take.mp ((payloads_mono hpre).trans (List.prefix_append _ _))).symm

theorem Rel.cut (h : Rel stream bufSize s t) (hi : Inv bufSize s) (hl : s.loop = .polling)
    (hcut : s.wire.cut = false) (k : Nat) :
    Matched stream bufSize { s with wire := s.wire.sever k } t := by
  rcases h.polling hl with hlost | ⟨data, hk⟩
  · exact absurd (hcut.symm.trans hlost.wire) (by simp)
  · by_cases hwhole : s.wire.ended = true ∧ s.wire.bytes.length ≤ k
    · exact ((hk.sever_whole hi hcut hwhole.1 hwhole.2).rel hl h.given h.got).matched
    · obtain ⟨n, hlost⟩ := hk.sever_short (k := k) hcut fun he =>
        Nat.lt_of_not_le fun hle => hwhole ⟨he, hle⟩
      exact .of_next _ (hlost.rel hl h.given h.got)

/-- What `doStreamPoll` does with a frame of a stream that goes on. -/
theorem streamPollFrame_running (p : BufferedPipe) {w : Written} (hw : w.Running) :
    streamPollFrame p w.toFrame =
      if w.data = [] then (p, none)
      else
        match p.write w.data with
        | .error e => (p, some (.readPipeClosed e))
        | .ok p' => (p', none) := by
  rcases hw with hdata | hbeat
  · have hpay : w.data = w.toFrame.payload := if_pos hdata
    rw [hpay]
    exact if_pos hdata
  · have hne : ¬frameHeartbeat = frameData := by decide
    simp only [streamPollFrame, Written.data, hbeat, if_neg hne, if_true]

/-- The client comes to rest: nothing is under way. -/
theorem Rel.rest (hg : t.given = s.written) (hd : t.got = s.delivered) (hcut : t.cut = false)
    (hfly : t.flying = []) (hq : t.queued = s.toClient.buf) (hh : s.handler = .idle)
    (hl : s.loop = .between ∨ s.loop = .gone ∧
      (stream = true → s.status = some 200 → s.toClient.buf = [] ∧ s.toClient.closed = true)) :
    Rel stream bufSize s t := by
  refine ⟨hg, hd, ?_⟩
  unfold Stage
  rcases hl with hl | ⟨hl, hend⟩
  · rw [hl]
    exact ⟨hcut, hfly, hq, hh⟩
  · rw [hl]
    exact ⟨hcut, hfly, hq, hh, hend⟩

/-- The client reads a frame of a stream that goes on: it takes its bytes or gives up. -/
theorem receiveFrame_running {w : Written} {wire : Wire} (hrun : w.Running)
    (hnext : s.wire.next bufSize = some (.ok w.toFrame, wire))
    (hs : s.receiveFrame bufSize = some s') :
    (∃ p, s' = { s with wire := wire, readPipe := p, delivered := s.delivered ++ w.data }) ∨
      (s'.loop = .failed ∧ s'.written = s.written ∧ s'.delivered = s.delivered) := by
  rw [receiveFrame, hnext, Option.map_some] at hs
  obtain rfl := Option.some.inj hs
  dsimp only
  rw [streamPollFrame_running s.readPipe hrun]
  by_cases hdata : w.data = []
  · rw [if_pos hdata]
    refine .inl ⟨s.readPipe, ?_⟩
    dsimp only
    rw [hdata, received, BufferedPipe.added_self]
  · rw [if_neg hdata]
    cases hw : s.readPipe.write w.data with
    | ok p =>
      refine .inl ⟨p, ?_⟩
      dsimp only
      rw [received, BufferedPipe.added_write hw]
    | error e =>
      refine .inr ⟨rfl, rfl, ?_⟩
      show s.delivered ++ s.readPipe.added s.readPipe = s.delivered
      rw [BufferedPipe.added_self, List.append_nil]

theorem Kept.receiveFrame (hk : Kept true bufSize s t data) (hi : Inv bufSize s)
    (hl : s.loop = .polling) (hst : s.status = some 200) (h : Rel true bufSize s t)
    (hs : s.receiveFrame bufSize = some s') : Matched true bufSize s' t := by
  obtain ⟨body, tail, holds, running, ending, rfl⟩ := hk.frames
  cases body with
  | cons w body =>
    obtain ⟨wire, hnext, holds', hcut, hended⟩ := Wire.next_of_holds holds
    have hfly : t.flying = w.data ++ (payloads body ++ s.handler.hand) := by
      rw [hk.flying, payloads_cons, List.append_assoc]
    rcases receiveFrame_running (running w List.mem_cons_self) hnext hs with
      ⟨p, rfl⟩ | ⟨hover, hw, hd⟩
    · have hkept : Kept true bufSize
          { s with wire := wire, readPipe := p, delivered := s.delivered ++ w.data }
          (t.next (.land w.data.length)) (payloads body) := by
        refine ⟨hk.uncut, hk.queued, ?_, ?_, ?_, ?_, fun code hc => .inl ?_⟩
        · simp only [Conduit.next, hfly, List.drop_left]
        · rw [hcut, hended]
          exact hk.complete
        · refine .frames body tail holds' (fun u hu => running u (List.mem_cons_of_mem _ hu)) ?_
          rw [hended]
          exact ending
        · intro hposted
          exact absurd (hst.symm.trans (hk.fresh hposted).2.1) (by simp)
        · exact Option.some.inj (hc.symm.trans hst)
      refine .of_next _ (hkept.rel hl h.given ?_)
      simp only [Conduit.next, hfly, List.take_left, h.got]
    · exact h.gives_up hw hd hover
  | nil =>
    rw [List.nil_append] at holds
    have hfly (hended : s.wire.ended = true) : t.flying = [] := by
      rw [hk.flying, hi.ended hended]
      rfl
    have hnone : s.delivered ++ s.readPipe.added s.readPipe = s.delivered := by
      rw [BufferedPipe.added_self, List.append_nil]
    generalize hended : s.wire.ended = ended at ending
    cases ending with
    | «open» =>
      rw [PlainDownload.receiveFrame, Wire.next_of_empty holds] at hs
      split_ifs at hs with hcut hend
      · cases hs
        exact h.gives_up rfl rfl rfl
      · cases hs
        exact Rel.matched (.rest h.given h.got hk.uncut (hfly hend) hk.queued (hi.ended hend)
          (.inl rfl))
      · cases hs
    | rolled =>
      obtain ⟨wire, hnext, -⟩ := Wire.next_of_holds holds
      rw [PlainDownload.receiveFrame, hnext] at hs
      cases hs
      exact Rel.matched (.rest h.given (h.got.trans hnone.symm) hk.uncut (hfly hended) hk.queued
        (hi.ended hended) (.inl rfl))
    | gone hb hc =>
      obtain ⟨wire, hnext, -⟩ := Wire.next_of_holds holds
      rw [PlainDownload.receiveFrame, hnext] at hs
      cases hs
      exact Rel.matched (.rest h.given (h.got.trans hnone.symm) hk.uncut (hfly hended) hk.queued
        (hi.ended hended) (.inr ⟨rfl, fun _ _ => ⟨hb, hc⟩⟩))

theorem Lost.receiveFrame (hlost : Lost true bufSize s t) (hl : s.loop = .polling)
    (h : Rel true bufSize s t) (hs : s.receiveFrame bufSize = some s') :
    Matched true bufSize s' t := by
  obtain ⟨ws, holds, running, hfly⟩ := hlost.frames rfl
  cases ws with
  | nil =>
    rw [PlainDownload.receiveFrame, Wire.next_of_empty holds, if_pos hlost.wire] at hs
    cases hs
    exact h.gives_up rfl rfl rfl
  | cons w ws =>
    obtain ⟨wire, hnext, holds', hcut, -⟩ := Wire.next_of_holds holds
    rcases receiveFrame_running (running w List.mem_cons_self) hnext hs with
      ⟨p, rfl⟩ | ⟨hover, hw, hd⟩
    · rw [payloads_cons] at hfly
      have hlost' : Lost true bufSize
          { s with wire := wire, readPipe := p, delivered := s.delivered ++ w.data }
          (t.next (.land w.data.length)) := by
        refine ⟨hlost.cut, hcut.trans hlost.wire, hlost.head, fun _ =>
          ⟨ws, holds', fun u hu => running u (List.mem_cons_of_mem _ hu), ?_⟩⟩
        simp only [Conduit.next, hfly, List.drop_left]
      refine .of_next _ (hlost'.rel hl h.given ?_)
      simp only [Conduit.next, hfly, List.take_left, h.got]
    · exact h.gives_up hw hd hover

/-- The body of a response without a stream. -/
theorem Kept.body (hk : Kept false bufSize s t data) (hst : s.status = some 200) :
    data = s.wire.bytes ∧ s.wire.bytes.length ≤ bufSize := by
  obtain ⟨-, -, -, -, hc, -, -⟩ := hk
  rw [hst] at hc
  generalize hstream : false = stream at hc
  cases hc with
  | frames => cases hstream
  | body _ _ hlen => exact ⟨rfl, hlen⟩

theorem Kept.receiveBody (hk : Kept false bufSize s t data) (hi : Inv bufSize s)
    (hst : s.status = some 200) (h : Rel false bufSize s t)
    (hs : s.receiveBody bufSize = some s') : Matched false bufSize s' t := by
  unfold PlainDownload.receiveBody at hs
  dsimp only at hs
  split_ifs at hs with hcut hended hdata
  · cases hs
    exact h.gives_up rfl rfl rfl
  · cases hs
    obtain ⟨rfl, hlen⟩ := hk.body hst
    rw [List.take_of_length_le hlen] at hdata
    have hfly : t.flying = [] := by
      rw [hk.flying, hi.ended hended, hdata]
      rfl
    exact Rel.matched (.rest h.given h.got hk.uncut hfly hk.queued (hi.ended hended) (.inl rfl))
  · obtain ⟨rfl, hlen⟩ := hk.body hst
    have hfly : t.flying = s.wire.bytes := by
      rw [hk.flying, hi.ended hended]
      exact List.append_nil _
    rw [List.take_of_length_le hlen] at hs
    split at hs
    · cases hs
      exact h.gives_up rfl rfl rfl
    · next p hw =>
      rw [received, BufferedPipe.added_write hw] at hs
      cases hs
      refine .of_next (.land s.wire.bytes.length) (Rel.rest h.given ?_ hk.uncut ?_ hk.queued
        (hi.ended hended) (.inl rfl))
      · simp only [Conduit.next, hfly, List.take_length, h.got]
      · simp only [Conduit.next, hfly, List.drop_length]

theorem Rel.receive (h : Rel stream bufSize s t) (hi : Inv bufSize s) (hl : s.loop = .polling)
    (hs : s.receive stream bufSize = some s') : Matched stream bufSize s' t := by
  have hover : ∀ {s'}, some { s with loop := .failed } = some s' → Matched stream bufSize s' t := by
    rintro _ ⟨⟩
    exact h.gives_up rfl rfl rfl
  unfold PlainDownload.receive at hs
  split at hs
  · exact hover (Option.ite_none_right_eq_some.mp hs).2
  · next code hst =>
    by_cases hok : code = 200
    · subst hok
      rw [if_pos rfl] at hs
      rcases h.polling hl with hlost | ⟨data, hk⟩
      · cases stream with
        | true => exact hlost.receiveFrame hl h hs
        | false =>
          rw [if_neg (by simp), receiveBody, if_pos hlost.wire] at hs
          exact hover hs
      · cases stream with
        | true => exact hk.receiveFrame hi hl hst h hs
        | false => exact hk.receiveBody hi hst h hs
    · rw [if_neg hok] at hs
      rcases h.polling hl with hlost | ⟨data, hk⟩
      · rcases hlost.head with hnone | h200
        · exact absurd (hst.symm.trans hnone) (by simp)
        · exact absurd (Option.some.inj (hst.symm.trans h200)) hok
      · obtain ⟨hended, -, rfl⟩ := (hk.head code hst).resolve_left hok
        have hidle := hi.ended hended
        have hfly : t.flying = [] := by
          rw [hk.flying, hidle]
          rfl
        split_ifs at hs
        · cases hs
          exact Rel.matched (.rest h.given h.got hk.uncut hfly hk.queued hidle (.inl rfl))
        · cases hs
          refine Rel.matched (.rest h.given h.got hk.uncut hfly hk.queued hidle (.inr ⟨rfl, ?_⟩))
          exact fun _ h200 => absurd (Option.some.inj (hst.symm.trans h200)) hok
        · exact hover hs

end Rel

/-! ## The direction is a conduit -/

section Main

variable {stream : Bool} {bufSize : Nat} {s s' : PlainDownload} {t : Conduit UInt8} {ev : DownEvent}

/-- **Every step of the direction is one of the conduit, or none.** -/
theorem Rel.step (h : Rel stream bufSize s t) (hi : Inv bufSize s) (hbuf : bufSize < 2 ^ 32)
    (hs : s.step stream bufSize ev = some s') : Matched stream bufSize s' t := by
  cases ev with
  | write data =>
    simp only [PlainDownload.step] at hs
    split at hs
    · cases hs
      exact h.matched
    · next hw =>
      cases hs
      exact h.write hw
  | markClosed =>
    cases hs
    exact (h.same true s.readPipe).matched
  | closePipes =>
    obtain ⟨-, ⟨⟩⟩ := Option.ite_none_right_eq_some.mp hs
    exact h.closePipes.matched
  | poll =>
    obtain ⟨hl, ⟨⟩⟩ := Option.ite_none_right_eq_some.mp hs
    exact (h.poll hl).matched
  | start found =>
    obtain ⟨hh, hs⟩ := Option.ite_none_right_eq_some.mp hs
    exact h.start hi hh hs
  | leave =>
    obtain ⟨⟨hstream, hh⟩, ⟨⟩⟩ := Option.ite_none_right_eq_some.mp hs
    subst hstream
    exact h.leave hi hh
  | read =>
    obtain ⟨hh, ⟨⟩⟩ := Option.ite_none_right_eq_some.mp hs
    exact h.after hi (by simp [hh]) (by rw [hh]; rfl) (BufferedPipe.comes_enter _ _).reads
  | wake fired =>
    simp only [PlainDownload.step] at hs
    split at hs
    · next hh =>
      cases hs
      exact h.after hi (by simp [hh]) (by rw [hh]; rfl) (BufferedPipe.comes_resume _ _ _).reads
    · cases hs
  | respond late =>
    simp only [PlainDownload.step] at hs
    split at hs
    · next hh =>
      cases hs
      cases stream with
      | true => exact h.respondStream hi hbuf hh late
      | false => exact h.respondBatch hi hh
    · cases hs
  | cut k =>
    obtain ⟨⟨hl, hcut⟩, ⟨⟩⟩ := Option.ite_none_right_eq_some.mp hs
    exact h.cut hi hl hcut k
  | receive =>
    obtain ⟨hl, hs⟩ := Option.ite_none_right_eq_some.mp hs
    exact h.receive hi hl hs
  | fail =>
    obtain ⟨-, ⟨⟩⟩ := Option.ite_none_right_eq_some.mp hs
    exact h.gives_up rfl rfl rfl
  | closeRead =>
    cases hs
    exact (h.same s.closed _).matched
  | drain dst =>
    cases hs
    exact (h.same s.closed _).matched

/-- The direction as a conduit. -/
def simulation (stream : Bool) (hbuf : bufSize < 2 ^ 32) :
    (machine stream bufSize).Simulation (fun _ _ => True) (Conduit.machine UInt8) where
  rel := Rel stream bufSize
  init := ⟨rfl, rfl, rfl, rfl, rfl, rfl⟩
  step hr h _ hs := h.step (Inv.reachable hr) hbuf hs

/-- **What a plain download delivers is in order, and complete whenever the client is at rest.** In
every reachable state what the client has got is a beginning of what was written. Between two polls,
and when the loop has ended because the session is gone, it has got everything but what is still in
the pipe; and a stream that ended with `frameGone` leaves nothing there. -/
theorem plain_download_in_order (hbuf : bufSize < 2 ^ 32)
    (h : (machine stream bufSize).Reachable s) :
    s.delivered <+: s.written ∧
      (s.loop = .between ∨ s.loop = .gone → s.delivered ++ s.toClient.buf = s.written) ∧
      (stream = true → s.loop = .gone → s.status = some 200 → s.delivered = s.written) := by
  obtain ⟨t, ht, hrel⟩ := (simulation stream hbuf).reach h
  have hsound := Conduit.Sound.reachable ht
  have hrest : s.loop = .between ∨ s.loop = .gone → s.delivered ++ s.toClient.buf = s.written := by
    intro hl
    have hstage := hrel.stage
    unfold Stage at hstage
    obtain ⟨hcut, hfly, hq⟩ : t.cut = false ∧ t.flying = [] ∧ t.queued = s.toClient.buf := by
      rcases hl with hl | hl <;> rw [hl] at hstage <;> exact ⟨hstage.1, hstage.2.1, hstage.2.2.1⟩
    have hwhole := hsound.whole hcut
    rwa [hfly, List.append_nil, hq, hrel.got, hrel.given] at hwhole
  refine ⟨?_, hrest, fun hstream hl hst => ?_⟩
  · have hpre := hsound.got_prefix
    rwa [hrel.got, hrel.given] at hpre
  · have hstage := hrel.stage
    unfold Stage at hstage
    rw [hl] at hstage
    have hall := hrest (.inr hl)
    rwa [(hstage.2.2.2.2 hstream hst).1, List.append_nil] at hall

/-- A stream whose last bytes arrive in a second poll, which the session's close ends. -/
def lastBytes : List DownEvent :=
  [.write [1, 2, 3], .poll, .start true, .read, .respond true, .receive, .receive, .poll, .start true,
    .read, .markClosed, .closePipes, .wake false, .respond false, .receive, .read, .respond false,
    .receive]

theorem lastBytes_in_order :
    ((machine true 2).final lastBytes).delivered = [1, 2, 3] ∧
      ((machine true 2).final lastBytes).delivered = ((machine true 2).final lastBytes).written :=
  ⟨by decide, (plain_download_in_order (by decide)
    (Machine.reachable_final (machine true 2) lastBytes)).2.2 rfl (by decide) (by decide)⟩

/-! ## A close between two polls -/

/-- What a session that is closed before a poll reaches it keeps: nobody takes anything out of the
pipe, and the only answers are refusals. -/
structure Stranded (s₀ s : PlainDownload) : Prop where
  closed : s.closed = true
  delivered : s.delivered = s₀.delivered
  left : s₀.toClient.buf <+: s.toClient.buf
  handler : s.handler = .idle ∨ s.handler = .posted
  refused : s.loop = .polling → s.status = none ∨ s.status = some 410 ∨ s.status = some 404

theorem Stranded.step {s₀ : PlainDownload} (h : Stranded s₀ s)
    (hs : s.step stream bufSize ev = some s') : Stranded s₀ s' := by
  have hbusy : ∀ {P : Prop}, s.handler = .calling → P := by
    intro P hh
    rcases h.handler with h | h <;> rw [h] at hh <;> cases hh
  cases ev with
  | write data =>
    simp only [PlainDownload.step] at hs
    split at hs
    · cases hs
      exact h
    · next hw =>
      obtain ⟨-, rfl⟩ := BufferedPipe.write_ok hw
      cases hs
      refine ⟨h.closed, h.delivered, ?_, h.handler, h.refused⟩
      rw [BufferedPipe.push_buf]
      exact h.left.trans (List.prefix_append _ _)
  | markClosed =>
    cases hs
    exact ⟨rfl, h.delivered, h.left, h.handler, h.refused⟩
  | closePipes =>
    obtain ⟨-, ⟨⟩⟩ := Option.ite_none_right_eq_some.mp hs
    exact ⟨h.closed, h.delivered, h.left, h.handler, h.refused⟩
  | poll =>
    obtain ⟨-, ⟨⟩⟩ := Option.ite_none_right_eq_some.mp hs
    exact ⟨h.closed, h.delivered, h.left, .inr rfl, fun _ => .inl rfl⟩
  | start found =>
    obtain ⟨-, hs⟩ := Option.ite_none_right_eq_some.mp hs
    rw [start, if_pos h.closed] at hs
    cases hs
    unfold PlainDownload.answer writeHeader
    split
    · exact ⟨h.closed, h.delivered, h.left, .inl rfl, h.refused⟩
    · refine ⟨h.closed, h.delivered, h.left, .inl rfl, fun _ => .inr ?_⟩
      cases found with
      | true => exact .inl rfl
      | false => exact .inr rfl
  | leave => exact hbusy (Option.ite_none_right_eq_some.mp hs).1.2
  | read => exact hbusy (Option.ite_none_right_eq_some.mp hs).1
  | wake fired =>
    rcases h.handler with hh | hh <;> simp [PlainDownload.step, hh] at hs
  | respond late =>
    rcases h.handler with hh | hh <;> simp [PlainDownload.step, hh] at hs
  | cut k =>
    obtain ⟨-, ⟨⟩⟩ := Option.ite_none_right_eq_some.mp hs
    exact ⟨h.closed, h.delivered, h.left, h.handler, h.refused⟩
  | receive =>
    obtain ⟨hl, hs⟩ := Option.ite_none_right_eq_some.mp hs
    unfold PlainDownload.receive at hs
    rcases h.refused hl with hst | hst | hst <;> simp only [hst] at hs
    · obtain ⟨-, ⟨⟩⟩ := Option.ite_none_right_eq_some.mp hs
      exact ⟨h.closed, h.delivered, h.left, h.handler, fun h => by cases h⟩
    all_goals
      cases hs
      exact ⟨h.closed, h.delivered, h.left, h.handler, fun h => by cases h⟩
  | fail =>
    obtain ⟨-, ⟨⟩⟩ := Option.ite_none_right_eq_some.mp hs
    exact ⟨h.closed, h.delivered, h.left, h.handler, fun h => by cases h⟩
  | closeRead =>
    cases hs
    exact ⟨h.closed, h.delivered, h.left, h.handler, h.refused⟩
  | drain dst =>
    cases hs
    exact ⟨h.closed, h.delivered, h.left, h.handler, h.refused⟩

/-- A poll that reaches its handler is refused at the door. -/
theorem Stranded.turned_away {s₀ : PlainDownload} (h : Stranded s₀ s) {found : Bool}
    (hs : s.step stream bufSize (.start found) = some s') :
    s'.handler = .idle ∧ (s.wire.cut = false → s'.status = some (if found then 410 else 404)) := by
  obtain ⟨-, hs⟩ := Option.ite_none_right_eq_some.mp hs
  rw [start, if_pos h.closed] at hs
  cases hs
  refine ⟨rfl, fun hcut => ?_⟩
  rw [PlainDownload.answer, writeHeader, if_neg (by simp [hcut])]
  rfl

/-- **A session that is closed between two polls keeps what it has.** From any reachable state in
which the session is closed and the client is between polls, no run delivers another byte, and what
is in the pipe stays there. A poll under way has no answer yet or one of the two refusals, and the
handler that it reaches refuses it before anything else: with 410, or with 404 once the store has
dropped the session. -/
theorem closed_between_polls_strands (hbuf : bufSize < 2 ^ 32)
    (h : (machine stream bufSize).Reachable s) (hclosed : s.closed = true) (hl : s.loop = .between)
    {evs : List DownEvent} (hrun : (machine stream bufSize).run s evs = some s') :
    s'.delivered = s.delivered ∧ s.toClient.buf <+: s'.toClient.buf ∧
      (s'.loop = .polling → s'.status = none ∨ s'.status = some 410 ∨ s'.status = some 404) ∧
      ∀ found s'', s'.step stream bufSize (.start found) = some s'' →
        s''.handler = .idle ∧
          (s'.wire.cut = false → s''.status = some (if found then 410 else 404)) := by
  obtain ⟨t, -, hrel⟩ := (simulation stream hbuf).reach h
  have hidle : s.handler = .idle := by
    have hstage := hrel.stage
    unfold Stage at hstage
    rw [hl] at hstage
    exact hstage.2.2.2
  have hstart : Stranded s s :=
    ⟨hclosed, rfl, List.prefix_refl _, .inl hidle, fun hp => by rw [hl] at hp; cases hp⟩
  have hend : ∀ {evs : List DownEvent} {u : PlainDownload}, Stranded s u →
      (machine stream bufSize).run u evs = some s' → Stranded s s' := by
    intro evs
    induction evs with
    | nil =>
      rintro u hu ⟨⟩
      exact hu
    | cons ev evs ih =>
      intro u hu hrun
      obtain ⟨v, hv, hrest⟩ := Option.bind_eq_some_iff.mp hrun
      exact ih (hu.step hv) hrest
  have hstranded := hend hstart hrun
  exact ⟨hstranded.delivered, hstranded.left, hstranded.refused, fun _ _ => hstranded.turned_away⟩

/-- The last byte is written and the session closed while the client turns around. -/
def closedEarly : List DownEvent :=
  [.poll, .start true, .write [1], .read, .wake true, .respond false, .receive, .write [2],
    .markClosed, .closePipes]

/-- Its next poll is on its way. -/
def polledLate : List DownEvent := closedEarly ++ [.poll]

/-- The poll is refused: the client has one byte of two, and the handler has looked at nothing. -/
theorem closedEarly_strands :
    ((machine false 4).final polledLate).delivered = [1] ∧
      ((machine false 4).final polledLate).written = [1, 2] ∧
      ((machine false 4).final (polledLate ++ [.start false, .receive])).loop = .gone ∧
      ((machine false 4).final (polledLate ++ [.start false])).status = some 404 ∧
      ((machine false 4).final closedEarly).toClient.buf <+:
        ((machine false 4).final polledLate).toClient.buf := by
  obtain ⟨-, hleft, -, hrefused⟩ := closed_between_polls_strands (by decide)
    (Machine.reachable_final (machine false 4) closedEarly) (by decide) (by decide)
    (show (machine false 4).run ((machine false 4).final closedEarly) [.poll] =
      some ((machine false 4).final polledLate) by decide)
  have hstart : ((machine false 4).final polledLate).step false 4 (.start false) =
      some ((machine false 4).final (polledLate ++ [.start false])) := by decide
  exact ⟨by decide, by decide, by decide, (hrefused false _ hstart).2 (by decide), hleft⟩

end Main

end PlainDownload

end Pollmux
