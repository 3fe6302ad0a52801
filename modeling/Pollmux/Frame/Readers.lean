import Pollmux.Frame
import Pollmux.Reliable.Endpoint

/-!
# The readers of frame streams

The loops of `httpConn.doStreamPoll`, `resumableConn.doStreamPoll` and
`pollSendStream`, from the point where the body is open. Each is `readLoop` with
what the source does for one frame. All three take `io.EOF` from `next` for a
clean end: the clients reopen a poll, the server answers 200.

A deadline or a watchdog that fires ends a body early with an error that is not
`io.EOF`; here bodies are finite, and `watchdog` says which of two texts
`doStreamPoll` then reports.
-/

namespace Pollmux

/-- What `doStreamPoll` returns. It always returns an error. -/
inductive PollEnd
  /-- `errStreamEnd`: reopen. -/
  | streamEnd
  /-- `errSessionGone`: fatal. -/
  | sessionGone
  /-- The idle watchdog cancelled the request. -/
  | idle
  | reading (e : FrameErr)
  | readPipeClosed (e : Err)
  /-- A frame that is malformed or that the byte layer refuses. -/
  | rejected (e : FrameErr)
  | unnumbered
  | unknownFrame (typ : FrameType)
  /-- The byte layer faulted. -/
  | fault
  deriving DecidableEq, Repr

/-- What a poll makes of the error that ended its loop. -/
def PollEnd.ofErr (watchdog : Bool) (e : FrameErr) : PollEnd :=
  if e = .io .eof then .streamEnd else if watchdog then .idle else .reading e

/-- The end of a poll's loop. -/
def PollEnd.ofLoop (watchdog : Bool) : LoopEnd PollEnd → PollEnd
  | .failed e => .ofErr watchdog e
  | .returned r => r

/-- What `httpConn.doStreamPoll` does with one frame. -/
def streamPollFrame (readPipe : BufferedPipe) (f : Frame) : BufferedPipe × Option PollEnd :=
  if f.typ = frameData then
    if f.payload = [] then (readPipe, none)
    else
      match readPipe.write f.payload with
      | .error e => (readPipe, some (.readPipeClosed e))
      | .ok readPipe' => (readPipe', none)
  else if f.typ = frameHeartbeat then (readPipe, none)
  else if f.typ = frameEnd then (readPipe, some .streamEnd)
  else if f.typ = frameGone then (readPipe, some .sessionGone)
  else (readPipe, some (.unknownFrame f.typ))

/-- `httpConn.doStreamPoll` once the response is 200. -/
def doStreamPoll (streamMaxFrame : Int) (watchdog : Bool) (readPipe : BufferedPipe) (body : Bytes) :
    Option (BufferedPipe × PollEnd) :=
  (readLoop streamMaxFrame streamPollFrame readPipe body).map fun (p, e) => (p, .ofLoop watchdog e)

/-- A seq-data frame goes through the byte layer. -/
def Endpoint.seqFrame (ep : Endpoint) (payload : Bytes) : Option (Option FrameErr × Endpoint) :=
  match splitSeq payload with
  | .error e => some (some e, ep)
  | .ok (off, data) => (ep.hear off data).map fun (err, ep') => (err.map .io, ep')

/-- An ack frame releases replay. -/
def Endpoint.ackFrame (ep : Endpoint) (payload : Bytes) : Option (Option FrameErr × Endpoint) :=
  match decodeAck payload with
  | .error e => some (some e, ep)
  | .ok n => (ep.rl.ack n).map fun (err, rl) => (err.map .io, { ep with rl := rl })

/-- What `resumableConn.doStreamPoll` does with one frame. -/
def resumableStreamPollFrame (ep : Endpoint) (f : Frame) : Endpoint × Option PollEnd :=
  let pass : Option (Option FrameErr × Endpoint) → Endpoint × Option PollEnd
    | none => (ep, some .fault)
    | some (err, ep') => (ep', err.map .rejected)
  if f.typ = frameSeqData then pass (ep.seqFrame f.payload)
  else if f.typ = frameAck then pass (ep.ackFrame f.payload)
  else if f.typ = frameHeartbeat then (ep, none)
  else if f.typ = frameEnd then (ep, some .streamEnd)
  else if f.typ = frameGone then (ep, some .sessionGone)
  else if f.typ = frameData then (ep, some .unnumbered)
  else (ep, some (.unknownFrame f.typ))

/-- `resumableConn.doStreamPoll` once the response is 200. -/
def resumableDoStreamPoll (maxFrame : Int) (watchdog : Bool) (ep : Endpoint) (body : Bytes) :
    Option (Endpoint × PollEnd) :=
  (readLoop maxFrame resumableStreamPollFrame ep body).map fun (p, e) => (p, .ofLoop watchdog e)

/-- Where an upload goes: a probe's frames nowhere, a plain session's into `toServer`, a
resumable one's through its byte layer. -/
inductive Upstream
  | probe
  | plain (toServer : BufferedPipe)
  | resumable (ep : Endpoint)
  deriving DecidableEq, Repr

/-- How `pollSendStream` answers: with a status and an error text, with nothing at all, for which
`net/http` sends an empty 200, or not, because the byte layer faulted. -/
inductive SendEnd
  | status (code : Nat) (text : String)
  | silent
  | fault
  deriving DecidableEq, Repr

/-- The 200 that tells a client its frames have arrived. -/
def SendEnd.ok : SendEnd := .status 200 ""

/-- What an upload makes of an error of its byte layer. -/
def SendEnd.ofErr : FrameErr → SendEnd
  | .io .closedPipe => .status 410 "session closed"
  | e => .status 400 e.text

/-- A refusal is answered, and not with 200. -/
theorem SendEnd.ofErr_refuses (e : FrameErr) : SendEnd.ofErr e ≠ .ok ∧ SendEnd.ofErr e ≠ .silent := by
  unfold SendEnd.ofErr
  split <;> simp [SendEnd.ok]

/-- What `pollSendStream` does with one frame. -/
def sendStreamFrame (up : Upstream) (f : Frame) : Upstream × Option SendEnd :=
  if f.typ = frameData then
    if f.payload = [] then (up, none)
    else
      match up with
      | .probe => (up, none)
      | .resumable ep =>
        (.resumable { ep with rl := ep.rl.markBroken },
          some (.status 400 "resumable session requires seq-data frames"))
      | .plain toServer =>
        match toServer.write f.payload with
        | .error _ => (up, some (.status 410 "session closed"))
        | .ok toServer' => (.plain toServer', none)
  else if f.typ = frameSeqData then
    match up with
    | .resumable ep =>
      match ep.seqFrame f.payload with
      | none => (up, some .fault)
      | some (err, ep') => (.resumable ep', err.map .ofErr)
    | _ => (up, some (.status 400 "seq-data frames require a resumable session"))
  else if f.typ = frameAck then
    match up with
    | .resumable ep =>
      match ep.ackFrame f.payload with
      | none => (up, some .fault)
      | some (err, ep') => (.resumable ep', err.map fun e => .status 400 e.text)
    | _ => (up, some (.status 400 "ack frames require a resumable session"))
  else if f.typ = frameHeartbeat then (up, none)
  else if f.typ = frameEnd then (up, some .ok)
  else (up, some (.status 400 "unexpected frame type on send-stream"))

/-- The end of an upload's loop. -/
def SendEnd.ofLoop : LoopEnd SendEnd → SendEnd
  | .failed e => if e = .io .eof then .ok else .silent
  | .returned r => r

/-- `pollSendStream` once it owns the upstream direction. -/
def pollSendStream (maxSendBytes : Int) (up : Upstream) (body : Bytes) :
    Option (Upstream × SendEnd) :=
  (readLoop maxSendBytes sendStreamFrame up body).map fun (u, e) => (u, .ofLoop e)

/-- A poll's handler reports a clean end only for `frameEnd`. -/
theorem streamPollFrame_streamEnd {p p' : BufferedPipe} {f : Frame}
    (h : streamPollFrame p f = (p', some .streamEnd)) : f.typ = frameEnd := by
  unfold streamPollFrame at h
  split at h
  next =>
    split at h
    next => cases h
    next => split at h <;> cases h
  next =>
    split at h
    next => cases h
    next =>
      split at h
      next htyp => exact htyp
      next => split at h <;> cases h

/-- A resumable poll's handler reports a clean end only for `frameEnd`. -/
theorem resumableStreamPollFrame_streamEnd {ep ep' : Endpoint} {f : Frame}
    (h : resumableStreamPollFrame ep f = (ep', some .streamEnd)) : f.typ = frameEnd := by
  -- what the byte layer refuses is never reported as a clean end
  have hpass : ∀ r : Option (Option FrameErr × Endpoint), (match r with
      | none => (ep, some PollEnd.fault)
      | some (err, ep'') => (ep'', err.map PollEnd.rejected)) ≠ (ep', some .streamEnd) := by
    rintro (_ | ⟨_ | err, ep''⟩) heq <;> cases heq
  unfold resumableStreamPollFrame at h
  dsimp only at h
  split at h
  next => exact absurd h (hpass _)
  next =>
    split at h
    next => exact absurd h (hpass _)
    next =>
      split at h
      next => cases h
      next =>
        split at h
        next htyp => exact htyp
        next =>
          split at h
          next => cases h
          next => split at h <;> cases h

/-- An upload's handler answers 200 only for `frameEnd`. -/
theorem sendStreamFrame_ok {up up' : Upstream} {f : Frame}
    (h : sendStreamFrame up f = (up', some .ok)) : f.typ = frameEnd := by
  unfold sendStreamFrame at h
  split at h
  next =>
    split at h
    next => cases h
    next =>
      split at h
      next => cases h
      next => cases h
      next => split at h <;> cases h
  next =>
    split at h
    next =>
      split at h
      next =>
        split at h
        next => cases h
        next err ep' _ =>
          cases err with
          | none => cases h
          | some e => exact absurd (Option.some.inj (Prod.mk.inj h).2) (SendEnd.ofErr_refuses e).1
      next => cases h
    next =>
      split at h
      next =>
        split at h
        next =>
          split at h
          next => cases h
          next err ep' _ => cases err <;> cases h
        next => cases h
      next =>
        split at h
        next => cases h
        next =>
          split at h
          next htyp => exact htyp
          next => cases h

end Pollmux
