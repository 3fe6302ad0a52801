import Pollmux.Config
import Pollmux.Frame.Readers
import Pollmux.Server.Handover

/-!
# The requests of a session

`PollHandler` (`handler.go`) with the paths that take an upload or answer a batch
poll: the plain send-only body, `pollBatchResumable` (`batch.go`) in both
directions, and `pollSendStream` without its probe. `Intake` is one session with
any number of such requests at once. A request is a task with a program counter;
each of its steps is one lock region of the session, or reads only what is the
request's own. The attachment protocol is `Ownership`.

Around the tasks anything may happen between two steps: the client of a request
goes away, a request is kicked, the session is closed and its pipes after it, the
application reads and writes, acks and resumes arrive. Transports that are not
modelled here, a WebSocket or a stream poll, read and write through the layer
while they are attached, and on a plain session they write into its pipe.

A body is what the client sends of it, and whether the client finishes it. How
far the server reads is up to the run: a read may fail at any moment, a complete
one needs a complete body. A handler that returns without an answer is `silent`,
and `net/http` then sends an empty 200 for it.

Two records follow the run and no step reads them: `trace` has the session's
layer and pipes before and after each step of a task, and `queued` all bytes that
were ever appended to `toServer`.
-/

namespace Pollmux

open Kit

/-! ## The request -/

/-- `http.Header`: the values of each name. -/
abbrev Header := String → List String

/-- `HeaderSendOnly`. -/
def headerSendOnly : String := "X-Send-Only"

/-- `HeaderReceiveOnly`. -/
def headerReceiveOnly : String := "X-Receive-Only"

/-- `HeaderSendStream`. -/
def headerSendStream : String := "X-Send-Stream"

/-- `HeaderSendStreamProbe`. -/
def headerSendStreamProbe : String := "X-Send-Stream-Probe"

/-- `HeaderSendOffset`. -/
def headerSendOffset : String := "X-Send-Offset"

/-- `HeaderRecvOffset`. -/
def headerRecvOffset : String := "X-Recv-Offset"

/-- `Get(name) == "true"`. -/
def Header.isTrue (hdr : Header) (name : String) : Bool := (hdr name).headD "" == "true"

/-- The two errors of `strconv.ParseUint`. -/
inductive NumErr
  /-- `ErrSyntax`. -/
  | malformed
  /-- `ErrRange`. -/
  | outOfRange
  deriving DecidableEq, Repr

/-- Its loop over the digits. -/
def parseDigits : List Char → Nat → Except NumErr Nat
  | [], n => .ok n
  | c :: cs, n =>
    if c.isDigit then
      if n * 10 + (c.toNat - '0'.toNat) < 2 ^ 64 then
        parseDigits cs (n * 10 + (c.toNat - '0'.toNat))
      else .error .outOfRange
    else .error .malformed

/-- `strconv.ParseUint(s, 10, 64)`. -/
def parseUint (s : String) : Except NumErr Nat :=
  if s = "" then .error .malformed else parseDigits s.toList 0

/-- What `batchOffset` refuses; its text is made of these. -/
inductive OffsetErr
  | count (name : String)
  | number (name value : String) (e : NumErr)
  deriving DecidableEq, Repr

/-- `batchOffset`. -/
def batchOffset (hdr : Header) (name : String) : Except OffsetErr Nat :=
  match hdr name with
  | [value] =>
    match parseUint value with
    | .ok n => .ok n
    | .error e => .error (.number name value e)
  | _ => .error (.count name)

/-- A request: its header, the length it declares (-1 if it declares none), what the client sends
of its body and whether the client finishes it. -/
structure HttpRequest where
  header : Header
  contentLength : Int := -1
  body : Bytes := []
  complete : Bool := true

/-- What `PollHandler` reads of a session besides its state. -/
structure SessionMode extends Negotiated where
  batchResume : Bool
  deriving DecidableEq, Repr

/-- Where `PollHandler` sends a request. -/
inductive Path
  | refused (msg : String)
  | sendStream (probe : Bool)
  | streamPoll
  | batch (send : Bool)
  | plain (sendOnly : Bool)
  deriving DecidableEq, Repr

/-- The dispatch of `PollHandler`. -/
def route (m : SessionMode) (hdr : Header) : Path :=
  if hdr.isTrue headerSendStream then
    if m.resumable ∧ (m.webSocket ∨ m.streamUpload = false) then
      .refused "session did not negotiate streamed uploads"
    else .sendStream (hdr.isTrue headerSendStreamProbe)
  else if m.resumable then
    let send := hdr.isTrue headerSendOnly
    let receive := hdr.isTrue headerReceiveOnly
    if m.webSocket ∨ send = receive then
      .refused "resumable HTTP session requires exactly one direction"
    else if receive ∧ m.streamPoll then .streamPoll
    else if m.batchResume ∧ (send = false ∨ m.streamUpload = false) then .batch send
    else .refused "session did not negotiate this batch direction"
  else .plain (hdr.isTrue headerSendOnly)

/-- The paths modelled here. -/
def Path.served : Path → Bool
  | .refused _ | .batch _ | .plain true | .sendStream false => true
  | .plain false | .sendStream true | .streamPoll => false

/-! ## The answer -/

/-- What `writeError` is given. -/
inductive Reason
  | msg (text : String)
  | offset (e : OffsetErr)
  | layer (e : Err)
  deriving DecidableEq, Repr

/-- How a handler ends. -/
inductive Answer
  /-- `writeError`. -/
  | error (status : Nat) (reason : Reason)
  /-- The 200 of an upload, with its `X-Recv-Offset`. -/
  | ok (recvOffset : Option Nat)
  /-- The 200 of a poll, with its two offsets and its body. -/
  | chunk (recvOffset off : Nat) (bytes : Bytes)
  | noContent (recvOffset : Nat)
  /-- It returns without an answer of its own. -/
  | silent
  /-- The byte layer faulted. -/
  | fault
  deriving DecidableEq, Repr

/-- The end of `pollSendStream` as an answer. -/
def Answer.ofSend : SendEnd → Answer
  | .status code text => if code = 200 then .ok none else .error code (.msg text)
  | .silent => .silent
  | .fault => .fault

/-- The status that the client is sent. For a handler that has written nothing `net/http` writes a
200 when it returns, and nothing when it panics. -/
def Answer.status : Answer → Option Nat
  | .error status _ => some status
  | .ok _ | .chunk _ _ _ | .silent => some 200
  | .noContent _ => some 204
  | .fault => none

/-- The end of `pollBatchResumable` without a body: what `nextOut` returned, and whether its
context is done. -/
def batchReply (ctxDone : Bool) (rl : Reliable) (res : NextResult) : Answer :=
  if ctxDone then .silent
  else
    match res.err with
    | some .eof => .error 410 (.msg "session closed")
    | some .pipeInterrupted | none =>
      if res.bytes = [] then .noContent rl.recvOffsetNow
      else .chunk rl.recvOffsetNow res.off res.bytes
    | some e => .error 500 (.layer e)

/-! ## The tasks -/

/-- What a request asks `attach` for. -/
inductive Stage
  | batchUp (ack off : Nat)
  | batchDown (ack : Nat)
  | stream
  deriving DecidableEq, Repr

/-- The kind it asks for. -/
def Stage.kind : Stage → AttachKind
  | .batchUp _ _ | .stream => .up
  | .batchDown _ => .down

/-- Where a request is. An upload of a batch carries `(off, data)`, a poll none. -/
inductive TaskPc
  | new
  /-- It went a way that is not modelled here. -/
  | elsewhere
  | checkingBody (ack : Nat)
  | attaching (stage : Stage)
  /-- In `io.ReadAll`, with the two offsets of a batch. -/
  | readingBody (offsets : Option (Nat × Nat))
  /-- A plain upload about to call `writeUpstream`. -/
  | writing (data : Bytes)
  | checkingContext (ack : Nat) (upload : Option (Nat × Bytes))
  | acking (ack : Nat) (upload : Option (Nat × Bytes))
  | receiving (off : Nat) (data : Bytes)
  /-- An upload that `recvIn` took, about to call `recvOffsetNow`. -/
  | reporting
  | rewinding
  | calling
  | inNext
  | got (res : NextResult)
  /-- In the loop of `pollSendStream`, with what the body has left. -/
  | framing (rest : Bytes)
  | answered (a : Answer)
  deriving DecidableEq, Repr

/-- The places from which a step may bring bytes. -/
def TaskPc.Delivers : TaskPc → Prop
  | .writing _ | .receiving _ _ | .framing _ => True
  | _ => False

/-- The places from which a handler may leave with nothing done. -/
def TaskPc.MayLeave : TaskPc → Prop
  | .new | .checkingBody _ | .attaching _ | .readingBody _ | .checkingContext _ _
  | .framing _ => True
  | _ => False

/-- What `io.ReadAll` of a body ends with. -/
inductive BodyRead
  | complete
  /-- `http.MaxBytesError`. -/
  | tooLarge
  | failed
  deriving DecidableEq, Repr

/-- A step of a request. -/
inductive TaskEvent
  /-- `beginPoll` and the dispatch, with whether the session's grace has run out. -/
  | start (expired : Bool)
  | checkBody (empty : Bool)
  /-- `attach` returns. -/
  | attached
  | attachFailed
  | readBody (r : BodyRead)
  | write
  | checkContext
  | ack
  | receive
  | report
  | rewind
  | call
  | advance (fired : Bool)
  | collect
  | respond
  /-- One turn of the loop of `pollSendStream`. -/
  | frame
  /-- Its `next` fails otherwise than by the bytes of the body. -/
  | readError
  deriving DecidableEq, Repr

/-- The session closes in this step. -/
def TaskEvent.closes : TaskEvent → Bool
  | .readBody .tooLarge => true
  | _ => false

/-- A request, with the context that its handler checks. -/
structure Task where
  pc : TaskPc := .new
  ctxDone : Bool := false
  trace : List (Endpoint × Endpoint) := []

/-- The first steps of a request that `beginPoll` let in. -/
def firstPc (m : SessionMode) (q : HttpRequest) : TaskPc :=
  match route m q.header with
  | .refused msg => .answered (.error 400 (.msg msg))
  | .plain true => .readingBody none
  | .sendStream false => if m.resumable then .attaching .stream else .framing q.body
  | .batch send =>
    match batchOffset q.header headerRecvOffset with
    | .error e => .answered (.error 400 (.offset e))
    | .ok ack =>
      if send then
        match batchOffset q.header headerSendOffset with
        | .error e => .answered (.error 400 (.offset e))
        | .ok off => .attaching (.batchUp ack off)
      else if q.contentLength ≠ 0 then .checkingBody ack
      else .attaching (.batchDown ack)
  | .plain false | .sendStream true | .streamPoll => .elsewhere

/-- What follows a successful `attach`. -/
def Stage.next (q : HttpRequest) : Stage → TaskPc
  | .batchUp ack off => .readingBody (some (ack, off))
  | .batchDown ack => .checkingContext ack none
  | .stream => .framing q.body

/-- What follows a complete body. -/
def afterBody (q : HttpRequest) : Option (Nat × Nat) → TaskPc
  | none => .writing q.body
  | some (ack, off) => .checkingContext ack (some (off, q.body))

/-- What follows `ack`. -/
def afterAck (upload : Option (Nat × Bytes)) : Option Err → TaskPc
  | some e => .answered (.error 400 (.layer e))
  | none =>
    match upload with
    | some (off, data) => .receiving off data
    | none => .rewinding

/-- What follows `recvIn`. -/
def afterReceive : Option Err → TaskPc
  | none => .reporting
  | some e => .answered (.error (if e = .closedPipe then 410 else 400) (.layer e))

/-- What follows a frame of `pollSendStream`. -/
def framingOr (rest : Bytes) : Option SendEnd → TaskPc
  | none => .framing rest
  | some e => .answered (.ofSend e)

/-- A session and its requests. -/
structure Intake where
  own : Ownership := {}
  ep : Endpoint
  closed : Bool := false
  task : Nat → Task := fun _ => {}
  queued : Bytes := []

/-- One step. -/
inductive IntakeEvent
  | task (h : Nat) (ev : TaskEvent)
  /-- A step of the attachment protocol. -/
  | own (ev : AttachEvent)
  /-- The client of a request goes away. -/
  | cancel (h : Nat)
  /-- The session is marked closed. -/
  | close
  /-- A transport that is not modelled here uses the direction it owns. -/
  | foreign (h : Nat) (op : EndOp)
  | foreignCollect (h : Nat)
  /-- `writeUpstream` of a request to a plain session that is not modelled here. -/
  | foreignWrite (data : Bytes)
  /-- Anything else that needs no attachment. -/
  | env (op : EndOp)
  deriving DecidableEq, Repr

/-- The direction that an operation on the layer belongs to. -/
def EndOp.needs : EndOp → Option Dir
  | .hear _ _ => some .up
  | .nextOut _ | .advance _ => some .down
  | _ => none

/-- `closePipes` and nothing else closes a pipe. -/
def EndOp.closes : EndOp → Bool
  | .closeIn | .closeOut => true
  | _ => false

namespace Intake

/-- Replace the layer and the pipes, and write down what is new in `toServer`. -/
def commit (s : Intake) (ep : Endpoint) : Intake :=
  { s with ep := ep, queued := s.queued ++ ep.inp.buf.drop s.ep.inp.buf.length }

/-- Replace a request. -/
def setTask (s : Intake) (h : Nat) (t : Task) : Intake :=
  { s with task := Function.update s.task h t }

section
variable (cfg : ServerConfig) (m : SessionMode) (req : Nat → Option HttpRequest)

/-- Where a frame of `pollSendStream` goes. -/
def upstream (s : Intake) : Upstream := if m.resumable then .resumable s.ep else .plain s.ep.inp

/-- The session after a frame. -/
def afterFrame (s : Intake) : Upstream → Endpoint
  | .resumable ep => ep
  | .plain toServer => { s.ep with inp := toServer }
  | .probe => s.ep

/-- One turn of the loop of `pollSendStream`. A body that the client does not finish ends in an
error that is not `io.EOF`. -/
def frameStep (s : Intake) (q : HttpRequest) (rest : Bytes) : TaskPc × Endpoint :=
  match next cfg.maxSendBytes rest with
  | .error e =>
    (.answered (if q.complete then .ofSend (.ofLoop (.failed e)) else .silent), s.ep)
  | .ok (f, rest') =>
    let out := sendStreamFrame (s.upstream m) f
    (framingOr rest' out.2, s.afterFrame out.1)

/-- One step of the request `q`, the task `h`. -/
def act (s : Intake) (q : HttpRequest) (h : Nat) : TaskEvent → Option (TaskPc × Endpoint)
  | .start expired =>
    match (s.task h).pc with
    | .new =>
      some (if s.closed ∨ (m.resumable ∧ expired) then .answered (.error 410 (.msg "session closed"))
        else firstPc m q, s.ep)
    | _ => none
  | .checkBody empty =>
    match (s.task h).pc with
    | .checkingBody ack =>
      if empty then
        if q.body = [] ∧ q.complete then some (.attaching (.batchDown ack), s.ep) else none
      else
        some (.answered (.error 400 (.msg "receive-only batch must have an empty body")), s.ep)
    | _ => none
  | .attached =>
    match (s.task h).pc with
    | .attaching stage =>
      if (s.own.handler h).phase = .attached then some (stage.next q, s.ep) else none
    | _ => none
  | .attachFailed =>
    match (s.task h).pc with
    | .attaching _ =>
      if (s.own.handler h).phase = .gone false then
        some (.answered (.error 503 (.msg "previous transport is still detaching, retry")), s.ep)
      else none
    | _ => none
  | .readBody r =>
    match (s.task h).pc with
    | .readingBody offsets =>
      match r with
      | .complete =>
        if q.complete ∧ (q.body.length : Int) ≤ cfg.maxSendBytes then
          some (afterBody q offsets, s.ep)
        else none
      | .tooLarge =>
        if cfg.maxSendBytes < (q.body.length : Int) then
          some (.answered (.error 413 (.msg (if offsets.isSome
              then "batch body exceeds max_send_bytes"
              else "request body exceeds max_send_bytes=" ++ toString cfg.maxSendBytes))),
            -- `closeSession` closes the pipes if it is the one to close the session
            if s.closed then s.ep
            else { s.ep with inp := s.ep.inp.close, out := s.ep.out.close })
        else none
      | .failed =>
        some (.answered (.error 400 (.msg (if offsets.isSome
          then "failed to read batch body" else "failed to read request body"))), s.ep)
    | _ => none
  | .write =>
    match (s.task h).pc with
    | .writing data =>
      some (.answered (.ok none),
        if data = [] then s.ep
        else
          match s.ep.inp.write data with
          -- the error is logged
          | .error _ => s.ep
          | .ok inp => { s.ep with inp := inp })
    | _ => none
  | .checkContext =>
    match (s.task h).pc with
    | .checkingContext ack upload =>
      some (if (s.task h).ctxDone then .answered .silent else .acking ack upload, s.ep)
    | _ => none
  | .ack =>
    match (s.task h).pc with
    | .acking ack upload =>
      (s.ep.rl.ack ack).map fun out => (afterAck upload out.1, { s.ep with rl := out.2 })
    | _ => none
  | .receive =>
    match (s.task h).pc with
    | .receiving off data => (s.ep.hear off data).map fun out => (afterReceive out.1, out.2)
    | _ => none
  | .report =>
    match (s.task h).pc with
    | .reporting => some (.answered (.ok (some s.ep.rl.recvOffsetNow)), s.ep)
    | _ => none
  | .rewind =>
    match (s.task h).pc with
    | .rewinding => some (.calling, { s.ep with rl := s.ep.rl.rewindToAcked })
    | _ => none
  | .call =>
    match (s.task h).pc with
    | .calling => (s.ep.perform (.nextOut cfg.pollBufferSize.toNat)).map fun ep => (.inNext, ep)
    | _ => none
  | .advance fired =>
    match (s.task h).pc with
    | .inNext => (s.ep.perform (.advance fired)).map fun ep => (.inNext, ep)
    | _ => none
  | .collect =>
    match (s.task h).pc with
    | .inNext => s.ep.collect.map fun out => (.got out.1, out.2)
    | _ => none
  | .respond =>
    match (s.task h).pc with
    | .got res => some (.answered (batchReply (s.task h).ctxDone s.ep.rl res), s.ep)
    | _ => none
  | .frame =>
    match (s.task h).pc with
    | .framing rest => some (s.frameStep cfg m q rest)
    | _ => none
  | .readError =>
    match (s.task h).pc with
    | .framing _ => some (.answered .silent, s.ep)
    | _ => none

/-- A handler that is no task. -/
def outside (h : Nat) : Bool :=
  match req h with
  | none => true
  | some q => !(route m q.header).served

/-- The `kick` of a batch request; that of a stream sets a deadline, which `readError` stands for,
and a transport outside does what the environment may do anyway. -/
def kick (s : Intake) (h : Nat) : Intake :=
  match (req h).map fun q => route m q.header with
  | some (.batch _) =>
    { s.setTask h { s.task h with ctxDone := true } with
      ep := { s.ep with out := s.ep.out.interrupt } }
  | _ => s

/-- A task attaches when it comes to that, and detaches once it has answered. -/
def permits (s : Intake) : AttachEvent → Bool
  | .attach h kind =>
    outside m req h ||
      match (s.task h).pc with
      | .attaching stage => kind == stage.kind
      | _ => false
  | .detach h =>
    outside m req h || (s.own.handler h).phase != .attached ||
      match (s.task h).pc with
      | .answered _ => true
      | _ => false
  | _ => true

/-- A transport outside owns the direction of the operation. -/
def mayUse (s : Intake) (h : Nat) (d : Option Dir) : Prop :=
  outside m req h = true ∧ (s.own.handler h).phase = .attached ∧
    ∃ k ∈ (s.own.handler h).kind.dirs, d = some k

instance (s : Intake) (h : Nat) (d : Option Dir) : Decidable (s.mayUse m req h d) :=
  inferInstanceAs (Decidable (_ ∧ _))

/-- One step. -/
def step (s : Intake) : IntakeEvent → Option Intake
  | .task h ev =>
    match req h with
    | none => none
    | some q =>
      (s.act cfg m q h ev).map fun out =>
        { (s.commit out.2).setTask h { s.task h with
            pc := out.1
            trace := (s.task h).trace ++ [(s.ep, out.2)] } with
          closed := s.closed || ev.closes }
  | .own ev =>
    if s.permits m req ev then
      (s.own.step ev).map fun o =>
        match Serving.kickTarget s.own ev with
        | some h => { s.kick m req h with own := o }
        | none => { s with own := o }
    else none
  | .cancel h => some (s.setTask h { s.task h with ctxDone := true })
  | .close => some { s with closed := true }
  | .foreign h op =>
    if s.mayUse m req h op.needs then (s.ep.perform op).map s.commit else none
  | .foreignCollect h =>
    if s.mayUse m req h (some .down) then s.ep.collect.map fun out => s.commit out.2 else none
  | .foreignWrite data =>
    if m.resumable then none
    else
      match s.ep.inp.write data with
      | .error _ => some s
      | .ok inp => some (s.commit { s.ep with inp := inp })
  | .env op =>
    if op.needs = none ∧ (op.closes → s.closed) then (s.ep.perform op).map s.commit else none

/-- A session whose layer and pipes are `ep`, with nobody attached. -/
def machine (ep : Endpoint) : Machine Intake IntakeEvent where
  init := { ep := ep }
  step := step cfg m req

/-! ## What a step does -/

/-- **A turn of the loop of `pollSendStream`** with the bytes `rest` left. -/
inductive Frames (s : Intake) (q : HttpRequest) (rest : Bytes) : TaskPc → Endpoint → Prop
  /-- The body ends between two frames, or before the payload of one. -/
  | ended (hnext : next cfg.maxSendBytes rest = .error (.io .eof)) :
      Frames s q rest (.answered (.ok none)) s.ep
  /-- A frame that is not whole or too long, or a read that fails. -/
  | leave : Frames s q rest (.answered .silent) s.ep
  /-- A frame without data. -/
  | skip {f : Frame} {rest' : Bytes} (hnext : next cfg.maxSendBytes rest = .ok (f, rest'))
      (htyp : f.typ = frameHeartbeat ∨ (f.typ = frameData ∧ f.payload = [])) :
      Frames s q rest (.framing rest') s.ep
  | data {f : Frame} {rest' : Bytes} {inp : BufferedPipe}
      (hnext : next cfg.maxSendBytes rest = .ok (f, rest')) (hres : m.resumable = false)
      (htyp : f.typ = frameData) (hbuf : inp.buf = s.ep.inp.buf ++ f.payload) :
      Frames s q rest (.framing rest') { s.ep with inp := inp }
  | seq {f : Frame} {rest' : Bytes} {off : Nat} {bytes : Bytes} {ep : Endpoint}
      (hnext : next cfg.maxSendBytes rest = .ok (f, rest')) (hres : m.resumable = true)
      (htyp : f.typ = frameSeqData) (hsplit : splitSeq f.payload = .ok (off, bytes))
      (hear : s.ep.hear off bytes = some (none, ep)) :
      Frames s q rest (.framing rest') ep
  | ack {f : Frame} {rest' : Bytes} {n : Nat} {rl : Reliable}
      (hnext : next cfg.maxSendBytes rest = .ok (f, rest')) (hres : m.resumable = true)
      (htyp : f.typ = frameAck) (hack : s.ep.rl.ack n = some (none, rl)) :
      Frames s q rest (.framing rest') { s.ep with rl := rl }
  | stop {f : Frame} {rest' : Bytes} (hnext : next cfg.maxSendBytes rest = .ok (f, rest'))
      (htyp : f.typ = frameEnd) : Frames s q rest (.answered (.ok none)) s.ep
  /-- A frame that is not accepted. -/
  | refuse {status : Nat} {reason : Reason} {ep : Endpoint} (hstatus : status ≠ 200)
      (hep : ep = s.ep ∨ (∃ off bytes e, s.ep.hear off bytes = some (some e, ep)) ∨
        (∃ n e rl, s.ep.rl.ack n = some (some e, rl) ∧ ep = { s.ep with rl := rl }) ∨
        ep = { s.ep with rl := s.ep.rl.markBroken }) :
      Frames s q rest (.answered (.error status reason)) ep
  | fault : Frames s q rest (.answered .fault) s.ep

/-- What the byte layer refuses is never answered with 200. -/
theorem frames_ofErr {s : Intake} {q : HttpRequest} (rest rest' : Bytes) (e : FrameErr)
    {ep : Endpoint} (hep : ep = s.ep ∨ (∃ off bytes e, s.ep.hear off bytes = some (some e, ep)) ∨
      (∃ n e rl, s.ep.rl.ack n = some (some e, rl) ∧ ep = { s.ep with rl := rl }) ∨
      ep = { s.ep with rl := s.ep.rl.markBroken }) :
    Frames cfg m s q rest (framingOr rest' (some (.ofErr e))) ep := by
  show Frames cfg m s q rest (.answered (.ofSend (.ofErr e))) ep
  unfold SendEnd.ofErr
  split
  next => exact .refuse (by decide) hep
  next => exact .refuse (by decide) hep

/-- A frame on a plain session. -/
theorem frames_plain {s : Intake} {q : HttpRequest} {rest rest' : Bytes} {f : Frame}
    (hres : m.resumable = false) (hnext : next cfg.maxSendBytes rest = .ok (f, rest')) :
    Frames cfg m s q rest (framingOr rest' (sendStreamFrame (.plain s.ep.inp) f).2)
      (s.afterFrame (sendStreamFrame (.plain s.ep.inp) f).1) := by
  unfold sendStreamFrame
  split
  next htyp =>
    split
    next hnil => exact .skip hnext (.inr ⟨htyp, hnil⟩)
    next =>
      dsimp only
      cases hc : s.ep.inp.closed with
      | true =>
        rw [BufferedPipe.write_of_closed hc]
        exact .refuse (by decide) (.inl rfl)
      | false =>
        rw [BufferedPipe.write_of_open hc]
        exact .data hnext hres htyp (BufferedPipe.push_buf _ _)
  next =>
    split
    next => exact .refuse (by decide) (.inl rfl)
    next =>
      split
      next => exact .refuse (by decide) (.inl rfl)
      next =>
        split
        next htyp => exact .skip hnext (.inl htyp)
        next =>
          split
          next htyp => exact .stop hnext htyp
          next => exact .refuse (by decide) (.inl rfl)

/-- A frame on a resumable session. -/
theorem frames_resumable {s : Intake} {q : HttpRequest} {rest rest' : Bytes} {f : Frame}
    (hres : m.resumable = true) (hnext : next cfg.maxSendBytes rest = .ok (f, rest')) :
    Frames cfg m s q rest (framingOr rest' (sendStreamFrame (.resumable s.ep) f).2)
      (s.afterFrame (sendStreamFrame (.resumable s.ep) f).1) := by
  unfold sendStreamFrame
  split
  next htyp =>
    split
    next hnil => exact .skip hnext (.inr ⟨htyp, hnil⟩)
    next => exact .refuse (by decide) (.inr (.inr (.inr rfl)))
  next =>
    split
    next htyp =>
      dsimp only
      unfold Endpoint.seqFrame
      cases hsplit : splitSeq f.payload with
      | error e => exact frames_ofErr cfg m rest rest' e (.inl rfl)
      | ok chunk =>
        obtain ⟨off, bytes⟩ := chunk
        dsimp only
        cases hear : s.ep.hear off bytes with
        | none => exact .fault
        | some out =>
          obtain ⟨err, ep⟩ := out
          cases err with
          | none => exact .seq hnext hres htyp hsplit hear
          | some e => exact frames_ofErr cfg m rest rest' _ (.inr (.inl ⟨off, bytes, e, hear⟩))
    next =>
      split
      next htyp =>
        dsimp only
        unfold Endpoint.ackFrame
        cases hdec : decodeAck f.payload with
        | error e => exact .refuse (by decide) (.inl rfl)
        | ok n =>
          dsimp only
          cases hack : s.ep.rl.ack n with
          | none => exact .fault
          | some out =>
            obtain ⟨err, rl⟩ := out
            cases err with
            | none => exact .ack hnext hres htyp hack
            | some e => exact .refuse (by decide) (.inr (.inr (.inl ⟨n, e, rl, hack, rfl⟩)))
      next =>
        split
        next htyp => exact .skip hnext (.inl htyp)
        next =>
          split
          next htyp => exact .stop hnext htyp
          next => exact .refuse (by decide) (.inl rfl)

theorem frames_of_frameStep (s : Intake) (q : HttpRequest) (rest : Bytes) :
    Frames cfg m s q rest (s.frameStep cfg m q rest).1 (s.frameStep cfg m q rest).2 := by
  unfold frameStep
  cases hnext : next cfg.maxSendBytes rest with
  | error e =>
    dsimp only
    cases q.complete with
    | false => exact .leave
    | true =>
      by_cases heof : e = .io .eof
      · rw [heof] at hnext ⊢
        exact .ended hnext
      · simp only [SendEnd.ofLoop, if_neg heof]
        exact .leave
  | ok out =>
    obtain ⟨f, rest'⟩ := out
    dsimp only
    unfold upstream
    cases hres : m.resumable with
    | false =>
      rw [if_neg (by simp)]
      exact frames_plain cfg m hres hnext
    | true =>
      rw [if_pos rfl]
      exact frames_resumable cfg m hres hnext

/-- **Where a request goes first.** -/
inductive Begins (q : HttpRequest) : TaskPc → Prop
  | refused {reason : Reason} : Begins q (.answered (.error 400 reason))
  | plain (hroute : route m q.header = .plain true) : Begins q (.readingBody none)
  | resumableStream (hroute : route m q.header = .sendStream false) (hres : m.resumable = true) :
      Begins q (.attaching .stream)
  | plainStream (hroute : route m q.header = .sendStream false) (hres : m.resumable = false) :
      Begins q (.framing q.body)
  | upload {ack off : Nat} (hroute : route m q.header = .batch true)
      (hack : batchOffset q.header headerRecvOffset = .ok ack)
      (hoff : batchOffset q.header headerSendOffset = .ok off) :
      Begins q (.attaching (.batchUp ack off))
  | checkPoll {ack : Nat} (hroute : route m q.header = .batch false)
      (hack : batchOffset q.header headerRecvOffset = .ok ack) : Begins q (.checkingBody ack)
  | poll {ack : Nat} (hroute : route m q.header = .batch false)
      (hack : batchOffset q.header headerRecvOffset = .ok ack) (hlen : q.contentLength = 0) :
      Begins q (.attaching (.batchDown ack))
  | elsewhere (hroute : (route m q.header).served = false) : Begins q .elsewhere

theorem begins_firstPc (q : HttpRequest) : Begins m q (firstPc m q) := by
  unfold firstPc
  split
  next => exact .refused
  next hroute => exact .plain hroute
  next hroute =>
    split
    next hres => exact .resumableStream hroute hres
    next hres => exact .plainStream hroute (Bool.not_eq_true _ ▸ hres)
  next send hroute =>
    split
    next => exact .refused
    next ack hack =>
      cases send with
      | true =>
        rw [if_pos rfl]
        split
        next => exact .refused
        next off hoff => exact .upload hroute hack hoff
      | false =>
        rw [if_neg (by simp)]
        split
        next => exact .checkPoll hroute hack
        next hlen => exact .poll hroute hack (Decidable.not_not.mp hlen)
  next hroute => exact .elsewhere (by rw [hroute]; rfl)
  next hroute => exact .elsewhere (by rw [hroute]; rfl)
  next hroute => exact .elsewhere (by rw [hroute]; rfl)

/-- **A step of the request `q`**, the task `h`: from where to where, and the session it leaves. -/
inductive Acts (s : Intake) (q : HttpRequest) (h : Nat) : TaskPc → TaskPc → Endpoint → Prop
  /-- An error that is answered before anything happened. -/
  | refuse {pc : TaskPc} {status : Nat} {reason : Reason} (hpc : pc.MayLeave)
      (hstatus : status ≠ 200) : Acts s q h pc (.answered (.error status reason)) s.ep
  /-- A batch whose context is done: the handler returns without an answer. -/
  | cancelled {ack : Nat} {upload : Option (Nat × Bytes)} (hctx : (s.task h).ctxDone = true) :
      Acts s q h (.checkingContext ack upload) (.answered .silent) s.ep
  | start {pc : TaskPc} (hb : Begins m q pc) : Acts s q h .new pc s.ep
  | empty {ack : Nat} (hbody : q.body = []) (hc : q.complete = true) :
      Acts s q h (.checkingBody ack) (.attaching (.batchDown ack)) s.ep
  | attached {stage : Stage} (hatt : (s.own.handler h).phase = .attached) :
      Acts s q h (.attaching stage) (stage.next q) s.ep
  | body {offsets : Option (Nat × Nat)} (hc : q.complete = true)
      (hlen : (q.body.length : Int) ≤ cfg.maxSendBytes) :
      Acts s q h (.readingBody offsets) (afterBody q offsets) s.ep
  | tooLarge {offsets : Option (Nat × Nat)} {reason : Reason} {ep : Endpoint}
      (hrl : ep.rl = s.ep.rl) (hbuf : ep.inp.buf = s.ep.inp.buf) :
      Acts s q h (.readingBody offsets) (.answered (.error 413 reason)) ep
  | wrote {data : Bytes} {inp : BufferedPipe} (hopen : data = [] ∨ s.ep.inp.closed = false)
      (hbuf : inp.buf = s.ep.inp.buf ++ data) :
      Acts s q h (.writing data) (.answered (.ok none)) { s.ep with inp := inp }
  /-- The plain upload that meets a closed pipe. -/
  | dropped {data : Bytes} (hne : data ≠ []) (hclosed : s.ep.inp.closed = true) :
      Acts s q h (.writing data) (.answered (.ok none)) s.ep
  | proceed {ack : Nat} {upload : Option (Nat × Bytes)} (hctx : (s.task h).ctxDone = false) :
      Acts s q h (.checkingContext ack upload) (.acking ack upload) s.ep
  | ack {ack : Nat} {upload : Option (Nat × Bytes)} {err : Option Err} {rl : Reliable}
      (hack : s.ep.rl.ack ack = some (err, rl)) :
      Acts s q h (.acking ack upload) (afterAck upload err) { s.ep with rl := rl }
  | receive {off : Nat} {data : Bytes} {err : Option Err} {ep : Endpoint}
      (hear : s.ep.hear off data = some (err, ep)) :
      Acts s q h (.receiving off data) (afterReceive err) ep
  | report : Acts s q h .reporting (.answered (.ok (some s.ep.rl.recvOffset))) s.ep
  | rewind : Acts s q h .rewinding .calling { s.ep with rl := s.ep.rl.rewindToAcked }
  | call {dst : Nat} {ep : Endpoint} (hp : s.ep.perform (.nextOut dst) = some ep) :
      Acts s q h .calling .inNext ep
  | advance {fired : Bool} {ep : Endpoint} (hp : s.ep.perform (.advance fired) = some ep) :
      Acts s q h .inNext .inNext ep
  | collect {res : NextResult} {ep : Endpoint} (hc : s.ep.collect = some (res, ep)) :
      Acts s q h .inNext (.got res) ep
  | respond {res : NextResult} {ctxDone : Bool} :
      Acts s q h (.got res) (.answered (batchReply ctxDone s.ep.rl res)) s.ep
  | frame {rest : Bytes} {pc : TaskPc} {ep : Endpoint} (hf : Frames cfg m s q rest pc ep) :
      Acts s q h (.framing rest) pc ep

theorem acts_of_act {s : Intake} {q : HttpRequest} {h : Nat} {ev : TaskEvent} {pc : TaskPc}
    {ep : Endpoint} (ha : s.act cfg m q h ev = some (pc, ep)) :
    Acts cfg m s q h (s.task h).pc pc ep := by
  cases ev with
  | start expired =>
    simp only [act] at ha
    split at ha
    next hp =>
      rw [hp]
      cases ha
      split
      next => exact .refuse trivial (by decide)
      next => exact .start (begins_firstPc m q)
    next => cases ha
  | checkBody empty =>
    simp only [act] at ha
    split at ha
    next hp =>
      rw [hp]
      split at ha
      next =>
        split at ha
        next hbody => cases ha; exact .empty hbody.1 hbody.2
        next => cases ha
      next => cases ha; exact .refuse trivial (by decide)
    next => cases ha
  | attached =>
    simp only [act] at ha
    split at ha
    next hp =>
      rw [hp]
      split at ha
      next hatt => cases ha; exact .attached hatt
      next => cases ha
    next => cases ha
  | attachFailed =>
    simp only [act] at ha
    split at ha
    next hp =>
      rw [hp]
      split at ha
      next => cases ha; exact .refuse trivial (by decide)
      next => cases ha
    next => cases ha
  | readBody r =>
    simp only [act] at ha
    split at ha
    next offsets hp =>
      rw [hp]
      cases r with
      | complete =>
        dsimp only at ha
        split at ha
        next hc => cases ha; exact .body hc.1 hc.2
        next => cases ha
      | tooLarge =>
        dsimp only at ha
        split at ha
        next =>
          cases ha
          exact .tooLarge (by split <;> rfl) (by split <;> rfl)
        next => cases ha
      | failed => cases ha; exact .refuse trivial (by decide)
    next => cases ha
  | write =>
    simp only [act] at ha
    split at ha
    next data hp =>
      rw [hp]
      cases ha
      split
      next hnil => exact .wrote (.inl hnil) (by rw [hnil, List.append_nil])
      next hne =>
        cases hc : s.ep.inp.closed with
        | true =>
          rw [BufferedPipe.write_of_closed hc]
          exact .dropped hne hc
        | false =>
          rw [BufferedPipe.write_of_open hc]
          exact .wrote (.inr hc) (BufferedPipe.push_buf _ _)
    next => cases ha
  | checkContext =>
    simp only [act] at ha
    split at ha
    next hp =>
      rw [hp]
      cases ha
      split
      next hctx => exact .cancelled hctx
      next hctx => exact .proceed (Bool.not_eq_true _ ▸ hctx)
    next => cases ha
  | ack =>
    simp only [act] at ha
    split at ha
    next hp =>
      rw [hp]
      obtain ⟨⟨err, rl⟩, hack, heq⟩ := Option.map_eq_some_iff.mp ha
      cases heq
      exact .ack hack
    next => cases ha
  | receive =>
    simp only [act] at ha
    split at ha
    next hp =>
      rw [hp]
      obtain ⟨⟨err, ep'⟩, hear, heq⟩ := Option.map_eq_some_iff.mp ha
      cases heq
      exact .receive hear
    next => cases ha
  | report =>
    simp only [act] at ha
    split at ha
    next hp => rw [hp]; cases ha; exact .report
    next => cases ha
  | rewind =>
    simp only [act] at ha
    split at ha
    next hp => rw [hp]; cases ha; exact .rewind
    next => cases ha
  | call =>
    simp only [act] at ha
    split at ha
    next hp =>
      rw [hp]
      obtain ⟨ep', hp', heq⟩ := Option.map_eq_some_iff.mp ha
      cases heq
      exact .call hp'
    next => cases ha
  | advance fired =>
    simp only [act] at ha
    split at ha
    next hp =>
      rw [hp]
      obtain ⟨ep', hp', heq⟩ := Option.map_eq_some_iff.mp ha
      cases heq
      exact .advance hp'
    next => cases ha
  | collect =>
    simp only [act] at ha
    split at ha
    next hp =>
      rw [hp]
      obtain ⟨⟨res, ep'⟩, hc, heq⟩ := Option.map_eq_some_iff.mp ha
      cases heq
      exact .collect hc
    next => cases ha
  | respond =>
    simp only [act] at ha
    split at ha
    next hp => rw [hp]; cases ha; exact .respond
    next => cases ha
  | frame =>
    simp only [act] at ha
    split at ha
    next rest hp =>
      rw [hp]
      have hframe := frames_of_frameStep cfg m s q rest
      rw [Option.some.inj ha] at hframe
      exact .frame hframe
    next => cases ha
  | readError =>
    simp only [act] at ha
    split at ha
    next hp => rw [hp]; cases ha; exact .frame .leave
    next => cases ha

variable {cfg m req} {s s' : Intake} {q : HttpRequest} {h : Nat} {pc pc' : TaskPc} {ep : Endpoint}

theorem Frames.wf {rest : Bytes} (hf : Frames cfg m s q rest pc ep) (hwf : s.ep.rl.Wf) :
    ep.rl.Wf := by
  cases hf with
  | ended | leave | skip | data | stop | fault => exact hwf
  | seq _ _ _ _ hear => exact Endpoint.hear_wf hwf hear
  | ack _ _ _ hack => exact (Reliable.ack_trims hwf hack).1.wf
  | refuse _ hep =>
    rcases hep with rfl | ⟨off, bytes, e, hear⟩ | ⟨n, e, rl, hack, rfl⟩ | rfl
    · exact hwf
    · exact Endpoint.hear_wf hwf hear
    · exact (Reliable.ack_trims hwf hack).1.wf
    · exact hwf.markBroken

/-- The layer stays well formed. -/
theorem Acts.wf (ha : Acts cfg m s q h pc pc' ep) (hwf : s.ep.rl.Wf) : ep.rl.Wf := by
  cases ha with
  | refuse | cancelled | start | empty | attached | body | wrote | dropped | proceed | report
  | respond => exact hwf
  | tooLarge hrl => rw [hrl]; exact hwf
  | ack hack => exact (Reliable.ack_trims hwf hack).1.wf
  | receive hear => exact Endpoint.hear_wf hwf hear
  | rewind => exact hwf.rewindToAcked
  | call hp => exact Endpoint.perform_wf hwf hp
  | advance hp => exact Endpoint.perform_wf hwf hp
  | collect hc =>
    obtain ⟨-, rfl⟩ := Endpoint.collected hc
    exact hwf
  | frame hf => exact hf.wf hwf

/-- Nothing else touches what the session has received. -/
theorem Acts.still (ha : Acts cfg m s q h pc pc' ep) (hwf : s.ep.rl.Wf) (hpc : ¬ pc.Delivers) :
    ep.inp.buf = s.ep.inp.buf ∧ ep.rl.recvOffset = s.ep.rl.recvOffset := by
  cases ha with
  | refuse | cancelled | start | empty | attached | body | proceed | report | respond =>
    exact ⟨rfl, rfl⟩
  | tooLarge hrl hbuf => exact ⟨hbuf, by rw [hrl]⟩
  | wrote | dropped | receive | frame => exact absurd trivial hpc
  | ack hack => exact ⟨rfl, (Reliable.ack_trims hwf hack).2⟩
  | rewind => exact ⟨rfl, (Reliable.rewindToAcked_trims hwf).2⟩
  | call hp =>
    refine ⟨?_, (Endpoint.perform_recvOffset hwf (by simp) hp).2⟩
    cases Endpoint.performs hp with
    | aside haside => cases haside
    | nextOut => rfl
  | advance hp =>
    refine ⟨?_, (Endpoint.perform_recvOffset hwf (by simp) hp).2⟩
    cases Endpoint.performs hp with
    | aside haside => cases haside
    | advance => rfl
  | collect hc =>
    obtain ⟨-, rfl⟩ := Endpoint.collected hc
    exact ⟨rfl, rfl⟩

/-- **What a step from `pc` brings**: nothing; bytes without numbers, on a plain session or from a
plain upload; or a chunk, which `recvIn` takes only if it is the request's next one. -/
inductive Brings (cfg : ServerConfig) (m : SessionMode) (s : Intake) (pc : TaskPc) :
    Endpoint → Prop
  | nothing {ep : Endpoint} (hbuf : ep.inp.buf = s.ep.inp.buf)
      (hrecv : ep.rl.recvOffset = s.ep.rl.recvOffset) : Brings cfg m s pc ep
  | plain {ep : Endpoint} (hplain : m.resumable = false ∨ ∃ data, pc = .writing data)
      (hrl : ep.rl = s.ep.rl) : Brings cfg m s pc ep
  | chunk {off : Nat} {p : Bytes} {err : Option Err} {ep : Endpoint}
      (hear : s.ep.hear off p = some (err, ep))
      (hfrom : err = none → pc = .receiving off p ∨ ∃ rest f rest', pc = .framing rest ∧
        next cfg.maxSendBytes rest = .ok (f, rest') ∧ f.typ = frameSeqData ∧
        splitSeq f.payload = .ok (off, p)) : Brings cfg m s pc ep

theorem Frames.brings {rest : Bytes} (hf : Frames cfg m s q rest pc ep) (hwf : s.ep.rl.Wf) :
    Brings cfg m s (.framing rest) ep := by
  cases hf with
  | ended | leave | skip | stop | fault => exact .nothing rfl rfl
  | data _ hplain => exact .plain (.inl hplain) rfl
  | seq hnext _ htyp hsplit hear =>
    exact .chunk hear fun _ => .inr ⟨rest, _, _, rfl, hnext, htyp, hsplit⟩
  | ack _ _ _ hack => exact .nothing rfl (Reliable.ack_trims hwf hack).2
  | refuse _ hep =>
    rcases hep with rfl | ⟨off, bytes, e, hear⟩ | ⟨n, e, rl, hack, rfl⟩ | rfl
    · exact .nothing rfl rfl
    · exact .chunk hear (by simp)
    · exact .nothing rfl (Reliable.ack_trims hwf hack).2
    · exact .nothing rfl rfl

theorem Acts.brings (ha : Acts cfg m s q h pc pc' ep) (hwf : s.ep.rl.Wf) :
    Brings cfg m s pc ep := by
  by_cases hpc : pc.Delivers
  · cases pc with
    | receiving off data =>
      cases ha with
      | refuse hleave => exact hleave.elim
      | receive hear => exact .chunk hear fun _ => .inl rfl
    | framing rest =>
      cases ha with
      | refuse => exact .nothing rfl rfl
      | frame hf => exact hf.brings hwf
    | writing data =>
      cases ha with
      | refuse hleave => exact hleave.elim
      | wrote | dropped => exact .plain (.inr ⟨data, rfl⟩) rfl
    | _ => exact hpc.elim
  · obtain ⟨hbuf, hrecv⟩ := ha.still hwf hpc
    exact .nothing hbuf hrecv

/-- **A step around the requests**: no request moves, nothing with a number is received, and the
attachment protocol moves by one of its own steps at most. -/
structure Aside (m : SessionMode) (req : Nat → Option HttpRequest) (s s' : Intake) : Prop where
  tasks : ∀ h, (s'.task h).pc = (s.task h).pc ∧ (s'.task h).trace = (s.task h).trace
  queued : s.queued <+: s'.queued
  unnumbered : s'.queued = s.queued ∨ m.resumable = false
  recv : s'.ep.rl.recvOffset = s.ep.rl.recvOffset
  wf : s'.ep.rl.Wf
  own : s'.own = s.own ∨ ∃ ev, s.permits m req ev = true ∧ s.own.step ev = some s'.own

/-- A step that appends nothing. -/
theorem Aside.quiet
    (htasks : ∀ h, (s'.task h).pc = (s.task h).pc ∧ (s'.task h).trace = (s.task h).trace)
    (hqueued : s'.queued = s.queued) (hrecv : s'.ep.rl.recvOffset = s.ep.rl.recvOffset)
    (hwf : s'.ep.rl.Wf)
    (hown : s'.own = s.own ∨ ∃ ev, s.permits m req ev = true ∧ s.own.step ev = some s'.own) :
    Aside m req s s' :=
  ⟨htasks, hqueued ▸ List.prefix_refl _, .inl hqueued, hrecv, hwf, hown⟩

/-- A done context moves no request. -/
theorem setTask_ctx (s : Intake) (t x : Nat) :
    ((s.setTask t { s.task t with ctxDone := true }).task x).pc = (s.task x).pc ∧
      ((s.setTask t { s.task t with ctxDone := true }).task x).trace = (s.task x).trace := by
  show (Function.update s.task t _ x).pc = _ ∧ (Function.update s.task t _ x).trace = _
  by_cases hx : x = t
  · rw [hx, Function.update_self]
    exact ⟨rfl, rfl⟩
  · rw [Function.update_of_ne hx]
    exact ⟨rfl, rfl⟩

theorem aside_perform (hwf : s.ep.rl.Wf) {op : EndOp} (hop : ∀ off p, op ≠ .hear off p)
    (hp : s.ep.perform op = some ep) : Aside m req s (s.commit ep) := by
  refine .quiet (fun _ => ⟨rfl, rfl⟩) ?_ (Endpoint.perform_recvOffset hwf hop hp).2
    (Endpoint.perform_wf hwf hp) (.inl rfl)
  have hlen := (Endpoint.perform_inp hop hp).length_le
  show s.queued ++ _ = _
  rw [List.drop_eq_nil_of_le hlen, List.append_nil]

/-- A step of a request. -/
theorem task_of_step {tev : TaskEvent} (hs : s.step cfg m req (.task h tev) = some s') :
    ∃ q pc ep, req h = some q ∧ Acts cfg m s q h (s.task h).pc pc ep ∧
      s' = { (s.commit ep).setTask h { s.task h with
          pc := pc
          trace := (s.task h).trace ++ [(s.ep, ep)] } with
        closed := s.closed || TaskEvent.closes tev } := by
  simp only [step] at hs
  split at hs
  next => cases hs
  next q hreq =>
    obtain ⟨⟨pc, ep⟩, ha, rfl⟩ := Option.map_eq_some_iff.mp hs
    exact ⟨q, pc, ep, hreq, acts_of_act cfg m ha, rfl⟩

/-- **Every step** is one of a request, or brings a frame of another transport that owns the
upstream direction, or is one around them. -/
theorem step_cases {ev : IntakeEvent} (hwf : s.ep.rl.Wf) (hs : s.step cfg m req ev = some s') :
    (∃ h tev q pc ep, ev = .task h tev ∧ req h = some q ∧
      Acts cfg m s q h (s.task h).pc pc ep ∧
      s' = { (s.commit ep).setTask h { s.task h with
          pc := pc
          trace := (s.task h).trace ++ [(s.ep, ep)] } with
        closed := s.closed || TaskEvent.closes tev }) ∨
    (∃ h off p err ep, ev = .foreign h (.hear off p) ∧ s.mayUse m req h (some .up) ∧
      s.ep.hear off p = some (err, ep) ∧ s' = s.commit ep) ∨
    Aside m req s s' := by
  cases ev with
  | task h tev =>
    obtain ⟨q, pc, ep, hreq, ha, heq⟩ := task_of_step hs
    exact .inl ⟨h, tev, q, pc, ep, rfl, hreq, ha, heq⟩
  | own ev =>
    simp only [step] at hs
    split at hs
    next hpermits =>
      obtain ⟨o, ho, rfl⟩ := Option.map_eq_some_iff.mp hs
      refine .inr (.inr ?_)
      split
      next t _ =>
        unfold kick
        split
        next =>
          exact .quiet (setTask_ctx s t) rfl rfl hwf (.inr ⟨ev, hpermits, ho⟩)
        next => exact .quiet (fun _ => ⟨rfl, rfl⟩) rfl rfl hwf (.inr ⟨ev, hpermits, ho⟩)
      next => exact .quiet (fun _ => ⟨rfl, rfl⟩) rfl rfl hwf (.inr ⟨ev, hpermits, ho⟩)
    next => cases hs
  | cancel h =>
    cases hs
    exact .inr (.inr (.quiet (setTask_ctx s h) rfl rfl hwf (.inl rfl)))
  | close =>
    cases hs
    exact .inr (.inr (.quiet (fun _ => ⟨rfl, rfl⟩) rfl rfl hwf (.inl rfl)))
  | foreign h op =>
    simp only [step] at hs
    split at hs
    next hmay =>
      obtain ⟨ep, hp, rfl⟩ := Option.map_eq_some_iff.mp hs
      by_cases hhear : ∃ off p, op = .hear off p
      · obtain ⟨off, p, rfl⟩ := hhear
        obtain ⟨⟨err, ep'⟩, hear, rfl⟩ := Option.map_eq_some_iff.mp hp
        exact .inr (.inl ⟨h, off, p, err, ep', rfl, hmay, hear, rfl⟩)
      · exact .inr (.inr (aside_perform hwf (fun off p heq => hhear ⟨off, p, heq⟩) hp))
    next => cases hs
  | foreignCollect h =>
    simp only [step] at hs
    split at hs
    next =>
      obtain ⟨⟨res, ep⟩, hc, rfl⟩ := Option.map_eq_some_iff.mp hs
      obtain ⟨-, rfl⟩ := Endpoint.collected hc
      refine .inr (.inr (.quiet (fun _ => ⟨rfl, rfl⟩) ?_ rfl hwf (.inl rfl)))
      show s.queued ++ _ = _
      rw [List.drop_length, List.append_nil]
    next => cases hs
  | foreignWrite data =>
    simp only [step] at hs
    split at hs
    next => cases hs
    next hres =>
      have hplain : m.resumable = false := Bool.not_eq_true _ ▸ hres
      split at hs
      next =>
        cases hs
        exact .inr (.inr (.quiet (fun _ => ⟨rfl, rfl⟩) rfl rfl hwf (.inl rfl)))
      next =>
        cases hs
        exact .inr (.inr ⟨fun _ => ⟨rfl, rfl⟩, List.prefix_append _ _, .inr hplain, rfl, hwf,
          .inl rfl⟩)
  | env op =>
    simp only [step] at hs
    split at hs
    next hop =>
      obtain ⟨ep, hp, rfl⟩ := Option.map_eq_some_iff.mp hs
      refine .inr (.inr (aside_perform hwf ?_ hp))
      rintro off p rfl
      cases hop.1
    next => cases hs

end

end Intake

end Pollmux
